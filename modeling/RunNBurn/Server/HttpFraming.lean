import RunNBurn.Server.Http

/-!
# The framing of requests

What a request is depends on the bytes of the connection and not on how they arrive.  A request
that is accepted is framed by its first blank line and its only content length.
-/

namespace RunNBurn
namespace Server
namespace Http

open Library

variable {afterHeaders : Headers -> Except ApiError Unit}

/-!
## The first blank line
-/

def streamHead (stream : List UInt8) : Except ApiError Nat :=
  match headEnd stream with
  | .error error => .error error
  | .ok (some headerEnd) => .ok headerEnd
  | .ok none => .error incompleteHeaders

variable {bytes : List UInt8}

theorem headEnd_of_found {index : Nat} (h : findWord blankLine bytes = some index) :
    headEnd bytes =
      if MAX_HEADER_BYTES < index + 4 then .error headersTooLarge else .ok (some (index + 4)) := by
  unfold headEnd
  rw [h]

theorem headEnd_of_not_found (h : findWord blankLine bytes = none) :
    headEnd bytes =
      if MAX_HEADER_BYTES <= bytes.length then .error headersTooLarge else .ok none := by
  unfold headEnd
  rw [h]

theorem headEnd_append (h : headEnd bytes ≠ .ok none) (more : List UInt8) :
    headEnd (bytes ++ more) = headEnd bytes := by
  cases hfound : findWord blankLine bytes with
  | some index => rw [headEnd_of_found hfound, headEnd_of_found (findWord_append_right hfound more)]
  | none =>
    rw [headEnd_of_not_found hfound] at h ⊢
    have hfull : MAX_HEADER_BYTES <= bytes.length := by
      by_contra hroom
      exact h (if_neg hroom)
    rw [if_pos hfull]
    cases hlater : findWord blankLine (bytes ++ more) with
    | some index =>
      have hbehind := length_lt_of_findWord_append hfound hlater
      have hlength : blankLine.length = 4 := rfl
      rw [headEnd_of_found hlater, if_pos (by omega)]
    | none =>
      rw [headEnd_of_not_found hlater, if_pos]
      rw [List.length_append]
      exact Nat.le_trans hfull (Nat.le_add_right _ _)

variable {headerEnd : Nat}

theorem headEnd_eq_some (h : headEnd bytes = .ok (some headerEnd)) :
    exists index, findWord blankLine bytes = some index ∧
      headerEnd = index + blankLine.length ∧ headerEnd <= MAX_HEADER_BYTES := by
  cases hfound : findWord blankLine bytes with
  | some index =>
    rw [headEnd_of_found hfound] at h
    split at h
    next => cases h
    next hsize =>
      cases h
      exact ⟨index, rfl, rfl, Nat.le_of_not_lt hsize⟩
  | none =>
    rw [headEnd_of_not_found hfound] at h
    split at h
    next => cases h
    next => cases h

theorem headEnd_le (h : headEnd bytes = .ok (some headerEnd)) :
    headerEnd <= bytes.length := by
  rcases headEnd_eq_some h with ⟨index, hfound, hend, -⟩
  rcases isPrefix_of_findWord hfound with ⟨hstarts, hindex⟩
  have hplace := hstarts.length_le
  rw [List.length_drop] at hplace
  omega

/-!
## Reads
-/

/-- The stream is cut into reads that are not empty and fit into the buffer. -/
structure CutInto (stream : List UInt8) (reads : List (List UInt8)) : Prop where
  flatten : reads.flatten = stream
  sizes : forall part, part ∈ reads -> part ≠ [] ∧ part.length <= CHUNK_BYTES

theorem bytesIn_of_le {start stop : Nat} (hstart : start <= stop) (hstop : stop <= bytes.length) :
    bytesIn bytes start stop = .ok ((bytes.drop start).take (stop - start)) :=
  if_pos ⟨hstart, hstop⟩

theorem bytesIn_fill (chunk part : List UInt8) :
    bytesIn (fill chunk part) 0 part.length = .ok part := by
  unfold fill
  rw [bytesIn_of_le (Nat.zero_le _) (by rw [List.length_append]; exact Nat.le_add_right _ _),
    Nat.sub_zero, List.drop_zero, List.take_left]

variable {first out : Type}

theorem reject_bind (error : ApiError) (next : first -> Handled out) :
    (reject error >>= next) = reject error :=
  rfl

structure HeadFound (stream : List UInt8) (headerEnd : Nat) (connection : Connection) : Prop where
  stream_eq : connection.bytes ++ connection.reads.flatten = stream
  sizes : forall part, part ∈ connection.reads -> part ≠ []
  found : headEnd connection.bytes = .ok (some headerEnd)

/-- The outcome of looking for the head, told from the whole stream. -/
def HeadAsStreamed (stream : List UInt8) (call : Handled (Nat × Connection)) : Prop :=
  match streamHead stream with
  | .error error => call = reject error
  | .ok headerEnd =>
    exists connection, call = .ok (headerEnd, connection) ∧ HeadFound stream headerEnd connection

variable {stream : List UInt8}

theorem headAsStreamed_of_error {error : ApiError} (h : streamHead stream = .error error) :
    HeadAsStreamed stream (reject error) := by
  unfold HeadAsStreamed
  rw [h]

variable {reads : List (List UInt8)}

theorem readHead_as_streamed (bytes chunk : List UInt8)
    (hsizes : forall part, part ∈ reads -> part ≠ []) :
    HeadAsStreamed (bytes ++ reads.flatten) (readHead bytes chunk reads) := by
  induction reads generalizing bytes chunk with
  | nil =>
    rw [List.flatten_nil, List.append_nil]
    unfold readHead HeadAsStreamed streamHead
    cases hend : headEnd bytes with
    | error error => rfl
    | ok found =>
      cases found with
      | none => rfl
      | some headerEnd =>
        refine ⟨_, rfl, ?_⟩
        constructor
        · exact List.append_nil bytes
        · exact hsizes
        · exact hend
  | cons part reads ih =>
    unfold readHead
    cases hend : headEnd bytes with
    | error error =>
      apply headAsStreamed_of_error
      unfold streamHead
      rw [headEnd_append (by rw [hend]; exact fun h => by cases h), hend]
    | ok found =>
      cases found with
      | some headerEnd =>
        have hsame := headEnd_append
          (by rw [hend]; exact fun h => by cases h) (part :: reads).flatten
        unfold HeadAsStreamed streamHead
        rw [hsame, hend]
        refine ⟨_, rfl, ?_⟩
        constructor
        · rfl
        · exact hsizes
        · exact hend
      | none =>
        have hpart : part.length ≠ 0 :=
          fun hzero => hsizes part List.mem_cons_self (List.length_eq_zero_iff.mp hzero)
        have hrest := ih (bytes ++ part) (fill chunk part)
          (fun other hother => hsizes other (List.mem_cons_of_mem part hother))
        rw [List.append_assoc, ← List.flatten_cons] at hrest
        dsimp only
        rw [if_neg hpart, bytesIn_fill, ok_bind]
        exact hrest

theorem readBody_as_streamed (targetLen : Nat) (bytes chunk : List UInt8)
    (hsizes : forall part, part ∈ reads -> part ≠ []) :
    if targetLen <= (bytes ++ reads.flatten).length then
      exists received, readBody targetLen bytes chunk reads = .ok received ∧
        received <+: bytes ++ reads.flatten ∧ targetLen <= received.length
    else readBody targetLen bytes chunk reads = reject incompleteBody := by
  induction reads generalizing bytes chunk with
  | nil =>
    rw [List.flatten_nil, List.append_nil]
    unfold readBody
    split
    next henough => exact ⟨bytes, rfl, List.prefix_refl bytes, henough⟩
    next => rfl
  | cons part reads ih =>
    unfold readBody
    by_cases henough : targetLen <= bytes.length
    · rw [if_pos henough, if_pos]
      · exact ⟨bytes, rfl, List.prefix_append _ _, henough⟩
      · rw [List.length_append]
        exact Nat.le_trans henough (Nat.le_add_right _ _)
    · have hpart : part.length ≠ 0 :=
        fun hzero => hsizes part List.mem_cons_self (List.length_eq_zero_iff.mp hzero)
      have hrest := ih (bytes ++ part) (fill chunk part)
        (fun other hother => hsizes other (List.mem_cons_of_mem part hother))
      rw [List.append_assoc, ← List.flatten_cons] at hrest
      dsimp only
      rw [if_neg henough, if_neg hpart, bytesIn_fill, ok_bind]
      exact hrest

def streamRequest (afterHeaders : Headers -> Except ApiError Unit) (stream : List UInt8) :
    Except ApiError HttpRequest := do
  let headerEnd <- streamHead stream
  let head <- parseHead afterHeaders (stream.take (headerEnd - 4))
  if headerEnd + head.bodyLength <= stream.length then
    return requestOf head ((stream.drop headerEnd).take head.bodyLength)
  else .error incompleteBody

theorem answered_bind (call : Except ApiError first) (next : first -> Except ApiError out) :
    answered (call >>= next) = (answered call >>= fun x => answered (next x)) := by
  cases call with
  | error error => rfl
  | ok x => rfl

theorem HeadFound.rest_eq {connection : Connection} (h : HeadFound stream headerEnd connection)
    (head : Head) :
    (do
      let bytes <- readBody (headerEnd + head.bodyLength) connection.bytes connection.chunk
        connection.reads
      let body <- bytesIn bytes headerEnd (headerEnd + head.bodyLength)
      return requestOf head body) =
      if headerEnd + head.bodyLength <= stream.length then
        .ok (requestOf head ((stream.drop headerEnd).take head.bodyLength))
      else reject incompleteBody := by
  have hbody := readBody_as_streamed (headerEnd + head.bodyLength) connection.bytes
    connection.chunk h.sizes
  rw [h.stream_eq] at hbody
  split at hbody
  next henough =>
    rcases hbody with ⟨received, hread, hfront, hreceived⟩
    rcases hfront with ⟨later, hlater⟩
    have hsame : (received.drop headerEnd).take head.bodyLength =
        (stream.drop headerEnd).take head.bodyLength := by
      rw [← hlater, List.drop_append_of_le_length (by omega),
        List.take_append_of_le_length (by rw [List.length_drop]; omega)]
    rw [hread, ok_bind, bytesIn_of_le (Nat.le_add_right _ _) hreceived, ok_bind,
      Nat.add_sub_cancel_left, hsame, if_pos henough]
    rfl
  next hshort =>
    rw [hbody, reject_bind, if_neg hshort]

theorem readRequest_eq (h : CutInto stream reads) :
    readRequest afterHeaders reads = answered (streamRequest afterHeaders stream) := by
  have hsizes : forall part, part ∈ reads -> part ≠ [] := fun part hpart => (h.sizes part hpart).1
  have hhead := readHead_as_streamed [] (List.replicate CHUNK_BYTES 0) hsizes
  rw [List.nil_append, h.flatten] at hhead
  unfold HeadAsStreamed at hhead
  unfold readRequest streamRequest
  rw [answered_bind]
  cases hstream : streamHead stream with
  | error error =>
    rw [hstream] at hhead
    dsimp only at hhead
    rw [hhead]
    rfl
  | ok headerEnd =>
    rw [hstream] at hhead
    rcases hhead with ⟨connection, hread, hfound⟩
    have hinside := headEnd_le hfound.found
    have hroom : headerEnd - 4 <= connection.bytes.length := Nat.le_trans (Nat.sub_le _ _) hinside
    have hfront : (connection.bytes.drop 0).take (headerEnd - 4 - 0) =
        stream.take (headerEnd - 4) := by
      rw [← hfound.stream_eq, List.drop_zero, Nat.sub_zero, List.take_append_of_le_length hroom]
    have hanswered : answered (Except.ok headerEnd : Except ApiError Nat) = .ok headerEnd := rfl
    rw [hread, ok_bind, hanswered, ok_bind, answered_bind]
    dsimp only
    rw [bytesIn_of_le (Nat.zero_le _) hroom, ok_bind, hfront]
    cases hparsed : answered (parseHead afterHeaders (stream.take (headerEnd - 4))) with
    | error halt => rfl
    | ok head =>
      rw [ok_bind, ok_bind, hfound.rest_eq head]
      split
      next => rfl
      next => rfl

theorem answered_ne_panicked {out : Type} (call : Except ApiError out) (message : String) :
    answered call ≠ .error (.panicked message) := by
  intro h
  cases call with
  | ok x => cases h
  | error error => cases h

theorem answered_eq_ok {out : Type} {call : Except ApiError out} {x : out}
    (h : answered call = .ok x) : call = .ok x := by
  cases call with
  | ok y =>
    cases h
    rfl
  | error error => cases h

/-!
## Headers
-/

def lineName (line : Text) : Text :=
  headerName (((splitAtWord [':'] line).map Prod.fst).getD [])

def lineValue (line : Text) : Text :=
  trim (((splitAtWord [':'] line).map Prod.snd).getD [])

theorem addHeader_eq_ok {headers headers' : Headers} {line : Text}
    (h : addHeader headers line = .ok headers') :
    lineName line ≠ [] ∧ (lineName line = CONTENT_LENGTH -> CONTENT_LENGTH ∉ headers) ∧
      headers' = headers.insert (lineName line) (lineValue line) := by
  unfold addHeader at h
  unfold lineName lineValue
  cases hsplit : splitAtWord [':'] line with
  | none =>
    rw [hsplit] at h
    cases h
  | some parts =>
    rw [hsplit] at h
    dsimp only at h
    rw [Option.map_some, Option.map_some, Option.getD_some, Option.getD_some]
    split at h
    next => cases h
    next hname =>
      split at h
      next => cases h
      next hfresh =>
        cases h
        refine ⟨hname, ?_, rfl⟩
        intro hsame hmem
        rw [← hsame] at hmem
        exact hfresh ⟨hsame, hmem⟩

structure Added (headers : Headers) (lines : List Text) (headers' : Headers) : Prop where
  named : forall line, line ∈ lines -> lineName line ≠ []
  mem_iff : forall name, name ∈ headers' ↔ name ∈ headers ∨ name ∈ lines.map lineName
  fresh : CONTENT_LENGTH ∈ headers -> CONTENT_LENGTH ∉ lines.map lineName
  once : (lines.map lineName).count CONTENT_LENGTH <= 1
  value : forall length, headers'.lookup CONTENT_LENGTH = some length ->
    headers.lookup CONTENT_LENGTH = some length ∨
      exists line, line ∈ lines ∧ lineName line = CONTENT_LENGTH ∧ lineValue line = length

theorem added_of_foldlM {headers headers' : Headers} {lines : List Text}
    (h : lines.foldlM addHeader headers = .ok headers') : Added headers lines headers' := by
  induction lines generalizing headers with
  | nil =>
    cases h
    constructor
    · intro line hline
      cases hline
    · intro name
      rw [List.map_nil]
      exact ⟨Or.inl, fun hmem => hmem.elim id (fun hnone => by cases hnone)⟩
    · intro _ hmem
      cases hmem
    · exact Nat.zero_le 1
    · exact fun length hlength => .inl hlength
  | cons line lines ih =>
    rw [List.foldlM_cons] at h
    cases hadd : addHeader headers line with
    | error error =>
      rw [hadd] at h
      cases h
    | ok next =>
      rw [hadd] at h
      have hrest := ih h
      rcases addHeader_eq_ok hadd with ⟨hname, hfresh, hnext⟩
      have hmemNext : forall name, name ∈ next ↔ name = lineName line ∨ name ∈ headers := by
        intro name
        rw [hnext]
        exact AList.mem_insert headers
      constructor
      · intro other hother
        cases hother with
        | head => exact hname
        | tail _ hlater => exact hrest.named other hlater
      · intro name
        rw [hrest.mem_iff, hmemNext, List.map_cons, List.mem_cons]
        constructor
        · intro hmem
          rcases hmem with (hhere | hbefore) | hlater
          · exact .inr (.inl hhere)
          · exact .inl hbefore
          · exact .inr (.inr hlater)
        · intro hmem
          rcases hmem with hbefore | hhere | hlater
          · exact .inl (.inr hbefore)
          · exact .inl (.inl hhere)
          · exact .inr hlater
      · intro hmem hagain
        rw [List.map_cons, List.mem_cons] at hagain
        rcases hagain with hhere | hlater
        · exact hfresh hhere.symm hmem
        · exact hrest.fresh ((hmemNext _).mpr (.inr hmem)) hlater
      · rw [List.map_cons, List.count_cons]
        by_cases hhere : lineName line = CONTENT_LENGTH
        · have hnone := List.count_eq_zero_of_not_mem
            (hrest.fresh ((hmemNext _).mpr (.inl hhere.symm)))
          rw [hnone, if_pos (beq_iff_eq.mpr hhere)]
        · have hother : ¬(lineName line == CONTENT_LENGTH) = true :=
            fun hsame => hhere (beq_iff_eq.mp hsame)
          rw [if_neg hother]
          exact hrest.once
      · intro length hlength
        rcases hrest.value length hlength with hbefore | ⟨other, hother, hvalue⟩
        · rw [hnext] at hbefore
          by_cases hhere : lineName line = CONTENT_LENGTH
          · rw [hhere, AList.lookup_insert] at hbefore
            exact .inr ⟨line, List.mem_cons_self, hhere, Option.some.inj hbefore⟩
          · rw [AList.lookup_insert_ne (Ne.symm hhere)] at hbefore
            exact .inl hbefore
        · exact .inr ⟨other, List.mem_cons_of_mem line hother, hvalue⟩

/-!
## Requests
-/

def GivesLength (lines : List Text) (length : Nat) : Prop :=
  (CONTENT_LENGTH ∉ lines.map lineName ∧ length = 0) ∨
    exists line, line ∈ lines ∧ lineName line = CONTENT_LENGTH ∧
      parseUsize (lineValue line) = some length

/-- A head up to the first blank line, and behind it the body of the length that it gives. -/
structure Framed (stream front behind : List UInt8) (lines : List Text) (request : HttpRequest) :
    Prop where
  stream_eq : stream = front ++ (blankLine ++ behind)
  first : StartsNowhere blankLine front (blankLine ++ behind)
  head_le : front.length + blankLine.length <= MAX_HEADER_BYTES
  lines_eq : exists text, headText front = .ok text ∧ lines = (headLines text).tail
  named : forall line, line ∈ lines -> lineName line ≠ []
  length_once : (lines.map lineName).count CONTENT_LENGTH <= 1
  no_encoding : TRANSFER_ENCODING ∉ lines.map lineName
  body : exists length, GivesLength lines length ∧ length <= MAX_BODY_BYTES ∧
    length <= behind.length ∧ request.body = behind.take length

theorem contentLength_eq_ok {headers : Headers} {length : Nat}
    (h : contentLength headers = .ok length) :
    TRANSFER_ENCODING ∉ headers ∧ length <= MAX_BODY_BYTES ∧
      ((CONTENT_LENGTH ∉ headers ∧ length = 0) ∨
        exists value, headers.lookup CONTENT_LENGTH = some value ∧
          parseUsize value = some length) := by
  unfold contentLength at h
  split at h
  next => cases h
  next hencoding =>
    refine ⟨hencoding, ?_⟩
    cases hlookup : headers.lookup CONTENT_LENGTH with
    | none =>
      rw [hlookup] at h
      cases h
      exact ⟨Nat.zero_le _, .inl ⟨AList.lookup_eq_none.mp hlookup, rfl⟩⟩
    | some value =>
      rw [hlookup] at h
      dsimp only at h
      cases hparsed : parseUsize value with
      | none =>
        rw [hparsed] at h
        cases h
      | some parsed =>
        rw [hparsed] at h
        dsimp only at h
        split at h
        next => cases h
        next hsize =>
          cases h
          exact ⟨Nat.le_of_not_lt hsize, .inr ⟨value, rfl, hparsed⟩⟩

theorem parseHead_eq_ok {front : List UInt8} {head : Head}
    (h : parseHead afterHeaders front = .ok head) :
    exists text, headText front = .ok text ∧
      (forall line, line ∈ (headLines text).tail -> lineName line ≠ []) ∧
      ((headLines text).tail.map lineName).count CONTENT_LENGTH <= 1 ∧
      TRANSFER_ENCODING ∉ (headLines text).tail.map lineName ∧
      GivesLength (headLines text).tail head.bodyLength ∧ head.bodyLength <= MAX_BODY_BYTES := by
  unfold parseHead at h
  rcases bind_eq_ok h with ⟨text, htext, hlined⟩
  rcases bind_eq_ok hlined with ⟨line, -, hheaded⟩
  rcases bind_eq_ok hheaded with ⟨headers, hheaders, hchecked⟩
  rcases bind_eq_ok hchecked with ⟨_, -, hmeasured⟩
  rcases bind_eq_ok hmeasured with ⟨length, hlength, hhead⟩
  have hadded := added_of_foldlM hheaders
  rcases contentLength_eq_ok hlength with ⟨hencoding, hsize, hgiven⟩
  have hmem : forall name, name ∈ headers ↔ name ∈ (headLines text).tail.map lineName := by
    intro name
    rw [hadded.mem_iff]
    exact ⟨fun h => h.elim (fun hnone => absurd hnone (AList.notMem_empty name)) id, Or.inr⟩
  cases hhead
  refine ⟨text, htext, hadded.named, hadded.once, fun hmem' => hencoding ((hmem _).mpr hmem'), ?_,
    hsize⟩
  rcases hgiven with ⟨hnone, hzero⟩ | ⟨value, hvalue, hparsed⟩
  · exact .inl ⟨fun hmem' => hnone ((hmem _).mpr hmem'), hzero⟩
  · rcases hadded.value value hvalue with hempty | ⟨line, hline, hname, hsame⟩
    · cases hempty
    · exact .inr ⟨line, hline, hname, by rw [hsame]; exact hparsed⟩

theorem streamHead_eq_ok (h : streamHead stream = .ok headerEnd) :
    exists front behind, stream = front ++ (blankLine ++ behind) ∧
      StartsNowhere blankLine front (blankLine ++ behind) ∧
      headerEnd = front.length + blankLine.length ∧ headerEnd <= MAX_HEADER_BYTES := by
  have hend : headEnd stream = .ok (some headerEnd) := by
    unfold streamHead at h
    split at h
    next => cases h
    next hsome =>
      cases h
      exact hsome
    next => cases h
  rcases headEnd_eq_some hend with ⟨index, hfound, hheaderEnd, hsize⟩
  have hsplit : splitAtWord blankLine stream =
      some (stream.take index, stream.drop (index + blankLine.length)) := by
    unfold splitAtWord
    rw [hfound, Option.map_some]
  rcases splitAtWord_eq_some hsplit with ⟨hstream, hfirst⟩
  refine ⟨_, _, hstream, hfirst, ?_, hsize⟩
  rw [List.length_take_of_le (isPrefix_of_findWord hfound).2]
  exact hheaderEnd

theorem framed_of_streamRequest {request : HttpRequest}
    (h : streamRequest afterHeaders stream = .ok request) :
    exists front behind lines, Framed stream front behind lines request := by
  unfold streamRequest at h
  rcases bind_eq_ok h with ⟨headerEnd, hend, hparsed⟩
  rcases bind_eq_ok hparsed with ⟨head, hhead, hbody⟩
  rcases streamHead_eq_ok hend with ⟨front, behind, hstream, hfirst, hheaderEnd, hsize⟩
  have hfour : blankLine.length = 4 := rfl
  have hfront : stream.take (headerEnd - 4) = front := by
    rw [hheaderEnd, hfour, Nat.add_sub_cancel, hstream, List.take_left]
  have hbehind : stream.drop headerEnd = behind := by
    rw [hheaderEnd, hstream, ← List.append_assoc, ← List.length_append, List.drop_left]
  rw [hfront] at hhead
  rcases parseHead_eq_ok hhead with ⟨text, htext, hnamed, honce, hencoding, hgiven, hlimit⟩
  split at hbody
  next henough =>
    cases hbody
    refine ⟨front, behind, (headLines text).tail, ?_⟩
    constructor
    · exact hstream
    · exact hfirst
    · rw [← hheaderEnd]
      exact hsize
    · exact ⟨text, htext, rfl⟩
    · exact hnamed
    · exact honce
    · exact hencoding
    · refine ⟨head.bodyLength, hgiven, hlimit, ?_, ?_⟩
      · rw [← hbehind, List.length_drop]
        omega
      · rw [hbehind]
        rfl
  next => cases hbody

theorem requests_framed_by_bytes (stream : List UInt8) (reads : List (List UInt8))
    (h : CutInto stream reads) :
    (forall other, CutInto stream other ->
      readRequest afterHeaders reads = readRequest afterHeaders other) ∧
      (forall request, readRequest afterHeaders reads = .ok request ->
        exists front behind lines, Framed stream front behind lines request) ∧
      forall message, readRequest afterHeaders reads ≠ .error (.panicked message) := by
  rw [readRequest_eq h]
  refine ⟨?_, ?_, answered_ne_panicked _⟩
  · intro other hother
    rw [readRequest_eq hother]
  · intro request hrequest
    exact framed_of_streamRequest (answered_eq_ok hrequest)

def asciiBytes (text : String) : List UInt8 :=
  text.toList.map fun c => UInt8.ofNat c.toNat

def splitReads : List (List UInt8) :=
  [asciiBytes "POST /v1/responses HTTP/1.1\r\nContent-Length: 2\r\n\r", asciiBytes "\n\x7b",
    asciiBytes "\x7d"]

theorem requests_framed_by_bytes_split :
    (forall other, CutInto splitReads.flatten other ->
      readRequest (fun _ => .ok ()) splitReads = readRequest (fun _ => .ok ()) other) ∧
      (forall request, readRequest (fun _ => .ok ()) splitReads = .ok request ->
        exists front behind lines, Framed splitReads.flatten front behind lines request) ∧
      forall message, readRequest (fun _ => .ok ()) splitReads ≠ .error (.panicked message) :=
  requests_framed_by_bytes splitReads.flatten splitReads {
    flatten := rfl
    sizes := by decide }

end Http
end Server
end RunNBurn
