import RunNBurn.Library.Loop
import RunNBurn.Library.Utf8Prefix
import RunNBurn.Tokenization.Tokens

/-!
# Decoding a stream

The bytes of each token are read as they come.  What breaks off at the end waits for
more bytes, so that the text is the one of all bytes read at once.
-/

namespace RunNBurn
namespace Tokenization

open Library

structure TokenStreamDecoder where
  pending : List UInt8
deriving DecidableEq, Repr

abbrev Streamed : Type := Text × TokenStreamDecoder

namespace TokenStreamDecoder

def new : TokenStreamDecoder where
  pending := []

/-- `drain(..count)` -/
def drain (decoder : TokenStreamDecoder) (count : Nat) : Checked TokenStreamDecoder := do
  let pending <- splitOff decoder.pending count
  return { pending := pending }

/-- Move the bytes in front of an error to the text. -/
def takeValid (validLen : Nat) (s : Streamed) : Checked Streamed :=
  if validLen ≠ 0 then do
    let valid <- slice s.2.pending 0 validLen
    match fromUtf8 valid with
    | .error _ => abort "UTF-8 error valid prefix must be valid"
    | .ok text => do
        let decoder <- s.2.drain validLen
        return (s.1 ++ text, decoder)
  else .ok s

def takeStep (finish : Bool) (s : Streamed) : Checked (Step Streamed) :=
  match fromUtf8 s.2.pending with
  | .ok text => .ok (.done (s.1 ++ text, new))
  | .error error => do
      let s <- takeValid error.validUpTo s
      match error.errorLen with
      | some length => do
          let decoder <- s.2.drain length
          return .next (s.1 ++ [replacement], decoder)
      | none => if finish then return .done (s.1 ++ [replacement], new) else return .done s

def takeValidText (decoder : TokenStreamDecoder) (finish : Bool) : Checked Streamed :=
  loop (takeStep finish) (decoder.pending.length + 1) ([], decoder)

variable {score : Type}

def push (decoder : TokenStreamDecoder) (tok : Tokenizer score) (id : TokenId) :
    Checked Streamed :=
  takeValidText { pending := decoder.pending ++ tok.decodedTokenBytes id } false

def finish (decoder : TokenStreamDecoder) : Checked Streamed :=
  takeValidText decoder true

def pushAll (tok : Tokenizer score) : List TokenId -> TokenStreamDecoder -> Checked Streamed
  | [], decoder => .ok ([], decoder)
  | id :: ids, decoder => do
      let (text, decoder) <- decoder.push tok id
      let (rest, decoder) <- pushAll tok ids decoder
      return (text ++ rest, decoder)

/-- A whole stream: every token is pushed, then the stream is finished. -/
def decodeStream (tok : Tokenizer score) (tokens : List TokenId) : Checked Text := do
  let (text, decoder) <- pushAll tok tokens new
  let (rest, _) <- decoder.finish
  return text ++ rest

/-!
# What is taken and what waits
-/

/-- The text and the waiting bytes read as the bytes did, whatever follows them. -/
def Continues (finish : Bool) (bytes : List UInt8) (s : Streamed) : Prop :=
  forall more, (finish = true -> more = []) ->
    lossy (bytes ++ more) = s.1 ++ lossy (s.2.pending ++ more)

theorem takeValid_eq {s : Streamed} {valid behind : List UInt8} {text : Text}
    (hpending : s.2.pending = valid ++ behind) (htext : fromUtf8 valid = .ok text) :
    takeValid valid.length s = .ok (s.1 ++ text, { pending := behind }) := by
  unfold takeValid
  by_cases hempty : valid.length = 0
  · rw [if_neg (Classical.not_not.mpr hempty)]
    cases List.length_eq_zero_iff.mp hempty
    cases htext
    rw [List.append_nil]
    have hdecoder : s.2 = { pending := behind } :=
      congrArg (fun pending => TokenStreamDecoder.mk pending) hpending
    rw [← hdecoder]
  · rw [if_pos hempty, hpending]
    rw [slice_zero_of_le (by rw [List.length_append]; exact Nat.le_add_right _ _), ok_bind,
      List.take_left, htext]
    dsimp only
    unfold drain
    rw [hpending, splitOff_of_le (by rw [List.length_append]; exact Nat.le_add_right _ _),
      ok_bind, List.drop_left]
    rfl

variable {allowed : Fault -> Prop}

theorem takeStep_triple (last : Bool) (bytes : List UInt8) (s : Streamed)
    (h : Continues last bytes s) :
    Triple allowed (takeStep last s)
      (Step.Satisfies (fun following => Continues last bytes following ∧
          following.2.pending.length < s.2.pending.length)
        (fun taken => Continues last bytes taken ∧
          (last = true -> taken.2.pending = []))) := by
  unfold takeStep
  cases hread : fromUtf8 s.2.pending with
  | ok text =>
    apply triple_ok
    constructor
    · intro more hmore
      rw [h more hmore, lossy_of_fromUtf8 hread, List.append_assoc]
      rfl
    · intro _
      rfl
  | error error =>
    rcases split_of_fromUtf8_error hread with
      ⟨valid, text, first, rest, hpending, hlength, htext, hbroken⟩
    have hgiven : forall more, (last = true -> more = []) ->
        lossy (bytes ++ more) =
          (s.1 ++ text) ++ (firstChar first (rest ++ more)).1 ::
            lossy ((rest ++ more).drop (firstChar first (rest ++ more)).2) := by
      intro more hmore
      rw [h more hmore, hpending, List.append_assoc, lossy_of_fromUtf8 htext,
        List.cons_append, lossy_cons, List.append_assoc]
    dsimp only
    rw [← hlength, takeValid_eq hpending htext, ok_bind]
    unfold Broken at hbroken
    cases herror : error.errorLen with
    | some length =>
      rw [herror] at hbroken
      rcases hbroken with ⟨count, hcount, hfits, hreads⟩
      have hdrain : length <= (first :: rest).length := by
        rw [hcount]
        exact Nat.succ_le_succ hfits
      dsimp only
      unfold drain
      rw [splitOff_of_le hdrain, ok_bind, hcount, List.drop_succ_cons]
      apply triple_pure
      constructor
      · intro more hmore
        rw [hgiven more hmore, hreads, List.drop_append_of_le_length hfits, List.append_cons]
      · rw [hpending, List.length_append, List.length_cons]
        show (rest.drop count).length < _
        rw [List.length_drop]
        omega
    | none =>
      rw [herror] at hbroken
      dsimp only
      by_cases hlast : last = true
      · rw [if_pos hlast]
        apply triple_pure
        constructor
        · intro more hmore
          cases hmore hlast
          rw [hgiven [] hmore, List.append_nil, hbroken, List.drop_length, List.append_cons]
          rfl
        · intro _
          rfl
      · rw [if_neg hlast]
        apply triple_pure
        constructor
        · intro more hmore
          rw [hgiven more hmore, List.cons_append, lossy_cons]
        · intro hfinish
          exact absurd hfinish hlast

theorem takeValidText_delivers (decoder : TokenStreamDecoder) (last : Bool) :
    Delivers (decoder.takeValidText last)
      (fun taken => Continues last decoder.pending taken ∧
        (last = true -> taken.2.pending = [])) := by
  apply Triple.delivers
  apply loop_triple (Continues last decoder.pending) _ (fun s => s.2.pending.length)
    (takeStep_triple last decoder.pending)
  · intro more _
    rfl
  · exact Nat.lt_succ_self _

/-- However the bytes are split over tokens, the texts of the pushes are those of all
bytes, up to what still waits. -/
theorem pushAll_delivers (tok : Tokenizer score) (tokens : List TokenId)
    (decoder : TokenStreamDecoder) :
    Delivers (pushAll tok tokens decoder)
      (Continues false (decoder.pending ++ tok.decodedBytes tokens)) := by
  induction tokens generalizing decoder with
  | nil =>
    apply delivers_ok
    intro more _
    have hnone : tok.decodedBytes [] = [] := rfl
    rw [hnone, List.append_nil]
    rfl
  | cons id ids ih =>
    have hpush : Delivers (decoder.push tok id)
        (Continues false (decoder.pending ++ tok.decodedTokenBytes id)) :=
      (takeValidText_delivers _ false).mono fun _ htaken => htaken.1
    unfold pushAll
    apply hpush.bind
    intro taken htaken
    apply (ih taken.2).bind
    intro following hfollowing
    apply delivers_ok
    intro more hmore
    have hbytes : tok.decodedBytes (id :: ids) =
        tok.decodedTokenBytes id ++ tok.decodedBytes ids :=
      List.flatMap_cons
    rw [hbytes, ← List.append_assoc, List.append_assoc _ _ more,
      htaken (tok.decodedBytes ids ++ more) (fun h => absurd h (by decide)),
      ← List.append_assoc taken.2.pending, hfollowing more hmore, List.append_assoc]

theorem decodeStream_eq (tok : Tokenizer score) (tokens : List TokenId) :
    decodeStream tok tokens = .ok (tok.decode tokens) := by
  rcases pushAll_delivers tok tokens new with ⟨pushed, hpushed, hcontinues⟩
  rcases takeValidText_delivers pushed.2 true with ⟨last, hlast, hrest, hdone⟩
  have hbytes : lossy (tok.decodedBytes tokens) = pushed.1 ++ lossy pushed.2.pending := by
    have h := hcontinues [] (fun _ => rfl)
    rw [List.append_nil, List.append_nil] at h
    exact h
  have hwaiting : lossy pushed.2.pending = last.1 := by
    have h := hrest [] (fun _ => rfl)
    rw [List.append_nil, List.append_nil, hdone rfl] at h
    rw [h]
    exact List.append_nil last.1
  unfold decodeStream Tokenizer.decode
  rw [hpushed, ok_bind]
  dsimp only
  unfold finish
  rw [hlast, ok_bind, hbytes, hwaiting]
  rfl

end TokenStreamDecoder

end Tokenization
end RunNBurn
