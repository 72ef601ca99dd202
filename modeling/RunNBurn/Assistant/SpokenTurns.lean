import RunNBurn.Assistant.MuseTurns
import RunNBurn.Assistant.VisibleText

/-!
# What the turns of any text say

The stream hands on what stands behind the first turn for the user; the parser collects
the bodies of all of them.  For every text that begins like a turn this module says what
the two make of it, without tools.
-/

namespace RunNBurn
namespace Assistant

open Library

inductive Speech where
  | silent
  | answer (body : Text)
  /-- A turn is for a tool, or has no header. -/
  | refused
  /-- A turn names nobody, or tells the user something that is not handed on. -/
  | readApart
deriving DecidableEq, Repr

def Speech.said : Speech -> Option Text
  | silent => some []
  | answer body => some body
  | refused => none
  | readApart => none

/-- What a user's turn has behind the marker of the turn before, when it is handed on. -/
def toUser : Text := " to=user<|message|>".toList

def namesEvery : Nat -> Text -> Bool
  | 0, _ => true
  | rounds + 1, remaining =>
    match splitAtWord museMessage remaining with
    | none => true
    | some (header, body) =>
      decide (trim (header.drop 3) ≠ []) &&
        match splitAtWord museNextAssistant body with
        | none => true
        | some (_, next) => namesEvery rounds (trimStart next)

/-- What the turn with this text behind its header tells the one it is for. -/
def toldIn (body : Text) : Text :=
  match splitAtWord museNextAssistant body with
  | none => turnBody body
  | some (front, _) => turnBody front

/-- The turns from `remaining` on up to the first one that is handed on to the user. -/
def speech : Nat -> Bool -> Text -> Speech
  | 0, _, _ => .silent
  | rounds + 1, handed, remaining =>
    match splitAtWord museMessage remaining with
    | none => .silent
    | some (header, body) =>
      let recipient := trim (header.drop 3)
      if recipient = "user".toList ∧ handed then
        if namesEvery (rounds + 1) remaining then .answer body else .readApart
      else if recipient = "self".toList ∨ recipient = "user".toList ∧ toldIn body = [] then
        match splitAtWord museNextAssistant body with
        | none => .silent
        | some (_, next) =>
          if "to=".toList <+: trimStart next then
            speech rounds (decide (toUser <+: next)) (trimStart next)
          else
            .refused
      else if recipient = [] ∨ recipient = "user".toList then .readApart
      else .refused

def BeginsTurn (text : Text) : Prop :=
  "to=".toList <+: trimStart text ∧ trimStart text ≠ "to=".toList

instance (text : Text) : Decidable (BeginsTurn text) :=
  inferInstanceAs (Decidable (_ ∧ _))

def textSpeech (text : Text) : Speech :=
  speech ((trimStart text).length + 1) true (trimStart text)

/-!
# The stream
-/

theorem nextUser_eq : museNextUser = museNextAssistant ++ toUser := by
  decide

theorem message_ends_nextUser : museMessage <:+: museNextUser := by
  refine ⟨"<|eom|><|start|>assistant to=user".toList, [], ?_⟩
  decide

theorem header_no_bracket {header : Text} (hto : "to=".toList <+: header)
    (h : '<' ∉ trim (header.drop 3)) :
    '<' ∉ header := by
  rcases hto with ⟨named, hnamed⟩
  intro hmem
  rw [← hnamed] at hmem h
  cases List.mem_append.mp hmem with
  | inl hstart =>
    revert hstart
    decide
  | inr hrest => exact h (mem_trim (by decide) hrest)

section Stream

variable {remaining header body next : Text}

theorem to_starts_header (hto : "to=".toList <+: remaining)
    (hmessage : splitAtWord museMessage remaining = some (header, body)) :
    "to=".toList <+: header := by
  have hsplit := (splitAtWord_eq_some hmessage).1
  rw [hsplit] at hto
  cases List.prefix_or_prefix_of_prefix hto (List.prefix_append header _) with
  | inl hstarts => exact hstarts
  | inr hshort =>
    rcases hshort with ⟨tail, htail⟩
    cases tail with
    | nil => rw [← htail, List.append_nil]
    | cons c tail =>
      rw [← htail, List.prefix_append_right_inj] at hto
      have hc : c = '<' := (List.cons_prefix_cons.mp hto).1
      have hmem : '<' ∈ "to=".toList := by
        rw [← htail, ← hc]
        exact List.mem_append_right _ List.mem_cons_self
      exact absurd hmem (by decide)

theorem behindWord_header {lead : Text} (hlead : forall c, c ∈ lead -> isWhitespace c = true)
    (hto : "to=".toList <+: remaining)
    (hmessage : splitAtWord museMessage remaining = some (header, body))
    (hrecipient : '<' ∉ trim (header.drop 3)) :
    behindWord museNextUser (lead ++ remaining) = behindWord museNextUser body := by
  rw [(splitAtWord_eq_some hmessage).1, ← List.append_assoc, ← List.append_assoc]
  apply behindWord_append
  apply startsNowhere_append
  · apply startsNowhere_append
    · exact startsNowhere_of_head (blank_no_bracket hlead)
    · exact startsNowhere_of_head (header_no_bracket (to_starts_header hto hmessage) hrecipient)
  · exact (startsNowhere_of_tellsApart (by decide)).of_start endMessage_starts

theorem behindWord_next (next : Text) :
    behindWord museNextUser (museNextAssistant ++ next) =
      if toUser <+: next then next.drop toUser.length else behindWord museNextUser next := by
  split
  · rename_i huser
    rcases huser with ⟨rest, hrest⟩
    rw [← hrest, ← List.append_assoc, ← nextUser_eq, behindWord_here, List.drop_left]
  · rename_i huser
    apply behindWord_append
    have hhead : museNextAssistant = '<' :: museNextAssistant.tail := by
      decide
    rw [hhead]
    apply startsNowhere_cons
    · intro hstarts
      apply huser
      rw [← hhead, nextUser_eq, List.prefix_append_right_inj] at hstarts
      exact hstarts
    · exact (startsNowhere_of_tellsApart (by decide)).of_start endMessage_starts

theorem splitAtWord_toUser (rest : Text) :
    splitAtWord museMessage (trimStart (toUser ++ rest)) = some ("to=user".toList, rest) := by
  have htrim : trimStart (toUser ++ rest) = "to=user".toList ++ (museMessage ++ rest) := by
    have hparts : toUser = [' '] ++ ("to=user".toList ++ museMessage) := by
      decide
    have hblank : forall c, c ∈ [' '] -> isWhitespace c = true := by
      intro c hc
      rw [List.mem_singleton] at hc
      rw [hc]
      rfl
    rw [hparts, List.append_assoc, trimStart_lead hblank, List.append_assoc]
    exact trimStart_cons (by decide) _
  rw [htrim]
  exact splitAtWord_of_startsNowhere (startsNowhere_of_head (by decide))

theorem behindWord_of_no_next (h : splitAtWord museNextAssistant body = none) :
    behindWord museNextUser body = [] := by
  apply behindWord_of_not_infix
  intro hinside
  apply splitAtWord_eq_none.mp h
  have hstarts : museNextAssistant <+: museNextUser := by
    rw [nextUser_eq]
    exact List.prefix_append _ _
  exact hstarts.isInfix.trans hinside

theorem behindWord_of_next {front : Text}
    (h : splitAtWord museNextAssistant body = some (front, next)) :
    behindWord museNextUser body = behindWord museNextUser (museNextAssistant ++ next) := by
  rcases splitAtWord_eq_some h with ⟨hsplit, hnowhere⟩
  rw [hsplit]
  apply behindWord_append
  apply hnowhere.of_start
  rw [nextUser_eq]
  exact List.prefix_append _ _

theorem behindWord_of_no_message (h : splitAtWord museMessage (trimStart next) = none) :
    behindWord museNextUser next = [] := by
  apply behindWord_of_not_infix
  intro hinside
  rcases trimStart_split next with ⟨lead, hlead, hsplit⟩
  have hnone : splitAtWord museMessage next = none := by
    have hnowhere : StartsNowhere museMessage lead (trimStart next) :=
      startsNowhere_of_head (blank_no_bracket hlead)
    rw [hsplit, splitAtWord_append hnowhere, h]
    rfl
  exact splitAtWord_eq_none.mp hnone (message_ends_nextUser.trans hinside)

variable {text : Text}

theorem behindWord_of_said_behind {rounds : Nat} (h : Speech.said
      (match splitAtWord museNextAssistant body with
      | none => .silent
      | some (_, next) =>
        if "to=".toList <+: trimStart next then
          speech rounds (decide (toUser <+: next)) (trimStart next)
        else
          .refused) = some text)
    (hnext : forall front next, splitAtWord museNextAssistant body = some (front, next) ->
      "to=".toList <+: trimStart next ->
      (speech rounds (decide (toUser <+: next)) (trimStart next)).said = some text ->
      behindWord museNextUser (museNextAssistant ++ next) = text) :
    behindWord museNextUser body = text := by
  cases hsplit : splitAtWord museNextAssistant body with
  | none =>
    rw [hsplit] at h
    rw [behindWord_of_no_next hsplit]
    exact Option.some.inj h
  | some parts =>
    rcases parts with ⟨front, next⟩
    rw [hsplit] at h
    dsimp only at h
    rw [behindWord_of_next hsplit]
    split at h
    · rename_i hto
      exact hnext front next hsplit hto h
    · cases h

theorem no_bracket_of_quiet {recipient : Text} {told : Prop}
    (h : recipient = "self".toList ∨ recipient = "user".toList ∧ told) : '<' ∉ recipient := by
  rcases h with hself | huser
  · rw [hself]
    decide
  · rw [huser.1]
    decide

theorem behindWord_of_said {rounds : Nat} (hrounds : next.length < rounds)
    (hto : "to=".toList <+: trimStart next)
    (h : (speech rounds (decide (toUser <+: next)) (trimStart next)).said = some text) :
    behindWord museNextUser (museNextAssistant ++ next) = text := by
  induction rounds generalizing next with
  | zero => exact absurd hrounds (Nat.not_lt_zero _)
  | succ rounds ih =>
    rw [behindWord_next]
    by_cases huser : toUser <+: next
    · rw [if_pos huser]
      rcases huser with ⟨rest, hrest⟩
      rw [← hrest] at h ⊢
      unfold speech at h
      rw [splitAtWord_toUser, decide_eq_true (List.prefix_append toUser rest)] at h
      dsimp only at h
      rw [if_pos (by decide)] at h
      rw [List.drop_left]
      split at h
      · exact Option.some.inj h
      · cases h
    · rw [if_neg huser]
      unfold speech at h
      cases hmessage : splitAtWord museMessage (trimStart next) with
      | none =>
        rw [hmessage] at h
        rw [behindWord_of_no_message hmessage]
        exact Option.some.inj h
      | some parts =>
        rcases parts with ⟨header, body⟩
        rw [hmessage] at h
        dsimp only at h
        rw [if_neg (fun hboth => huser (of_decide_eq_true hboth.2))] at h
        split at h
        · rename_i hquiet
          rcases trimStart_split next with ⟨lead, hlead, hsplit⟩
          have hheader := behindWord_header hlead hto hmessage (no_bracket_of_quiet hquiet)
          rw [← hsplit] at hheader
          rw [hheader]
          apply behindWord_of_said_behind h
          intro front later hnext hlater hsaid
          have hbody := length_of_splitAtWord hnext
          have hwhole := length_of_splitAtWord hmessage
          have htrim := length_trimStart_le next
          have hmarker : museMessage.length = 11 := rfl
          exact ih (by omega) hlater hsaid
        · split at h <;> cases h

theorem not_starts_to (h : BeginsTurn text) :
    ¬ trimStart text <+: "to=".toList := by
  intro hshort
  exact h.2 (hshort.eq_of_length (Nat.le_antisymm hshort.length_le h.1.length_le))

theorem streamed_of_said {pieces : List Text} (hbegins : BeginsTurn pieces.flatten)
    (h : (textSpeech pieces.flatten).said = some text) :
    AssistantTurnStreamFilter.streamed true pieces = text := by
  have hshort := not_starts_to hbegins
  unfold textSpeech speech at h
  cases hmessage : splitAtWord museMessage (trimStart pieces.flatten) with
  | none =>
    rw [hmessage] at h
    have hdetect := AssistantTurnStreamFilter.detect_eq pieces.flatten
    rw [if_neg hshort, if_pos hbegins.1, hmessage] at hdetect
    rw [AssistantTurnStreamFilter.streamed_eq]
    show (AssistantTurnStreamFilter.detect pieces.flatten).2 ++
      (AssistantTurnStreamFilter.detect pieces.flatten).1.finish.2 = text
    rw [hdetect]
    have hfinish :
        (AssistantTurnStreamFilter.mk true .detecting pieces.flatten).finish.2 = [] :=
      if_pos hbegins
    rw [hfinish]
    exact Option.some.inj h
  | some parts =>
    rcases parts with ⟨header, body⟩
    rw [hmessage] at h
    dsimp only at h
    rw [AssistantTurnStreamFilter.streamed_of_header hshort hbegins.1 hmessage]
    split at h
    · rename_i huser
      rw [if_pos huser.1]
      split at h
      · exact Option.some.inj h
      · cases h
    · rename_i huser
      rw [if_neg fun hsame => huser ⟨hsame, rfl⟩]
      split at h
      · rename_i hquiet
        rcases trimStart_split pieces.flatten with ⟨lead, hlead, hsplit⟩
        have hheader := behindWord_header hlead hbegins.1 hmessage (no_bracket_of_quiet hquiet)
        rw [← hsplit] at hheader
        rw [hheader]
        apply behindWord_of_said_behind h
        intro front later hnext hlater hsaid
        have hbody := length_of_splitAtWord hnext
        have hwhole := length_of_splitAtWord hmessage
        have hmarker : museMessage.length = 11 := rfl
        exact behindWord_of_said (by omega) hlater hsaid
      · split at h <;> cases h

end Stream

/-!
# The parser
-/

section Parser

variable {serde : SerdeJson} {output absorbed out : MuseOutput} {recipient body remaining : Text}

theorem length_turnBody_le (body : Text) : (turnBody body).length <= body.length := by
  unfold turnBody
  cases hturn : stripSuffix museEndTurn body with
  | some stripped =>
    rw [stripSuffix_eq_some hturn, List.length_append]
    exact Nat.le_add_right _ _
  | none =>
    cases hmessage : stripSuffix museEndMessage body with
    | some stripped =>
      rw [stripSuffix_eq_some hmessage, List.length_append]
      exact Nat.le_add_right _ _
    | none => exact Nat.le_refl _

theorem absorbTurn_self (serde : SerdeJson) (allowedTools : List Text) (output : MuseOutput)
    (body : Text) :
    exists absorbed, absorbTurn serde allowedTools output "self".toList body = .ok absorbed ∧
      absorbed.content = output.content ∧ absorbed.toolCalls = output.toolCalls := by
  unfold absorbTurn
  rw [if_pos rfl]
  split
  · exact ⟨output, rfl, rfl, rfl⟩
  · exact ⟨_, rfl, rfl, rfl⟩

theorem absorbTurn_user (serde : SerdeJson) (allowedTools : List Text) (output : MuseOutput)
    (body : Text) :
    absorbTurn serde allowedTools output "user".toList body =
      .ok { output with content := output.content ++ body } := by
  unfold absorbTurn
  rw [if_neg (by decide), if_pos rfl]

theorem absorbTurn_other (serde : SerdeJson) (output : MuseOutput) (body : Text)
    (hself : recipient ≠ "self".toList) (huser : recipient ≠ "user".toList) :
    exists complaint, absorbTurn serde [] output recipient body = .error complaint := by
  unfold absorbTurn
  rw [if_neg hself, if_neg huser, if_pos List.not_mem_nil]
  exact ⟨_, rfl⟩

theorem absorbTurn_grows (h : absorbTurn serde [] output recipient body = .ok absorbed) :
    absorbed.content.length <= output.content.length + body.length ∧
      absorbed.toolCalls = output.toolCalls := by
  by_cases hself : recipient = "self".toList
  · rw [hself] at h
    rcases absorbTurn_self serde [] output body with ⟨same, hsame, hcontent, hcalls⟩
    rw [hsame] at h
    cases h
    rw [hcontent]
    exact ⟨Nat.le_add_right _ _, hcalls⟩
  · by_cases huser : recipient = "user".toList
    · rw [huser, absorbTurn_user] at h
      cases h
      exact ⟨Nat.le_of_eq List.length_append, rfl⟩
    · rcases absorbTurn_other serde output body hself huser with ⟨complaint, hcomplaint⟩
      rw [hcomplaint] at h
      cases h

/-- What the parser does with one turn, where it does not fail. -/
inductive TurnRead (serde : SerdeJson) (rounds : Nat) (output : MuseOutput) (remaining : Text)
    (read : Option MuseOutput) : Prop where
  | silent :
      splitAtWord museMessage remaining = none ->
      read = some output ->
      TurnRead serde rounds output remaining read
  | nobody {header body : Text} :
      splitAtWord museMessage remaining = some (header, body) ->
      trim (header.drop 3) = [] ->
      read = none ->
      TurnRead serde rounds output remaining read
  | last {header body : Text} {absorbed : MuseOutput} :
      splitAtWord museMessage remaining = some (header, body) ->
      absorbTurn serde [] output (trim (header.drop 3)) (turnBody body) = .ok absorbed ->
      read = some absorbed ->
      TurnRead serde rounds output remaining read
  | behind {header body front next : Text} {absorbed : MuseOutput} :
      splitAtWord museMessage remaining = some (header, body) ->
      splitAtWord museNextAssistant body = some (front, next) ->
      absorbTurn serde [] output (trim (header.drop 3)) (turnBody front) = .ok absorbed ->
      museTurns serde [] rounds absorbed (trimStart next) = .ok read ->
      TurnRead serde rounds output remaining read

theorem turnRead_of_museTurns {rounds : Nat} {read : Option MuseOutput}
    (h : museTurns serde [] (rounds + 1) output remaining = .ok read) :
    TurnRead serde rounds output remaining read := by
  unfold museTurns at h
  cases hmessage : splitAtWord museMessage remaining with
  | none =>
    rw [hmessage] at h
    cases h
    exact .silent hmessage rfl
  | some parts =>
    rcases parts with ⟨header, body⟩
    rw [hmessage] at h
    dsimp only at h
    split at h
    · rename_i hnobody
      cases h
      exact .nobody hmessage hnobody rfl
    · cases hnext : splitAtWord museNextAssistant body with
      | none =>
        rw [hnext] at h
        rcases bind_eq_ok h with ⟨absorbed, habsorb, hread⟩
        cases hread
        exact .last hmessage habsorb rfl
      | some later =>
        rw [hnext] at h
        rcases bind_eq_ok h with ⟨absorbed, habsorb, hread⟩
        split at hread
        · exact .behind hmessage hnext habsorb hread
        · cases hread

theorem museTurns_grows {rounds : Nat}
    (h : museTurns serde [] rounds output remaining = .ok (some out)) :
    out.content.length <= output.content.length + remaining.length ∧
      out.toolCalls = output.toolCalls := by
  induction rounds generalizing output remaining with
  | zero =>
    cases h
    exact ⟨Nat.le_add_right _ _, rfl⟩
  | succ rounds ih =>
    cases turnRead_of_museTurns h with
    | silent _ hread =>
      cases hread
      exact ⟨Nat.le_add_right _ _, rfl⟩
    | nobody _ _ hread => cases hread
    | @last header body absorbed hmessage habsorb hread =>
      cases hread
      have hgrows := absorbTurn_grows habsorb
      have hbody := length_turnBody_le body
      have hwhole := length_of_splitAtWord hmessage
      exact ⟨by omega, hgrows.2⟩
    | @behind header body front next absorbed hmessage hnext habsorb hread =>
      have hlater := ih hread
      have hgrows := absorbTurn_grows habsorb
      have hbody := length_turnBody_le front
      have hwhole := length_of_splitAtWord hmessage
      have hparts := length_of_splitAtWord hnext
      have htrim := length_trimStart_le next
      exact ⟨by omega, hlater.2.trans hgrows.2⟩

theorem museTurns_ne_none {rounds : Nat} (hnamed : namesEvery rounds remaining = true) :
    museTurns serde [] rounds output remaining ≠ .ok none := by
  induction rounds generalizing output remaining with
  | zero =>
    intro h
    cases h
  | succ rounds ih =>
    intro h
    unfold namesEvery at hnamed
    cases turnRead_of_museTurns h with
    | silent _ hread => cases hread
    | nobody hmessage hnobody _ =>
      rw [hmessage] at hnamed
      dsimp only at hnamed
      rw [hnobody] at hnamed
      cases hnamed
    | last _ _ hread => cases hread
    | behind hmessage hnext _ hread =>
      rw [hmessage] at hnamed
      dsimp only at hnamed
      rw [Bool.and_eq_true, hnext] at hnamed
      exact ih hnamed.2 hread

/-- What the parser makes of turns that say nothing, of turns that answer with `body` and of
turns that it refuses. -/
def ReadAs (content : Text) (result : Except String (Option MuseOutput)) : Speech -> Prop
  | .silent => exists out, result = .ok (some out) ∧ out.content = content
  | .answer body =>
    (¬ museNextAssistant <:+: body ->
      exists out, result = .ok (some out) ∧ out.content = content ++ turnBody body) ∧
    (museNextAssistant <:+: body ->
      forall read, result = .ok read ->
        exists out, read = some out ∧
          out.content.length < content.length + body.length)
  | .refused => exists complaint, result = .error complaint
  | .readApart => True

theorem absorbTurn_quiet (serde : SerdeJson) (output : MuseOutput) {told : Text}
    (h : recipient = "self".toList ∨ recipient = "user".toList ∧ told = []) :
    exists absorbed, absorbTurn serde [] output recipient told = .ok absorbed ∧
      absorbed.content = output.content := by
  rcases h with hself | huser
  · rw [hself]
    rcases absorbTurn_self serde [] output told with ⟨absorbed, habsorb, hcontent, _⟩
    exact ⟨absorbed, habsorb, hcontent⟩
  · rw [huser.1, huser.2, absorbTurn_user]
    exact ⟨_, rfl, List.append_nil _⟩

/-- What a turn that is handed on to the user becomes, whether turns follow it or not. -/
theorem readAs_answer {rounds : Nat} {header : Text}
    (hmessage : splitAtWord museMessage remaining = some (header, body))
    (huser : trim (header.drop 3) = "user".toList)
    (hnamed : namesEvery (rounds + 1) remaining = true) :
    ReadAs output.content (museTurns serde [] (rounds + 1) output remaining)
      (.answer body) := by
  unfold namesEvery at hnamed
  rw [hmessage] at hnamed
  dsimp only at hnamed
  rw [Bool.and_eq_true] at hnamed
  constructor
  · intro hlast
    unfold museTurns
    rw [hmessage]
    dsimp only
    rw [huser, if_neg (by decide), splitAtWord_eq_none.mpr hlast]
    dsimp only
    rw [absorbTurn_user]
    exact ⟨_, rfl, rfl⟩
  · intro hinside read hread
    rcases splitAtWord_isSome hinside with ⟨front, next, hnext⟩
    have hparts := length_of_splitAtWord hnext
    have hbody := length_turnBody_le front
    have htrim := length_trimStart_le next
    have hmarker : museNextAssistant.length = 25 := rfl
    unfold museTurns at hread
    rw [hmessage] at hread
    dsimp only at hread
    rw [huser, if_neg (by decide), hnext] at hread
    rw [hnext] at hnamed
    dsimp only at hread hnamed
    rw [absorbTurn_user] at hread
    change (if "to=".toList <+: trimStart next then _ else _) = _ at hread
    split at hread
    · cases read with
      | none => exact absurd hread (museTurns_ne_none hnamed.2)
      | some out =>
        have hgrows := (museTurns_grows hread).1
        dsimp only at hgrows
        rw [List.length_append] at hgrows
        exact ⟨out, rfl, by omega⟩
    · cases hread

theorem museTurns_speech (serde : SerdeJson) (rounds : Nat) (handed : Bool)
    (output : MuseOutput) (remaining : Text) :
    ReadAs output.content (museTurns serde [] rounds output remaining)
      (speech rounds handed remaining) := by
  induction rounds generalizing handed output remaining with
  | zero => exact ⟨output, rfl, rfl⟩
  | succ rounds ih =>
    unfold speech
    cases hmessage : splitAtWord museMessage remaining with
    | none =>
      unfold museTurns
      rw [hmessage]
      exact ⟨output, rfl, rfl⟩
    | some parts =>
      rcases parts with ⟨header, body⟩
      dsimp only
      by_cases huser : trim (header.drop 3) = "user".toList ∧ handed = true
      · rw [if_pos huser]
        by_cases hnamed : namesEvery (rounds + 1) remaining = true
        · rw [if_pos hnamed]
          exact readAs_answer hmessage huser.1 hnamed
        · rw [if_neg hnamed]
          trivial
      rw [if_neg huser]
      unfold museTurns
      rw [hmessage]
      dsimp only
      by_cases hquiet : trim (header.drop 3) = "self".toList ∨
          trim (header.drop 3) = "user".toList ∧ toldIn body = []
      · have hnamed : trim (header.drop 3) ≠ [] := by
          rcases hquiet with hself | hnothing
          · rw [hself]
            decide
          · rw [hnothing.1]
            decide
        rw [if_pos hquiet, if_neg hnamed]
        unfold toldIn at hquiet
        cases hnext : splitAtWord museNextAssistant body with
        | none =>
          rw [hnext] at hquiet
          rcases absorbTurn_quiet serde output hquiet with ⟨absorbed, habsorb, hcontent⟩
          dsimp only
          rw [habsorb]
          exact ⟨absorbed, rfl, hcontent⟩
        | some later =>
          rcases later with ⟨front, next⟩
          rw [hnext] at hquiet
          rcases absorbTurn_quiet serde output hquiet with ⟨absorbed, habsorb, hcontent⟩
          dsimp only
          rw [habsorb, ← hcontent]
          show ReadAs absorbed.content
            (if "to=".toList <+: trimStart next then _ else _) _
          split
          · exact ih _ absorbed (trimStart next)
          · exact ⟨_, rfl⟩
      · rw [if_neg hquiet]
        by_cases hapart : trim (header.drop 3) = [] ∨ trim (header.drop 3) = "user".toList
        · rw [if_pos hapart]
          trivial
        · rw [if_neg hapart, if_neg fun hnobody => hapart (Or.inl hnobody)]
          have hother : forall told, exists complaint,
              absorbTurn serde [] output (trim (header.drop 3)) told = .error complaint :=
            fun told => absorbTurn_other serde output told
              (fun hself => hquiet (Or.inl hself)) (fun hsame => hapart (Or.inr hsame))
          cases hnext : splitAtWord museNextAssistant body with
          | none =>
            rcases hother (turnBody body) with ⟨complaint, hcomplaint⟩
            dsimp only
            rw [hcomplaint]
            exact ⟨complaint, rfl⟩
          | some later =>
            rcases hother (turnBody later.1) with ⟨complaint, hcomplaint⟩
            dsimp only
            rw [hcomplaint]
            exact ⟨complaint, rfl⟩

end Parser

end Assistant
end RunNBurn
