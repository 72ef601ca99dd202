import RunNBurn.Assistant.SpokenTurns

/-!
# When the streamed text is the parsed content

Without tools the client is handed on what the filter lets through, and the content is
parsed from the whole text at the end.
-/

namespace RunNBurn
namespace Assistant

open Library

/-- The whole text is parsed, and its content is what was handed on. -/
def StreamsWhole (serde : SerdeJson) (museProtocol : Bool) (pieces : List Text) : Prop :=
  exists output,
    parseAssistantOutputWithFormat serde pieces.flatten []
        (if museProtocol then .muse else .json) = .ok output ∧
      output.content = AssistantTurnStreamFilter.streamed museProtocol pieces

/-- An answer in which the parser finds nothing to leave out: it ends the text without a
marker, nothing opens in it, and it has no white space at its ends. -/
structure PlainAnswer (body : Text) : Prop where
  last : ¬ museNextAssistant <:+: body
  unended : ¬ museEndTurn <:+ body ∧ ¬ museEndMessage <:+ body
  unmarked : Unmarked body
  trimmed : trim body = body

/-- A text in which the parser finds nothing to leave out of what the stream hands on. -/
def ReadsAlike (museProtocol : Bool) (text : Text) : Prop :=
  if museProtocol = true ∧ BeginsTurn text then
    match textSpeech text with
    | .silent => True
    | .answer body => PlainAnswer body
    | .refused => False
    | .readApart => False
  else
    Unmarked text

/-- A text with a turn that names nobody, or with a later turn that tells the user something
and is not handed on. -/
def TurnsReadApart (museProtocol : Bool) (text : Text) : Prop :=
  museProtocol = true ∧ BeginsTurn text ∧ textSpeech text = .readApart

variable {museProtocol : Bool}

theorem not_readsAlike_of_readApart {text : Text} (h : TurnsReadApart museProtocol text) :
    ¬ ReadsAlike museProtocol text := by
  unfold ReadsAlike
  rw [if_pos ⟨h.1, h.2.1⟩, h.2.2]
  exact id

/-!
# Texts without turns
-/

section Untold

variable {museProtocol : Bool} {pieces : List Text}

theorem streamed_of_no_turn (h : ¬ (museProtocol = true ∧ BeginsTurn pieces.flatten)) :
    AssistantTurnStreamFilter.streamed museProtocol pieces = pieces.flatten := by
  rw [AssistantTurnStreamFilter.streamed_eq]
  cases museProtocol with
  | false => exact List.append_nil _
  | true =>
    have hturn : ¬ BeginsTurn pieces.flatten := fun hbegins => h ⟨rfl, hbegins⟩
    have hdetect := AssistantTurnStreamFilter.detect_eq pieces.flatten
    show (AssistantTurnStreamFilter.detect pieces.flatten).2 ++
      (AssistantTurnStreamFilter.detect pieces.flatten).1.finish.2 = pieces.flatten
    by_cases hshort : trimStart pieces.flatten <+: "to=".toList
    · rw [if_pos hshort] at hdetect
      rw [hdetect]
      exact if_neg hturn
    · rw [if_neg hshort, if_neg] at hdetect
      · rw [hdetect]
        exact List.append_nil _
      · intro hto
        apply hturn
        refine ⟨hto, ?_⟩
        intro hsame
        rw [hsame] at hshort
        exact hshort (List.prefix_refl _)

theorem parse_of_no_turn (serde : SerdeJson) (text : Text)
    (h : ¬ (museProtocol = true ∧ BeginsTurn text)) :
    parseAssistantOutputWithFormat serde text []
        (if museProtocol then .muse else .json) =
      parseVisible serde [] false none text [] := by
  unfold parseAssistantOutputWithFormat
  cases museProtocol with
  | false => rfl
  | true =>
    have hnone : parseMuseOutput serde text [] = .ok none := by
      unfold parseMuseOutput
      dsimp only
      rw [if_pos]
      by_cases hto : "to=".toList <+: trimStart text
      · apply Or.inr
        by_contra hne
        exact h ⟨rfl, hto, hne⟩
      · exact Or.inl hto
    dsimp only
    rw [if_pos rfl, if_pos rfl, hnone]
    rfl

end Untold

/-!
# Texts with turns
-/

theorem turnBody_eq_self {body : Text} :
    turnBody body = body ↔ ¬ museEndTurn <:+ body ∧ ¬ museEndMessage <:+ body := by
  have hturn : museEndTurn.length = 7 := rfl
  have hmessage : museEndMessage.length = 7 := rfl
  constructor
  · intro h
    constructor
    · rintro ⟨front, hfront⟩
      rw [← hfront] at h
      unfold turnBody at h
      rw [stripSuffix_append] at h
      have hlength := congrArg List.length h
      rw [List.length_append, hturn] at hlength
      exact absurd hlength (Nat.ne_of_lt (Nat.lt_add_of_pos_right (by decide)))
    · rintro ⟨front, hfront⟩
      have hle : (turnBody body).length <= front.length := by
        unfold turnBody
        cases hstrip : stripSuffix museEndTurn body with
        | some stripped =>
          have hsame := congrArg List.length (stripSuffix_eq_some hstrip)
          rw [← hfront, List.length_append, List.length_append, hturn, hmessage] at hsame
          exact Nat.le_of_eq (Nat.add_right_cancel hsame).symm
        | none =>
          rw [← hfront, stripSuffix_append]
          exact Nat.le_refl _
      rw [h, ← hfront, List.length_append, hmessage] at hle
      omega
  · intro h
    unfold turnBody
    rw [stripSuffix_of_not_suffix h.1, stripSuffix_of_not_suffix h.2]
    rfl

theorem length_turnBody_lt {body : Text} (h : turnBody body ≠ body) :
    (turnBody body).length < body.length := by
  have hturn : museEndTurn.length = 7 := rfl
  have hmessage : museEndMessage.length = 7 := rfl
  unfold turnBody at h ⊢
  cases hstrip : stripSuffix museEndTurn body with
  | some stripped =>
    have hlength := congrArg List.length (stripSuffix_eq_some hstrip)
    rw [List.length_append, hturn] at hlength
    show stripped.length < body.length
    omega
  | none =>
    cases hstripped : stripSuffix museEndMessage body with
    | some stripped =>
      have hlength := congrArg List.length (stripSuffix_eq_some hstripped)
      rw [List.length_append, hmessage] at hlength
      show stripped.length < body.length
      omega
    | none =>
      rw [hstrip, hstripped] at h
      exact absurd rfl h

def parsedFrom (serde : SerdeJson) (text : Text)
    (reads : Except String (Option MuseOutput)) : Except String ParsedAssistantOutput :=
  reads >>= fun read =>
    match read with
    | some output =>
      parseVisible serde [] true output.reasoningContent output.content output.toolCalls
    | none => parseVisible serde [] false none text []

theorem parse_of_turn (serde : SerdeJson) {text : Text} (h : BeginsTurn text) :
    parseAssistantOutputWithFormat serde text [] .muse =
      parsedFrom serde text
        (museTurns serde [] ((trimStart text).length + 1)
          { reasoning := []
            content := []
            toolCalls := [] } (trimStart text)) := by
  have hmuse : ¬ (¬ "to=".toList <+: trimStart text ∨ trimStart text = "to=".toList) := by
    rw [not_or, not_not]
    exact h
  have hreads : parseMuseOutput serde text [] =
      museTurns serde [] ((trimStart text).length + 1)
        { reasoning := []
          content := []
          toolCalls := [] } (trimStart text) := if_neg hmuse
  exact congrArg (parsedFrom serde text) hreads

section Told

variable {serde : SerdeJson} {text body : Text} {reads : Except String (Option MuseOutput)}

theorem parsedFrom_silent (hreads : ReadAs [] reads .silent) :
    exists output, parsedFrom serde text reads = .ok output ∧ output.content = [] := by
  rcases hreads with ⟨out, hout, hcontent⟩
  have hunmarked : Unmarked ([] : Text) := by
    decide
  rw [hout]
  show exists output, parseVisible serde [] true out.reasoningContent out.content
    out.toolCalls = .ok output ∧ _
  rw [hcontent]
  exact ⟨_, parseVisible_of_unmarked serde [] true _ _ hunmarked, rfl⟩

theorem parsedFrom_answer (hreads : ReadAs [] reads (.answer body)) :
    (exists output, parsedFrom serde text reads = .ok output ∧ output.content = body) ↔
      PlainAnswer body := by
  by_cases hlast : museNextAssistant <:+: body
  · constructor
    · rintro ⟨output, hparse, hcontent⟩
      cases hread : reads with
      | error complaint =>
        rw [hread] at hparse
        cases hparse
      | ok read =>
        rcases hreads.2 hlast read hread with ⟨out, hout, hlength⟩
        rw [hread, hout] at hparse
        have hle := length_parseVisible_le hparse
        rw [hcontent] at hle
        rw [List.length_nil, Nat.zero_add] at hlength
        omega
    · intro h
      exact absurd hlast h.last
  · rcases hreads.1 hlast with ⟨out, hout, hcontent⟩
    have hparsed : parsedFrom serde text reads =
        parseVisible serde [] true out.reasoningContent (turnBody body) out.toolCalls := by
      rw [hout]
      show parseVisible serde [] true out.reasoningContent out.content out.toolCalls = _
      rw [hcontent, List.nil_append]
    rw [hparsed]
    constructor
    · rintro ⟨output, hparse, hsame⟩
      have hle := length_parseVisible_le hparse
      rw [hsame] at hle
      by_cases hbody : turnBody body = body
      · have hkeeps := (parseVisible_keeps serde true out.reasoningContent out.toolCalls
          (turnBody body)).mp ⟨output, hparse, hsame.trans hbody.symm⟩
        rw [hbody] at hkeeps
        exact {
          last := hlast
          unended := turnBody_eq_self.mp hbody
          unmarked := hkeeps.1
          trimmed := hkeeps.2 rfl }
      · exact absurd hle (Nat.not_le_of_lt (length_turnBody_lt hbody))
    · intro h
      have hbody := turnBody_eq_self.mpr h.unended
      have hkeeps := (parseVisible_keeps serde true out.reasoningContent out.toolCalls
        body).mpr ⟨h.unmarked, fun _ => h.trimmed⟩
      rw [hbody]
      exact hkeeps

theorem parsedFrom_refused (hreads : ReadAs [] reads .refused) (output : ParsedAssistantOutput) :
    parsedFrom serde text reads ≠ .ok output := by
  rcases hreads with ⟨complaint, hcomplaint⟩
  rw [hcomplaint]
  intro h
  cases h

end Told

theorem toolCalls_untooled {serde : SerdeJson} {text : Text} {output : ParsedAssistantOutput}
    (h : parseAssistantOutputWithFormat serde text [] (if museProtocol then .muse else .json) =
      .ok output) :
    output.toolCalls = [] := by
  by_cases hturn : museProtocol = true ∧ BeginsTurn text
  · rw [hturn.1, if_pos rfl, parse_of_turn serde hturn.2] at h
    cases hreads : museTurns serde [] ((trimStart text).length + 1)
        { reasoning := []
          content := []
          toolCalls := [] } (trimStart text) with
    | error complaint =>
      rw [hreads] at h
      cases h
    | ok read =>
      rw [hreads] at h
      cases read with
      | none => exact toolCalls_parseVisible_untooled h
      | some out => exact (toolCalls_parseVisible_untooled h).trans (museTurns_grows hreads).2
  · rw [parse_of_no_turn serde text hturn] at h
    exact toolCalls_parseVisible_untooled h

/-- Whatever the text and however it is cut, the stream is the content of a text that the two
read alike, and of no other text whose turns they do not read apart. -/
theorem streamsWhole_of_readsAlike (serde : SerdeJson) {pieces : List Text}
    (hapart : ¬ TurnsReadApart museProtocol pieces.flatten) :
    StreamsWhole serde museProtocol pieces ↔ ReadsAlike museProtocol pieces.flatten := by
  unfold StreamsWhole ReadsAlike
  by_cases hturn : museProtocol = true ∧ BeginsTurn pieces.flatten
  · rw [if_pos hturn]
    rcases hturn with ⟨hmuse, hbegins⟩
    have hreads := museTurns_speech serde ((trimStart pieces.flatten).length + 1) true
      { reasoning := []
        content := []
        toolCalls := [] } (trimStart pieces.flatten)
    have hsaid : forall text, (textSpeech pieces.flatten).said = some text ->
        AssistantTurnStreamFilter.streamed true pieces = text :=
      fun text h => streamed_of_said hbegins h
    rw [hmuse, if_pos rfl, parse_of_turn serde hbegins]
    change ReadAs [] _ (textSpeech pieces.flatten) at hreads
    cases hspeech : textSpeech pieces.flatten with
    | silent =>
      rw [hspeech] at hreads hsaid
      rw [hsaid [] rfl]
      exact iff_of_true (parsedFrom_silent hreads) trivial
    | answer body =>
      rw [hspeech] at hreads hsaid
      rw [hsaid body rfl]
      exact parsedFrom_answer hreads
    | refused =>
      rw [hspeech] at hreads
      apply iff_of_false
      · rintro ⟨output, hparse, _⟩
        exact parsedFrom_refused hreads output hparse
      · exact id
    | readApart => exact absurd ⟨hmuse, hbegins, hspeech⟩ hapart
  · rw [if_neg hturn, parse_of_no_turn serde _ hturn, streamed_of_no_turn hturn]
    have hkeeps := parseVisible_keeps serde false none [] pieces.flatten
    rw [hkeeps]
    simp

end Assistant
end RunNBurn
