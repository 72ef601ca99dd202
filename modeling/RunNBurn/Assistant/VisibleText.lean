import RunNBurn.Assistant.ToolCall

/-!
# What the parser leaves out of a text

Reasoning and calls are taken out of the visible text.  The text is kept exactly when none
of the markers that open them stands in it.
-/

namespace RunNBurn
namespace Assistant

open Library

def openMarkers : List Text :=
  ["<|channel>thought".toList, "<think>".toList, gemmaCallOpen, jsonCallOpen]

def Unmarked (text : Text) : Prop :=
  forall marker, marker ∈ openMarkers -> ¬ marker <:+: text

instance (text : Text) : Decidable (Unmarked text) :=
  inferInstanceAs (Decidable (forall marker, marker ∈ openMarkers -> ¬ marker <:+: text))

theorem length_of_splitAtWord {word text front behind : Text}
    (h : splitAtWord word text = some (front, behind)) :
    text.length = front.length + word.length + behind.length := by
  rw [(splitAtWord_eq_some h).1, List.length_append, List.length_append, Nat.add_assoc]

theorem splitAtWord_isSome {word text : Text} (h : word <:+: text) :
    exists front behind, splitAtWord word text = some (front, behind) := by
  cases hsplit : splitAtWord word text with
  | none => exact absurd h (splitAtWord_eq_none.mp hsplit)
  | some parts => exact ⟨parts.1, parts.2, rfl⟩

/-!
# Reasoning
-/

section Blocks

variable {opening closing text : Text}

theorem length_stripBlocksLoop_le (opening closing : Text) (rounds : Nat) (remaining : Text) :
    (stripBlocksLoop opening closing rounds remaining).length <= remaining.length := by
  induction rounds generalizing remaining with
  | zero => exact Nat.le_refl _
  | succ rounds ih =>
    unfold stripBlocksLoop
    cases hopen : splitAtWord opening remaining with
    | none => exact Nat.le_refl _
    | some parts =>
      have hlength := length_of_splitAtWord hopen
      dsimp only
      cases hclose : splitAtWord closing parts.2 with
      | none =>
        show parts.1.length <= remaining.length
        omega
      | some inner =>
        have hinner := length_of_splitAtWord hclose
        have hrest := ih inner.2
        dsimp only
        rw [List.length_append]
        omega

theorem stripBlocks_unopened (closing : Text) (h : ¬ opening <:+: text) :
    stripBlocks text opening closing = text := by
  unfold stripBlocks
  cases hlength : text.length with
  | zero => rfl
  | succ rounds =>
    unfold stripBlocksLoop
    rw [splitAtWord_eq_none.mpr h]

theorem length_stripBlocks_lt (closing : Text) (hopening : opening ≠ []) (h : opening <:+: text) :
    (stripBlocks text opening closing).length < text.length := by
  rcases splitAtWord_isSome h with ⟨front, behind, hopen⟩
  have hlength := length_of_splitAtWord hopen
  have hpos := List.length_pos_iff.mpr hopening
  unfold stripBlocks
  cases hrounds : text.length with
  | zero => omega
  | succ rounds =>
    unfold stripBlocksLoop
    rw [hopen]
    dsimp only
    cases hclose : splitAtWord closing behind with
    | none =>
      show front.length < rounds + 1
      omega
    | some inner =>
      have hinner := length_of_splitAtWord hclose
      have hrest := length_stripBlocksLoop_le opening closing rounds inner.2
      dsimp only
      rw [List.length_append]
      omega

end Blocks

theorem length_stripReasoning_le (text : Text) :
    (stripReasoning text).length <= text.length :=
  Nat.le_trans (length_stripBlocksLoop_le _ _ _ _) (length_stripBlocksLoop_le _ _ _ _)

theorem stripReasoning_of_unmarked {text : Text} (h : Unmarked text) :
    stripReasoning text = text := by
  unfold stripReasoning
  dsimp only
  rw [stripBlocks_unopened _ (h _ (by simp [openMarkers])),
    stripBlocks_unopened _ (h _ (by simp [openMarkers]))]

theorem stripReasoning_eq_or_lt (text : Text) :
    stripReasoning text = text ∧ ¬ "<|channel>thought".toList <:+: text ∧
        ¬ "<think>".toList <:+: text ∨
      (stripReasoning text).length < text.length := by
  unfold stripReasoning
  dsimp only
  by_cases hgemma : "<|channel>thought".toList <:+: text
  · apply Or.inr
    exact Nat.lt_of_le_of_lt (length_stripBlocksLoop_le _ _ _ _)
      (length_stripBlocks_lt _ (List.cons_ne_nil _ _) hgemma)
  · rw [stripBlocks_unopened _ hgemma]
    by_cases hthink : "<think>".toList <:+: text
    · apply Or.inr
      exact length_stripBlocks_lt _ (List.cons_ne_nil _ _) hthink
    · exact Or.inl ⟨stripBlocks_unopened _ hthink, hgemma, hthink⟩

/-!
# Calls
-/

theorem nextCall_eq_none {text : Text} :
    nextCall text = none ↔ ¬ gemmaCallOpen <:+: text ∧ ¬ jsonCallOpen <:+: text := by
  rw [← splitAtWord_eq_none, ← splitAtWord_eq_none]
  unfold nextCall
  cases splitAtWord gemmaCallOpen text with
  | none =>
    cases splitAtWord jsonCallOpen text with
    | none => simp
    | some json => simp
  | some gemma =>
    cases splitAtWord jsonCallOpen text with
    | none => simp
    | some json =>
      dsimp only
      split <;> simp

theorem length_of_nextCall {text front behind : Text} {gemma : Bool}
    (h : nextCall text = some (gemma, front, behind)) :
    front.length + behind.length < text.length := by
  have hgemmaOpen : gemmaCallOpen.length = 17 := rfl
  have hjsonOpen : jsonCallOpen.length = 11 := rfl
  unfold nextCall at h
  split at h
  · cases h
  · rename_i hsplit _
    cases h
    have := length_of_splitAtWord hsplit
    omega
  · rename_i hsplit
    cases h
    have := length_of_splitAtWord hsplit
    omega
  · rename_i gemma json hgemma hjson
    rcases gemma with ⟨gemmaFront, gemmaBehind⟩
    rcases json with ⟨jsonFront, jsonBehind⟩
    have := length_of_splitAtWord hgemma
    have := length_of_splitAtWord hjson
    dsimp only at h
    split at h
    · cases h
      omega
    · cases h
      omega

section Calls

variable {serde : SerdeJson} {allowedTools : List Text} {content : Text}
  {calls : List ParsedToolCall} {taken : Text × List ParsedToolCall} {rounds : Nat}

theorem takes_call {rest : Text} {read : Except String ParsedToolCall} (h : (do
      let call <- read
      if call.name ∈ allowedTools then
        takeCalls serde allowedTools rounds content (calls ++ [call]) rest
      else
        .error s!"model requested undeclared tool '{String.ofList call.name}'") = .ok taken) :
    exists call, call.name ∈ allowedTools ∧
      takeCalls serde allowedTools rounds content (calls ++ [call]) rest = .ok taken := by
  cases read with
  | error complaint => cases h
  | ok call =>
    change (if call.name ∈ allowedTools then _ else _) = _ at h
    split at h
    · rename_i hname
      exact ⟨call, hname, h⟩
    · cases h

theorem takeCalls_next {remaining front behind : Text} {gemma : Bool}
    (hnext : nextCall remaining = some (gemma, front, behind))
    (h : takeCalls serde allowedTools (rounds + 1) content calls remaining = .ok taken) :
    taken = (content ++ front, calls) ∨
      exists call rest, rest.length <= behind.length ∧ call.name ∈ allowedTools ∧
        takeCalls serde allowedTools rounds (content ++ front) (calls ++ [call]) rest =
          .ok taken := by
  unfold takeCalls at h
  rw [hnext] at h
  dsimp only at h
  cases hclose : splitAtWord (if gemma then gemmaCallClose else jsonCallClose) behind with
  | none =>
    rw [hclose] at h
    cases h
    exact Or.inl rfl
  | some parts =>
    rw [hclose] at h
    have hlength := length_of_splitAtWord hclose
    apply Or.inr
    cases gemma with
    | true =>
      rcases takes_call h with ⟨call, hname, hrest⟩
      exact ⟨call, parts.2, by omega, hname, hrest⟩
    | false =>
      rcases takes_call h with ⟨call, hname, hrest⟩
      exact ⟨call, parts.2, by omega, hname, hrest⟩

variable {remaining : Text}

theorem length_takeCalls_le
    (h : takeCalls serde allowedTools rounds content calls remaining = .ok taken) :
    taken.1.length <= content.length + remaining.length := by
  induction rounds generalizing content calls remaining with
  | zero =>
    cases h
    exact Nat.le_add_right _ _
  | succ rounds ih =>
    cases hnext : nextCall remaining with
    | none =>
      unfold takeCalls at h
      rw [hnext] at h
      cases h
      exact Nat.le_of_eq List.length_append
    | some next =>
      rcases next with ⟨gemma, front, behind⟩
      have hlength := length_of_nextCall hnext
      cases takeCalls_next hnext h with
      | inl hend =>
        rw [hend, List.length_append]
        omega
      | inr hcall =>
        rcases hcall with ⟨call, rest, hrest, _, hlater⟩
        have hle := ih hlater
        rw [List.length_append] at hle
        omega

theorem length_takeCalls_lt (hnext : nextCall remaining ≠ none)
    (h : takeCalls serde allowedTools (rounds + 1) content calls remaining = .ok taken) :
    taken.1.length < content.length + remaining.length := by
  rcases Option.ne_none_iff_exists'.mp hnext with ⟨⟨gemma, front, behind⟩, hnext⟩
  have hlength := length_of_nextCall hnext
  cases takeCalls_next hnext h with
  | inl hend =>
    rw [hend, List.length_append]
    omega
  | inr hcall =>
    rcases hcall with ⟨call, rest, hrest, _, hlater⟩
    have hle := length_takeCalls_le hlater
    rw [List.length_append] at hle
    omega

theorem takeCalls_untooled (h : takeCalls serde [] rounds content calls remaining = .ok taken) :
    taken.2 = calls := by
  cases rounds with
  | zero =>
    cases h
    rfl
  | succ rounds =>
    cases hnext : nextCall remaining with
    | none =>
      unfold takeCalls at h
      rw [hnext] at h
      cases h
      rfl
    | some next =>
      rcases next with ⟨gemma, front, behind⟩
      cases takeCalls_next hnext h with
      | inl hend => rw [hend]
      | inr hcall =>
        rcases hcall with ⟨call, _, _, hname, _⟩
        cases hname

end Calls

/-!
# The visible text
-/

section Visible

variable {serde : SerdeJson} {allowedTools : List Text} {isMuse : Bool}
  {reasoningContent : Option Text} {visible : Text} {calls : List ParsedToolCall}
  {output : ParsedAssistantOutput}

theorem parseVisible_of_unmarked (serde : SerdeJson) (allowedTools : List Text)
    (isMuse : Bool) (reasoningContent : Option Text) (calls : List ParsedToolCall)
    (h : Unmarked visible) :
    parseVisible serde allowedTools isMuse reasoningContent visible calls =
      .ok
        { content := if isMuse ∨ allowedTools ≠ [] then trim visible else visible
          reasoningContent := reasoningContent
          toolCalls := calls } := by
  have hnext : nextCall visible = none :=
    nextCall_eq_none.mpr ⟨h _ (by simp [openMarkers]), h _ (by simp [openMarkers])⟩
  have htaken : takeCalls serde allowedTools (visible.length + 1) [] calls visible =
      .ok (visible, calls) := by
    unfold takeCalls
    rw [hnext]
    rfl
  unfold parseVisible
  dsimp only
  rw [stripReasoning_of_unmarked h, htaken]
  rfl

theorem parseVisible_eq_ok
    (h : parseVisible serde allowedTools isMuse reasoningContent visible calls = .ok output) :
    exists taken,
      takeCalls serde allowedTools ((stripReasoning visible).length + 1) [] calls
        (stripReasoning visible) = .ok taken ∧
      output =
        { content := if isMuse ∨ allowedTools ≠ [] then trim taken.1 else taken.1
          reasoningContent := reasoningContent
          toolCalls := taken.2 } := by
  unfold parseVisible at h
  dsimp only at h
  cases htaken : takeCalls serde allowedTools ((stripReasoning visible).length + 1) [] calls
      (stripReasoning visible) with
  | error complaint =>
    rw [htaken] at h
    cases h
  | ok taken =>
    rw [htaken] at h
    exact ⟨taken, rfl, (Except.ok.inj h).symm⟩

theorem length_trimmed_le (trims : Prop) [Decidable trims] (text : Text) :
    (if trims then trim text else text).length <= text.length := by
  split
  · exact length_trim_le text
  · exact Nat.le_refl _

theorem length_parseVisible_le
    (h : parseVisible serde allowedTools isMuse reasoningContent visible calls = .ok output) :
    output.content.length <= visible.length := by
  rcases parseVisible_eq_ok h with ⟨taken, htaken, houtput⟩
  have hlength := length_takeCalls_le htaken
  have hstrip := length_stripReasoning_le visible
  rw [List.length_nil, Nat.zero_add] at hlength
  rw [houtput]
  exact Nat.le_trans (length_trimmed_le _ _) (Nat.le_trans hlength hstrip)

theorem length_parseVisible_lt (hmarked : ¬ Unmarked visible)
    (h : parseVisible serde allowedTools isMuse reasoningContent visible calls = .ok output) :
    output.content.length < visible.length := by
  rcases parseVisible_eq_ok h with ⟨taken, htaken, houtput⟩
  have hlength := length_takeCalls_le htaken
  rw [List.length_nil, Nat.zero_add] at hlength
  rw [houtput]
  refine Nat.lt_of_le_of_lt (length_trimmed_le _ _) ?_
  cases stripReasoning_eq_or_lt visible with
  | inr hshorter => exact Nat.lt_of_le_of_lt hlength hshorter
  | inl hsame =>
    rcases hsame with ⟨hsame, hgemma, hthink⟩
    have hnext : nextCall (stripReasoning visible) ≠ none := by
      intro hnone
      rw [hsame] at hnone
      have hcalls := nextCall_eq_none.mp hnone
      apply hmarked
      intro marker hmarker
      simp only [openMarkers, List.mem_cons, List.not_mem_nil, or_false] at hmarker
      rcases hmarker with rfl | rfl | rfl | rfl
      · exact hgemma
      · exact hthink
      · exact hcalls.1
      · exact hcalls.2
    have hshorter := length_takeCalls_lt hnext htaken
    rw [List.length_nil, Nat.zero_add] at hshorter
    exact Nat.lt_of_lt_of_le hshorter (length_stripReasoning_le visible)

theorem toolCalls_parseVisible_untooled
    (h : parseVisible serde [] isMuse reasoningContent visible calls = .ok output) :
    output.toolCalls = calls := by
  rcases parseVisible_eq_ok h with ⟨taken, htaken, houtput⟩
  rw [houtput]
  exact takeCalls_untooled htaken

theorem parseVisible_keeps (serde : SerdeJson) (isMuse : Bool)
    (reasoningContent : Option Text) (calls : List ParsedToolCall) (visible : Text) :
    (exists output, parseVisible serde [] isMuse reasoningContent visible calls = .ok output ∧
          output.content = visible) ↔
      Unmarked visible ∧ (isMuse = true -> trim visible = visible) := by
  constructor
  · rintro ⟨output, hparse, hcontent⟩
    by_cases hunmarked : Unmarked visible
    · refine ⟨hunmarked, ?_⟩
      intro hmuse
      rw [parseVisible_of_unmarked _ _ _ _ _ hunmarked, hmuse] at hparse
      cases hparse
      exact hcontent
    · have hlt := length_parseVisible_lt hunmarked hparse
      rw [hcontent] at hlt
      exact absurd hlt (Nat.lt_irrefl _)
  · rintro ⟨hunmarked, htrim⟩
    refine ⟨_, parseVisible_of_unmarked serde [] isMuse reasoningContent calls hunmarked, ?_⟩
    dsimp only
    split
    · rename_i hmuse
      apply htrim
      simpa using hmuse
    · rfl

end Visible

end Assistant
end RunNBurn
