import RunNBurn.Assistant.ToolCall

/-!
# The filter and the pieces of a text

However a text is cut into pieces, the filter hands on the same text.
-/

namespace RunNBurn
namespace Assistant

open Library

namespace AssistantTurnStreamFilter

variable (filter : AssistantTurnStreamFilter)

theorem emitMuseUserTurn_append (behind : Text) (hmuse : filter.museProtocol = true)
    (hstate : filter.state = .museProtocol) :
    emitMuseUserTurn { filter with pending := filter.pending ++ behind } =
      ((filter.emitMuseUserTurn.1.push behind).1,
        filter.emitMuseUserTurn.2 ++ (filter.emitMuseUserTurn.1.push behind).2) := by
  unfold emitMuseUserTurn
  cases hsplit : splitAtWord museNextUser filter.pending with
  | none => simp [push, hmuse, hstate, emitMuseUserTurn]
  | some parts =>
    rcases parts with ⟨front, body⟩
    simp [push, hmuse, splitAtWord_append_right hsplit behind]

theorem not_prefix_append {word text : Text} (more : Text) (hshort : ¬ text <+: word)
    (hlong : ¬ word <+: text) :
    ¬ text ++ more <+: word ∧ ¬ word <+: text ++ more := by
  constructor
  · intro h
    exact hshort ((List.prefix_append text more).trans h)
  · intro h
    cases List.prefix_or_prefix_of_prefix h (List.prefix_append text more) with
    | inl hword => exact hlong hword
    | inr htext => exact hshort htext

/-- What the filter makes of the text up to now while it has not handed on anything. -/
def detect (text : Text) : AssistantTurnStreamFilter × Text :=
  (new true).push text

theorem detect_eq (text : Text) :
    detect text =
      if trimStart text <+: "to=".toList then
        (⟨true, .detecting, text⟩, [])
      else if "to=".toList <+: trimStart text then
        match splitAtWord museMessage (trimStart text) with
        | none => (⟨true, .detecting, text⟩, [])
        | some (header, body) =>
          if trim (header.drop 3) = "user".toList then (⟨true, .passthrough, []⟩, body)
          else emitMuseUserTurn ⟨true, .museProtocol, text⟩
      else (⟨true, .passthrough, []⟩, text) := rfl

theorem emitMuseUserTurn_finish (text : Text) :
    (emitMuseUserTurn ⟨true, .museProtocol, text⟩).2 ++
        (emitMuseUserTurn ⟨true, .museProtocol, text⟩).1.finish.2 =
      behindWord museNextUser text := by
  unfold emitMuseUserTurn behindWord
  cases splitAtWord museNextUser text with
  | none => rfl
  | some parts => exact List.append_nil _

theorem detect_append (text behind : Text) :
    detect (text ++ behind) =
      (((detect text).1.push behind).1, (detect text).2 ++ ((detect text).1.push behind).2) := by
  have hagain : (⟨true, .detecting, text⟩ : AssistantTurnStreamFilter).push behind =
      detect (text ++ behind) := rfl
  rw [detect_eq text]
  split
  · rw [hagain]
    rfl
  · rename_i hshort
    have hne : trimStart text ≠ [] := by
      intro hnil
      rw [hnil] at hshort
      exact hshort List.nil_prefix
    have htrim := trimStart_append hne behind
    split
    · rename_i hlong
      have hlong' : "to=".toList <+: trimStart (text ++ behind) := by
        rw [htrim]
        exact hlong.trans (List.prefix_append _ behind)
      cases hsplit : splitAtWord museMessage (trimStart text) with
      | none =>
        rw [hagain]
        rfl
      | some parts =>
        rcases parts with ⟨header, body⟩
        have hsplit' := splitAtWord_append_right hsplit behind
        rw [← htrim] at hsplit'
        have hopen : ¬ trimStart (text ++ behind) <+: "to=".toList := by
          rw [htrim]
          intro h
          exact hshort ((List.prefix_append _ behind).trans h)
        rw [detect_eq, if_neg hopen, if_pos hlong', hsplit']
        dsimp only
        split
        · rfl
        · exact emitMuseUserTurn_append ⟨true, .museProtocol, text⟩ behind rfl rfl
    · rename_i hlong
      have hplain := not_prefix_append behind hshort hlong
      rw [← htrim] at hplain
      rw [detect_eq, if_neg hplain.1, if_neg hplain.2]
      rfl

theorem push_append (front behind : Text) :
    filter.push (front ++ behind) =
      (((filter.push front).1.push behind).1,
        (filter.push front).2 ++ ((filter.push front).1.push behind).2) := by
  rcases filter with ⟨museProtocol, state, pending⟩
  cases museProtocol with
  | false => simp [push]
  | true =>
    cases state with
    | passthrough => simp [push]
    | museProtocol =>
      have h := emitMuseUserTurn_append ⟨true, .museProtocol, pending ++ front⟩ behind rfl rfl
      rw [List.append_assoc] at h
      exact h
    | detecting =>
      have h := detect_append (pending ++ front) behind
      rw [List.append_assoc] at h
      exact h

theorem pushAll_push (front : Text) (pieces : List Text) :
    ((filter.push front).1.pushAll pieces).1 = (filter.push (front ++ pieces.flatten)).1 ∧
      (filter.push front).2 ++ ((filter.push front).1.pushAll pieces).2 =
        (filter.push (front ++ pieces.flatten)).2 := by
  induction pieces generalizing front with
  | nil => simp [pushAll]
  | cons piece pieces ih =>
    have h := ih (front ++ piece)
    rw [push_append filter front piece] at h
    rw [List.flatten_cons, ← List.append_assoc]
    unfold pushAll
    rw [← List.append_assoc]
    exact h

theorem streamed_eq (museProtocol : Bool) (pieces : List Text) :
    streamed museProtocol pieces =
      ((new museProtocol).push pieces.flatten).2 ++
        ((new museProtocol).push pieces.flatten).1.finish.2 := by
  have hstart : (new museProtocol).push [] = (new museProtocol, []) := by
    cases museProtocol <;> rfl
  have h := pushAll_push (new museProtocol) [] pieces
  rw [hstart, List.nil_append, List.nil_append] at h
  unfold streamed
  rw [h.1, h.2]

/-- Two ways of cutting one text into pieces hand on the same. -/
theorem streamed_of_flatten_eq (museProtocol : Bool) {pieces others : List Text}
    (h : pieces.flatten = others.flatten) :
    streamed museProtocol pieces = streamed museProtocol others := by
  rw [streamed_eq, streamed_eq, h]

theorem streamed_of_flatten_eq_cut_marker :
    streamed true ["to=us".toList, "er<|mess".toList, "age|>hi".toList] =
        streamed true ["to=user<|message|>hi".toList] ∧
      streamed true ["to=us".toList, "er<|mess".toList, "age|>hi".toList] = "hi".toList := by
  constructor
  · exact streamed_of_flatten_eq true (by decide)
  · decide

theorem streamed_of_header {pieces : List Text} {header body : Text}
    (hshort : ¬ trimStart pieces.flatten <+: "to=".toList)
    (hlong : "to=".toList <+: trimStart pieces.flatten)
    (hmessage : splitAtWord museMessage (trimStart pieces.flatten) = some (header, body)) :
    streamed true pieces =
      if trim (header.drop 3) = "user".toList then body
      else behindWord museNextUser pieces.flatten := by
  have hdetect := detect_eq pieces.flatten
  rw [if_neg hshort, if_pos hlong, hmessage] at hdetect
  rw [streamed_eq]
  show (detect pieces.flatten).2 ++ (detect pieces.flatten).1.finish.2 = _
  rw [hdetect]
  dsimp only
  split
  · exact List.append_nil _
  · exact emitMuseUserTurn_finish pieces.flatten

end AssistantTurnStreamFilter

end Assistant
end RunNBurn
