import Mathlib.Data.List.Basic

/-!
# Autoregressive decoding

A decoder chooses the next token from the tokens emitted so far, until a stop
token, a refusal after an emission, or the end of the budget.  A loop that emits
the same tokens by another route keeps the equation `emit remaining out = goal`.
-/

namespace RunNBurn
namespace Library

structure Decoder (token : Type) where
  choose : List token -> token
  stops : token -> Bool
  keepGoing : List token -> Bool

namespace Decoder

variable {token : Type}

def emit (decoder : Decoder token) : Nat -> List token -> List token
  | 0, out => out
  | budget + 1, out =>
    let next := decoder.choose out
    if decoder.stops next then out
    else if decoder.keepGoing (out ++ [next]) then emit decoder budget (out ++ [next])
    else out ++ [next]

@[simp] theorem emit_zero (decoder : Decoder token) (out : List token) :
    decoder.emit 0 out = out := rfl

variable {decoder : Decoder token} {out : List token}

theorem emit_stop (budget : Nat) (h : decoder.stops (decoder.choose out) = true) :
    decoder.emit budget out = out := by
  cases budget with
  | zero => rfl
  | succ budget =>
    unfold emit
    exact if_pos h

theorem emit_refuse (budget : Nat) (hstop : decoder.stops (decoder.choose out) = false)
    (hkeep : decoder.keepGoing (out ++ [decoder.choose out]) = false) :
    decoder.emit (budget + 1) out = out ++ [decoder.choose out] := by
  unfold emit
  simp [hstop, hkeep]

theorem emit_push (budget : Nat) (hstop : decoder.stops (decoder.choose out) = false)
    (hkeep : decoder.keepGoing (out ++ [decoder.choose out]) = true) :
    decoder.emit (budget + 1) out = decoder.emit budget (out ++ [decoder.choose out]) := by
  conv =>
    lhs
    unfold emit
  simp [hstop, hkeep]

/-- Every token is chosen after those before it, and the decoder ends for one of three
reasons only. -/
theorem emit_spec (decoder : Decoder token) (budget : Nat) (out : List token) :
    exists more, decoder.emit budget out = out ++ more ∧ more.length <= budget ∧
      (forall front next back, more = front ++ next :: back ->
        next = decoder.choose (out ++ front) ∧ decoder.stops next = false ∧
          (back ≠ [] -> decoder.keepGoing (out ++ front ++ [next]) = true)) ∧
      (more.length = budget ∨ decoder.stops (decoder.choose (out ++ more)) = true ∨
        (more ≠ [] ∧ decoder.keepGoing (out ++ more) = false)) := by
  induction budget generalizing out with
  | zero =>
    refine ⟨[], (List.append_nil out).symm, Nat.le_refl 0, ?_, Or.inl rfl⟩
    intro front next back hsplit
    exact absurd hsplit.symm (List.append_ne_nil_of_right_ne_nil _ (List.cons_ne_nil _ _))
  | succ budget ih =>
    cases hstop : decoder.stops (decoder.choose out) with
    | true =>
      rw [emit_stop _ hstop]
      refine ⟨[], (List.append_nil out).symm, Nat.zero_le _, ?_, Or.inr (Or.inl ?_)⟩
      · intro front next back hsplit
        exact absurd hsplit.symm (List.append_ne_nil_of_right_ne_nil _ (List.cons_ne_nil _ _))
      · rw [List.append_nil]
        exact hstop
    | false =>
      cases hkeep : decoder.keepGoing (out ++ [decoder.choose out]) with
      | false =>
        rw [emit_refuse budget hstop hkeep]
        refine ⟨[decoder.choose out], rfl, Nat.succ_le_succ (Nat.zero_le _), ?_,
          Or.inr (Or.inr ⟨List.cons_ne_nil _ _, hkeep⟩)⟩
        intro front next back hsplit
        cases front with
        | nil =>
          cases hsplit
          rw [List.append_nil]
          exact ⟨rfl, hstop, fun hback => absurd rfl hback⟩
        | cons first front =>
          exact absurd (List.cons.inj hsplit).2.symm
            (List.append_ne_nil_of_right_ne_nil _ (List.cons_ne_nil _ _))
      | true =>
        rw [emit_push budget hstop hkeep]
        rcases ih (out ++ [decoder.choose out]) with ⟨more, hemit, hlength, hall, hends⟩
        rw [List.append_assoc, List.singleton_append] at hemit hends
        refine ⟨decoder.choose out :: more, hemit, Nat.succ_le_succ hlength, ?_, ?_⟩
        · intro front next back hsplit
          cases front with
          | nil =>
            cases hsplit
            rw [List.append_nil]
            exact ⟨rfl, hstop, fun _ => hkeep⟩
          | cons first front =>
            cases (List.cons.inj hsplit).1
            have hrest := hall front next back (List.cons.inj hsplit).2
            rw [List.append_assoc, List.singleton_append] at hrest
            exact hrest
        · exact hends.imp (congrArg Nat.succ)
            (Or.imp id (fun hrefused => ⟨List.cons_ne_nil _ _, hrefused.2⟩))

theorem emit_eq_or_differs (decoder : Decoder token) (choose : List token -> token)
    (budget : Nat) (out : List token) :
    decoder.emit budget out = { decoder with choose := choose }.emit budget out ∨
      exists more, out ++ more <+: decoder.emit budget out ∧
        decoder.choose (out ++ more) ≠ choose (out ++ more) := by
  induction budget generalizing out with
  | zero => exact Or.inl rfl
  | succ budget ih =>
    by_cases hsame : decoder.choose out = choose out
    · unfold emit
      dsimp only
      rw [<- hsame]
      split
      · exact Or.inl rfl
      · split
        · refine (ih (out ++ [decoder.choose out])).imp id ?_
          rintro ⟨more, hprefix, hdiffers⟩
          rw [List.append_assoc] at hprefix hdiffers
          exact ⟨_, hprefix, hdiffers⟩
        · exact Or.inl rfl
    · rcases emit_spec decoder (budget + 1) out with ⟨more, hemit, -⟩
      refine Or.inr ⟨[], ?_, ?_⟩
      · rw [hemit, List.append_nil]
        exact List.prefix_append _ _
      · rw [List.append_nil]
        exact hsame

/-!
# Agreeing with a decoder
-/

/-- A candidate for the next token that leads another loop, with its own stop
test, to the decision of the decoder: both stop, or both emit the same token. -/
def Agrees (decoder : Decoder token) (stops : token -> Bool) (out : List token)
    (candidate : token) : Prop :=
  if stops candidate = true then decoder.stops (decoder.choose out) = true
  else candidate = decoder.choose out ∧ decoder.stops candidate = false

theorem agrees_choose (decoder : Decoder token) (out : List token) :
    decoder.Agrees decoder.stops out (decoder.choose out) := by
  unfold Agrees
  split
  · rename_i hstops
    exact hstops
  · rename_i hstops
    exact ⟨rfl, Bool.eq_false_iff.mpr hstops⟩

namespace Agrees

variable {decoder : Decoder token} {stops : token -> Bool} {out : List token}
  {candidate : token}

section

variable (h : decoder.Agrees stops out candidate)
include h

theorem emit_of_stops (budget : Nat) (hstops : stops candidate = true) :
    decoder.emit budget out = out := by
  unfold Agrees at h
  rw [if_pos hstops] at h
  exact emit_stop budget h

theorem eq_choose (hstops : stops candidate = false) :
    candidate = decoder.choose out ∧ decoder.stops (decoder.choose out) = false := by
  unfold Agrees at h
  rw [if_neg (Bool.eq_false_iff.mp hstops)] at h
  constructor
  · exact h.1
  · rw [← h.1]
    exact h.2

theorem emit_of_refused (budget : Nat) (hstops : stops candidate = false)
    (hkeep : decoder.keepGoing (out ++ [candidate]) = false) :
    decoder.emit (budget + 1) out = out ++ [candidate] := by
  rcases h.eq_choose hstops with ⟨heq, hchoose⟩
  rw [heq] at hkeep ⊢
  exact emit_refuse budget hchoose hkeep

theorem emit_of_pushed (budget : Nat) (hstops : stops candidate = false)
    (hkeep : decoder.keepGoing (out ++ [candidate]) = true) :
    decoder.emit (budget + 1) out = decoder.emit budget (out ++ [candidate]) := by
  rcases h.eq_choose hstops with ⟨heq, hchoose⟩
  rw [heq] at hkeep ⊢
  exact emit_push budget hchoose hkeep

end

end Agrees

end Decoder

end Library
end RunNBurn
