import RunNBurn.Generate.Sampling
import RunNBurn.Library.Loop
import Mathlib.Order.Bounds.Basic

/-!
# One greedy round

The accept and emit accounting that every verify execution shares: a draft is
compared with the target, a stop token ends the round, and what is accepted is
emitted up to a limit, against the callback and the token budget.
-/

namespace RunNBurn
namespace Generate

open Library
open Inference

inductive RoundAction where
  | reject
  | stop
  | acceptWithoutEmit
  | emit
deriving DecidableEq, Repr

structure GreedyRound where
  accepted : Nat
  emitted : Nat
  stopped : Bool
  mismatchTarget : Option TokenId
deriving DecidableEq, Repr

namespace GreedyRound

def new : GreedyRound where
  accepted := 0
  emitted := 0
  stopped := false
  mismatchTarget := none

def observe (round : GreedyRound) (index : Nat) (draftToken targetToken : TokenId)
    (emitLimit : Nat) (params : GenerateParams) (eos : TokenId) : GreedyRound × RoundAction :=
  if targetToken ≠ draftToken then
    ({ round with mismatchTarget := some targetToken }, .reject)
  else if params.shouldStop draftToken eos then
    ({ round with stopped := true }, .stop)
  else if emitLimit <= index then
    ({ round with accepted := round.accepted + 1 }, .acceptWithoutEmit)
  else
    ({ round with
        accepted := round.accepted + 1
        emitted := round.emitted + 1 }, .emit)

/-- The round, the tokens remaining, and whether the walk goes on. -/
def afterEmit (round : GreedyRound) (keepGoing : Bool) (tokensRemaining : Nat) :
    Checked (GreedyRound × Nat × Bool) :=
  if tokensRemaining = 0 then abort "attempt to subtract with overflow"
  else if keepGoing = false then
    .ok ({ round with stopped := true }, tokensRemaining - 1, false)
  else .ok (round, tokensRemaining - 1, decide (tokensRemaining - 1 ≠ 0))

end GreedyRound

structure Harness where
  round : GreedyRound
  emitted : List TokenId
  remaining : Nat
deriving DecidableEq, Repr

structure DriveInput where
  draft : List TokenId
  target : List TokenId
  emitLimit : Nat
  params : GenerateParams
  eos : TokenId
  budget : Nat
  callbackRejectsAt : Option Nat

namespace DriveInput

def drivePosition (input : DriveInput) (i : Nat) (draftToken targetToken : TokenId)
    (harness : Harness) : Checked (Step Harness) :=
  match harness.round.observe i draftToken targetToken input.emitLimit input.params input.eos with
  | (round, .reject) => .ok (.done { harness with round := round })
  | (round, .stop) => .ok (.done { harness with round := round })
  | (round, .acceptWithoutEmit) => .ok (.next { harness with round := round })
  | (round, .emit) => do
      let emitted := harness.emitted ++ [draftToken]
      let keepGoing := decide (input.callbackRejectsAt ≠ some (emitted.length - 1))
      let (round, remaining, goesOn) <- round.afterEmit keepGoing harness.remaining
      let following : Harness :=
        { round := round
          emitted := emitted
          remaining := remaining }
      return if goesOn then .next following else .done following

def driveFrom (input : DriveInput) : Nat -> List TokenId -> Harness -> Checked Harness
  | _, [], harness => .ok harness
  | i, draftToken :: rest, harness => do
      let targetToken <- index input.target i
      match <- input.drivePosition i draftToken targetToken harness with
      | .next following => driveFrom input (i + 1) rest following
      | .done final => return final

def drive (input : DriveInput) : Checked Harness :=
  input.driveFrom 0 input.draft
    { round := GreedyRound.new
      emitted := []
      remaining := input.budget }

/-!
# The accepted prefix
-/

variable (input : DriveInput)

/-- The token at `i` is emitted, and refused by the callback or the last of the
budget. -/
def EndsRound (i : Nat) : Prop :=
  i < input.emitLimit ∧ (input.callbackRejectsAt = some i ∨ i + 1 = input.budget)

/-- The first `n` drafts match, hold no stop token, and end no later than the
emitted token that ends the round. -/
structure Acceptable (n : Nat) : Prop where
  le_length : n <= input.draft.length
  matched : forall i, i < n -> input.draft[i]? = input.target[i]?
  unstopped : forall i token, i < n -> input.draft[i]? = some token ->
    input.params.shouldStop token input.eos = false
  unended : forall i, i + 1 < n -> ¬ input.EndsRound i

/-- The walk comes to position `n`. -/
structure Passed (n : Nat) : Prop where
  acceptable : input.Acceptable n
  unended : forall i, i + 1 = n -> ¬ input.EndsRound i

/-- The walk comes to a draft that is not the target's token. -/
structure EndsByMismatch (n : Nat) (targetToken : TokenId) : Prop where
  passed : input.Passed n
  lt_length : n < input.draft.length
  target_eq : input.target[n]? = some targetToken
  mismatch : input.draft[n]? ≠ some targetToken

structure Driven (harness : Harness) : Prop where
  accepted : IsGreatest (fun n => input.Acceptable n) harness.round.accepted
  emitted_eq : harness.emitted = input.draft.take (min harness.round.accepted input.emitLimit)
  emitted_count : harness.round.emitted = harness.emitted.length
  budget_eq : harness.remaining + harness.emitted.length = input.budget
  mismatch_iff : forall targetToken, harness.round.mismatchTarget = some targetToken ↔
    input.EndsByMismatch harness.round.accepted targetToken

/-- What holds where the walk comes to position `i`. -/
structure Driving (i : Nat) (harness : Harness) : Prop where
  passed : input.Passed i
  accepted_eq : harness.round.accepted = i
  emitted_eq : harness.emitted = input.draft.take (min i input.emitLimit)
  emitted_count : harness.round.emitted = harness.emitted.length
  budget_eq : harness.remaining + harness.emitted.length = input.budget
  remaining_pos : 0 < harness.remaining
  mismatch_eq : harness.round.mismatchTarget = none

variable {input} {i : Nat} {token : TokenId}

theorem Passed.next (h : input.Passed i) (hdraft : input.draft[i]? = some token)
    (htarget : input.target[i]? = some token)
    (hstop : input.params.shouldStop token input.eos = false) :
    input.Acceptable (i + 1) where
  le_length := (List.getElem?_eq_some_iff.mp hdraft).1
  matched j hj := by
    rcases Nat.lt_succ_iff_lt_or_eq.mp hj with hlt | heq
    · exact h.acceptable.matched j hlt
    · rw [heq, hdraft, htarget]
  unstopped j other hj hother := by
    rcases Nat.lt_succ_iff_lt_or_eq.mp hj with hlt | heq
    · exact h.acceptable.unstopped j other hlt hother
    · rw [heq, hdraft] at hother
      cases hother
      exact hstop
  unended j hj := by
    rcases Nat.lt_succ_iff_lt_or_eq.mp hj with hlt | heq
    · exact h.acceptable.unended j hlt
    · exact h.unended j heq

theorem Acceptable.greatest {n : Nat} (h : input.Acceptable n)
    (hblocked : ¬ input.Acceptable (n + 1)) :
    IsGreatest (fun n => input.Acceptable n) n := by
  constructor
  · exact h
  · intro m hm
    by_contra hgt
    have hle : n + 1 <= m := Nat.lt_of_not_le hgt
    apply hblocked
    constructor
    · exact Nat.le_trans hle hm.le_length
    · intro i hi
      exact hm.matched i (Nat.lt_of_lt_of_le hi hle)
    · intro i token hi
      exact hm.unstopped i token (Nat.lt_of_lt_of_le hi hle)
    · intro i hi
      exact hm.unended i (Nat.lt_of_lt_of_le hi hle)

theorem not_endsByMismatch_of_matched {n : Nat} {targetToken : TokenId}
    (h : input.draft[n]? = input.target[n]?) : ¬ input.EndsByMismatch n targetToken := by
  intro hends
  apply hends.mismatch
  rw [h]
  exact hends.target_eq

variable {harness : Harness}

theorem Driving.length_emitted (h : input.Driving i harness) :
    harness.emitted.length = min i input.emitLimit := by
  rw [h.emitted_eq, List.length_take]
  exact Nat.min_eq_left (Nat.le_trans (Nat.min_le_left _ _) h.passed.acceptable.le_length)

theorem Driving.rejected {draftToken targetToken : TokenId} (h : input.Driving i harness)
    (hdraft : input.draft[i]? = some draftToken) (htarget : input.target[i]? = some targetToken)
    (hne : targetToken ≠ draftToken) :
    input.Driven { harness with
      round := { harness.round with mismatchTarget := some targetToken } } := by
  have haccepted : harness.round.accepted = i := h.accepted_eq
  constructor
  · show IsGreatest _ harness.round.accepted
    rw [haccepted]
    apply h.passed.acceptable.greatest
    intro hnext
    have hmatched := hnext.matched i (Nat.lt_succ_self i)
    rw [hdraft, htarget] at hmatched
    exact hne (Option.some.inj hmatched).symm
  · show harness.emitted = input.draft.take (min harness.round.accepted input.emitLimit)
    rw [haccepted]
    exact h.emitted_eq
  · exact h.emitted_count
  · exact h.budget_eq
  · intro other
    show some targetToken = some other ↔ input.EndsByMismatch harness.round.accepted other
    rw [haccepted]
    constructor
    · intro hother
      cases hother
      constructor
      · exact h.passed
      · exact (List.getElem?_eq_some_iff.mp hdraft).1
      · exact htarget
      · rw [hdraft]
        intro heq
        exact hne (Option.some.inj heq).symm
    · intro hends
      rw [← htarget]
      exact hends.target_eq

section

variable (h : input.Driving i harness) (hdraft : input.draft[i]? = some token)
  (htarget : input.target[i]? = some token)
include h hdraft htarget

theorem Driving.stopped (hstop : input.params.shouldStop token input.eos = true) :
    input.Driven { harness with
      round := { harness.round with stopped := true } } := by
  have haccepted : harness.round.accepted = i := h.accepted_eq
  constructor
  · show IsGreatest _ harness.round.accepted
    rw [haccepted]
    apply h.passed.acceptable.greatest
    intro hnext
    have hunstopped := hnext.unstopped i token (Nat.lt_succ_self i) hdraft
    rw [hstop] at hunstopped
    cases hunstopped
  · show harness.emitted = input.draft.take (min harness.round.accepted input.emitLimit)
    rw [haccepted]
    exact h.emitted_eq
  · exact h.emitted_count
  · exact h.budget_eq
  · intro other
    show harness.round.mismatchTarget = some other ↔
      input.EndsByMismatch harness.round.accepted other
    rw [haccepted, h.mismatch_eq]
    constructor
    · intro hnone
      cases hnone
    · intro hends
      exact absurd hends (not_endsByMismatch_of_matched (hdraft.trans htarget.symm))

theorem Driving.accepted
    (hstop : input.params.shouldStop token input.eos = false) (hpast : input.emitLimit <= i) :
    input.Driving (i + 1) { harness with
      round := { harness.round with accepted := harness.round.accepted + 1 } } := by
  have hlimit : min (i + 1) input.emitLimit = min i input.emitLimit := by
    rw [Nat.min_eq_right hpast, Nat.min_eq_right (Nat.le_succ_of_le hpast)]
  constructor
  · constructor
    · exact h.passed.next hdraft htarget hstop
    · intro j hj hends
      cases hj
      exact Nat.not_lt_of_le hpast hends.1
  · exact congrArg (· + 1) h.accepted_eq
  · rw [hlimit]
    exact h.emitted_eq
  · exact h.emitted_count
  · exact h.budget_eq
  · exact h.remaining_pos
  · exact h.mismatch_eq

theorem Driving.emitted
    (hstop : input.params.shouldStop token input.eos = false) (hlimit : i < input.emitLimit)
    (stopped : Bool) :
    let following : Harness :=
      { round :=
          { harness.round with
            accepted := harness.round.accepted + 1
            emitted := harness.round.emitted + 1
            stopped := stopped }
        emitted := harness.emitted ++ [token]
        remaining := harness.remaining - 1 }
    (input.EndsRound i -> input.Driven following) ∧
      (¬ input.EndsRound i -> input.Driving (i + 1) following) := by
  dsimp only
  have haccepted : harness.round.accepted + 1 = i + 1 := congrArg (· + 1) h.accepted_eq
  have hnext := h.passed.next hdraft htarget hstop
  have hpos := h.remaining_pos
  have hlength : harness.emitted.length = i := by
    rw [h.length_emitted, Nat.min_eq_left (Nat.le_of_lt hlimit)]
  have hbudget := h.budget_eq
  have htake : harness.emitted ++ [token] =
      input.draft.take (min (i + 1) input.emitLimit) := by
    rw [h.emitted_eq, Nat.min_eq_left (Nat.le_of_lt hlimit),
      Nat.min_eq_left (Nat.succ_le_of_lt hlimit), List.take_add_one, hdraft]
    rfl
  have hcount : harness.round.emitted + 1 = (harness.emitted ++ [token]).length := by
    rw [List.length_append, h.emitted_count]
    rfl
  have hspent : harness.remaining - 1 + (harness.emitted ++ [token]).length = input.budget := by
    rw [List.length_append, List.length_singleton]
    omega
  constructor
  · intro hends
    constructor
    · show IsGreatest _ (harness.round.accepted + 1)
      rw [haccepted]
      apply hnext.greatest
      intro hbeyond
      exact hbeyond.unended i (Nat.lt_succ_self (i + 1)) hends
    · show _ = input.draft.take (min (harness.round.accepted + 1) input.emitLimit)
      rw [haccepted]
      exact htake
    · exact hcount
    · exact hspent
    · intro other
      show harness.round.mismatchTarget = some other ↔
        input.EndsByMismatch (harness.round.accepted + 1) other
      rw [haccepted, h.mismatch_eq]
      constructor
      · intro hnone
        cases hnone
      · intro hmismatch
        exact absurd hends (hmismatch.passed.unended i rfl)
  · intro hgoesOn
    constructor
    · constructor
      · exact hnext
      · intro j hj
        cases hj
        exact hgoesOn
    · exact haccepted
    · exact htake
    · exact hcount
    · exact hspent
    · show 0 < harness.remaining - 1
      have hbefore : i + 1 ≠ input.budget := fun heq => hgoesOn ⟨hlimit, Or.inr heq⟩
      omega
    · exact h.mismatch_eq

end

theorem drivePosition_delivers {draftToken targetToken : TokenId} (h : input.Driving i harness)
    (hdraft : input.draft[i]? = some draftToken) (htarget : input.target[i]? = some targetToken) :
    Delivers (input.drivePosition i draftToken targetToken harness)
      (Step.Satisfies (input.Driving (i + 1)) input.Driven) := by
  unfold drivePosition GreedyRound.observe
  by_cases hne : targetToken = draftToken
  · rw [if_neg (not_not.mpr hne)]
    subst hne
    cases hstop : input.params.shouldStop targetToken input.eos with
    | true =>
      rw [if_pos rfl]
      exact delivers_ok (h.stopped hdraft htarget hstop)
    | false =>
      rw [if_neg Bool.false_ne_true]
      by_cases hpast : input.emitLimit <= i
      · rw [if_pos hpast]
        exact delivers_ok (h.accepted hdraft htarget hstop hpast)
      · rw [if_neg hpast]
        have hlimit : i < input.emitLimit := Nat.lt_of_not_le hpast
        have hpos := h.remaining_pos
        have hbudget := h.budget_eq
        have hlength := h.length_emitted
        rw [Nat.min_eq_left (Nat.le_of_lt hlimit)] at hlength
        have hindex : (harness.emitted ++ [targetToken]).length - 1 = i := by
          rw [List.length_append, hlength]
          rfl
        dsimp only
        rw [hindex]
        unfold GreedyRound.afterEmit
        rw [if_neg (Nat.ne_of_gt hpos)]
        by_cases hrefused : input.callbackRejectsAt = some i
        · rw [decide_eq_false (not_not.mpr hrefused), if_pos rfl]
          exact delivers_ok ((h.emitted hdraft htarget hstop hlimit true).1
            ⟨hlimit, Or.inl hrefused⟩)
        · rw [decide_eq_true hrefused, if_neg Bool.false_ne_true.symm]
          by_cases hspent : harness.remaining - 1 = 0
          · rw [decide_eq_false (not_not.mpr hspent)]
            have hlast : i + 1 = input.budget := by omega
            exact delivers_ok ((h.emitted hdraft htarget hstop hlimit harness.round.stopped).1
              ⟨hlimit, Or.inr hlast⟩)
          · rw [decide_eq_true hspent]
            refine delivers_ok ((h.emitted hdraft htarget hstop hlimit harness.round.stopped).2 ?_)
            intro hends
            rcases hends.2 with hrejects | hlast
            · exact hrefused hrejects
            · omega
  · rw [if_pos hne]
    exact delivers_ok (h.rejected hdraft htarget hne)

theorem driveFrom_delivers {rest : List TokenId}
    (hlength : input.draft.length <= input.target.length) (hrest : input.draft.drop i = rest)
    (h : input.Driving i harness) :
    Delivers (input.driveFrom i rest harness) input.Driven := by
  induction rest generalizing i harness with
  | nil =>
    apply delivers_ok
    have hend : input.draft.length <= i := List.drop_eq_nil_iff.mp hrest
    have haccepted : harness.round.accepted = i := h.accepted_eq
    constructor
    · rw [haccepted]
      apply h.passed.acceptable.greatest
      intro hnext
      exact Nat.not_lt_of_le hend hnext.le_length
    · rw [haccepted]
      exact h.emitted_eq
    · exact h.emitted_count
    · exact h.budget_eq
    · intro other
      rw [haccepted, h.mismatch_eq]
      constructor
      · intro hnone
        cases hnone
      · intro hends
        exact absurd hends.lt_length (Nat.not_lt_of_le hend)
  | cons draftToken rest ih =>
    have hdraft : input.draft[i]? = some draftToken := by
      have hhead := List.head?_drop (l := input.draft) (i := i)
      rw [hrest] at hhead
      exact hhead.symm
    have hi : i < input.target.length :=
      Nat.lt_of_lt_of_le (List.getElem?_eq_some_iff.mp hdraft).1 hlength
    have htarget := List.getElem?_eq_getElem hi
    have htail : input.draft.drop (i + 1) = rest := by
      rw [← List.tail_drop, hrest]
      rfl
    unfold driveFrom
    rw [index_of_getElem?_eq_some htarget, ok_bind]
    refine (drivePosition_delivers h hdraft htarget).bind ?_
    intro step hstep
    cases step with
    | next following => exact ih htail hstep
    | done final => exact delivers_ok hstep

theorem drive_exact (input : DriveInput) (hlength : input.draft.length <= input.target.length)
    (hbudget : 0 < input.budget) :
    Delivers input.drive input.Driven := by
  apply driveFrom_delivers hlength rfl
  constructor
  · constructor
    · constructor
      · exact Nat.zero_le _
      · intro i hi
        exact absurd hi (Nat.not_lt_zero i)
      · intro i _ hi
        exact absurd hi (Nat.not_lt_zero i)
      · intro i hi
        exact absurd hi (Nat.not_lt_zero _)
    · intro i hi
      cases hi
  · rfl
  · rw [Nat.zero_min]
    rfl
  · rfl
  · rfl
  · exact hbudget
  · rfl

def refusedInput : DriveInput where
  draft := [10, 11, 12]
  target := [10, 11, 12]
  emitLimit := 3
  params :=
    { maxTokens := 8
      temperature := 0
      repetitionPenalty := 1
      presencePenalty := 0
      frequencyPenalty := 0
      mirostat := false
      stopTokens := []
      ignoreEos := false
      specK := 4 }
  eos := 99
  budget := 8
  callbackRejectsAt := some 1

theorem drive_exact_refused : Delivers refusedInput.drive refusedInput.Driven :=
  drive_exact refusedInput (by decide) (by decide)

end DriveInput

end Generate
end RunNBurn
