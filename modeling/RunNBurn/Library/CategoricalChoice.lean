import Mathlib.Algebra.Order.Field.Basic
import Mathlib.Algebra.BigOperators.Ring.List

/-!
# Choice by running sums

A draw is compared with the running sums of a list of weights, and the first
label whose sum it does not exceed is chosen.  A positive draw chooses a label of
positive weight, a zero draw the first label whatever its weight.
-/

namespace RunNBurn
namespace Library

variable {iota K : Type} [Field K] [LinearOrder K]

def runningChoice (r : K) : K -> List (K × iota) -> Option iota
  | _, [] => none
  | cumsum, (weight, label) :: rest =>
    if r <= cumsum + weight then some label else runningChoice r (cumsum + weight) rest

variable {weights : List (K × iota)} {r start : K}

theorem runningChoice_mem {label : iota} (h : runningChoice r start weights = some label) :
    exists weight, (weight, label) ∈ weights := by
  induction weights generalizing start with
  | nil => cases h
  | cons head rest ih =>
    unfold runningChoice at h
    split at h
    · cases h
      exact ⟨head.1, List.mem_cons_self⟩
    · rcases ih h with ⟨weight, hweight⟩
      exact ⟨weight, List.mem_cons_of_mem head hweight⟩

theorem exists_runningChoice (hweights : weights ≠ [])
    (h : r <= start + (weights.map Prod.fst).sum) :
    exists label, runningChoice r start weights = some label := by
  induction weights generalizing start with
  | nil => exact absurd rfl hweights
  | cons head rest ih =>
    unfold runningChoice
    split
    · exact ⟨head.2, rfl⟩
    · rename_i hpast
      rw [List.map_cons, List.sum_cons, ← add_assoc] at h
      apply ih _ h
      intro hrest
      rw [hrest, List.map_nil, List.sum_nil, add_zero] at h
      exact hpast h

theorem runningChoice_zero {weight : K} {label : iota} {rest : List (K × iota)} (h : 0 <= weight) :
    runningChoice 0 0 ((weight, label) :: rest) = some label := by
  unfold runningChoice
  rw [zero_add, if_pos h]

theorem runningChoice_filter {alpha : Type} {weight : alpha -> K} {label : alpha -> iota}
    {keep : alpha -> Bool} {items : List alpha} (hstart : start < r)
    (hdropped : forall item, item ∈ items -> keep item = false -> weight item = 0) :
    runningChoice r start ((items.filter keep).map (fun item => (weight item, label item))) =
      runningChoice r start (items.map (fun item => (weight item, label item))) := by
  induction items generalizing start with
  | nil => rfl
  | cons item rest ih =>
    have hrest : forall other, other ∈ rest -> keep other = false -> weight other = 0 :=
      fun other hother => hdropped other (List.mem_cons_of_mem item hother)
    cases hkeep : keep item with
    | true =>
      rw [List.filter_cons_of_pos hkeep, List.map_cons, List.map_cons]
      unfold runningChoice
      split
      · rfl
      · rename_i hpast
        exact ih (lt_of_not_ge hpast) hrest
    | false =>
      have hzero := hdropped item List.mem_cons_self hkeep
      have hskip : ¬ r <= start + weight item := by
        rw [hzero, add_zero, not_le]
        exact hstart
      rw [List.filter_cons_of_neg (by rw [hkeep]; exact Bool.false_ne_true), List.map_cons]
      rw [ih hstart hrest]
      conv_rhs => unfold runningChoice
      rw [if_neg hskip, hzero, add_zero]

omit [LinearOrder K] in
theorem sum_map_filter {alpha : Type} {weight : alpha -> K} {keep : alpha -> Bool}
    {items : List alpha}
    (hdropped : forall item, item ∈ items -> keep item = false -> weight item = 0) :
    ((items.filter keep).map weight).sum = (items.map weight).sum := by
  induction items with
  | nil => rfl
  | cons item rest ih =>
    have hrest := ih (fun other hother => hdropped other (List.mem_cons_of_mem item hother))
    cases hkeep : keep item with
    | true =>
      rw [List.filter_cons_of_pos hkeep, List.map_cons, List.map_cons, List.sum_cons,
        List.sum_cons, hrest]
    | false =>
      have hzero := hdropped item List.mem_cons_self hkeep
      rw [List.filter_cons_of_neg (by rw [hkeep]; exact Bool.false_ne_true), List.map_cons,
        List.sum_cons, hzero, zero_add, hrest]

/-!
# Normalised weights
-/

def normalise (weights : List K) : List K :=
  let sum := weights.sum
  if 0 < sum then weights.map (fun weight => weight / sum) else weights

@[simp] theorem length_normalise (weights : List K) :
    (normalise weights).length = weights.length := by
  unfold normalise
  dsimp only
  split
  · exact List.length_map ..
  · rfl

@[simp] theorem normalise_nil : normalise ([] : List K) = [] :=
  List.length_eq_zero_iff.mp (length_normalise [])

theorem normalise_of_pos {weights : List K} (h : 0 < weights.sum) :
    normalise weights = weights.map (fun weight => weight / weights.sum) :=
  if_pos h

theorem sum_normalise {weights : List K} (h : 0 < weights.sum) :
    (normalise weights).sum = 1 := by
  rw [normalise_of_pos h]
  have hdiv : (weights.map (fun weight => weight / weights.sum)).sum =
      weights.sum / weights.sum := by
    simp only [div_eq_mul_inv, List.sum_map_mul_right, List.map_id']
  rw [hdiv]
  exact div_self (ne_of_gt h)

end Library
end RunNBurn
