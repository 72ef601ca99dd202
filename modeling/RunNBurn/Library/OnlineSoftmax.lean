import Mathlib.Algebra.BigOperators.GroupWithZero.Action
import Mathlib.Algebra.BigOperators.Ring.List
import Mathlib.Algebra.Module.LinearMap.Defs
import Mathlib.Algebra.Module.Pi
import Mathlib.Algebra.Order.BigOperators.Group.List
import Mathlib.Algebra.Order.Field.Basic

/-!
# Online softmax

A softmax average is kept as a reference score, the sum of the weights below it, and
the weighted sum of the values.  Whatever reference is chosen, and however often it is
changed on the way, the quotient of the two sums is the same.
-/

namespace RunNBurn
namespace Library

structure Exponential {F : Type} [Field F] (exp : F -> F) : Prop where
  add : forall a b, exp (a + b) = exp a * exp b
  zero : exp 0 = 1

namespace Exponential

variable {F : Type} [Field F] {exp : F -> F} (h : Exponential exp)
include h

theorem rescale (score old new : F) : exp (score - old) * exp (old - new) = exp (score - new) := by
  rw [← h.add, sub_add_sub_cancel]

theorem self (score : F) : exp (score - score) = 1 := by
  rw [sub_self, h.zero]

theorem mul_neg (a : F) : exp a * exp (-a) = 1 := by
  rw [← h.add, add_neg_cancel, h.zero]

theorem ne_zero (a : F) : exp a ≠ 0 := by
  intro hzero
  have hone := h.mul_neg a
  rw [hzero, zero_mul] at hone
  exact zero_ne_one hone

theorem pos [LinearOrder F] [IsStrictOrderedRing F] (a : F) : 0 < exp a := by
  have hhalf : exp a = exp (a / 2) * exp (a / 2) := by
    rw [← h.add, add_halves]
  rw [hhalf]
  exact mul_self_pos.mpr (h.ne_zero (a / 2))

end Exponential

/-!
# Weights below a reference
-/

section Weights

variable {F V : Type} [Field F]

def weightSum (exp : F -> F) (reference : F) (items : List (F × V)) : F :=
  (items.map fun item => exp (item.1 - reference)).sum

variable (exp : F -> F) (reference : F) (left right items : List (F × V))

theorem weightSum_append :
    weightSum exp reference (left ++ right) =
      weightSum exp reference left + weightSum exp reference right := by
  simp [weightSum]

theorem weightSum_singleton (score : F) (value : V) :
    weightSum exp reference [(score, value)] = exp (score - reference) := by
  simp [weightSum]

theorem weightSum_map {W : Type} (transform : V -> W) :
    weightSum exp reference (items.map fun item => (item.1, transform item.2)) =
      weightSum exp reference items := by
  unfold weightSum
  rw [List.map_map]
  rfl

theorem weightSum_zero :
    weightSum exp 0 items = (items.map fun item => exp item.1).sum := by
  unfold weightSum
  apply congrArg
  apply List.map_congr_left
  intro item _
  rw [sub_zero]

variable {exp}

theorem weightSum_rescale (h : Exponential exp) (old new : F) :
    weightSum exp old items * exp (old - new) = weightSum exp new items := by
  unfold weightSum
  rw [← List.sum_map_mul_right]
  apply congrArg
  apply List.map_congr_left
  intro item _
  exact h.rescale item.1 old new

theorem weightSum_pos [LinearOrder F] [IsStrictOrderedRing F] {items : List (F × V)}
    (h : Exponential exp) (hne : items ≠ []) :
    0 < weightSum exp reference items := by
  apply List.sum_pos
  · intro weight hweight
    rcases List.mem_map.mp hweight with ⟨item, _, hitem⟩
    rw [← hitem]
    exact h.pos _
  · intro hnil
    exact hne (List.map_eq_nil_iff.mp hnil)

end Weights

section Values

variable {F V : Type} [Field F] [AddCommGroup V] [Module F V]

def weightedSum (exp : F -> F) (reference : F) (items : List (F × V)) : V :=
  (items.map fun item => exp (item.1 - reference) • item.2).sum

variable (exp : F -> F) (reference : F) (left right items : List (F × V))

@[simp] theorem weightedSum_nil : weightedSum exp reference ([] : List (F × V)) = 0 := rfl

theorem weightedSum_append :
    weightedSum exp reference (left ++ right) =
      weightedSum exp reference left + weightedSum exp reference right := by
  simp [weightedSum]

theorem weightedSum_singleton (score : F) (value : V) :
    weightedSum exp reference [(score, value)] = exp (score - reference) • value := by
  simp [weightedSum]

theorem weightedSum_map {W : Type} [AddCommGroup W] [Module F W] (transform : V →ₗ[F] W) :
    weightedSum exp reference (items.map fun item => (item.1, transform item.2)) =
      transform (weightedSum exp reference items) := by
  unfold weightedSum
  rw [map_list_sum, List.map_map, List.map_map]
  apply congrArg
  apply List.map_congr_left
  intro item _
  exact (transform.map_smul _ _).symm

theorem weightedSum_zero_apply {index : Type} (items : List (F × (index -> F))) (i : index) :
    weightedSum exp 0 items i = (items.map fun item => exp item.1 * item.2 i).sum := by
  induction items with
  | nil => rfl
  | cons item rest ih =>
    rw [List.map_cons, List.sum_cons, ← ih]
    unfold weightedSum
    rw [List.map_cons, List.sum_cons, sub_zero]
    rfl

variable {exp}

theorem weightedSum_rescale (h : Exponential exp) (old new : F) :
    exp (old - new) • weightedSum exp old items = weightedSum exp new items := by
  unfold weightedSum
  rw [List.smul_sum, List.map_map]
  apply congrArg
  apply List.map_congr_left
  intro item _
  show exp (old - new) • exp (item.1 - old) • item.2 = _
  rw [smul_smul, mul_comm, h.rescale]

end Values

/-!
# Running sums
-/

variable {F V : Type} [Field F] [AddCommGroup V] [Module F V]

inductive Accumulates (exp : F -> F) :
    List (F × V) -> Option F -> F -> V -> Prop where
  | empty : Accumulates exp [] none 0 0
  | below {items : List (F × V)} (reference : F) :
      items ≠ [] ->
      Accumulates exp items (some reference) (weightSum exp reference items)
        (weightedSum exp reference items)

namespace Accumulates

variable {exp : F -> F} {items left right : List (F × V)} {sum leftSum rightSum : F}
  {numerator leftNumerator rightNumerator : V} {old leftReference rightReference : F}

theorem eq_nil (hstate : Accumulates exp items none sum numerator) : items = [] := by
  cases hstate
  rfl

theorem ne_nil (hstate : Accumulates exp items (some old) sum numerator) : items ≠ [] := by
  cases hstate with
  | below _ hne => exact hne

theorem first (h : Exponential exp) (hstate : Accumulates exp items none sum numerator)
    (score : F) (value : V) :
    Accumulates exp (items ++ [(score, value)]) (some score) (sum + 1)
      (numerator + (1 : F) • value) := by
  cases hstate
  have hnext : Accumulates exp [(score, value)] (some score) _ _ :=
    Accumulates.below score (List.cons_ne_nil _ _)
  rw [weightSum_singleton, weightedSum_singleton, h.self] at hnext
  rw [zero_add, zero_add]
  exact hnext

theorem above (h : Exponential exp)
    (hstate : Accumulates exp items (some old) sum numerator) (score : F) (value : V) :
    Accumulates exp (items ++ [(score, value)]) (some score) (sum * exp (old - score) + 1)
      (exp (old - score) • numerator + (1 : F) • value) := by
  cases hstate with
  | below _ hne =>
    have hnext : Accumulates exp (items ++ [(score, value)]) (some score) _ _ :=
      Accumulates.below score (List.append_ne_nil_of_left_ne_nil hne _)
    rw [weightSum_append, weightedSum_append, weightSum_singleton, weightedSum_singleton,
      h.self, ← weightSum_rescale items h old score,
      ← weightedSum_rescale items h old score] at hnext
    exact hnext

theorem push (hstate : Accumulates exp items (some old) sum numerator) (score : F) (value : V) :
    Accumulates exp (items ++ [(score, value)]) (some old) (sum + exp (score - old))
      (numerator + exp (score - old) • value) := by
  cases hstate with
  | below _ hne =>
    have hnext : Accumulates exp (items ++ [(score, value)]) (some old) _ _ :=
      Accumulates.below old (List.append_ne_nil_of_left_ne_nil hne _)
    rw [weightSum_append, weightedSum_append, weightSum_singleton, weightedSum_singleton]
      at hnext
    exact hnext

theorem merge (h : Exponential exp)
    (hleft : Accumulates exp left (some leftReference) leftSum leftNumerator)
    (hright : Accumulates exp right (some rightReference) rightSum rightNumerator) (reference : F) :
    Accumulates exp (left ++ right) (some reference)
      (leftSum * exp (leftReference - reference) + rightSum * exp (rightReference - reference))
      (exp (leftReference - reference) • leftNumerator +
        exp (rightReference - reference) • rightNumerator) := by
  cases hleft with
  | below _ hne =>
    cases hright with
    | below _ _ =>
      have hnext : Accumulates exp (left ++ right) (some reference) _ _ :=
        Accumulates.below reference (List.append_ne_nil_of_left_ne_nil hne _)
      rw [weightSum_append, weightedSum_append, ← weightSum_rescale left h leftReference reference,
        ← weightSum_rescale right h rightReference reference,
        ← weightedSum_rescale left h leftReference reference,
        ← weightedSum_rescale right h rightReference reference] at hnext
      exact hnext

variable {reference : Option F}

theorem map {W : Type} [AddCommGroup W] [Module F W]
    (hstate : Accumulates exp items reference sum numerator) (transform : V →ₗ[F] W) :
    Accumulates exp (items.map fun item => (item.1, transform item.2)) reference sum
      (transform numerator) := by
  cases hstate with
  | empty =>
    rw [map_zero]
    exact Accumulates.empty
  | below reference hne =>
    rw [← weightedSum_map, ← weightSum_map exp reference items transform]
    apply Accumulates.below
    intro hnil
    exact hne (List.map_eq_nil_iff.mp hnil)

theorem quotient (h : Exponential exp) (hstate : Accumulates exp items reference sum numerator) :
    sum⁻¹ • numerator = (weightSum exp 0 items)⁻¹ • weightedSum exp 0 items := by
  cases hstate with
  | empty => rw [weightedSum_nil, smul_zero, smul_zero]
  | below reference _ =>
    rw [← weightSum_rescale items h reference 0, ← weightedSum_rescale items h reference 0,
      mul_inv, mul_smul, inv_smul_smul₀ (h.ne_zero _)]

theorem sum_pos [LinearOrder F] [IsStrictOrderedRing F] (h : Exponential exp)
    (hstate : Accumulates exp items reference sum numerator) :
    0 < sum ↔ items ≠ [] := by
  cases hstate with
  | empty =>
    constructor
    · intro hpos
      exact absurd hpos (lt_irrefl 0)
    · intro hne
      exact absurd rfl hne
  | below reference hne =>
    constructor
    · intro _
      exact hne
    · intro _
      exact weightSum_pos reference h hne

end Accumulates

end Library
end RunNBurn
