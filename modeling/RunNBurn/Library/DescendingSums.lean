import Mathlib.Algebra.Order.BigOperators.Group.List
import Mathlib.Algebra.Order.Group.Defs

/-!
# Sums of a descending list

Among the sublists of a given length of a descending list, its first entries have
the largest sum.
-/

namespace RunNBurn
namespace Library

variable {K : Type} [AddCommGroup K] [LinearOrder K] [IsOrderedAddMonoid K]

theorem sum_take_tail_le {first : K} {rest : List K} {n : Nat}
    (hsorted : (first :: rest).Pairwise (fun a b => b <= a)) (hn : n <= rest.length) :
    (rest.take n).sum <= ((first :: rest).take n).sum := by
  induction n generalizing first rest with
  | zero => exact le_refl _
  | succ n ih =>
    cases rest with
    | nil => cases hn
    | cons second rest =>
      have hpairs := List.pairwise_cons.mp hsorted
      have hfirst : second <= first := hpairs.1 second List.mem_cons_self
      have hrest := ih hpairs.2 (Nat.le_of_succ_le_succ hn)
      rw [List.take_succ_cons, List.take_succ_cons, List.sum_cons, List.sum_cons]
      exact add_le_add hfirst hrest

theorem sum_le_sum_take_of_sublist {chosen values : List K} (hsub : chosen.Sublist values)
    (hsorted : values.Pairwise (fun a b => b <= a)) :
    chosen.sum <= (values.take chosen.length).sum := by
  induction hsub with
  | slnil => exact le_refl _
  | cons first hrest ih =>
    have hpairs := List.pairwise_cons.mp hsorted
    exact le_trans (ih hpairs.2) (sum_take_tail_le hsorted hrest.length_le)
  | cons_cons first hrest ih =>
    have hpairs := List.pairwise_cons.mp hsorted
    rw [List.length_cons, List.take_succ_cons, List.sum_cons, List.sum_cons]
    exact add_le_add (le_refl first) (ih hpairs.2)

theorem sum_take_le_sum_take {values : List K} {m n : Nat}
    (hnonneg : forall value, value ∈ values -> 0 <= value) (h : m <= n) :
    (values.take m).sum <= (values.take n).sum := by
  apply List.Sublist.sum_le_sum (List.take_sublist_take_left h)
  intro value hvalue
  exact hnonneg value (List.mem_of_mem_take hvalue)

end Library
end RunNBurn
