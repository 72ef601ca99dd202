import Mathlib.Data.List.Sort
import Mathlib.Order.Defs.LinearOrder

/-!
# The k-th largest of a list

The selection of the k-th value in descending order, and what it says of the
values above any bound.
-/

namespace RunNBurn
namespace Library

variable {alpha : Type} [LinearOrder alpha]

def descending (values : List alpha) : List alpha :=
  values.mergeSort (fun a b => decide (b <= a))

def kthLargest (k : Nat) (values : List alpha) : Option alpha :=
  (descending values)[k - 1]?

theorem descending_perm (values : List alpha) : (descending values).Perm values :=
  List.mergeSort_perm values _

theorem pairwise_descending (values : List alpha) :
    (descending values).Pairwise (fun a b => b <= a) := by
  have hsorted : (descending values).Pairwise (fun a b => decide (b <= a) = true) := by
    apply List.pairwise_mergeSort
    · intro a b c hab hbc
      exact decide_eq_true (le_trans (of_decide_eq_true hbc) (of_decide_eq_true hab))
    · intro a b
      simpa using le_total b a
  exact hsorted.imp (fun h => of_decide_eq_true h)

variable {values : List alpha} {value : alpha}

/-- In a descending list an upward closed property holds of the value at `n` exactly
when more than `n` values have it. -/
theorem holds_iff_countP_of_pairwise {n : Nat} (holds : alpha -> Bool)
    (hup : forall a b, a <= b -> holds a = true -> holds b = true)
    (hsorted : values.Pairwise (fun a b => b <= a)) (hvalue : values[n]? = some value) :
    holds value = true ↔ n + 1 <= values.countP holds := by
  induction values generalizing n with
  | nil => cases hvalue
  | cons x rest ih =>
    have hbelow := (List.pairwise_cons.mp hsorted).1
    have hrest := (List.pairwise_cons.mp hsorted).2
    cases n with
    | zero =>
      have hx : x = value := by simpa using hvalue
      subst hx
      constructor
      · intro hholds
        rw [List.countP_cons_of_pos hholds]
        exact Nat.succ_le_succ (Nat.zero_le _)
      · intro hcount
        rcases List.countP_pos_iff.mp hcount with ⟨y, hy, hholds⟩
        cases hy with
        | head => exact hholds
        | tail _ hy => exact hup y x (hbelow y hy) hholds
    | succ n =>
      have hvalue : rest[n]? = some value := by simpa using hvalue
      have hle : value <= x := hbelow value (List.mem_of_getElem? hvalue)
      by_cases hx : holds x = true
      · rw [List.countP_cons_of_pos hx, ih hrest hvalue]
        exact (Nat.succ_le_succ_iff).symm
      · rw [List.countP_cons_of_neg hx, ih hrest hvalue]
        have hnone : rest.countP holds = 0 := by
          apply List.countP_eq_zero.mpr
          intro y hy hholds
          exact hx (hup y x (hbelow y hy) hholds)
        rw [hnone]
        constructor
        · intro hcount
          cases hcount
        · intro hcount
          cases hcount

variable {k : Nat}

theorem holds_kthLargest_iff (holds : alpha -> Bool)
    (hup : forall a b, a <= b -> holds a = true -> holds b = true) (hk : 0 < k)
    (h : kthLargest k values = some value) :
    holds value = true ↔ k <= values.countP holds := by
  have hiff := holds_iff_countP_of_pairwise holds hup (pairwise_descending values) h
  rw [(descending_perm values).countP_eq, Nat.sub_add_cancel hk] at hiff
  exact hiff

theorem lt_kthLargest_iff (bound : alpha) (hk : 0 < k) (h : kthLargest k values = some value) :
    bound < value ↔ k <= values.countP (fun x => decide (bound < x)) := by
  rw [← holds_kthLargest_iff _ _ hk h, decide_eq_true_iff]
  intro a b hab ha
  exact decide_eq_true (lt_of_lt_of_le (of_decide_eq_true ha) hab)

theorem le_kthLargest_iff (bound : alpha) (hk : 0 < k) (h : kthLargest k values = some value) :
    bound <= value ↔ k <= values.countP (fun x => decide (bound <= x)) := by
  rw [← holds_kthLargest_iff _ _ hk h, decide_eq_true_iff]
  intro a b hab ha
  exact decide_eq_true (le_trans (of_decide_eq_true ha) hab)

theorem kthLargest_mem (h : kthLargest k values = some value) :
    value ∈ values :=
  (descending_perm values).mem_iff.mp (List.mem_of_getElem? h)

theorem exists_kthLargest (h : k - 1 < values.length) :
    exists value, kthLargest k values = some value := by
  have hlt : k - 1 < (descending values).length := by
    rw [(descending_perm values).length_eq]
    exact h
  exact ⟨_, List.getElem?_eq_getElem hlt⟩

theorem kthLargest_eq_of_countP (hk : 0 < k)
    (hreach : k <= values.countP (fun x => decide (value <= x)))
    (habove : values.countP (fun x => decide (value < x)) < k) :
    kthLargest k values = some value := by
  have hlength := le_trans hreach List.countP_le_length
  rcases exists_kthLargest (lt_of_lt_of_le (Nat.sub_lt hk Nat.one_pos) hlength) with
    ⟨found, hfound⟩
  have hle := (le_kthLargest_iff value hk hfound).mpr hreach
  have hnlt : ¬ value < found := by
    intro hlt
    exact Nat.not_le_of_lt habove ((lt_kthLargest_iff value hk hfound).mp hlt)
  rw [hfound, le_antisymm (not_lt.mp hnlt) hle]

end Library
end RunNBurn
