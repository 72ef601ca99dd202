import Mathlib.Data.List.Sort
import RunNBurn.Library.Checked

/-!
# Partial sorting

A partial sort by a comparison puts one position right: what stands before it does not come
after it in the comparison, what stands behind it does not come before it.  It promises an
order only for comparisons that have one.
-/

namespace RunNBurn
namespace Library

section PartialSort

variable {item : Type}

structure PartialSort (item : Type) where
  run : (item -> item -> Ordering) -> Nat -> List item -> List item
  perm : forall compare nth items, (run compare nth items).Perm items
  ordered : forall {compare : item -> item -> Ordering} [Std.TransCmp compare]
    {nth items i j x y}, i <= nth -> nth <= j ->
    (run compare nth items)[i]? = some x -> (run compare nth items)[j]? = some y ->
    (compare x y).isLE = true

/-- `items.select_nth_unstable_by(nth, compare)` -/
def selectNthUnstableBy (sort : PartialSort item) (nth : Nat)
    (compare : item -> item -> Ordering) (items : List item) : Checked (List item) := do
  require (nth < items.length)
    s!"partition_at_index index {nth} greater than length of slice {items.length}"
  return sort.run compare nth items

theorem selectNthUnstableBy_of_lt (sort : PartialSort item) {nth : Nat} {items : List item}
    (compare : item -> item -> Ordering) (h : nth < items.length) :
    selectNthUnstableBy sort nth compare items = .ok (sort.run compare nth items) := by
  unfold selectNthUnstableBy
  rw [require_of_true _ h, ok_bind]
  rfl

/-- `items.sort_unstable_by(compare)`: items that compare equal come in any order. -/
structure UnstableSort (item : Type) where
  run : (item -> item -> Ordering) -> List item -> List item
  perm : forall compare items, (run compare items).Perm items

def UnstableSort.ofInsertionSort : UnstableSort item where
  run := fun compare items => items.insertionSort (fun x y => (compare x y).isLE = true)
  perm := fun _ items => List.perm_insertionSort _ items

namespace PartialSort

def ofInsertionSort : PartialSort item where
  run := fun compare _ items => items.insertionSort (fun x y => (compare x y).isLE = true)
  perm := fun _ _ items => List.perm_insertionSort _ items
  ordered := by
    intro compare hcompare nth items i j x y hi hj hx hy
    have htotal : Std.Total (fun x y => (compare x y).isLE = true) :=
      ⟨fun x y => by
        rw [@Std.OrientedCmp.eq_swap _ compare _ y x]
        cases compare x y <;> simp⟩
    have htrans : IsTrans item (fun x y => (compare x y).isLE = true) :=
      ⟨fun x y z hxy hyz => Std.TransCmp.isLE_trans hxy hyz⟩
    have hsorted := List.pairwise_insertionSort (fun x y => (compare x y).isLE = true) items
    rcases List.getElem?_eq_some_iff.mp hx with ⟨hxlength, hxget⟩
    rcases List.getElem?_eq_some_iff.mp hy with ⟨hylength, hyget⟩
    rcases Nat.lt_or_ge i j with hlt | hge
    · rw [← hxget, ← hyget]
      exact List.pairwise_iff_getElem.mp hsorted i j hxlength hylength hlt
    · have hsame : i = j := by
        omega
      subst hsame
      rw [hx] at hy
      cases hy
      rw [@Std.ReflCmp.compare_self _ compare _ x]
      rfl

end PartialSort

end PartialSort

end Library
end RunNBurn
