import Mathlib.Order.Lattice
import Mathlib.Data.List.Nodup
import Mathlib.Order.BoundedOrder.Basic
import Mathlib.Data.List.Perm.Basic
import RunNBurn.Library.Checked

/-!
# Tables by position

A table that is filled from a list in order keeps the last position of every entry.
-/

namespace RunNBurn
namespace Library

section LastIndex

variable {alpha : Type} [DecidableEq alpha]

def lastIndexOf (x : alpha) : List alpha -> Option Nat
  | [] => none
  | y :: rest =>
    match lastIndexOf x rest with
    | some i => some (i + 1)
    | none => if y = x then some 0 else none

variable {xs : List alpha} {x : alpha}

theorem getElem?_of_lastIndexOf {i : Nat} (h : lastIndexOf x xs = some i) :
    xs[i]? = some x := by
  induction xs generalizing i with
  | nil => cases h
  | cons y rest ih =>
    unfold lastIndexOf at h
    cases hrest : lastIndexOf x rest with
    | some j =>
      rw [hrest] at h
      cases h
      exact ih hrest
    | none =>
      rw [hrest] at h
      dsimp only at h
      split at h
      · rename_i heq
        cases h
        exact congrArg some heq
      · cases h

theorem exists_lastIndexOf (h : x ∈ xs) :
    exists i, lastIndexOf x xs = some i := by
  induction xs with
  | nil => cases h
  | cons y rest ih =>
    unfold lastIndexOf
    cases hrest : lastIndexOf x rest with
    | some j => exact ⟨j + 1, rfl⟩
    | none =>
      cases h with
      | head => exact ⟨0, if_pos rfl⟩
      | tail _ hmem =>
        rcases ih hmem with ⟨i, hi⟩
        rw [hrest] at hi
        cases hi

theorem mem_of_lastIndexOf {i : Nat} (h : lastIndexOf x xs = some i) :
    x ∈ xs :=
  List.mem_of_getElem? (getElem?_of_lastIndexOf h)

theorem lastIndexOf_eq_none :
    lastIndexOf x xs = none ↔ x ∉ xs := by
  constructor
  · intro h hmem
    rcases exists_lastIndexOf hmem with ⟨i, hi⟩
    rw [h] at hi
    cases hi
  · intro h
    cases hindex : lastIndexOf x xs with
    | none => rfl
    | some i => exact absurd (mem_of_lastIndexOf hindex) h

theorem lastIndexOf_of_nodup {i : Nat} (hnodup : xs.Nodup) (h : xs[i]? = some x) :
    lastIndexOf x xs = some i := by
  rcases exists_lastIndexOf (List.mem_of_getElem? h) with ⟨j, hj⟩
  rcases List.getElem?_eq_some_iff.mp h with ⟨hi, hx⟩
  rcases List.getElem?_eq_some_iff.mp (getElem?_of_lastIndexOf hj) with ⟨hlt, hy⟩
  have heq : i = j := (List.Nodup.getElem_inj_iff hnodup).mp (hx.trans hy.symm)
  rw [hj, heq]

end LastIndex

/-!
# The last maximum of a list

An iterator maximum keeps the last of several equal candidates.  It is found by
a scan, and characterised by the split of the list around it: nothing before it
is larger, everything after it is smaller.
-/

section LastMaximum

variable {alpha beta : Type} [LinearOrder beta]

def lastMaximumBy (key : alpha -> beta) : List alpha -> Option alpha
  | [] => none
  | x :: rest =>
    match lastMaximumBy key rest with
    | none => some x
    | some best => if key x <= key best then some best else some x

/-- Nothing before `x` is larger, everything after it is smaller. -/
structure LastMaximumAt (key : alpha -> beta) (x : alpha) (before after : List alpha) :
    Prop where
  before_le : forall y, y ∈ before -> key y <= key x
  after_lt : forall y, y ∈ after -> key y < key x

variable {key : alpha -> beta} {xs : List alpha}

theorem lastMaximumBy_eq_none (h : lastMaximumBy key xs = none) :
    xs = [] := by
  cases xs with
  | nil => rfl
  | cons x rest =>
    unfold lastMaximumBy at h
    split at h
    · cases h
    · split at h
      · cases h
      · cases h

variable {x : alpha}

theorem lastMaximumBy_split (h : lastMaximumBy key xs = some x) :
    exists before after, xs = before ++ x :: after ∧ LastMaximumAt key x before after := by
  induction xs generalizing x with
  | nil => cases h
  | cons y rest ih =>
    unfold lastMaximumBy at h
    split at h
    · rename_i hnone
      cases h
      have hrest : rest = [] := lastMaximumBy_eq_none hnone
      subst hrest
      refine ⟨[], [], rfl, ?_⟩
      constructor
      · intro z hz
        cases hz
      · intro z hz
        cases hz
    · rename_i best hbest
      rcases ih hbest with ⟨before, after, hsplit, hmaximum⟩
      split at h
      · rename_i hle
        cases h
        refine ⟨y :: before, after, ?_, ?_⟩
        · rw [hsplit]
          rfl
        · constructor
          · intro z hz
            rcases List.mem_cons.mp hz with rfl | hz
            · exact hle
            · exact hmaximum.before_le z hz
          · exact hmaximum.after_lt
      · rename_i hgt
        cases h
        have hlt : key best < key y := lt_of_not_ge hgt
        refine ⟨[], rest, rfl, ?_⟩
        constructor
        · intro z hz
          cases hz
        · intro z hz
          rw [hsplit] at hz
          rcases List.mem_append.mp hz with hbefore | hat
          · exact lt_of_le_of_lt (hmaximum.before_le z hbefore) hlt
          · rcases List.mem_cons.mp hat with rfl | hafter
            · exact hlt
            · exact lt_trans (hmaximum.after_lt z hafter) hlt

theorem lastMaximumBy_of_after {after : List alpha}
    (hafter : forall y, y ∈ after -> key y < key x) :
    lastMaximumBy key (x :: after) = some x := by
  unfold lastMaximumBy
  cases hbest : lastMaximumBy key after with
  | none => rfl
  | some best =>
    rcases lastMaximumBy_split hbest with ⟨front, back, hsplit, _⟩
    have hmem : best ∈ after := by
      rw [hsplit]
      exact List.mem_append_right front List.mem_cons_self
    exact if_neg (not_le_of_gt (hafter best hmem))

theorem lastMaximumBy_of_split {before after : List alpha} (h : LastMaximumAt key x before after) :
    lastMaximumBy key (before ++ x :: after) = some x := by
  induction before with
  | nil => exact lastMaximumBy_of_after h.after_lt
  | cons y before ih =>
    have hrest : lastMaximumBy key (before ++ x :: after) = some x := by
      apply ih
      constructor
      · intro z hz
        exact h.before_le z (List.mem_cons_of_mem y hz)
      · exact h.after_lt
    rw [List.cons_append]
    unfold lastMaximumBy
    rw [hrest]
    exact if_pos (h.before_le y List.mem_cons_self)

theorem lastMaximumBy_filter (keep : alpha -> Bool) (h : lastMaximumBy key xs = some x)
    (hkeep : keep x = true) :
    lastMaximumBy key (xs.filter keep) = some x := by
  rcases lastMaximumBy_split h with ⟨before, after, hsplit, hmaximum⟩
  rw [hsplit, List.filter_append, List.filter_cons_of_pos hkeep]
  apply lastMaximumBy_of_split
  constructor
  · intro y hy
    exact hmaximum.before_le y (List.mem_of_mem_filter hy)
  · intro y hy
    exact hmaximum.after_lt y (List.mem_of_mem_filter hy)

theorem lastMaximumBy_mem (h : lastMaximumBy key xs = some x) :
    x ∈ xs := by
  rcases lastMaximumBy_split h with ⟨before, after, hsplit, _⟩
  rw [hsplit]
  exact List.mem_append_right before List.mem_cons_self

theorem lastMaximumBy_congr {key other : alpha -> beta} (h : forall x, x ∈ xs -> key x = other x) :
    lastMaximumBy key xs = lastMaximumBy other xs := by
  induction xs with
  | nil => rfl
  | cons x rest ih =>
    unfold lastMaximumBy
    rw [ih (fun y hy => h y (List.mem_cons_of_mem x hy)), h x List.mem_cons_self]
    cases hbest : lastMaximumBy other rest with
    | none => rfl
    | some best =>
      dsimp only
      rw [h best (List.mem_cons_of_mem x (lastMaximumBy_mem hbest))]

theorem lastMaximumBy_ge {x y : alpha} (h : lastMaximumBy key xs = some x) (hy : y ∈ xs) :
    key y <= key x := by
  rcases lastMaximumBy_split h with ⟨before, after, hsplit, hmaximum⟩
  rw [hsplit] at hy
  rcases List.mem_append.mp hy with hbefore | hafter
  · exact hmaximum.before_le y hbefore
  · cases hafter with
    | head => exact le_refl _
    | tail _ hafter => exact le_of_lt (hmaximum.after_lt y hafter)

end LastMaximum

/-!
# A priority queue

A heap as the list of its entries.  Popping takes out a greatest entry; which of
several equal ones is left open by every fact stated here.
-/

section PriorityQueue

variable {alpha beta : Type} [LinearOrder beta]

def popMaximum [DecidableEq alpha] (key : alpha -> beta) (heap : List alpha) : Option
    (alpha × List alpha) :=
  (lastMaximumBy key heap).map fun greatest => (greatest, heap.erase greatest)

variable {key : alpha -> beta}

theorem popMaximum_eq_none [DecidableEq alpha] {heap : List alpha}
    (h : popMaximum key heap = none) :
    heap = [] :=
  lastMaximumBy_eq_none (Option.map_eq_none_iff.mp h)

theorem popMaximum_congr [DecidableEq alpha] {key other : alpha -> beta} {heap : List alpha}
    (h : forall entry, entry ∈ heap -> key entry = other entry) :
    popMaximum key heap = popMaximum other heap := by
  unfold popMaximum
  rw [lastMaximumBy_congr h]

structure Popped (key : alpha -> beta) (heap : List alpha) (greatest : alpha)
    (rest : List alpha) : Prop where
  perm : heap.Perm (greatest :: rest)
  le : forall entry, entry ∈ heap -> key entry <= key greatest

variable {heap rest : List alpha}

theorem popped_of_popMaximum [DecidableEq alpha] {greatest : alpha}
    (h : popMaximum key heap = some (greatest, rest)) :
    Popped key heap greatest rest := by
  rcases Option.map_eq_some_iff.mp h with ⟨found, hfound, heq⟩
  cases heq
  constructor
  · exact List.perm_cons_erase (lastMaximumBy_mem hfound)
  · intro entry hentry
    exact lastMaximumBy_ge hfound hentry

theorem Popped.length {greatest : alpha} (h : Popped key heap greatest rest) :
    heap.length = rest.length + 1 :=
  h.perm.length_eq

theorem Popped.mem_rest {greatest entry : alpha} (h : Popped key heap greatest rest)
    (hentry : entry ∈ heap) (hne : entry ≠ greatest) :
    entry ∈ rest := by
  cases h.perm.mem_iff.mp hentry with
  | head => exact absurd rfl hne
  | tail _ hrest => exact hrest

theorem Popped.mem_heap {greatest entry : alpha} (h : Popped key heap greatest rest)
    (hentry : entry ∈ rest) :
    entry ∈ heap :=
  h.perm.mem_iff.mpr (List.mem_cons_of_mem greatest hentry)

end PriorityQueue

end Library
end RunNBurn
