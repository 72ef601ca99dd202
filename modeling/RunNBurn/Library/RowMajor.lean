import Mathlib.Algebra.Order.BigOperators.Group.List
import Mathlib.Data.List.Forall2
import Mathlib.Tactic.Linarith

/-!
# Row-major order

Indices with several places, their addresses in row-major order, and the odometer that counts
through them.
-/

namespace RunNBurn
namespace Library

/-!
## Addresses
-/

def dot (index strides : List Nat) : Nat :=
  (List.zipWith (· * ·) index strides).sum

@[simp] theorem dot_nil (strides : List Nat) : dot [] strides = 0 := by
  unfold dot
  rw [List.zipWith_nil_left]
  rfl

@[simp] theorem dot_cons (i s : Nat) (index strides : List Nat) :
    dot (i :: index) (s :: strides) = i * s + dot index strides := by
  unfold dot
  rw [List.zipWith_cons_cons, List.sum_cons]

abbrev InShape (index shape : List Nat) : Prop :=
  List.Forall₂ (· < ·) index shape

theorem dot_add_sum_le {index shape strides : List Nat} (h : InShape index shape)
    (hlength : strides.length = shape.length) :
    dot index strides + strides.sum <= dot shape strides := by
  induction h generalizing strides with
  | nil =>
    rw [List.eq_nil_of_length_eq_zero hlength]
    exact Nat.le_refl _
  | @cons i n index shape hi _ ih =>
    cases strides with
    | nil => cases hlength
    | cons s strides =>
      have hrest := ih (Nat.succ.inj hlength)
      have hrow : (i + 1) * s <= n * s := Nat.mul_le_mul_right s hi
      rw [Nat.succ_mul] at hrow
      rw [dot_cons, dot_cons, List.sum_cons]
      omega

theorem dot_le_dot {left right strides : List Nat} (h : List.Forall₂ (· <= ·) left right) :
    dot left strides <= dot right strides := by
  induction h generalizing strides with
  | nil => exact Nat.le_refl _
  | @cons i n left right hi _ ih =>
    cases strides with
    | nil => exact Nat.le_refl _
    | cons s strides =>
      rw [dot_cons, dot_cons]
      exact Nat.add_le_add (Nat.mul_le_mul_right s hi) ih

theorem dot_zipWith_add {left right strides : List Nat} (hleft : left.length = strides.length)
    (hright : right.length = strides.length) :
    dot (List.zipWith (· + ·) left right) strides = dot left strides + dot right strides := by
  induction strides generalizing left right with
  | nil =>
    rw [List.eq_nil_of_length_eq_zero hleft, List.eq_nil_of_length_eq_zero hright]
    rfl
  | cons s strides ih =>
    cases left with
    | nil => cases hleft
    | cons i left =>
      cases right with
      | nil => cases hright
      | cons j right =>
        rw [List.zipWith_cons_cons, dot_cons, dot_cons, dot_cons,
          ih (Nat.succ.inj hleft) (Nat.succ.inj hright), Nat.add_mul]
        omega

/-!
## Strides
-/

def rowStrides : List Nat -> List Nat
  | [] => []
  | _ :: shape => shape.prod :: rowStrides shape

@[simp] theorem length_rowStrides (shape : List Nat) :
    (rowStrides shape).length = shape.length := by
  induction shape with
  | nil => rfl
  | cons n shape ih =>
    unfold rowStrides
    rw [List.length_cons, List.length_cons, ih]

theorem dot_rowStrides_self (shape : List Nat) :
    dot shape (rowStrides shape) + 1 = shape.prod + (rowStrides shape).sum := by
  induction shape with
  | nil => rfl
  | cons n shape ih =>
    unfold rowStrides
    rw [dot_cons, List.prod_cons, List.sum_cons]
    omega

def ravel (shape index : List Nat) : Nat :=
  dot index (rowStrides shape)

theorem ravel_lt {shape index : List Nat} (h : InShape index shape) :
    ravel shape index < shape.prod := by
  have hroom := dot_add_sum_le h (length_rowStrides shape)
  have hself := dot_rowStrides_self shape
  unfold ravel
  omega

def unravel : List Nat -> Nat -> List Nat
  | [], _ => []
  | _ :: shape, k => k / shape.prod :: unravel shape (k % shape.prod)

theorem prod_tail_pos {n k : Nat} {shape : List Nat} (h : k < (n :: shape).prod) :
    0 < shape.prod := by
  apply Nat.pos_of_ne_zero
  intro hzero
  rw [List.prod_cons, hzero, Nat.mul_zero] at h
  exact Nat.not_lt_zero k h

theorem inShape_unravel {shape : List Nat} {k : Nat} (h : k < shape.prod) :
    InShape (unravel shape k) shape := by
  induction shape generalizing k with
  | nil => exact .nil
  | cons n shape ih =>
    have hpos := prod_tail_pos h
    rw [List.prod_cons] at h
    exact .cons (Nat.div_lt_of_lt_mul (by rw [Nat.mul_comm]; exact h)) (ih (Nat.mod_lt k hpos))

theorem ravel_unravel {shape : List Nat} {k : Nat} (h : k < shape.prod) :
    ravel shape (unravel shape k) = k := by
  induction shape generalizing k with
  | nil =>
    rw [List.prod_nil] at h
    rw [Nat.lt_one_iff.mp h]
    rfl
  | cons n shape ih =>
    have hpos := prod_tail_pos h
    have hrest := ih (Nat.mod_lt k hpos)
    unfold ravel at hrest ⊢
    unfold unravel rowStrides
    rw [dot_cons, hrest]
    exact Nat.div_add_mod' k shape.prod

theorem unravel_ravel {shape index : List Nat} (h : InShape index shape) :
    unravel shape (ravel shape index) = index := by
  induction h with
  | nil => rfl
  | @cons i n index shape hi hrest ih =>
    have hlt := ravel_lt hrest
    have hpos : 0 < shape.prod := Nat.lt_of_le_of_lt (Nat.zero_le _) hlt
    unfold ravel at hlt ih ⊢
    unfold rowStrides unravel
    rw [dot_cons, Nat.mul_comm, Nat.mul_add_div hpos, Nat.mul_add_mod, Nat.div_eq_of_lt hlt,
      Nat.mod_eq_of_lt hlt, Nat.add_zero, ih]

theorem unravel_mul_add {n q r : Nat} {shape : List Nat} (hr : r < shape.prod) :
    unravel (n :: shape) (q * shape.prod + r) = q :: unravel shape r := by
  have hpos : 0 < shape.prod := Nat.lt_of_le_of_lt (Nat.zero_le r) hr
  unfold unravel
  rw [Nat.mul_comm, Nat.mul_add_div hpos, Nat.mul_add_mod, Nat.div_eq_of_lt hr,
    Nat.mod_eq_of_lt hr, Nat.add_zero]
  cases shape with
  | nil => rfl
  | cons m shape => rfl

def indices (shape : List Nat) : List (List Nat) :=
  (List.range shape.prod).map (unravel shape)

theorem getElem?_indices {shape index : List Nat} (h : InShape index shape) :
    (indices shape)[ravel shape index]? = some index := by
  unfold indices
  rw [List.getElem?_map, List.getElem?_range (ravel_lt h)]
  exact congrArg some (unravel_ravel h)

/-!
## The odometer
-/

def advance : List Nat -> List Nat -> List Nat × Bool
  | n :: shape, i :: index =>
    if (advance shape index).2 then
      if i + 1 < n then ((i + 1) :: (advance shape index).1, false)
      else (0 :: (advance shape index).1, true)
    else (i :: (advance shape index).1, false)
  | _, _ => ([], true)

theorem advance_unravel {shape : List Nat} {k : Nat} (h : k < shape.prod) :
    advance shape (unravel shape k) =
      (unravel shape ((k + 1) % shape.prod), decide (k + 1 = shape.prod)) := by
  induction shape generalizing k with
  | nil =>
    rw [List.prod_nil] at h
    rw [Nat.lt_one_iff.mp h]
    rfl
  | cons n shape ih =>
    have hpos := prod_tail_pos h
    rw [List.prod_cons] at h ⊢
    -- the row and the place in the row
    have hsplit : exists q r, r < shape.prod ∧ k = q * shape.prod + r :=
      ⟨k / shape.prod, k % shape.prod, Nat.mod_lt k hpos, (Nat.div_add_mod' k shape.prod).symm⟩
    rcases hsplit with ⟨q, r, hr, hk⟩
    have hrow : q < n := by
      apply Nat.lt_of_mul_lt_mul_right
      exact Nat.lt_of_le_of_lt (Nat.le_add_right (q * shape.prod) r) (by rw [← hk]; exact h)
    have hrows : (q + 1) * shape.prod <= n * shape.prod := Nat.mul_le_mul_right _ hrow
    rw [Nat.succ_mul] at hrows
    rw [hk, unravel_mul_add hr]
    unfold advance
    rw [ih hr]
    by_cases hturn : r + 1 = shape.prod
    · have hnext : q * shape.prod + r + 1 = (q + 1) * shape.prod + 0 := by
        rw [Nat.succ_mul]
        omega
      rw [decide_eq_true hturn, if_pos rfl, hturn, Nat.mod_self, hnext]
      by_cases hlast : q + 1 < n
      · have hmore : (q + 1 + 1) * shape.prod <= n * shape.prod := Nat.mul_le_mul_right _ hlast
        rw [Nat.succ_mul] at hmore
        have hinside : (q + 1) * shape.prod + 0 < n * shape.prod := by omega
        rw [if_pos hlast, Nat.mod_eq_of_lt hinside, decide_eq_false (Nat.ne_of_lt hinside),
          unravel_mul_add hpos]
      · have hend : q + 1 = n := by omega
        have hzero : unravel (n :: shape) 0 = 0 :: unravel shape 0 := by
          have hfirst := @unravel_mul_add n 0 0 shape hpos
          rw [Nat.zero_mul, Nat.add_zero] at hfirst
          exact hfirst
        rw [if_neg hlast, hend, Nat.add_zero, Nat.mod_self, decide_eq_true rfl, hzero]
    · have hinside : q * shape.prod + (r + 1) < n * shape.prod := by omega
      have hplace : r + 1 < shape.prod := by omega
      rw [decide_eq_false hturn, if_neg Bool.false_ne_true, Nat.mod_eq_of_lt hplace,
        Nat.add_assoc, Nat.mod_eq_of_lt hinside, decide_eq_false (Nat.ne_of_lt hinside),
        unravel_mul_add hplace]

/-!
## Exchanging two places
-/

def swapAt (xs : List Nat) (i j : Nat) : List Nat :=
  (xs.set i (xs.getD j 0)).set j (xs.getD i 0)

@[simp] theorem length_swapAt (xs : List Nat) (i j : Nat) :
    (swapAt xs i j).length = xs.length := by
  unfold swapAt
  rw [List.length_set, List.length_set]

section

variable {xs : List Nat} {i j : Nat} (hi : i < xs.length) (hj : j < xs.length)
include hi hj

theorem getElem?_swapAt (k : Nat) :
    (swapAt xs i j)[k]? = xs[if k = j then i else if k = i then j else k]? := by
  have hat : forall l, l < xs.length -> some (xs.getD l 0) = xs[l]? := by
    intro l hl
    rw [List.getD_eq_getElem?_getD, List.getElem?_eq_getElem hl]
    rfl
  unfold swapAt
  rw [List.getElem?_set, List.length_set]
  by_cases hkj : j = k
  · rw [if_pos hkj, if_pos hkj.symm, if_pos hj]
    exact hat i hi
  · rw [if_neg hkj, if_neg (Ne.symm hkj), List.getElem?_set]
    by_cases hki : i = k
    · rw [if_pos hki, if_pos hki.symm, if_pos hi]
      exact hat j hj
    · rw [if_neg hki, if_neg (Ne.symm hki)]

theorem swapAt_swapAt :
    swapAt (swapAt xs i j) i j = xs := by
  apply List.ext_getElem?
  intro k
  rw [getElem?_swapAt (by rw [length_swapAt]; exact hi) (by rw [length_swapAt]; exact hj),
    getElem?_swapAt hi hj]
  by_cases hkj : k = j
  · by_cases hij : i = j
    · simp [hkj, hij]
    · simp [hkj, hij]
  · by_cases hki : k = i
    · simp [hki]
    · simp [hki, hkj]

theorem perm_swapAt :
    (swapAt xs i j).Perm xs := by
  have hat : forall l (hl : l < xs.length), xs.getD l 0 = xs[l] := by
    intro l hl
    rw [List.getD_eq_getElem?_getD, List.getElem?_eq_getElem hl]
    rfl
  unfold swapAt
  rw [hat i hi, hat j hj]
  exact List.set_set_perm hi hj

theorem sum_swapAt :
    (swapAt xs i j).sum = xs.sum :=
  (perm_swapAt hi hj).sum_eq

theorem prod_swapAt :
    (swapAt xs i j).prod = xs.prod :=
  (perm_swapAt hi hj).prod_eq

end

theorem dot_swapAt {index strides : List Nat} {i j : Nat} (hlength : index.length = strides.length)
    (hi : i < index.length) (hj : j < index.length) :
    dot (swapAt index i j) (swapAt strides i j) = dot index strides := by
  have hzip : List.zipWith (· * ·) (swapAt index i j) (swapAt strides i j) =
      swapAt (List.zipWith (· * ·) index strides) i j := by
    have hroom : (List.zipWith (· * ·) index strides).length = index.length := by
      rw [List.length_zipWith, hlength, Nat.min_self]
    apply List.ext_getElem?
    intro k
    rw [getElem?_swapAt (by rw [hroom]; exact hi) (by rw [hroom]; exact hj),
      List.getElem?_zipWith, List.getElem?_zipWith, getElem?_swapAt hi hj,
      getElem?_swapAt (by rw [← hlength]; exact hi) (by rw [← hlength]; exact hj)]
  have hroom : (List.zipWith (· * ·) index strides).length = index.length := by
    rw [List.length_zipWith, hlength, Nat.min_self]
  unfold dot
  rw [hzip, sum_swapAt (by rw [hroom]; exact hi) (by rw [hroom]; exact hj)]

theorem inShape_iff {index shape : List Nat} :
    InShape index shape ↔ index.length = shape.length ∧
      forall (k i n : Nat), index[k]? = some i -> shape[k]? = some n -> i < n := by
  constructor
  · intro h
    refine ⟨h.length_eq, ?_⟩
    intro k i n hi hn
    rcases List.getElem?_eq_some_iff.mp hi with ⟨hkIndex, hiAt⟩
    rcases List.getElem?_eq_some_iff.mp hn with ⟨hkShape, hnAt⟩
    rw [← hiAt, ← hnAt]
    exact (List.forall₂_iff_get.mp h).2 k hkIndex hkShape
  · intro h
    apply List.forall₂_iff_get.mpr
    refine ⟨h.1, ?_⟩
    intro k hkIndex hkShape
    exact h.2 k _ _ (List.getElem?_eq_getElem hkIndex) (List.getElem?_eq_getElem hkShape)

theorem inShape_swapAt {index shape : List Nat} {i j : Nat} (h : InShape index shape)
    (hi : i < shape.length) (hj : j < shape.length) :
    InShape (swapAt index i j) (swapAt shape i j) := by
  rcases inShape_iff.mp h with ⟨hlength, hplaces⟩
  apply inShape_iff.mpr
  constructor
  · rw [length_swapAt, length_swapAt, hlength]
  · intro k a n ha hn
    rw [getElem?_swapAt (by rw [hlength]; exact hi) (by rw [hlength]; exact hj)] at ha
    rw [getElem?_swapAt hi hj] at hn
    exact hplaces _ a n ha hn

end Library
end RunNBurn
