import RunNBurn.Library.RowScatter

/-!
# Loops over the rows of a buffer

Loops that change a buffer row by row, or add rows up, and what they leave.
-/

namespace RunNBurn
namespace Library

variable {entry : Type}

/-!
## Lists over a range
-/

theorem flatMap_range_add (n width : Nat) :
    (List.range n).flatMap (fun t => (List.range width).map (fun i => t * width + i)) =
      List.range (n * width) := by
  induction n with
  | zero =>
    rw [Nat.zero_mul]
    rfl
  | succ n ih =>
    rw [List.range_succ, List.flatMap_append, ih, Nat.succ_mul, List.range_add]
    simp

theorem map_range_eq_map {item out : Type} {items : List item} {ofIndex : Nat -> out}
    {ofItem : item -> out} (h : forall (t : Nat) x, items[t]? = some x -> ofIndex t = ofItem x) :
    (List.range items.length).map ofIndex = items.map ofItem := by
  apply List.ext_getElem?
  intro t
  rw [List.getElem?_map, List.getElem?_map]
  cases hget : items[t]? with
  | none =>
    rw [List.getElem?_eq_none_iff.mpr
      (by rw [List.length_range]; exact List.getElem?_eq_none_iff.mp hget)]
    rfl
  | some x =>
    rw [List.getElem?_range (List.getElem?_eq_some_iff.mp hget).1]
    exact congrArg some (h t x hget)

theorem flatMap_range_eq_flatMap {item out : Type} {items : List item}
    {ofIndex : Nat -> List out} {ofItem : item -> List out}
    (h : forall (t : Nat) x, items[t]? = some x -> ofIndex t = ofItem x) :
    (List.range items.length).flatMap ofIndex = items.flatMap ofItem := by
  rw [List.flatMap_def, List.flatMap_def, map_range_eq_map h]

theorem zipWith_flatMap_range {n width : Nat} {combine : entry -> entry -> entry}
    {left right : Nat -> List entry} (hleft : forall t, t < n -> (left t).length = width)
    (hright : forall t, t < n -> (right t).length = width) :
    List.zipWith combine ((List.range n).flatMap left) ((List.range n).flatMap right) =
      (List.range n).flatMap fun t => List.zipWith combine (left t) (right t) := by
  induction n with
  | zero => rfl
  | succ n ih =>
    have hleftRest : forall t, t < n -> (left t).length = width :=
      fun t ht => hleft t (Nat.lt_succ_of_lt ht)
    have hrightRest : forall t, t < n -> (right t).length = width :=
      fun t ht => hright t (Nat.lt_succ_of_lt ht)
    rw [List.range_succ, List.flatMap_append, List.flatMap_append, List.flatMap_append,
      List.flatMap_singleton, List.flatMap_singleton, List.flatMap_singleton,
      ← ih hleftRest hrightRest]
    exact List.zipWith_append
      (by rw [length_flatMap_range hleftRest, length_flatMap_range hrightRest])

/-!
## Rows written in order
-/

theorem forRange_congr {state : Type} {body other : Nat -> state -> Checked state} {n : Nat}
    (h : forall i, i < n -> forall s, body i s = other i s) (start : state) :
    forRange body n start = forRange other n start := by
  induction n with
  | zero => rfl
  | succ n ih =>
    unfold forRange
    rw [ih (fun i hi => h i (Nat.lt_succ_of_lt hi))]
    apply congrArg
    funext s
    exact h n (Nat.lt_succ_self n) s

/-- The first `count` places hold the new rows, the others the old ones. -/
def firstRows (count : Nat) (new old : Nat -> List entry) : Nat -> List entry :=
  fun t => if t < count then new t else old t

theorem firstRows_of_lt {count t : Nat} {new old : Nat -> List entry} (h : t < count) :
    firstRows count new old t = new t :=
  if_pos h

theorem firstRows_of_le {count t : Nat} {new old : Nat -> List entry} (h : count <= t) :
    firstRows count new old t = old t :=
  if_neg (Nat.not_lt.mpr h)

theorem update_firstRows (count : Nat) (new old : Nat -> List entry) :
    Function.update (firstRows count new old) count (new count) =
      firstRows (count + 1) new old := by
  funext t
  rcases Nat.lt_trichotomy t count with hless | hsame | hgreater
  · rw [Function.update_of_ne (Nat.ne_of_lt hless), firstRows_of_lt hless,
      firstRows_of_lt (Nat.lt_succ_of_lt hless)]
  · rw [hsame, Function.update_self, firstRows_of_lt (Nat.lt_succ_self count)]
  · rw [Function.update_of_ne (Nat.ne_of_gt hgreater), firstRows_of_le (Nat.le_of_lt hgreater),
      firstRows_of_le hgreater]

theorem forRange_updateSlice_delivers {width n : Nat} {old new : Nat -> List entry}
    {buffer : List entry} {change : Nat -> List entry -> Checked (List entry)}
    (hbuffer : HoldsRows width n old buffer)
    (hchange : forall t, t < n -> change t (old t) = .ok (new t))
    (hnew : forall t, t < n -> (new t).length = width) :
    Delivers
      (forRange (fun t buffer => updateSlice buffer (t * width) ((t + 1) * width) (change t))
        n buffer)
      (HoldsRows width n new) := by
  apply Delivers.mono (forRange_delivers
    (fun done => HoldsRows width n (firstRows done new old)) hbuffer ?_)
  · intro buffer hholds
    exact hholds.congr (fun t ht => firstRows_of_lt ht)
  · intro t ht buffer hholds
    rw [← update_firstRows]
    apply hholds.updateSlice ht _ (hnew t ht)
    rw [firstRows_of_le (Nat.le_refl t)]
    exact hchange t ht

theorem forRange_updateSlice_prefix {width n : Nat} {new : Nat -> List entry}
    {buffer : List entry} {change : Nat -> List entry -> Checked (List entry)}
    (hroom : n * width <= buffer.length)
    (hchange : forall t part, t < n -> part.length = width -> change t part = .ok (new t))
    (hnew : forall t, t < n -> (new t).length = width) :
    forRange (fun t buffer => updateSlice buffer (t * width) ((t + 1) * width) (change t))
        n buffer =
      .ok ((List.range n).flatMap new ++ buffer.drop (n * width)) := by
  have hloop : Delivers
      (forRange (fun t buffer => updateSlice buffer (t * width) ((t + 1) * width) (change t))
        n buffer)
      (fun out => out = (List.range n).flatMap new ++ buffer.drop (n * width)) := by
    apply forRange_delivers
      (fun t out => out = (List.range t).flatMap new ++ buffer.drop (t * width))
    · rw [Nat.zero_mul]
      rfl
    · intro t ht out hout
      have hwritten : ((List.range t).flatMap new).length = t * width :=
        length_flatMap_range (fun u hu => hnew u (Nat.lt_trans hu ht))
      have hhigh : (t + 1) * width <= buffer.length :=
        Nat.le_trans (Nat.mul_le_mul_right width ht) hroom
      have hlow : t * width <= (t + 1) * width := Nat.mul_le_mul_right width (Nat.le_succ t)
      have hlength : out.length = buffer.length := by
        rw [hout, List.length_append, hwritten, List.length_drop]
        exact Nat.add_sub_cancel' (Nat.le_trans hlow hhigh)
      have hpart : ((out.drop (t * width)).take ((t + 1) * width - t * width)).length = width := by
        rw [List.length_take, List.length_drop, hlength, Nat.succ_mul, Nat.add_sub_cancel_left]
        rw [Nat.succ_mul] at hhigh
        exact Nat.min_eq_left (Nat.le_sub_of_add_le' hhigh)
      unfold updateSlice
      rw [slice_of_le hlow (by rw [hlength]; exact hhigh), ok_bind, hchange t _ ht hpart, ok_bind]
      apply delivers_ok
      have hdrop : out.drop ((t + 1) * width) = buffer.drop ((t + 1) * width) := by
        rw [hout, List.drop_append, List.drop_eq_nil_of_le (by rw [hwritten]; exact hlow),
          List.nil_append, List.drop_drop, hwritten, Nat.add_sub_cancel' hlow]
      rw [hdrop, hout, List.take_left' hwritten, List.range_succ, List.flatMap_append,
        List.flatMap_singleton]
  rcases hloop with ⟨out, hrun, hout⟩
  rw [hrun, hout]

/-!
## Adding rows up
-/

def sumRows (add : entry -> entry -> entry) (start : List entry) (rows : List (List entry)) :
    List entry :=
  rows.foldl (List.zipWith add) start

theorem sumRows_concat (add : entry -> entry -> entry) (start : List entry)
    (rows : List (List entry)) (row : List entry) :
    sumRows add start (rows ++ [row]) = List.zipWith add (sumRows add start rows) row :=
  List.foldl_append

variable {add : entry -> entry -> entry} {start : List entry}

theorem length_sumRows {rows : List (List entry)} {width : Nat} (hstart : start.length = width)
    (h : forall row, row ∈ rows -> row.length = width) :
    (sumRows add start rows).length = width := by
  apply List.foldlRecOn rows (List.zipWith add) (motive := fun sum => sum.length = width) hstart
  intro sum hsum row hrow
  rw [List.length_zipWith, hsum, h row hrow, Nat.min_self]

theorem foldl_zipInto_eq_sumRows {rows : List (List entry)} {width : Nat}
    (hstart : start.length = width) (h : forall row, row ∈ rows -> row.length = width) :
    rows.foldl (zipInto add) start = sumRows add start rows := by
  induction rows generalizing start with
  | nil => rfl
  | cons row rest ih =>
    have hrow : row.length = width := h row List.mem_cons_self
    have hsum : (List.zipWith add start row).length = width := by
      rw [List.length_zipWith, hstart, hrow, Nat.min_self]
    rw [List.foldl_cons, zipInto_of_length_eq (by rw [hstart, hrow]),
      ih hsum (fun other hother => h other (List.mem_cons_of_mem row hother))]
    rfl

theorem forRange_zipInto_eq {width n : Nat} {row : Nat -> List entry}
    {body : Nat -> List entry -> Checked (List entry)} (hstart : start.length = width)
    (hrow : forall rank, rank < n -> (row rank).length = width)
    (hbody : forall rank sum, rank < n -> body rank sum = .ok (zipInto add sum (row rank))) :
    forRange body n start = .ok (sumRows add start ((List.range n).map row)) := by
  have hloop : Delivers (forRange body n start)
      (fun sum => sum = sumRows add start ((List.range n).map row)) := by
    apply forRange_delivers (fun done sum => sum = sumRows add start ((List.range done).map row))
    · rfl
    · intro rank hrank sum hsum
      have hlength : sum.length = width := by
        rw [hsum]
        apply length_sumRows hstart
        intro other hother
        rcases List.mem_map.mp hother with ⟨earlier, hearlier, hsame⟩
        rw [← hsame]
        exact hrow earlier (Nat.lt_trans (List.mem_range.mp hearlier) hrank)
      rw [hbody rank sum hrank]
      apply delivers_ok
      rw [zipInto_of_length_eq (by rw [hlength, hrow rank hrank]), hsum, List.range_succ,
        List.map_append, List.map_singleton, sumRows_concat]
  rcases hloop with ⟨sum, hrun, hsum⟩
  rw [hrun, hsum]

end Library
end RunNBurn
