import Mathlib.Data.List.Basic
import RunNBurn.Library.Checked

/-!
# Flat row buffers

A buffer that stores rows of one fixed width end to end.  The rows are read
through a projection `field`, so that two buffers filled from the same rows (the
keys and the values of a cache) share every lemma of this module.
-/

namespace RunNBurn
namespace Library

section FlatRows

variable {row entry : Type}

/-- Every row shows exactly `width` entries through `field`. -/
def UniformRows (field : row -> List entry) (width : Nat) (rows : List row) :
    Prop :=
  forall r, r ∈ rows -> (field r).length = width

theorem uniformRows_nil (field : row -> List entry) (width : Nat) :
    UniformRows field width [] := by
  intro r hr
  cases hr

variable {field : row -> List entry} {width : Nat}

theorem uniformRows_append {left right : List row} (hleft : UniformRows field width left)
    (hright : UniformRows field width right) :
    UniformRows field width (left ++ right) := by
  intro r hr
  rcases List.mem_append.mp hr with hmem | hmem
  · exact hleft r hmem
  · exact hright r hmem

theorem uniformRows_of_subset {part rows : List row} (hsub : part ⊆ rows)
    (h : UniformRows field width rows) :
    UniformRows field width part :=
  fun r hr => h r (hsub hr)

variable {rows : List row}

theorem uniformRows_take (h : UniformRows field width rows) (n : Nat) :
    UniformRows field width (rows.take n) :=
  uniformRows_of_subset (List.take_subset n rows) h

theorem uniformRows_drop (h : UniformRows field width rows) (n : Nat) :
    UniformRows field width (rows.drop n) :=
  uniformRows_of_subset (List.drop_subset n rows) h

/-!
## Lengths and cuts

A cut of the buffer at a multiple of the width is a cut of the row list.
-/

theorem length_flatMap_of_uniformRows (h : UniformRows field width rows) :
    (rows.flatMap field).length = rows.length * width := by
  induction rows with
  | nil => simp
  | cons r rest ih =>
    have hrest : UniformRows field width rest :=
      uniformRows_of_subset (List.subset_cons_self r rest) h
    have hr : (field r).length = width := h r List.mem_cons_self
    rw [List.flatMap_cons, List.length_append, hr, ih hrest,
      List.length_cons, Nat.succ_mul, Nat.add_comm]

theorem take_flatMap_of_uniformRows (h : UniformRows field width rows) (n : Nat) :
    (rows.flatMap field).take (n * width) = (rows.take n).flatMap field := by
  induction rows generalizing n with
  | nil => simp
  | cons r rest ih =>
    cases n with
    | zero => simp
    | succ n =>
      have hrest : UniformRows field width rest :=
        uniformRows_of_subset (List.subset_cons_self r rest) h
      have hr : (field r).length = width := h r List.mem_cons_self
      have hlen : (n + 1) * width - (field r).length = n * width := by
        rw [hr, Nat.succ_mul, Nat.add_sub_cancel]
      have hfull : (field r).take ((n + 1) * width) = field r := by
        apply List.take_of_length_le
        rw [hr]
        exact Nat.le_mul_of_pos_left width (Nat.succ_pos n)
      rw [List.flatMap_cons, List.take_append, hlen, hfull, ih hrest,
        List.take_succ_cons, List.flatMap_cons]

theorem drop_flatMap_of_uniformRows (h : UniformRows field width rows) (n : Nat) :
    (rows.flatMap field).drop (n * width) = (rows.drop n).flatMap field := by
  have hsplit : rows.flatMap field =
      (rows.take n).flatMap field ++ (rows.drop n).flatMap field := by
    rw [← List.flatMap_append, List.take_append_drop]
  have hwhole := List.take_append_drop (n * width) (rows.flatMap field)
  rw [take_flatMap_of_uniformRows h] at hwhole
  exact List.append_cancel_left (hwhole.trans hsplit)

theorem take_flatMap_add {width n extra : Nat} {r : row} (h : UniformRows field width rows)
    (hr : rows[n]? = some r) (hextra : extra <= width) :
    (rows.flatMap field).take (n * width + extra) =
      (rows.take n).flatMap field ++ (field r).take extra := by
  have hn : n < rows.length := (List.getElem?_eq_some_iff.mp hr).1
  have hdrop : rows.drop n = r :: rows.drop (n + 1) := by
    rw [List.drop_eq_getElem_cons hn, (List.getElem?_eq_some_iff.mp hr).2]
  have hlength : (field r).length = width :=
    h r (List.mem_of_getElem? hr)
  rw [List.take_add, take_flatMap_of_uniformRows h,
    drop_flatMap_of_uniformRows h, hdrop, List.flatMap_cons,
    List.take_append_of_le_length (by omega)]

theorem slice_flatMap_of_uniformRows {lo hi : Nat} (h : UniformRows field width rows)
    (hlo : lo <= hi) (hhi : hi <= rows.length) :
    slice (rows.flatMap field) (lo * width) (hi * width) =
      .ok (((rows.drop lo).take (hi - lo)).flatMap field) := by
  have hlength := length_flatMap_of_uniformRows h
  rw [slice_of_le (Nat.mul_le_mul_right width hlo)
    (by rw [hlength]; exact Nat.mul_le_mul_right width hhi)]
  rw [drop_flatMap_of_uniformRows h, ← Nat.sub_mul,
    take_flatMap_of_uniformRows (uniformRows_drop h lo)]

/-!
## Cutting a buffer into rows
-/

/-- The first `n` rows of the given width, read off a flat buffer. -/
def chunks (width : Nat) : Nat -> List entry -> List (List entry)
  | 0, _ => []
  | n + 1, buffer => buffer.take width :: chunks width n (buffer.drop width)

@[simp] theorem length_chunks (width n : Nat) (buffer : List entry) :
    (chunks width n buffer).length = n := by
  induction n generalizing buffer with
  | zero => rfl
  | succ n ih => simp [chunks, ih]

theorem flatten_chunks (width n : Nat) (buffer : List entry) :
    (chunks width n buffer).flatten = buffer.take (n * width) := by
  induction n generalizing buffer with
  | zero => simp [chunks]
  | succ n ih =>
    rw [chunks, List.flatten_cons, ih, Nat.succ_mul, Nat.add_comm, List.take_add]

theorem length_of_mem_chunks
    {width n : Nat} {buffer r : List entry} (hlength : n * width <= buffer.length)
    (hr : r ∈ chunks width n buffer) :
    r.length = width := by
  induction n generalizing buffer with
  | zero => cases hr
  | succ n ih =>
    rw [Nat.succ_mul] at hlength
    rcases List.mem_cons.mp hr with hhead | htail
    · rw [hhead, List.length_take]
      omega
    · apply ih _ htail
      rw [List.length_drop]
      omega

theorem chunks_append {width count : Nat} {left : List entry}
    (hleft : left.length = count * width) (more : Nat) (right : List entry) :
    chunks width (count + more) (left ++ right) =
      chunks width count left ++ chunks width more right := by
  induction count generalizing left with
  | zero =>
    rw [Nat.zero_mul, List.length_eq_zero_iff] at hleft
    rw [hleft, Nat.zero_add]
    rfl
  | succ count ih =>
    rw [Nat.succ_mul] at hleft
    have hwidth : width <= left.length := by
      omega
    have hrest : (left.drop width).length = count * width := by
      rw [List.length_drop]
      omega
    rw [Nat.succ_add, chunks, chunks, List.take_append_of_le_length hwidth,
      List.drop_append_of_le_length hwidth, ih hrest]
    rfl

theorem chunks_succ_last (width n : Nat) (buffer : List entry) :
    chunks width (n + 1) buffer =
      chunks width n buffer ++ [(buffer.drop (n * width)).take width] := by
  induction n generalizing buffer with
  | zero => simp [chunks]
  | succ n ih =>
    rw [chunks, ih, chunks, List.cons_append, List.drop_drop, Nat.succ_mul, Nat.add_comm width]

/-!
## Windows

Rows stored in consecutive regions are read through `window`: the part of a
region, standing at row `base`, that lies in `[start, stop)`.
-/

def window (start stop base : Nat) (rows : List row) : List row :=
  (rows.take (stop - base)).drop (start - base)

variable (start stop base : Nat)

theorem window_append (left right : List row) :
    window start stop base (left ++ right) =
      window start stop base left ++
        window start stop (base + left.length) right := by
  unfold window
  rw [List.take_append, List.drop_append, List.length_take, ← Nat.sub_add_eq, ← Nat.sub_add_eq]
  rcases Nat.le_total left.length (stop - base) with hlong | hshort
  · rw [Nat.min_eq_right hlong]
  · have hpast : stop - (base + left.length) = 0 := by
      omega
    simp [hpast]

theorem window_eq_nil_of_stop_le
    {start stop base : Nat} (rows : List row) (h : stop <= base) :
    window start stop base rows = [] := by
  simp [window, Nat.sub_eq_zero_of_le h]

theorem window_eq_nil_of_le_start {start stop base : Nat} (h : base + rows.length <= start) :
    window start stop base rows = [] := by
  apply List.drop_eq_nil_of_le
  rw [List.length_take]
  omega

theorem window_zero_base (start stop : Nat) (rows : List row) :
    window start stop 0 rows = (rows.take stop).drop start := rfl

theorem window_take (rows : List row) :
    window start stop base (rows.take (stop - base)) = window start stop base rows := by
  unfold window
  rw [List.take_take, Nat.min_self]

theorem window_map {other : Type} (f : row -> other) (rows : List row) :
    window start stop base (rows.map f) = (window start stop base rows).map f := by
  unfold window
  rw [← List.map_take, List.map_drop]

theorem window_singleton (r : row) :
    window start stop base [r] = if base < start ∨ stop <= base then [] else [r] := by
  unfold window
  split
  · rename_i hout
    rcases hout with hbefore | hpast
    · apply List.drop_eq_nil_of_le
      rw [List.length_take, List.length_singleton]
      omega
    · rw [Nat.sub_eq_zero_of_le hpast, List.take_zero, List.drop_nil]
  · rename_i hin
    rw [not_or, Nat.not_lt, Nat.not_le] at hin
    rw [Nat.sub_eq_zero_of_le hin.1, List.drop_zero,
      List.take_of_length_le (Nat.succ_le_of_lt (Nat.sub_pos_of_lt hin.2))]

theorem window_range (start stop base count : Nat) :
    window start stop base (List.range count) =
      List.range' (min (start - base) count)
        (min (stop - base) count - min (start - base) count) := by
  unfold window
  rw [List.take_range, List.range_eq_range', List.drop_range', Nat.zero_add, Nat.mul_one]
  rcases Nat.le_total count (start - base) with hpast | hin
  · have hnone : min (stop - base) count - (start - base) = 0 := by
      omega
    have hnoneLocal : min (stop - base) count - count = 0 := by
      omega
    rw [Nat.min_eq_right hpast, hnone, hnoneLocal]
    rfl
  · rw [Nat.min_eq_left hin]

end FlatRows

/-!
# Records of adjacent fields

The spans of fields laid end to end, and what a buffer made of equally long
records shows there.
-/

section RecordFields

/-- The half-open spans of fields of the given sizes, from a cursor on. -/
def spansFrom : Nat -> List Nat -> List (Nat × Nat)
  | _, [] => []
  | cursor, size :: rest => (cursor, cursor + size) :: spansFrom (cursor + size) rest

@[simp] theorem length_spansFrom (cursor : Nat) (sizes : List Nat) :
    (spansFrom cursor sizes).length = sizes.length := by
  induction sizes generalizing cursor with
  | nil => rfl
  | cons size rest ih => simp [spansFrom, ih]

theorem spansFrom_shift (base : Nat) (sizes : List Nat) :
    spansFrom base sizes =
      (spansFrom 0 sizes).map (fun span => (base + span.1, base + span.2)) := by
  have hshift : forall cursor, spansFrom (base + cursor) sizes =
      (spansFrom cursor sizes).map (fun span => (base + span.1, base + span.2)) := by
    induction sizes with
    | nil =>
      intro cursor
      rfl
    | cons size rest ih =>
      intro cursor
      rw [spansFrom, spansFrom, List.map_cons, Nat.add_assoc, ih]
  exact hshift 0

variable {item : Type}

theorem slice_spansFrom
    {fields : List (List item)} {cursor i : Nat} {span : Nat × Nat} {field : List item}
    (before after : List item) (hbefore : before.length = cursor)
    (hspan : (spansFrom cursor (fields.map List.length))[i]? = some span)
    (hfield : fields[i]? = some field) :
    slice (before ++ fields.flatten ++ after) span.1 span.2 = .ok field := by
  induction fields generalizing cursor i before with
  | nil => cases hfield
  | cons head rest ih =>
    cases i with
    | zero =>
      cases hspan
      cases hfield
      rw [slice_of_le (Nat.le_add_right _ _) (by simp [hbefore])]
      rw [← hbefore]
      simp
    | succ i =>
      have hrest := ih (i := i) (before ++ head) (by
        rw [List.length_append, hbefore]) hspan hfield
      rw [List.flatten_cons, ← List.append_assoc before head]
      exact hrest

theorem slice_record_span
    {row : Type} {fields : row -> List (List item)} {rows : List row} {r : row}
    {sizes : List Nat} {k i : Nat} {span : Nat × Nat} {field : List item}
    (hsizes : forall r, r ∈ rows -> (fields r).map List.length = sizes) (hrow : rows[k]? = some r)
    (hspan : (spansFrom 0 sizes)[i]? = some span) (hfield : (fields r)[i]? = some field) :
    slice (rows.flatMap fun r => (fields r).flatten)
      (k * sizes.sum + span.1) (k * sizes.sum + span.2) = .ok field := by
  have huniform : UniformRows (fun r => (fields r).flatten) sizes.sum rows := by
    intro other hother
    rw [List.length_flatten, hsizes other hother]
  have hk : k < rows.length := (List.getElem?_eq_some_iff.mp hrow).1
  have hdrop : rows.drop k = r :: rows.drop (k + 1) := by
    rw [List.drop_eq_getElem_cons hk, (List.getElem?_eq_some_iff.mp hrow).2]
  have hsplit : rows.flatMap (fun r => (fields r).flatten) =
      (rows.take k).flatMap (fun r => (fields r).flatten) ++ (fields r).flatten ++
        (rows.drop (k + 1)).flatMap (fun r => (fields r).flatten) := by
    have hwhole := List.take_append_drop k rows
    rw [hdrop] at hwhole
    rw [← congrArg (List.flatMap fun r => (fields r).flatten) hwhole]
    simp
  have hbefore : ((rows.take k).flatMap (fun r => (fields r).flatten)).length =
      k * sizes.sum := by
    rw [length_flatMap_of_uniformRows (uniformRows_take huniform k), List.length_take,
      Nat.min_eq_left (Nat.le_of_lt hk)]
  have hshift : (spansFrom (k * sizes.sum) ((fields r).map List.length))[i]? =
      some (k * sizes.sum + span.1, k * sizes.sum + span.2) := by
    rw [hsizes r (List.mem_of_getElem? hrow), spansFrom_shift, List.getElem?_map, hspan]
    rfl
  rw [hsplit]
  exact slice_spansFrom _ _ hbefore hshift hfield

end RecordFields

/-!
# The last rows

A bounded buffer that drops from the front what no longer fits.  What a few pushes
dropped is known from the lengths alone, so a copy of the front is enough to undo them.
-/

variable {row : Type}

def lastRows (bound : Nat) (rows : List row) : List row :=
  rows.drop (rows.length - bound)

theorem length_lastRows (bound : Nat) (rows : List row) :
    (lastRows bound rows).length = min bound rows.length := by
  unfold lastRows
  rw [List.length_drop]
  omega

theorem lastRows_of_le {bound : Nat} {rows : List row} (h : rows.length <= bound) :
    lastRows bound rows = rows := by
  unfold lastRows
  rw [Nat.sub_eq_zero_of_le h]
  rfl

theorem lastRows_append (bound : Nat) (rows more : List row) :
    lastRows bound (lastRows bound rows ++ more) = lastRows bound (rows ++ more) := by
  unfold lastRows
  rw [← List.drop_append_of_le_length (Nat.sub_le rows.length bound), List.drop_drop,
    List.length_drop, List.length_append]
  congr 1
  omega

theorem tail_eq_lastRows {bound : Nat} {rows : List row} {next : row} (h : rows.length <= bound) :
    (if bound < (rows ++ [next]).length then (rows ++ [next]).tail else rows ++ [next]) =
      lastRows bound (rows ++ [next]) := by
  have hlength : (rows ++ [next]).length = rows.length + 1 := List.length_append
  split
  · unfold lastRows
    have hone : (rows ++ [next]).length - bound = 1 := by
      omega
    rw [hone, List.drop_one]
  · rename_i hfits
    exact (lastRows_of_le (Nat.le_of_not_lt hfits)).symm

theorem restore_lastRows {bound : Nat} {rows more : List row} (hrows : rows.length <= bound)
    (hmore : more.length <= bound) :
    rows.take (more.length - (bound - rows.length)) ++
        (lastRows bound (rows ++ more)).take
          ((lastRows bound (rows ++ more)).length - more.length) =
      rows := by
  have hevicted : (rows ++ more).length - bound = more.length - (bound - rows.length) := by
    rw [List.length_append]
    omega
  have hle : more.length - (bound - rows.length) <= rows.length := by
    omega
  have hrest : lastRows bound (rows ++ more) =
      rows.drop (more.length - (bound - rows.length)) ++ more := by
    unfold lastRows
    rw [hevicted, List.drop_append_of_le_length hle]
  rw [hrest, List.length_append, Nat.add_sub_cancel, List.take_left, List.take_append_drop]

end Library
end RunNBurn
