import Mathlib.Logic.Function.Basic
import RunNBurn.Library.TokenRows

/-!
# Rows written to their places

A flat buffer of rows is written one row at a time.  What it stands for is a function from
places to rows; rows that go to different places may be written in any order.
-/

namespace RunNBurn
namespace Library

variable {entry value item state : Type}

/-!
## Slices changed in place
-/

/-- Changes the slice `xs[lo..hi]`. -/
def updateSlice (xs : List entry) (lo hi : Nat) (change : List entry -> Checked (List entry)) :
    Checked (List entry) := do
  let part <- slice xs lo hi
  let changed <- change part
  return xs.take lo ++ changed ++ xs.drop hi

/-- `for (dst, value) in destination.iter_mut().zip(source)`: what is left over of the
longer list stays as it is. -/
def zipInto (change : entry -> value -> entry) (destination : List entry) (source : List value) :
    List entry :=
  List.zipWith change destination source ++ destination.drop source.length

def copyFromSlice (source destination : List entry) : Checked (List entry) := do
  require (source.length = destination.length)
    "copy_from_slice: source slice length does not match destination slice length"
  return source

theorem zipInto_of_length_eq {change : entry -> value -> entry}
    {destination : List entry} {source : List value} (h : destination.length = source.length) :
    zipInto change destination source = List.zipWith change destination source := by
  unfold zipInto
  rw [← h, List.drop_length, List.append_nil]

theorem zipInto_overwrite {convert : value -> entry}
    {destination : List entry} {source : List value} (h : destination.length = source.length) :
    zipInto (fun _ x => convert x) destination source = source.map convert := by
  rw [zipInto_of_length_eq h]
  induction source generalizing destination with
  | nil => rw [List.zipWith_nil_right, List.map_nil]
  | cons x rest ih =>
    cases destination with
    | nil => cases h
    | cons y others => rw [List.zipWith_cons_cons, List.map_cons, ih (Nat.succ.inj h)]

/-!
## What a buffer holds
-/

/-- The buffer holds `n` rows of one width, each at its place. -/
structure HoldsRows (width n : Nat) (rows : Nat -> List entry) (buffer : List entry) :
    Prop where
  length_eq : buffer.length = n * width
  row_eq : forall t, t < n -> rowAt width buffer t = rows t

namespace HoldsRows

variable {width n : Nat} {rows : Nat -> List entry} {buffer : List entry}

theorem length_row (h : HoldsRows width n rows buffer) {t : Nat} (ht : t < n) :
    (rows t).length = width := by
  rw [← h.row_eq t ht]
  exact length_rowAt h.length_eq ht

theorem congr {others : Nat -> List entry} (h : HoldsRows width n rows buffer)
    (hsame : forall t, t < n -> rows t = others t) :
    HoldsRows width n others buffer where
  length_eq := h.length_eq
  row_eq := by
    intro t ht
    rw [h.row_eq t ht, hsame t ht]

theorem eq_flatMap (h : HoldsRows width n rows buffer) :
    buffer = (List.range n).flatMap rows := by
  have hrows : forall t, t < n -> (rows t).length = width := fun t ht => h.length_row ht
  apply eq_of_rowAt_eq h.length_eq (length_flatMap_range hrows)
  intro t ht
  rw [h.row_eq t ht, rowAt_flatMap_range hrows ht]

theorem of_rowAt (hlength : buffer.length = n * width) :
    HoldsRows width n (rowAt width buffer) buffer where
  length_eq := hlength
  row_eq := fun _ _ => rfl

theorem of_flatMap (hrows : forall t, t < n -> (rows t).length = width) :
    HoldsRows width n rows ((List.range n).flatMap rows) where
  length_eq := length_flatMap_range hrows
  row_eq := fun _ ht => rowAt_flatMap_range hrows ht

theorem replicate (width n : Nat) (x : entry) :
    HoldsRows width n (fun _ => List.replicate width x) (List.replicate (n * width) x) where
  length_eq := List.length_replicate
  row_eq := by
    intro t ht
    have hroom : (t + 1) * width <= n * width := Nat.mul_le_mul_right width ht
    rw [Nat.succ_mul] at hroom
    unfold rowAt
    rw [List.drop_replicate, List.take_replicate, Nat.min_eq_left (by omega)]

theorem slice_eq (h : HoldsRows width n rows buffer) {t : Nat} (ht : t < n) :
    slice buffer (t * width) ((t + 1) * width) = .ok (rows t) := by
  have hroom : (t + 1) * width <= n * width := Nat.mul_le_mul_right width ht
  rw [slice_of_le (Nat.mul_le_mul_right width (Nat.le_succ t))
    (by rw [h.length_eq]; exact hroom), ← h.row_eq t ht]
  unfold rowAt
  rw [Nat.succ_mul, Nat.add_sub_cancel_left]

theorem take_rows (h : HoldsRows width n rows buffer) {count : Nat} (hcount : count <= n) :
    HoldsRows width count rows (buffer.take (count * width)) where
  length_eq := by
    have hroom : count * width <= n * width := Nat.mul_le_mul_right width hcount
    rw [List.length_take, h.length_eq, Nat.min_eq_left hroom]
  row_eq := by
    intro t ht
    have hfirst : rowAt width ((buffer.drop (0 * width)).take (count * width)) t =
        rowAt width buffer (0 + t) := rowAt_take_drop buffer 0 ht
    rw [Nat.zero_mul, List.drop_zero, Nat.zero_add] at hfirst
    rw [hfirst, h.row_eq t (Nat.lt_of_lt_of_le ht hcount)]

theorem updateSlice {t : Nat} {row : List entry} {change : List entry -> Checked (List entry)}
    (h : HoldsRows width n rows buffer) (ht : t < n)
    (hchange : change (rows t) = .ok row) (hrow : row.length = width) :
    Delivers (Library.updateSlice buffer (t * width) ((t + 1) * width) change)
      (HoldsRows width n (Function.update rows t row)) := by
  have hroom : (t + 1) * width <= n * width := Nat.mul_le_mul_right width ht
  have hbefore : (buffer.take (t * width)).length = t * width := by
    rw [List.length_take, h.length_eq]
    apply Nat.min_eq_left
    exact Nat.mul_le_mul_right width (Nat.le_of_lt ht)
  have hafter : (buffer.drop ((t + 1) * width)).length = n * width - (t + 1) * width := by
    rw [List.length_drop, h.length_eq]
  exists buffer.take (t * width) ++ row ++ buffer.drop ((t + 1) * width)
  constructor
  · unfold Library.updateSlice
    rw [h.slice_eq ht, ok_bind, hchange, ok_bind]
    rfl
  · constructor
    · rw [List.length_append, List.length_append, hbefore, hafter, hrow, ← Nat.succ_mul]
      exact Nat.add_sub_cancel' hroom
    · intro u hu
      rcases Nat.lt_trichotomy u t with hless | hsame | hgreater
      · have hin : (u + 1) * width <= t * width := Nat.mul_le_mul_right width hless
        rw [Function.update_of_ne (Nat.ne_of_lt hless), ← h.row_eq u hu]
        unfold rowAt
        rw [Nat.succ_mul] at hin
        rw [List.append_assoc, List.drop_append_of_le_length (by omega),
          List.take_append_of_le_length (by rw [List.length_drop]; omega), List.drop_take,
          List.take_take, Nat.min_eq_left (by omega)]
      · rw [hsame, Function.update_self]
        unfold rowAt
        rw [List.append_assoc, List.drop_left' hbefore, List.take_left' hrow]
      · rw [Function.update_of_ne (Nat.ne_of_gt hgreater), ← h.row_eq u hu]
        have hpast : (t + 1) * width <= u * width := Nat.mul_le_mul_right width hgreater
        unfold rowAt
        rw [List.drop_append, List.length_append, hbefore, hrow, ← Nat.succ_mul,
          List.drop_eq_nil_of_le
            (by rw [List.length_append, hbefore, hrow, ← Nat.succ_mul]; exact hpast),
          List.nil_append, List.drop_drop, Nat.add_sub_cancel' hpast]

end HoldsRows

/-!
## Scattering
-/

section

variable (place : item -> Nat) (row : item -> List entry)

/-- Each item writes its row to its place, the later over the earlier. -/
def scatterRows (items : List item)
    (rows : Nat -> List entry) : Nat -> List entry :=
  items.foldl (fun rows x => Function.update rows (place x) (row x)) rows

theorem scatterRows_append (left right : List item) (rows : Nat -> List entry) :
    scatterRows place row (left ++ right) rows =
      scatterRows place row right (scatterRows place row left rows) :=
  List.foldl_append

theorem scatterRows_concat (items : List item) (x : item) (rows : Nat -> List entry) :
    scatterRows place row (items ++ [x]) rows =
      Function.update (scatterRows place row items rows) (place x) (row x) :=
  scatterRows_append place row items [x] rows

end

variable {items : List item} {place : item -> Nat}
  {rows : Nat -> List entry} {row : item -> List entry}

theorem scatterRows_of_not_mem {t : Nat} (h : t ∉ items.map place) :
    scatterRows place row items rows t = rows t := by
  induction items generalizing rows with
  | nil => rfl
  | cons x rest ih =>
    rw [List.map_cons, List.mem_cons, not_or] at h
    show scatterRows place row rest (Function.update rows (place x) (row x)) t = rows t
    rw [ih h.2, Function.update_of_ne h.1]

theorem scatterRows_of_mem {x : item} (hplaces : (items.map place).Nodup) (hx : x ∈ items) :
    scatterRows place row items rows (place x) = row x := by
  induction items generalizing rows with
  | nil => cases hx
  | cons y rest ih =>
    rw [List.map_cons, List.nodup_cons] at hplaces
    show scatterRows place row rest (Function.update rows (place y) (row y)) (place x) = row x
    rcases List.mem_cons.mp hx with hhead | htail
    · rw [hhead, scatterRows_of_not_mem hplaces.1, Function.update_self]
    · exact ih hplaces.2 htail

theorem scatterRows_congr {row other : item -> List entry}
    (h : forall x, x ∈ items -> row x = other x) (rows : Nat -> List entry) :
    scatterRows place row items rows = scatterRows place other items rows := by
  induction items generalizing rows with
  | nil => rfl
  | cons x rest ih =>
    show scatterRows place row rest (Function.update rows (place x) (row x)) =
      scatterRows place other rest (Function.update rows (place x) (other x))
    rw [h x List.mem_cons_self, ih (fun y hy => h y (List.mem_cons_of_mem x hy))]

theorem scatterRows_perm {items others : List item} (hplaces : (items.map place).Nodup)
    (hperm : items.Perm others) :
    scatterRows place row items rows = scatterRows place row others rows := by
  have hothers : (others.map place).Nodup := (hperm.map place).nodup_iff.mp hplaces
  funext t
  by_cases ht : t ∈ items.map place
  · rcases List.mem_map.mp ht with ⟨x, hx, hplace⟩
    rw [← hplace, scatterRows_of_mem hplaces hx, scatterRows_of_mem hothers (hperm.mem_iff.mp hx)]
  · have hnone : t ∉ others.map place := by
      rw [← (hperm.map place).mem_iff]
      exact ht
    rw [scatterRows_of_not_mem ht, scatterRows_of_not_mem hnone]

/-!
## Loops over items
-/

theorem foldlM_delivers {body : state -> item -> Checked state} {start : state}
    (inv : List item -> state -> Prop) (hstart : inv [] start)
    (hbody : forall earlier x later s, items = earlier ++ x :: later -> inv earlier s ->
      Delivers (body s x) (inv (earlier ++ [x]))) :
    Delivers (items.foldlM body start) (inv items) := by
  apply Triple.delivers
  apply triple_foldlM inv hstart
  intro earlier x later s hitems hs
  exact (hbody earlier x later s hitems hs).triple

/-- `for (i, x) in items.iter().enumerate()` -/
def forEnumerated (body : Nat -> item -> state -> Checked state) (items : List item)
    (start : state) : Checked state :=
  items.zipIdx.foldlM (fun s pair => body pair.2 pair.1 s) start

theorem forEnumerated_delivers {body : Nat -> item -> state -> Checked state} {start : state}
    (inv : List item -> state -> Prop) (hstart : inv [] start)
    (hbody : forall earlier x later s, items = earlier ++ x :: later -> inv earlier s ->
      Delivers (body earlier.length x s) (inv (earlier ++ [x]))) :
    Delivers (forEnumerated body items start) (inv items) := by
  have hfold : Delivers (items.zipIdx.foldlM (fun s pair => body pair.2 pair.1 s) start)
      (inv (items.zipIdx.map Prod.fst)) := by
    apply foldlM_delivers (fun done => inv (done.map Prod.fst)) hstart
    intro earlier pair later s hsplit hs
    have hitems : items = earlier.map Prod.fst ++ pair.1 :: later.map Prod.fst := by
      have hfst := congrArg (List.map Prod.fst) hsplit
      rw [List.zipIdx_map_fst, List.map_append, List.map_cons] at hfst
      exact hfst
    have hget : items.zipIdx[earlier.length]? = some pair := by
      rw [hsplit, List.getElem?_append_right (Nat.le_refl _), Nat.sub_self]
      rfl
    have hindex : pair.2 = (earlier.map Prod.fst).length := by
      rw [List.getElem?_zipIdx, Option.map_eq_some_iff] at hget
      rcases hget with ⟨x, _, hpair⟩
      rw [← hpair, List.length_map, Nat.zero_add]
    rw [hindex, List.map_append]
    exact hbody (earlier.map Prod.fst) pair.1 (later.map Prod.fst) s hitems hs
  rw [List.zipIdx_map_fst] at hfold
  exact hfold

end Library
end RunNBurn
