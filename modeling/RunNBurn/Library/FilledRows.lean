import Mathlib.Data.List.Induction
import RunNBurn.Library.RowLoops

/-!
# Buffers filled row by row

A loop that fills a buffer one row after the other, reading the rows of other buffers by slices
and by single entries, leaves what is made of those rows.
-/

namespace RunNBurn
namespace Library

variable {entry item out : Type}

def fillRows (n : Nat) (body : Nat -> Checked (List out)) : Checked (List out) := do
  let rows <- (List.range n).mapM body
  return rows.flatten

theorem mapM_range_eq_ok {n : Nat} {body : Nat -> Checked out} {value : Nat -> out}
    (h : forall i, i < n -> body i = .ok (value i)) :
    (List.range n).mapM body = .ok ((List.range n).map value) :=
  mapM_eq_ok fun i hi => h i (List.mem_range.mp hi)

theorem mapM_items_eq_ok {items : List item} {body : Nat -> Checked out} {value : item -> out}
    (h : forall (t : Nat) x, items[t]? = some x -> body t = .ok (value x)) :
    (List.range items.length).mapM body = .ok (items.map value) := by
  cases items with
  | nil => rfl
  | cons first rest =>
    have hat : forall (t : Nat) x, (first :: rest)[t]? = some x ->
        value ((first :: rest).getD t first) = value x := by
      intro t x hx
      rw [List.getD_eq_getElem?_getD, hx]
      rfl
    rw [← map_range_eq_map hat]
    apply mapM_range_eq_ok
    intro t ht
    rw [h t _ (List.getElem?_eq_getElem ht), hat t _ (List.getElem?_eq_getElem ht)]

theorem fillRows_range {n : Nat} {body : Nat -> Checked (List out)} {value : Nat -> List out}
    (h : forall i, i < n -> body i = .ok (value i)) :
    fillRows n body = .ok ((List.range n).map value).flatten := by
  unfold fillRows
  rw [mapM_range_eq_ok h, ok_bind]
  rfl

theorem fillRows_items {items : List item} {body : Nat -> Checked (List out)}
    {value : item -> List out}
    (h : forall (t : Nat) x, items[t]? = some x -> body t = .ok (value x)) :
    fillRows items.length body = .ok (items.map value).flatten := by
  unfold fillRows
  rw [mapM_items_eq_ok h, ok_bind]
  rfl

theorem foldlM_items_eq_ok {state : Type} {body : state -> Nat -> Checked state}
    {value : state -> item -> state} (inv : state -> Prop) {items : List item} {start : state}
    (hstart : inv start)
    (hbody : forall (t : Nat) x s, items[t]? = some x -> inv s -> body s t = .ok (value s x))
    (hvalue : forall x s, x ∈ items -> inv s -> inv (value s x)) :
    (List.range items.length).foldlM body start = .ok (items.foldl value start) ∧
      inv (items.foldl value start) := by
  induction items using List.reverseRecOn with
  | nil => exact ⟨rfl, hstart⟩
  | append_singleton items x ih =>
    have hbefore : forall (t : Nat) y, items[t]? = some y -> (items ++ [x])[t]? = some y := by
      intro t y hy
      rw [List.getElem?_append_left (List.getElem?_eq_some_iff.mp hy).1, hy]
    have hlast : (items ++ [x])[items.length]? = some x := by
      rw [List.getElem?_append_right (Nat.le_refl _), Nat.sub_self]
      rfl
    rcases ih (fun t y s hy => hbody t y s (hbefore t y hy))
      (fun y s hy => hvalue y s (List.mem_append_left _ hy)) with ⟨hrun, hinv⟩
    rw [List.length_append, List.length_singleton, List.range_succ, List.foldlM_append, hrun,
      ok_bind, List.foldl_append]
    refine ⟨?_, hvalue x _ (List.mem_append_right _ List.mem_cons_self) hinv⟩
    rw [List.foldlM_cons, hbody _ x _ hlast hinv]
    rfl

theorem foldlM_range_eq_ok {state : Type} {body : state -> Nat -> Checked state}
    {value : state -> Nat -> state} {n : Nat} (start : state)
    (h : forall i s, i < n -> body s i = .ok (value s i)) :
    (List.range n).foldlM body start = .ok ((List.range n).foldl value start) := by
  have hitems := @foldlM_items_eq_ok Nat state body value (fun _ => True) (List.range n) start
    True.intro
    (by
      intro t x s hx _
      rcases List.getElem?_eq_some_iff.mp hx with ⟨ht, hsame⟩
      rw [List.getElem_range] at hsame
      rw [List.length_range] at ht
      rw [← hsame]
      exact h t s ht)
    (fun _ _ _ _ => True.intro)
  rw [List.length_range] at hitems
  exact hitems.1

/-!
## Rows of one width
-/

section Rows

variable {width t : Nat} {rows : List (List entry)} {row : List entry}

theorem length_flatten_rows (h : UniformRows id width rows) :
    rows.flatten.length = rows.length * width := by
  have hlength := length_flatMap_of_uniformRows h
  rw [List.flatMap_id] at hlength
  exact hlength

theorem slice_flatten_row (h : UniformRows id width rows) (hrow : rows[t]? = some row) :
    slice rows.flatten (t * width) ((t + 1) * width) = .ok row := by
  have ht : t < rows.length := (List.getElem?_eq_some_iff.mp hrow).1
  have hslice := slice_flatMap_of_uniformRows h (Nat.le_succ t) ht
  have hone : (rows.drop t).take (t + 1 - t) = [row] := by
    rw [Nat.add_sub_cancel_left, List.drop_eq_getElem_cons ht, List.take_succ_cons, List.take_zero,
      (List.getElem?_eq_some_iff.mp hrow).2]
  rw [List.flatMap_id, hone, List.flatMap_singleton] at hslice
  exact hslice

theorem getElem?_flatten_row (h : UniformRows id width rows) (hrow : rows[t]? = some row) {c : Nat}
    (hc : c < width) : rows.flatten[t * width + c]? = row[c]? := by
  have hflat := @rowAt_flatMap _ _ _ _ _ _ _ h hrow
  rw [List.flatMap_id] at hflat
  have hat := congrArg (fun cells : List entry => cells[c]?) hflat
  unfold rowAt at hat
  rw [List.getElem?_take_of_lt hc, List.getElem?_drop] at hat
  exact hat

end Rows

theorem uniformRows_map {width : Nat} {items : List item} {make : item -> List out}
    (h : forall x, x ∈ items -> (make x).length = width) :
    UniformRows id width (items.map make) := by
  intro row hrow
  rcases List.mem_map.mp hrow with ⟨x, hx, hsame⟩
  rw [← hsame]
  exact h x hx

theorem uniformRows_zipWith {left right : Type} {width : Nat} {lefts : List left}
    {rights : List right} {combine : left -> right -> List out}
    (h : forall x y, x ∈ lefts -> y ∈ rights -> (combine x y).length = width) :
    UniformRows id width (List.zipWith combine lefts rights) := by
  intro row hrow
  rcases List.mem_iff_getElem?.mp hrow with ⟨t, ht⟩
  rw [List.getElem?_zipWith] at ht
  cases hx : lefts[t]? with
  | none =>
    rw [hx] at ht
    cases ht
  | some x =>
    cases hy : rights[t]? with
    | none =>
      rw [hx, hy] at ht
      cases ht
    | some y =>
      rw [hx, hy] at ht
      cases ht
      exact h x y (List.mem_of_getElem? hx) (List.mem_of_getElem? hy)

theorem zipWith_flatten_rows {left right out : Type} {width : Nat} {combine : left -> right -> out}
    {lefts : List (List left)} {rights : List (List right)}
      (hlengths : lefts.length = rights.length)
    (hlefts : UniformRows id width lefts) (hrights : UniformRows id width rights) :
    List.zipWith combine lefts.flatten rights.flatten =
      (List.zipWith (List.zipWith combine) lefts rights).flatten := by
  induction lefts generalizing rights with
  | nil =>
    rw [List.eq_nil_of_length_eq_zero hlengths.symm]
    rfl
  | cons row lefts ih =>
    cases rights with
    | nil => cases hlengths
    | cons other rights =>
      have hwidths : row.length = other.length :=
        (hlefts row List.mem_cons_self).trans (hrights other List.mem_cons_self).symm
      rw [List.flatten_cons, List.flatten_cons, List.zipWith_append hwidths,
        ih (Nat.succ.inj hlengths)
          (uniformRows_of_subset (List.subset_cons_self row lefts) hlefts)
          (uniformRows_of_subset (List.subset_cons_self other rights) hrights)]
      rfl

/-!
## Windows that slide over rows
-/

def windowsFrom (channels : Nat) : List entry -> List (List entry) -> List (List entry)
  | _, [] => []
  | before, seed :: seeds =>
    (before ++ seed) :: windowsFrom channels ((before ++ seed).drop channels) seeds

def rowsBefore (channels : Nat) (before : List entry) (seeds : List (List entry)) : List entry :=
  seeds.foldl (fun rows seed => (rows ++ seed).drop channels) before

section Windows

variable {channels : Nat} {before : List entry} {seeds : List (List entry)}

@[simp] theorem length_windowsFrom (channels : Nat) (before : List entry)
    (seeds : List (List entry)) :
    (windowsFrom channels before seeds).length = seeds.length := by
  induction seeds generalizing before with
  | nil => rfl
  | cons seed seeds ih =>
    unfold windowsFrom
    rw [List.length_cons, List.length_cons, ih]

theorem windowsFrom_append (channels : Nat) (before : List entry) (seeds more : List (List entry)) :
    windowsFrom channels before (seeds ++ more) =
      windowsFrom channels before seeds ++
        windowsFrom channels (rowsBefore channels before seeds) more := by
  induction seeds generalizing before with
  | nil => rfl
  | cons seed seeds ih =>
    rw [List.cons_append]
    have hrest := @ih ((before ++ seed).drop channels)
    change (before ++ seed) :: windowsFrom channels ((before ++ seed).drop channels)
      (seeds ++ more) = _
    rw [hrest]
    rfl

theorem rowsBefore_append (channels : Nat) (before : List entry) (seeds more : List (List entry)) :
    rowsBefore channels before (seeds ++ more) =
      rowsBefore channels (rowsBefore channels before seeds) more :=
  List.foldl_append

theorem drop_seed_flatten {seed : List entry} (hseed : seed.length = channels) :
    (before ++ seed).drop channels ++ seeds.flatten =
      (before ++ (seed :: seeds).flatten).drop channels := by
  have hroom : channels <= (before ++ seed).length := by
    rw [List.length_append, hseed]
    exact Nat.le_add_left _ _
  rw [List.flatten_cons, ← List.append_assoc]
  exact (List.drop_append_of_le_length hroom).symm

theorem length_drop_seed {seed : List entry} (hseed : seed.length = channels) :
    ((before ++ seed).drop channels).length = before.length := by
  rw [List.length_drop, List.length_append, hseed, Nat.add_sub_cancel]

theorem rowsBefore_eq (hseeds : UniformRows id channels seeds) :
    rowsBefore channels before seeds = (before ++ seeds.flatten).drop
      (seeds.length * channels) := by
  induction seeds generalizing before with
  | nil =>
    rw [List.flatten_nil, List.append_nil, List.length_nil, Nat.zero_mul, List.drop_zero]
    rfl
  | cons seed seeds ih =>
    have hseed : seed.length = channels := hseeds seed List.mem_cons_self
    have hrest := @ih ((before ++ seed).drop channels)
      (uniformRows_of_subset (List.subset_cons_self seed seeds) hseeds)
    rw [drop_seed_flatten hseed, List.drop_drop, Nat.add_comm, ← Nat.succ_mul] at hrest
    exact hrest

theorem length_rowsBefore (hseeds : UniformRows id channels seeds) :
    (rowsBefore channels before seeds).length = before.length := by
  rw [rowsBefore_eq hseeds, List.length_drop, List.length_append, length_flatten_rows hseeds,
    Nat.add_sub_cancel]

theorem getElem?_window {t : Nat} {window : List entry} (hseeds : UniformRows id channels seeds)
    (hwindow : (windowsFrom channels before seeds)[t]? = some window) :
    window.length = before.length + channels ∧
      forall i, i < before.length + channels ->
        (before ++ seeds.flatten)[t * channels + i]? = window[i]? := by
  induction seeds generalizing before t with
  | nil => cases hwindow
  | cons seed seeds ih =>
    have hseed : seed.length = channels := hseeds seed List.mem_cons_self
    unfold windowsFrom at hwindow
    cases t with
    | zero =>
      cases hwindow
      have hlength : (before ++ seed).length = before.length + channels := by
        rw [List.length_append, hseed]
      refine ⟨hlength, ?_⟩
      intro i hi
      rw [Nat.zero_mul, Nat.zero_add, List.flatten_cons, ← List.append_assoc,
        List.getElem?_append_left (by rw [hlength]; exact hi)]
    | succ t =>
      rw [List.getElem?_cons_succ] at hwindow
      have hrest := ih (uniformRows_of_subset (List.subset_cons_self seed seeds) hseeds) hwindow
      rw [drop_seed_flatten hseed, length_drop_seed hseed] at hrest
      refine ⟨hrest.1, ?_⟩
      intro i hi
      rw [← hrest.2 i hi, List.getElem?_drop, Nat.succ_mul]
      apply congrArg
      omega

end Windows

end Library
end RunNBurn
