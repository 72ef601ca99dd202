import Mathlib.Data.List.Basic
import RunNBurn.Library.Checked

/-!
# Buckets

Values are pushed into numbered buckets.  A bucket keeps the order in which its values came,
and the buckets together hold what was pushed.
-/

namespace RunNBurn
namespace Library

variable {value : Type}

/-- The buckets after the pairs of a key and a value have been pushed. -/
def buckets (count : Nat) (pushed : List (Nat × value)) : List (List value) :=
  (List.range count).map fun key => (pushed.filter fun pair => pair.1 = key).map Prod.snd

theorem buckets_nil (count : Nat) :
    buckets count ([] : List (Nat × value)) = List.replicate count [] := by
  have hconst : buckets count ([] : List (Nat × value)) =
      (List.range count).map fun _ => [] := rfl
  rw [hconst, List.map_const', List.length_range]

/-- `buckets[key].push(x)` -/
theorem modifyAt_buckets {count key : Nat} (h : key < count) (pushed : List (Nat × value))
    (x : value) :
    modifyAt (buckets count pushed) key (fun earlier => earlier ++ [x]) =
      .ok (buckets count (pushed ++ [(key, x)])) := by
  have hlength : key < (buckets count pushed).length := by
    unfold buckets
    rw [List.length_map, List.length_range]
    exact h
  rw [modifyAt_of_lt hlength]
  apply congrArg Except.ok
  apply List.ext_getElem?
  intro other
  rw [getElem?_modify_eq_map]
  unfold buckets
  rw [List.getElem?_map, List.getElem?_map]
  cases hother : (List.range count)[other]? with
  | none => rfl
  | some found =>
    have hfound : found = other := by
      rw [List.getElem?_eq_some_iff] at hother
      rcases hother with ⟨hlt, hget⟩
      rw [← hget, List.getElem_range]
    rw [hfound, Option.map_some, Option.map_some, Option.map_some, List.filter_append,
      List.map_append]
    apply congrArg some
    by_cases hsame : other = key
    · rw [if_pos hsame, List.filter_cons_of_pos (by simp [hsame]), List.filter_nil]
      rfl
    · rw [if_neg hsame, List.filter_cons_of_neg (by simpa using Ne.symm hsame),
        List.filter_nil, List.map_nil, List.append_nil]

theorem perm_flatMap_filter {item : Type} (keyOf : item -> Nat) {count : Nat}
    {items : List item} (h : forall x, x ∈ items -> keyOf x < count) :
    ((List.range count).flatMap fun key => items.filter fun x => keyOf x = key).Perm items := by
  induction count generalizing items with
  | zero =>
    cases items with
    | nil => rfl
    | cons x rest => exact absurd (h x List.mem_cons_self) (Nat.not_lt_zero _)
  | succ count ih =>
    have hsmall : forall x, x ∈ items.filter (fun x => keyOf x < count) ->
        keyOf x < count := by
      intro x hx
      exact of_decide_eq_true (List.mem_filter.mp hx).2
    have hbelow : ((List.range count).flatMap fun key =>
          (items.filter fun x => keyOf x < count).filter fun x => keyOf x = key) =
        (List.range count).flatMap fun key => items.filter fun x => keyOf x = key := by
      apply List.flatMap_congr
      intro key hkey
      rw [List.filter_filter]
      apply List.filter_congr
      intro x hx
      have hlt := List.mem_range.mp hkey
      by_cases hsame : keyOf x = key
      · simp [hsame, hlt]
      · simp [hsame]
    have hlast : (items.filter fun x => keyOf x = count) =
        items.filter fun x => !decide (keyOf x < count) := by
      apply List.filter_congr
      intro x hx
      have hlt := h x hx
      by_cases hsame : keyOf x = count
      · simp [hsame]
      · have hless : keyOf x < count := by
          omega
        simp [hsame, hless]
    rw [List.range_succ, List.flatMap_append, List.flatMap_singleton, ← hbelow, hlast]
    exact ((ih hsmall).append_right _).trans (List.filter_append_perm _ items)

theorem perm_flatMap_buckets {count : Nat} {pushed : List (Nat × value)}
    (h : forall pair, pair ∈ pushed -> pair.1 < count) :
    ((buckets count pushed).zipIdx.flatMap fun bucket =>
      bucket.1.map fun x => (bucket.2, x)).Perm pushed := by
  have hzip : (buckets count pushed).zipIdx = (List.range count).map fun key =>
      ((pushed.filter fun pair => pair.1 = key).map Prod.snd, key) := by
    unfold buckets
    apply List.ext_getElem?
    intro i
    rw [List.getElem?_zipIdx, List.getElem?_map, List.getElem?_map]
    cases hget : (List.range count)[i]? with
    | none => rfl
    | some found =>
      rw [List.getElem?_eq_some_iff] at hget
      rcases hget with ⟨hlt, hget⟩
      rw [List.getElem_range] at hget
      rw [hget, Option.map_some, Option.map_some, Option.map_some, Nat.zero_add]
  rw [hzip, List.flatMap_map]
  have hkeys : ((List.range count).flatMap fun key =>
        ((pushed.filter fun pair => pair.1 = key).map Prod.snd).map fun x => (key, x)) =
      (List.range count).flatMap fun key => pushed.filter fun pair => pair.1 = key := by
    apply List.flatMap_congr
    intro key _
    rw [List.map_map]
    conv_rhs => rw [← List.map_id (pushed.filter fun pair => pair.1 = key)]
    apply List.map_congr_left
    intro pair hpair
    have hkey : pair.1 = key := of_decide_eq_true (List.mem_filter.mp hpair).2
    rw [← hkey]
    rfl
  rw [hkeys]
  exact perm_flatMap_filter Prod.fst h

theorem flatMap_filter_nonempty {out : Type} (found : List (List value × Nat))
    (convert : Nat -> value -> out) :
    ((found.filter fun bucket => !bucket.1.isEmpty).flatMap fun bucket =>
      bucket.1.map (convert bucket.2)) =
    found.flatMap fun bucket => bucket.1.map (convert bucket.2) := by
  induction found with
  | nil => rfl
  | cons bucket rest ih =>
    cases hbucket : bucket.1 with
    | nil =>
      rw [List.filter_cons_of_neg (by simp [hbucket]), ih, List.flatMap_cons, hbucket]
      rfl
    | cons x others =>
      rw [List.filter_cons_of_pos (by simp [hbucket]), List.flatMap_cons, List.flatMap_cons,
        ih]

end Library
end RunNBurn
