import RunNBurn.Library.KthLargest
import RunNBurn.Library.Selection

/-!
# The items with the largest keys

A selection of items such that no item left out has a larger key than a selected one.  The keys
of such a selection are the largest ones; the items themselves are settled only where the cut
does not part equal keys.
-/

namespace RunNBurn
namespace Library

variable {item K : Type} [LinearOrder K] {key : item -> K} {items chosen : List item}

def Tops (key : item -> K) (items chosen : List item) : Prop :=
  exists rest, items.Perm (chosen ++ rest) ∧
    forall x, x ∈ chosen -> forall y, y ∈ rest -> key y <= key x

def CutsCleanly (k : Nat) (keys : List K) : Prop :=
  forall above below, (descending keys)[k - 1]? = some above ->
    (descending keys)[k]? = some below -> below < above

section Cut

variable {values : List K} {k : Nat} {bound value : K}

theorem bound_le_of_mem_take (hbound : (descending values)[k - 1]? = some bound)
    (hvalue : value ∈ (descending values).take k) : bound <= value := by
  rcases List.mem_iff_getElem?.mp hvalue with ⟨i, hi⟩
  have hlt : i < k :=
    Nat.lt_of_lt_of_le (List.getElem?_eq_some_iff.mp hi).1 (List.length_take_le k _)
  rw [List.getElem?_take_of_lt hlt] at hi
  rcases Nat.eq_or_lt_of_le (Nat.le_sub_one_of_lt hlt) with hlast | hearlier
  · rw [hlast, hbound] at hi
    exact le_of_eq (Option.some.inj hi)
  · rcases List.getElem?_eq_some_iff.mp hi with ⟨hiroom, hivalue⟩
    rcases List.getElem?_eq_some_iff.mp hbound with ⟨hkroom, hkvalue⟩
    rw [← hivalue, ← hkvalue]
    exact List.pairwise_iff_getElem.mp (pairwise_descending values) i (k - 1) hiroom hkroom hearlier

theorem lt_of_mem_drop (hcut : CutsCleanly k values)
    (hbound : (descending values)[k - 1]? = some bound)
    (hvalue : value ∈ (descending values).drop k) : value < bound := by
  rcases List.mem_iff_getElem?.mp hvalue with ⟨j, hj⟩
  rw [List.getElem?_drop] at hj
  rcases List.getElem?_eq_some_iff.mp hj with ⟨hjroom, hjvalue⟩
  have hkroom : k < (descending values).length := Nat.lt_of_le_of_lt (Nat.le_add_right k j) hjroom
  apply lt_of_le_of_lt _ (hcut bound _ hbound (List.getElem?_eq_getElem hkroom))
  rw [← hjvalue]
  rcases Nat.eq_zero_or_pos j with hzero | hpos
  · subst hzero
    exact le_refl _
  · exact List.pairwise_iff_getElem.mp (pairwise_descending values) k (k + j) hkroom hjroom
      (Nat.lt_add_of_pos_right hpos)

end Cut

theorem tops_take {sorted : List item} (hperm : sorted.Perm items)
    (hsorted : sorted.Pairwise fun x y => key y <= key x) (k : Nat) :
    Tops key items (sorted.take k) := by
  exists sorted.drop k
  constructor
  · rw [List.take_append_drop]
    exact hperm.symm
  · intro x hx y hy
    rw [← List.take_append_drop k sorted] at hsorted
    exact (List.pairwise_append.mp hsorted).2.2 x hx y hy

theorem tops_self : Tops key items items := by
  exists []
  constructor
  · rw [List.append_nil]
  · intro x _ y hy
    cases hy

instance transCmp_descending (key : item -> K) :
    Std.TransCmp fun x y => compare (key y) (key x) where
  eq_swap := Std.OrientedCmp.eq_swap
  isLE_trans := fun hxy hyz => Std.TransCmp.isLE_trans hyz hxy

theorem tops_partialSort (sort : PartialSort item) (key : item -> K) (nth : Nat)
    (items : List item) :
    Tops key items ((sort.run (fun x y => compare (key y) (key x)) nth items).take nth) := by
  exists (sort.run (fun x y => compare (key y) (key x)) nth items).drop nth
  constructor
  · rw [List.take_append_drop]
    exact (sort.perm _ _ _).symm
  · intro x hx y hy
    rcases List.mem_iff_getElem?.mp hx with ⟨i, hi⟩
    rcases List.mem_iff_getElem?.mp hy with ⟨j, hj⟩
    rw [List.getElem?_drop] at hj
    have hlt : i < nth :=
      Nat.lt_of_lt_of_le (List.getElem?_eq_some_iff.mp hi).1 (List.length_take_le nth _)
    rw [List.getElem?_take_of_lt hlt] at hi
    have hordered := sort.ordered (Nat.le_of_lt hlt) (Nat.le_add_right nth j) hi hj
    exact compare_le_iff_le.mp (Ordering.ne_gt_iff_isLE.mpr hordered)

namespace Tops

theorem length_le (h : Tops key items chosen) : chosen.length <= items.length := by
  rcases h with ⟨rest, hperm, _⟩
  rw [hperm.length_eq, List.length_append]
  exact Nat.le_add_right _ _

theorem subset (h : Tops key items chosen) {x : item} (hx : x ∈ chosen) : x ∈ items := by
  rcases h with ⟨rest, hperm, _⟩
  exact hperm.mem_iff.mpr (List.mem_append_left rest hx)

theorem nodup (h : Tops key items chosen) (hitems : items.Nodup) : chosen.Nodup := by
  rcases h with ⟨rest, hperm, _⟩
  exact (List.nodup_append.mp (hperm.nodup_iff.mp hitems)).1

theorem of_perm {others : List item} (h : Tops key items chosen) (hperm : others.Perm chosen) :
    Tops key items others := by
  rcases h with ⟨rest, hsplit, hle⟩
  exists rest
  constructor
  · exact hsplit.trans (hperm.symm.append_right rest)
  · intro x hx
    exact hle x (hperm.mem_iff.mp hx)

theorem congr {L : Type} [LinearOrder L] {other : item -> L} (h : Tops key items chosen)
    (hsame : forall x y, x ∈ items -> y ∈ items -> key y <= key x -> other y <= other x) :
    Tops other items chosen := by
  rcases h with ⟨rest, hperm, hle⟩
  exists rest
  constructor
  · exact hperm
  · intro x hx y hy
    exact hsame x y (hperm.mem_iff.mpr (List.mem_append_left rest hx))
      (hperm.mem_iff.mpr (List.mem_append_right chosen hy)) (hle x hx y hy)

theorem mem_of_max (h : Tops key items chosen) (hne : chosen ≠ []) {bound : K}
    (hbound : exists x, x ∈ items ∧ bound <= key x) : exists x, x ∈ chosen ∧ bound <= key x := by
  rcases h with ⟨rest, hperm, hle⟩
  rcases hbound with ⟨x, hx, hkey⟩
  rcases List.mem_append.mp (hperm.mem_iff.mp hx) with hchosen | hrest
  · exact Exists.intro x ⟨hchosen, hkey⟩
  · rcases List.exists_mem_of_ne_nil chosen hne with ⟨y, hy⟩
    exact Exists.intro y ⟨hy, le_trans hkey (hle y hy x hrest)⟩

theorem descending_eq {rest : List item} (hperm : items.Perm (chosen ++ rest))
    (hle : forall x, x ∈ chosen -> forall y, y ∈ rest -> key y <= key x) :
    descending (items.map key) = descending (chosen.map key) ++ descending (rest.map key) := by
  have hkeys : (descending (items.map key)).Perm
      (descending (chosen.map key) ++ descending (rest.map key)) := by
    refine (descending_perm _).trans ((hperm.map key).trans ?_)
    rw [List.map_append]
    exact ((descending_perm _).append (descending_perm _)).symm
  have hsorted : (descending (chosen.map key) ++ descending (rest.map key)).Pairwise
      fun a b => b <= a := by
    rw [List.pairwise_append]
    constructor
    · exact pairwise_descending _
    · constructor
      · exact pairwise_descending _
      · intro a ha b hb
        rcases List.mem_map.mp ((descending_perm _).mem_iff.mp ha) with ⟨x, hx, hax⟩
        rcases List.mem_map.mp ((descending_perm _).mem_iff.mp hb) with ⟨y, hy, hby⟩
        rw [← hax, ← hby]
        exact hle x hx y hy
  exact hkeys.eq_of_pairwise (fun a b _ _ hab hba => le_antisymm hba hab)
    (pairwise_descending _) hsorted

theorem keys_perm (h : Tops key items chosen) :
    (chosen.map key).Perm ((descending (items.map key)).take chosen.length) := by
  rcases h with ⟨rest, hperm, hle⟩
  have hlength : (descending (chosen.map key)).length = chosen.length := by
    rw [(descending_perm _).length_eq, List.length_map]
  rw [descending_eq hperm hle, List.take_left' hlength]
  exact (descending_perm _).symm

theorem perm_filter (h : Tops key items chosen)
    (hcut : CutsCleanly chosen.length (items.map key)) {bound : K}
    (hbound : (descending (items.map key))[chosen.length - 1]? = some bound) :
    chosen.Perm (items.filter fun x => decide (bound <= key x)) := by
  have hkeys := h.keys_perm
  rcases h with ⟨rest, hperm, hle⟩
  have hlength : (descending (chosen.map key)).length = chosen.length := by
    rw [(descending_perm _).length_eq, List.length_map]
  have hchosen : forall x, x ∈ chosen -> decide (bound <= key x) = true := by
    intro x hx
    exact decide_eq_true (bound_le_of_mem_take hbound (hkeys.mem_iff.mp (List.mem_map_of_mem hx)))
  have hrest : forall y, y ∈ rest -> ¬ decide (bound <= key y) = true := by
    intro y hy hbelow
    have hmem : key y ∈ (descending (items.map key)).drop chosen.length := by
      rw [descending_eq hperm hle, List.drop_left' hlength]
      exact (descending_perm _).mem_iff.mpr (List.mem_map_of_mem hy)
    exact absurd (of_decide_eq_true hbelow) (not_le.mpr (lt_of_mem_drop hcut hbound hmem))
  have hfilter := hperm.filter fun x => decide (bound <= key x)
  rw [List.filter_append, List.filter_eq_self.mpr hchosen, List.filter_eq_nil_iff.mpr hrest,
    List.append_nil] at hfilter
  exact hfilter.symm

theorem perm_of_cutsCleanly {others : List item} (h : Tops key items chosen)
    (hothers : Tops key items others) (hlength : chosen.length = others.length)
    (hcut : CutsCleanly chosen.length (items.map key)) : chosen.Perm others := by
  by_cases hnil : chosen = []
  · rw [hnil] at hlength
    rw [hnil, List.length_eq_zero_iff.mp hlength.symm]
  · have hpos : 0 < chosen.length := List.length_pos_iff.mpr hnil
    have hroom : chosen.length - 1 < (descending (items.map key)).length := by
      rw [(descending_perm _).length_eq, List.length_map]
      exact Nat.lt_of_lt_of_le (Nat.sub_lt hpos Nat.one_pos) h.length_le
    have hbound : exists bound,
        (descending (items.map key))[chosen.length - 1]? = some bound :=
      Exists.intro _ (List.getElem?_eq_getElem hroom)
    rcases hbound with ⟨bound, hbound⟩
    have hleft := h.perm_filter hcut hbound
    rw [hlength] at hcut hbound
    exact hleft.trans (hothers.perm_filter hcut hbound).symm

end Tops

end Library
end RunNBurn
