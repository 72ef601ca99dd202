import Mathlib.Data.List.TakeWhile
import RunNBurn.Library.OnlineSoftmax
import RunNBurn.Moe.SharedExpertRouting

/-!
# The softmax router

Three ways to select the experts of a token.  All of them select experts with the largest
logits, and weigh them with the softmax over the selected ones.
-/

namespace RunNBurn
namespace Moe

open Library

variable {F : Type}

/-!
## Buffers
-/

theorem take_writeFront {entry : Type} {buffer entries : List entry} {k : Nat}
    (h : k <= entries.length) : (writeFront buffer entries).take k = entries.take k :=
  List.take_append_of_le_length h

theorem take_writeFront_length {entry : Type} {buffer entries : List entry} {k : Nat}
    (h : entries.length = k) : (writeFront buffer entries).take k = entries :=
  List.take_left' h

/-!
## The bounded insertion
-/

section Insertion

variable [LinearOrder F]

omit [LinearOrder F] in
/-- What moved is one place further, the rest stays. -/
theorem getElem?_shift (first count : Nat) (best : List (Best F)) (hfirst : 0 < first)
    (hroom : first + count <= best.length) (i : Nat) :
    ((List.range' first count).reverse.foldl (fun best shift =>
        match best[shift - 1]? with
        | some slot => best.set shift slot
        | none => best) best)[i]? =
      if first <= i ∧ i < first + count then best[i - 1]? else best[i]? := by
  induction count generalizing first i with
  | zero =>
    rw [if_neg (by omega)]
    rfl
  | succ count ih =>
    have hrest := ih (first + 1) (Nat.succ_pos first) (by omega)
    rw [List.range'_succ, List.reverse_cons, List.foldl_append, List.foldl_cons, List.foldl_nil]
    have hbefore := hrest (first - 1)
    rw [if_neg (by omega), List.getElem?_eq_getElem (by omega : first - 1 < best.length)]
      at hbefore
    rw [hbefore]
    dsimp only
    rw [List.getElem?_set]
    by_cases hhere : first = i
    · subst hhere
      have hlength := hrest first
      rw [if_neg (by omega), List.getElem?_eq_getElem (by omega : first < best.length)]
        at hlength
      rw [if_pos rfl, if_pos (List.getElem?_eq_some_iff.mp hlength).1, if_pos (by omega),
        List.getElem?_eq_getElem (by omega : first - 1 < best.length)]
    · rw [if_neg hhere, hrest i]
      by_cases hinside : first + 1 <= i ∧ i < first + 1 + count
      · rw [if_pos hinside, if_pos (by omega)]
      · rw [if_neg hinside, if_neg (by omega)]

theorem take_insertBest {k : Nat} {best : List (Best F)} (hroom : k <= best.length) (new : Best F) :
    (insertBest k best new).take k =
      ((best.take k).orderedInsert (RanksBefore Best.val Best.id) new).take k := by
  have hbeats : (fun slot : Best F =>
      decide (slot.val < new.val) || (decide (new.val = slot.val) && decide (new.id < slot.id))) =
        fun slot => decide (RanksBefore Best.val Best.id new slot) := by
    funext slot
    rw [← Bool.decide_and, ← Bool.decide_or]
    rfl
  have hlength : (best.take k).length = k := by
    rw [List.length_take, Nat.min_eq_left hroom]
  unfold insertBest
  dsimp only
  rw [hbeats, List.orderedInsert_eq_take_drop]
  cases hfound : (best.take k).findIdx?
      (fun slot => decide (RanksBefore Best.val Best.id new slot)) with
  | none =>
    rw [List.findIdx?_eq_none_iff] at hfound
    have hall : (best.take k).takeWhile
        (fun slot => decide ¬ RanksBefore Best.val Best.id new slot) = best.take k := by
      rw [List.takeWhile_eq_self_iff]
      intro slot hslot
      rw [decide_not, hfound slot hslot]
      rfl
    rw [hall, List.take_left' hlength]
  | some rank =>
    rw [List.findIdx?_eq_some_iff_findIdx_eq] at hfound
    rcases hfound with ⟨hrank, hindex⟩
    rw [hlength] at hrank
    have htake : (best.take k).takeWhile
        (fun slot => decide ¬ RanksBefore Best.val Best.id new slot) = best.take rank := by
      rw [List.takeWhile_eq_take_findIdx_not]
      simp only [decide_not, Bool.not_not]
      rw [hindex, List.take_take, Nat.min_eq_left (Nat.le_of_lt hrank)]
    have hdrop : (best.take k).dropWhile
        (fun slot => decide ¬ RanksBefore Best.val Best.id new slot) =
          (best.take k).drop rank := by
      rw [List.dropWhile_eq_drop_findIdx_not]
      simp only [decide_not, Bool.not_not]
      rw [hindex]
    rw [htake, hdrop]
    have hbehind : (best.take rank).length = rank := by
      rw [List.length_take, Nat.min_eq_left (Nat.le_trans (Nat.le_of_lt hrank) hroom)]
    have hshift := getElem?_shift (rank + 1) (k - (rank + 1)) best (Nat.succ_pos rank)
      (by omega)
    have hshiftLength : rank < (shiftBehind rank k best).length := by
      have hget := hshift rank
      rw [if_neg (by omega), List.getElem?_eq_getElem (by omega : rank < best.length)] at hget
      exact (List.getElem?_eq_some_iff.mp hget).1
    apply List.ext_getElem?
    intro i
    rcases Nat.lt_or_ge i k with hik | hik
    · rw [List.getElem?_take_of_lt hik, List.getElem?_take_of_lt hik, List.getElem?_set]
      rcases Nat.lt_trichotomy i rank with hless | hsame | hgreater
      · rw [if_neg (Nat.ne_of_gt hless), List.getElem?_append_left (by omega),
          List.getElem?_take_of_lt hless]
        exact (hshift i).trans (if_neg (by omega))
      · subst hsame
        rw [if_pos rfl, if_pos hshiftLength, List.getElem?_append_right (by omega), hbehind,
          Nat.sub_self]
        rfl
      · rw [if_neg (Nat.ne_of_lt hgreater), List.getElem?_append_right (by omega), hbehind]
        have hpast : i - rank = (i - rank - 1) + 1 := by
          omega
        rw [hpast, List.getElem?_cons_succ, List.getElem?_drop, List.getElem?_take_of_lt (by omega)]
        have hplace : rank + (i - rank - 1) = i - 1 := by
          omega
        rw [hplace]
        exact (hshift i).trans (if_pos (by omega))
    · rw [List.getElem?_eq_none_iff.mpr (by rw [List.length_take]; omega),
        List.getElem?_eq_none_iff.mpr (by rw [List.length_take]; omega)]

omit [LinearOrder F] in
theorem length_shiftBehind (rank k : Nat) (best : List (Best F)) :
    (shiftBehind rank k best).length = best.length := by
  unfold shiftBehind
  apply List.foldlRecOn _ _ (motive := fun shifted : List (Best F) =>
    shifted.length = best.length) rfl
  intro shifted hshifted shift _
  split
  · rw [List.length_set]
    exact hshifted
  · exact hshifted

theorem length_insertBest (k : Nat) (best : List (Best F)) (new : Best F) :
    (insertBest k best new).length = best.length := by
  unfold insertBest
  dsimp only
  split
  · rw [List.length_set, length_shiftBehind]
  · rfl

theorem take_foldl_insertBest {k : Nat} {best : List (Best F)} (hroom : k <= best.length)
    (entries : List (Best F)) :
    (entries.foldl (insertBest k) best).take k =
      entries.foldl (fun best new =>
        (best.orderedInsert (RanksBefore Best.val Best.id) new).take k) (best.take k) := by
  induction entries generalizing best with
  | nil => rfl
  | cons new rest ih =>
    rw [List.foldl_cons, List.foldl_cons, ih (by rw [length_insertBest]; exact hroom),
      take_insertBest hroom]

end Insertion

/-!
## The softmax over the selected experts
-/

section Softmax

variable [Field F] [LinearOrder F] {exp : F -> F} {logits : List (WithBot F)}

/-- The exponential of a logit; that of negative infinity is zero. -/
def expAt (exp : F -> F) (logit : WithBot F) : F :=
  match logit with
  | (x : F) => exp x
  | ⊥ => 0

def restrictedSoftmax (exp : F -> F) (logits : List (WithBot F)) (experts : List Nat) : List F :=
  experts.map fun expert => expAt exp (logitAt logits expert) /
    (experts.map fun other => expAt exp (logitAt logits other)).sum

omit [LinearOrder F] in
theorem expOfDifference_eq (h : Exponential exp) (value : WithBot F) (m : F) :
    expOfDifference exp value m = expAt exp value * (exp m)⁻¹ := by
  induction value using WithBot.recBotCoe with
  | bot => exact (zero_mul _).symm
  | coe x =>
    show exp (x - m) = exp x * (exp m)⁻¹
    have hscale := h.rescale x m 0
    rw [sub_zero, sub_zero] at hscale
    exact (eq_mul_inv_iff_mul_eq₀ (h.ne_zero m)).mpr hscale

theorem normalizeNonzero_scaled {item : Type} {items : List item} {f : item -> F} {factor : F}
    (hfactor : factor ≠ 0) (hsum : (items.map f).sum ≠ 0) :
    normalizeNonzero (items.map fun i => f i * factor) =
      items.map fun i => f i / (items.map f).sum := by
  unfold normalizeNonzero
  rw [← List.sum_eq_foldl, List.sum_map_mul_right]
  dsimp only
  rw [if_pos (mul_ne_zero hsum hfactor), List.map_map]
  apply List.map_congr_left
  intro i _
  exact mul_div_mul_right _ _ hfactor

variable [IsStrictOrderedRing F]

theorem expAt_nonneg (h : Exponential exp) (logit : WithBot F) : 0 <= expAt exp logit := by
  induction logit using WithBot.recBotCoe with
  | bot => exact le_refl 0
  | coe x => exact le_of_lt (h.pos x)

theorem expAt_lt (h : Exponential exp) (hmono : StrictMono exp) {a b : WithBot F} (hlt : a < b) :
    expAt exp a < expAt exp b := by
  induction b using WithBot.recBotCoe with
  | bot => exact absurd hlt not_lt_bot
  | coe y =>
    induction a using WithBot.recBotCoe with
    | bot => exact h.pos y
    | coe x => exact hmono (WithBot.coe_lt_coe.mp hlt)

theorem sum_expAt_pos {item : Type} (h : Exponential exp) {items : List item}
    {logit : item -> WithBot F} (hfinite : exists i, i ∈ items ∧ exists x : F, logit i = x) :
    0 < (items.map fun i => expAt exp (logit i)).sum := by
  rcases hfinite with ⟨i, hi, x, hx⟩
  have hmem : expAt exp (logit i) ∈ items.map fun i => expAt exp (logit i) :=
    List.mem_map_of_mem hi
  have hle := List.single_le_sum (fun value hvalue => by
    rcases List.mem_map.mp hvalue with ⟨j, _, hj⟩
    rw [← hj]
    exact expAt_nonneg h (logit j)) _ hmem
  rw [hx] at hle
  exact lt_of_lt_of_le (h.pos x) hle

theorem normalizeNonzero_expOfDifference (h : Exponential exp) {experts : List Nat}
    (hfinite : exists expert, expert ∈ experts ∧ exists x : F, logitAt logits expert = x) (m : F) :
    normalizeNonzero
        (experts.map fun expert => expOfDifference exp (logitAt logits expert) m) =
      restrictedSoftmax exp logits experts := by
  have hsum := sum_expAt_pos h hfinite
  simp only [expOfDifference_eq h]
  exact normalizeNonzero_scaled (inv_ne_zero (h.ne_zero m)) (ne_of_gt hsum)

end Softmax

/-!
## What is selected
-/

section Selected

variable [LinearOrder F] {logits : List (WithBot F)} {experts : List Nat}

omit [LinearOrder F] in
theorem map_logitAt_range (logits : List (WithBot F)) :
    (List.range logits.length).map (logitAt logits) = logits := by
  apply List.ext_getElem
  · rw [List.length_map, List.length_range]
  · intro i hleft hright
    rw [List.getElem_map, List.getElem_range]
    unfold logitAt
    rw [List.getD_eq_getElem?_getD, List.getElem?_eq_getElem hright]
    rfl

structure IsSelection (logits : List (WithBot F)) (k : Nat) (experts : List Nat) : Prop where
  length_eq : experts.length = k
  nodup : experts.Nodup
  lt : forall expert, expert ∈ experts -> expert < logits.length
  largest : (experts.map (logitAt logits)).Perm ((descending logits).take k)

theorem isSelection_of_tops (h : Tops (logitAt logits) (List.range logits.length) experts) :
    IsSelection logits experts.length experts where
  length_eq := rfl
  nodup := h.nodup List.nodup_range
  lt := fun _ hexpert => List.mem_range.mp (h.subset hexpert)
  largest := by
    have hkeys := h.keys_perm
    rw [map_logitAt_range logits] at hkeys
    exact hkeys

theorem exists_finite_of_tops (h : Tops (logitAt logits) (List.range logits.length) experts)
    (hne : experts ≠ []) (hfinite : exists x : F, (x : WithBot F) ∈ logits) :
    exists expert, expert ∈ experts ∧ exists x : F, logitAt logits expert = x := by
  rcases hfinite with ⟨x, hx⟩
  rw [← map_logitAt_range logits] at hx
  rcases List.mem_map.mp hx with ⟨source, hsource, hlogit⟩
  rcases h.mem_of_max hne (Exists.intro source ⟨hsource, le_of_eq hlogit.symm⟩) with
    ⟨expert, hexpert, hle⟩
  have hnotBot : logitAt logits expert ≠ ⊥ := ne_bot_of_le_ne_bot WithBot.coe_ne_bot hle
  rcases WithBot.ne_bot_iff_exists.mp hnotBot with ⟨y, hy⟩
  exact Exists.intro expert ⟨hexpert, Exists.intro y hy.symm⟩

omit [LinearOrder F] in
theorem nodup_map_id_range (n : Nat) : ((List.range n).map id).Nodup := by
  rw [List.map_id]
  exact List.nodup_range

end Selected

/-!
## The first way
-/

def rankedExperts [LinearOrder F] (logits : List (WithBot F)) : List Nat :=
  ranked (logitAt logits) id (List.range logits.length)

section Bounded

variable [LinearOrder F] {logits : List (WithBot F)}

theorem length_rankedExperts : (rankedExperts logits).length = logits.length := by
  unfold rankedExperts
  rw [(ranked_perm _ _ _).length_eq, List.length_range]

theorem length_take_rankedExperts {k : Nat} (hk : k <= logits.length) :
    ((rankedExperts logits).take k).length = k := by
  rw [List.length_take, length_rankedExperts, Nat.min_eq_left hk]

theorem tops_rankedExperts (k : Nat) :
    Tops (logitAt logits) (List.range logits.length) ((rankedExperts logits).take k) :=
  tops_take_ranked (nodup_map_id_range _) k

def bestEntries (logits : List (WithBot F)) : List (Best F) :=
  logits.zipIdx.map fun pair =>
    { val := pair.1
      id := pair.2 }

omit [LinearOrder F] in
theorem map_id_bestEntries : (bestEntries logits).map Best.id = List.range logits.length := by
  unfold bestEntries
  rw [List.map_map, List.range_eq_range']
  exact List.zipIdx_map_snd 0 logits

omit [LinearOrder F] in
theorem val_of_mem_bestEntries {entry : Best F} (h : entry ∈ bestEntries logits) :
    entry.val = logitAt logits entry.id := by
  rcases List.mem_map.mp h with ⟨pair, hpair, hentry⟩
  have hget := List.mem_zipIdx_iff_getElem?.mp hpair
  rw [← hentry]
  unfold logitAt
  rw [List.getD_eq_getElem?_getD, hget]
  rfl

theorem map_id_ranked_bestEntries :
    (ranked Best.val Best.id (bestEntries logits)).map Best.id = rankedExperts logits := by
  unfold rankedExperts
  rw [← map_id_bestEntries]
  apply map_ranked
  · exact fun _ h => val_of_mem_bestEntries h
  · exact fun _ _ => rfl
  · rw [map_id_bestEntries]
    exact nodup_map_id_range _

theorem take_foldl_bestEntries {k : Nat} (hk : k <= logits.length) (hk32 : k <= 32)
    (hlimit : logits.length <= usizeMax) :
    ((bestEntries logits).foldl (insertBest k) (List.replicate 32
          { val := ⊥
            id := usizeMax })).take k =
      (ranked Best.val Best.id (bestEntries logits)).take k := by
  have hids : ((bestEntries logits).map Best.id).Nodup := by
    rw [map_id_bestEntries]
    exact List.nodup_range
  have hpads : forall entry, entry ∈ bestEntries logits ->
      forall pad : Best F, pad ∈ List.replicate k
        { val := ⊥
          id := usizeMax } -> RanksBefore Best.val Best.id entry pad := by
    intro entry hentry pad hpad
    have hid : entry.id < logits.length := by
      rw [← List.mem_range, ← map_id_bestEntries]
      exact List.mem_map_of_mem hentry
    rw [(List.mem_replicate.mp hpad).2]
    rcases eq_bot_or_bot_lt entry.val with hbot | hlarger
    · exact Or.inr ⟨hbot, Nat.lt_of_lt_of_le hid hlimit⟩
    · exact Or.inl hlarger
  rw [take_foldl_insertBest (by rw [List.length_replicate]; exact hk32), List.take_replicate,
    Nat.min_eq_left hk32]
  have hrun := foldl_insert_take (k := k) hpads []
  rw [List.nil_append, List.take_replicate, Nat.min_self,
    foldl_orderedInsert_eq_ranked hids, List.take_append_of_le_length (by
      rw [(ranked_perm _ _ _).length_eq, ← List.length_map Best.id, map_id_bestEntries,
        List.length_range]
      exact hk)] at hrun
  exact hrun

end Bounded

section Ways

variable [Field F] [LinearOrder F] [IsStrictOrderedRing F] {exp : F -> F}
  {logits : List (WithBot F)} {k : Nat}

theorem ne_nil_of_length {entry : Type} {entries : List entry} (h : entries.length = k)
    (hk : 0 < k) : entries ≠ [] := by
  rw [← List.length_pos_iff, h]
  exact hk

theorem qwen35SelectTopkLogitsBounded_eq (h : Exponential exp)
    (hfinite : exists x : F, (x : WithBot F) ∈ logits) {nExpertUsed k : Nat}
    (hused : min nExpertUsed logits.length = k) (hpos : 0 < k) (hk32 : k <= 32)
    (hlimit : logits.length <= usizeMax) {idxOut : List Nat} {selectedWeights : List F}
    (hidx : k <= idxOut.length) (hweights : k <= selectedWeights.length) :
    qwen35SelectTopkLogitsBounded exp logits nExpertUsed idxOut selectedWeights =
      .ok (k, writeFront idxOut ((rankedExperts logits).take k), writeFront selectedWeights
          (restrictedSoftmax exp logits ((rankedExperts logits).take k))) := by
  have hk : k <= logits.length := by
    rw [← hused]
    exact Nat.min_le_right _ _
  have hne := ne_nil_of_length (length_take_rankedExperts hk) hpos
  have hids : ((ranked Best.val Best.id (bestEntries logits)).take k).map Best.id =
      (rankedExperts logits).take k := by
    rw [← map_id_ranked_bestEntries, List.map_take]
  have hvals : forall slot, slot ∈ (ranked Best.val Best.id (bestEntries logits)).take k ->
      slot.val = logitAt logits slot.id := by
    intro slot hslot
    exact val_of_mem_bestEntries ((ranked_perm _ _ _).mem_iff.mp (List.mem_of_mem_take hslot))
  have hmapVals : ((ranked Best.val Best.id (bestEntries logits)).take k).map Best.val =
      ((rankedExperts logits).take k).map (logitAt logits) := by
    rw [← hids, List.map_map]
    exact List.map_congr_left hvals
  have hmax : exists m : F,
      (((rankedExperts logits).take k).map (logitAt logits)).headD ⊥ = (m : WithBot F) := by
    rcases exists_finite_of_tops (tops_rankedExperts k) hne hfinite with ⟨expert, hexpert, x, hx⟩
    have hsorted : ((rankedExperts logits).take k).Pairwise (RanksBefore (logitAt logits) id) :=
      (pairwise_ranked (nodup_map_id_range _)).sublist (List.take_sublist _ _)
    cases hfront : (rankedExperts logits).take k with
    | nil => exact absurd hfront hne
    | cons first rest =>
      rw [hfront] at hexpert hsorted
      have hle : (x : WithBot F) <= logitAt logits first := by
        rw [← hx]
        rcases List.mem_cons.mp hexpert with hhead | htail
        · rw [hhead]
        · exact ((List.pairwise_cons.mp hsorted).1 expert htail).score_le
      have hnotBot := ne_bot_of_le_ne_bot WithBot.coe_ne_bot hle
      rcases WithBot.ne_bot_iff_exists.mp hnotBot with ⟨m, hm⟩
      exact Exists.intro m hm.symm
  rcases hmax with ⟨m, hm⟩
  have hexp : ((ranked Best.val Best.id (bestEntries logits)).take k).map
      (fun slot => expOfDifference exp slot.val m) =
        ((rankedExperts logits).take k).map
          (fun expert => expOfDifference exp (logitAt logits expert) m) := by
    rw [← hids, List.map_map]
    apply List.map_congr_left
    intro slot hslot
    show expOfDifference exp slot.val m = expOfDifference exp (logitAt logits slot.id) m
    rw [hvals slot hslot]
  unfold qwen35SelectTopkLogitsBounded
  dsimp only
  rw [hused, require_of_true _ hk32, ok_bind, require_of_true _ hidx, ok_bind,
    require_of_true _ hweights, ok_bind, if_neg (Nat.ne_of_gt hpos)]
  show Except.ok (k, writeFront idxOut ((((bestEntries logits).foldl (insertBest k) _).take k).map
    Best.id), writeFront selectedWeights _) = _
  rw [take_foldl_bestEntries hk hk32 hlimit, hids]
  show Except.ok (k, _, writeFront selectedWeights (normalizeNonzero
    ((((bestEntries logits).foldl (insertBest k) _).take k).map fun slot =>
      expOfDifference exp slot.val
        (((((bestEntries logits).foldl (insertBest k) _).take k).map Best.val).headD ⊥)))) = _
  rw [take_foldl_bestEntries hk hk32 hlimit, hmapVals, hm, hexp, normalizeNonzero_expOfDifference h
      (exists_finite_of_tops (tops_rankedExperts k) hne hfinite) m]

/-!
## The second way
-/

omit [Field F] [IsStrictOrderedRing F] in
theorem partitionExperts_delivers {K : Type} [LinearOrder K] (sort : PartialSort Nat)
    (key : Nat -> K) {k n : Nat} (hk : k <= n) :
    Delivers (partitionExperts sort key k (List.range n)) (fun idxAll =>
      idxAll.length = n ∧ Tops key (List.range n) (idxAll.take k)) := by
  unfold partitionExperts
  rw [List.length_range]
  split
  next hlt =>
    rw [selectNthUnstableBy_of_lt sort _ (by rw [List.length_range]; exact hlt)]
    apply delivers_ok
    constructor
    · rw [(sort.perm _ _ _).length_eq, List.length_range]
    · exact tops_partialSort sort key k (List.range n)
  next hge =>
    apply delivers_ok
    constructor
    · exact List.length_range
    · rw [List.take_of_length_le (by rw [List.length_range]; omega)]
      exact tops_self

omit [Field F] [IsStrictOrderedRing F] in
/-- Sorting the selected experts with their weights sorts the experts. -/
theorem ranked_pairs (logits : List (WithBot F)) (weight : Nat -> F) {selected : List Nat}
    (hselected : selected.Nodup) :
    let pairs := ranked RoutePair.logit RoutePair.expert
      (selected.map fun expert =>
        { expert := expert
          weight := weight expert
          logit := logitAt logits expert })
    pairs.map RoutePair.expert = ranked (logitAt logits) id selected ∧
      pairs.map RoutePair.weight = (ranked (logitAt logits) id selected).map weight := by
  dsimp only
  have hexperts : (selected.map fun expert =>
      ({ expert := expert
         weight := weight expert
         logit := logitAt logits expert } : RoutePair F)).map RoutePair.expert = selected := by
    rw [List.map_map]
    exact List.map_id selected
  have hmap : (ranked RoutePair.logit RoutePair.expert
      (selected.map fun expert =>
        ({ expert := expert
           weight := weight expert
           logit := logitAt logits expert } : RoutePair F))).map RoutePair.expert =
      ranked (logitAt logits) id selected := by
    have hranked : (ranked RoutePair.logit RoutePair.expert
        (selected.map fun expert =>
          ({ expert := expert
             weight := weight expert
             logit := logitAt logits expert } : RoutePair F))).map RoutePair.expert =
        ranked (logitAt logits) id ((selected.map fun expert =>
          ({ expert := expert
             weight := weight expert
             logit := logitAt logits expert } : RoutePair F)).map RoutePair.expert) := by
      apply map_ranked
      · intro pair hpair
        rcases List.mem_map.mp hpair with ⟨expert, _, heq⟩
        rw [← heq]
      · intro pair _
        rfl
      · rw [hexperts, List.map_id]
        exact hselected
    rw [hexperts] at hranked
    exact hranked
  constructor
  · exact hmap
  · rw [← hmap, List.map_map]
    apply List.map_congr_left
    intro pair hpair
    rcases List.mem_map.mp ((ranked_perm _ _ _).mem_iff.mp hpair) with ⟨expert, _, heq⟩
    rw [← heq]
    rfl

omit [LinearOrder F] [IsStrictOrderedRing F] in
/-- The softmax of an expert does not know the order of the selected ones. -/
theorem restrictedSoftmax_perm (exp : F -> F) (logits : List (WithBot F))
    {experts others : List Nat} (hperm : experts.Perm others) :
    restrictedSoftmax exp logits others =
      others.map fun expert => expAt exp (logitAt logits expert) /
        (experts.map fun other => expAt exp (logitAt logits other)).sum := by
  unfold restrictedSoftmax
  rw [(hperm.map fun other => expAt exp (logitAt logits other)).sum_eq]

/-- What a way of selecting leaves: a selection, and the softmax over it. -/
structure RoutesTop (exp : F -> F) (logits : List (WithBot F)) (k : Nat) (routed : Routed F) :
    Prop where
  selectedLen_eq : routed.selectedLen = k
  tops : Tops (logitAt logits) (List.range logits.length) routed.experts
  length_eq : routed.experts.length = k
  weights_eq : routed.weights = restrictedSoftmax exp logits routed.experts

omit [LinearOrder F] [IsStrictOrderedRing F] in
theorem length_restrictedSoftmax (experts : List Nat) :
    (restrictedSoftmax exp logits experts).length = experts.length :=
  List.length_map _

omit [IsStrictOrderedRing F] in
/-- Buffers whose first entries have been written. -/
theorem routesTop_of_writeFront {experts : List Nat} {weights : List F} (rest : List Nat)
    (probs selectedWeights : List F) (hlength : experts.length = k)
    (htops : Tops (logitAt logits) (List.range logits.length) experts)
    (hweights : weights = restrictedSoftmax exp logits experts) :
    RoutesTop exp logits k
      { selectedLen := k
        buffers :=
          { idxAll := experts ++ rest
            probs := probs
            selectedWeights := writeFront selectedWeights weights } } ∧
    Routed.experts
      { selectedLen := k
        buffers :=
          { idxAll := experts ++ rest
            probs := probs
            selectedWeights := writeFront selectedWeights weights } } = experts := by
  have hexperts : (experts ++ rest).take k = experts := List.take_left' hlength
  constructor
  · constructor
    · rfl
    · show Tops _ _ ((experts ++ rest).take k)
      rw [hexperts]
      exact htops
    · show ((experts ++ rest).take k).length = k
      rw [hexperts, hlength]
    · show (writeFront selectedWeights weights).take k =
        restrictedSoftmax exp logits ((experts ++ rest).take k)
      rw [hexperts, take_writeFront_length (by
        rw [hweights, length_restrictedSoftmax, hlength]), hweights]
  · exact hexperts

structure RouteBuffers.Fit (buffers : RouteBuffers F) (nExpert selectedLen : Nat) : Prop where
  idx_room : nExpert <= buffers.idxAll.length
  probs_room : nExpert <= buffers.probs.length
  weights_room : selectedLen <= buffers.selectedWeights.length

theorem selectBounded_routes (h : Exponential exp)
    (hfinite : exists x : F, (x : WithBot F) ∈ logits) (hpos : 0 < k) (hk : k <= logits.length)
    (hk32 : k <= 32) (hlimit : logits.length <= usizeMax) {buffers : RouteBuffers F}
    (hbuffers : buffers.Fit logits.length k) :
    Delivers (selectBounded exp logits k buffers) (fun routed =>
      RoutesTop exp logits k routed ∧ routed.experts = (rankedExperts logits).take k) := by
  have hidx : k <= (buffers.idxAll.take logits.length).length := by
    rw [List.length_take]
    exact Nat.le_min.mpr ⟨hk, Nat.le_trans hk hbuffers.idx_room⟩
  have hwrite : forall front : List Nat, writeFront buffers.idxAll
      (writeFront (buffers.idxAll.take logits.length) front) =
        front ++ ((buffers.idxAll.take logits.length).drop front.length ++
          buffers.idxAll.drop (writeFront (buffers.idxAll.take logits.length) front).length) := by
    intro front
    unfold writeFront
    rw [List.append_assoc]
  unfold selectBounded
  rw [qwen35SelectTopkLogitsBounded_eq h hfinite (Nat.min_eq_left hk) hpos hk32 hlimit hidx
    hbuffers.weights_room, ok_bind]
  apply delivers_ok
  rw [hwrite]
  exact routesTop_of_writeFront _ _ _ (length_take_rankedExperts hk) (tops_rankedExperts k) rfl

theorem selectByLogits_routes (h : Exponential exp)
    (hfinite : exists x : F, (x : WithBot F) ∈ logits) (sort : PartialSort Nat) (routeSort : Bool)
    (hpos : 0 < k) (hk : k <= logits.length) (buffers : RouteBuffers F) :
    Delivers (selectByLogits exp sort routeSort logits k buffers) (fun routed =>
      RoutesTop exp logits k routed ∧
      (routeSort = true -> CutsCleanly k logits ->
        routed.experts = (rankedExperts logits).take k)) := by
  unfold selectByLogits
  apply (partitionExperts_delivers sort (logitAt logits) hk).bind
  intro idxAll hidxAll
  rcases hidxAll with ⟨hidxLength, htops⟩
  have hlength : (idxAll.take k).length = k := by
    rw [List.length_take, hidxLength, Nat.min_eq_left hk]
  have hsplit : idxAll = idxAll.take k ++ idxAll.drop k := (List.take_append_drop k idxAll).symm
  have hmember := exists_finite_of_tops htops (ne_nil_of_length hlength hpos) hfinite
  have hmax : exists m : F,
      ((idxAll.take k).map (logitAt logits)).foldl max ⊥ = (m : WithBot F) := by
    rcases hmember with ⟨expert, hexpert, x, hx⟩
    have hmem : logitAt logits expert ∈ (idxAll.take k).map (logitAt logits) :=
      List.mem_map_of_mem hexpert
    have hle : logitAt logits expert <= ((idxAll.take k).map (logitAt logits)).foldl max ⊥ :=
      Generate.le_foldl_max (Or.inr hmem)
    rw [hx] at hle
    have hnotBot := ne_bot_of_le_ne_bot WithBot.coe_ne_bot hle
    rcases WithBot.ne_bot_iff_exists.mp hnotBot with ⟨m, hm⟩
    exact Exists.intro m hm.symm
  rcases hmax with ⟨m, hm⟩
  dsimp only
  rw [hm, normalizeNonzero_expOfDifference h hmember m]
  cases routeSort with
  | false =>
    apply delivers_ok
    constructor
    · have hwrite : writeFront buffers.idxAll idxAll =
          idxAll.take k ++ (idxAll.drop k ++ buffers.idxAll.drop idxAll.length) := by
        unfold writeFront
        rw [← List.append_assoc, List.take_append_drop]
      rw [hwrite]
      exact (routesTop_of_writeFront _ _ _ hlength htops rfl).1
    · intro hsort
      cases hsort
  | true =>
    have hpairs : List.zipWith
        (fun expert weight =>
          ({ expert := expert
             weight := weight
             logit := logitAt logits expert } : RoutePair F))
        (idxAll.take k) (restrictedSoftmax exp logits (idxAll.take k)) =
      (idxAll.take k).map fun expert =>
        { expert := expert
          weight := expAt exp (logitAt logits expert) /
            ((idxAll.take k).map fun other => expAt exp (logitAt logits other)).sum
          logit := logitAt logits expert } := by
      unfold restrictedSoftmax
      rw [List.zipWith_map_right, List.zipWith_self]
    rw [if_pos rfl, hpairs]
    have hsorted := ranked_pairs logits
      (fun expert => expAt exp (logitAt logits expert) /
        ((idxAll.take k).map fun other => expAt exp (logitAt logits other)).sum)
      (htops.nodup List.nodup_range)
    dsimp only at hsorted
    rw [hsorted.1, hsorted.2]
    have hperm := ranked_perm (logitAt logits) id (idxAll.take k)
    have hroutes := routesTop_of_writeFront
      (idxAll.drop (ranked (logitAt logits) id (idxAll.take k)).length ++
        buffers.idxAll.drop (writeFront idxAll (ranked (logitAt logits) id (idxAll.take k))).length)
      buffers.probs buffers.selectedWeights (hperm.length_eq.trans hlength)
      (htops.of_perm hperm) (restrictedSoftmax_perm exp logits hperm.symm).symm
    rw [← List.append_assoc] at hroutes
    apply delivers_ok
    constructor
    · exact hroutes.1
    · intro _ hcut
      rw [← map_logitAt_range logits, ← hlength] at hcut
      have hfront := ranked_eq_take (nodup_map_id_range _) htops hcut
      rw [hlength] at hfront
      exact hroutes.2.trans hfront

/-!
## The third way
-/

theorem probs_eq (h : Exponential exp) (hfinite : exists x : F, (x : WithBot F) ∈ logits) :
    exists factor : F, 0 < factor ∧
      normalizeNonzero (logits.map fun logit =>
        expOfDifference exp logit (logits.foldl max ⊥)) =
      logits.map fun logit => expAt exp logit * factor := by
  rcases hfinite with ⟨x, hx⟩
  have hle : (x : WithBot F) <= logits.foldl max ⊥ := Generate.le_foldl_max (Or.inr hx)
  rcases WithBot.ne_bot_iff_exists.mp (ne_bot_of_le_ne_bot WithBot.coe_ne_bot hle) with ⟨m, hm⟩
  have hsum : 0 < (logits.map fun logit => expAt exp logit).sum :=
    sum_expAt_pos h (Exists.intro _ ⟨hx, Exists.intro x rfl⟩)
  exists (logits.map fun logit => expAt exp logit).sum⁻¹
  constructor
  · exact inv_pos.mpr hsum
  · rw [← hm]
    simp only [expOfDifference_eq h]
    rw [normalizeNonzero_scaled (inv_ne_zero (h.ne_zero m)) (ne_of_gt hsum)]
    simp only [div_eq_mul_inv]

omit [LinearOrder F] [IsStrictOrderedRing F] in
theorem getD_probs (exp : F -> F) (logits : List (WithBot F)) (factor : F) (expert : Nat) :
    (logits.map fun logit => expAt exp logit * factor).getD expert 0 =
      expAt exp (logitAt logits expert) * factor := by
  unfold logitAt
  rw [List.getD_eq_getElem?_getD, List.getD_eq_getElem?_getD, List.getElem?_map]
  cases logits[expert]? with
  | none => exact (zero_mul factor).symm
  | some logit => rfl

theorem selectByProbs_routes (h : Exponential exp) (hmono : StrictMono exp)
    (hfinite : exists x : F, (x : WithBot F) ∈ logits) (sort : PartialSort Nat) (hpos : 0 < k)
    (hk : k <= logits.length) (buffers : RouteBuffers F) :
    Delivers (selectByProbs exp sort logits k buffers) (RoutesTop exp logits k) := by
  rcases probs_eq h hfinite with ⟨factor, hfactor, hprobs⟩
  unfold selectByProbs
  dsimp only
  rw [hprobs]
  simp only [getD_probs]
  apply (partitionExperts_delivers sort _ hk).bind
  intro idxAll hidxAll
  rcases hidxAll with ⟨hidxLength, hkeys⟩
  have htops : Tops (logitAt logits) (List.range logits.length) (idxAll.take k) := by
    apply hkeys.congr
    intro x y _ _ hle
    rcases le_or_gt (logitAt logits y) (logitAt logits x) with hlogit | hgreater
    · exact hlogit
    · have hlt := mul_lt_mul_of_pos_right (expAt_lt h hmono hgreater) hfactor
      exact absurd hlt (not_lt.mpr hle)
  have hlength : (idxAll.take k).length = k := by
    rw [List.length_take, hidxLength, Nat.min_eq_left hk]
  have hmember := exists_finite_of_tops htops (ne_nil_of_length hlength hpos) hfinite
  have hweights : normalizeNonzero
      ((idxAll.take k).map fun expert => expAt exp (logitAt logits expert) * factor) =
        restrictedSoftmax exp logits (idxAll.take k) :=
    normalizeNonzero_scaled (ne_of_gt hfactor) (ne_of_gt (sum_expAt_pos h hmember))
  rw [hweights]
  apply delivers_ok
  have hwrite : writeFront buffers.idxAll idxAll =
      idxAll.take k ++ (idxAll.drop k ++ buffers.idxAll.drop idxAll.length) := by
    unfold writeFront
    rw [← List.append_assoc, List.take_append_drop]
  rw [hwrite]
  exact (routesTop_of_writeFront _ _ _ hlength htops rfl).1

/-!
## The router
-/

theorem qwen35SoftmaxTopkRoute_routes (h : Exponential exp) (hmono : StrictMono exp)
    (hfinite : exists x : F, (x : WithBot F) ∈ logits) (hlimit : logits.length <= usizeMax)
    {nExpertUsed : Nat} (hused : 1 <= nExpertUsed) {buffers : RouteBuffers F}
    (hbuffers : buffers.Fit logits.length (min nExpertUsed logits.length))
    (sort : PartialSort Nat) (routeSortEnv : Option String) (fillProbs : Bool) :
    Delivers (qwen35SoftmaxTopkRoute exp sort routeSortEnv logits nExpertUsed buffers fillProbs)
      (RoutesTop exp logits (min nExpertUsed logits.length)) := by
  have hpos : 0 < min nExpertUsed logits.length := by
    rcases hfinite with ⟨x, hx⟩
    exact Nat.lt_min.mpr ⟨hused, List.length_pos_of_mem hx⟩
  have hk : min nExpertUsed logits.length <= logits.length := Nat.min_le_right _ _
  unfold qwen35SoftmaxTopkRoute
  dsimp only
  rw [require_of_true _ hbuffers.idx_room, ok_bind, require_of_true _ hbuffers.probs_room, ok_bind,
    require_of_true _ hbuffers.weights_room, ok_bind]
  split
  next hbounded =>
    rw [Bool.and_eq_true, Bool.and_eq_true, decide_eq_true_iff] at hbounded
    exact (selectBounded_routes h hfinite hpos hk hbounded.1.2 hlimit hbuffers).mono
      (fun _ hroutes => hroutes.1)
  next =>
    split
    · exact selectByProbs_routes h hmono hfinite sort hpos hk buffers
    · exact (selectByLogits_routes h hfinite sort _ hpos hk buffers).mono
        (fun _ hroutes => hroutes.1)

end Ways

end Moe
end RunNBurn
