import RunNBurn.Generate.CompactSampling
import RunNBurn.Library.DescendingSums
import Mathlib.Analysis.SpecialFunctions.Log.Base

/-!
# Chains of filters

Top-p keeps a smallest set of top logits whose probability exceeds its bound, min-p
keeps the top while its share is at most one, and a chain keeps the top after every
filter exactly when every filter meets its own condition.
-/

namespace RunNBurn
namespace Generate

open Library
open Inference

variable {K : Type} [Field K] [LinearOrder K]

/-!
# Probabilities grow with the logits
-/

theorem expBelow_strictMono {maths : ExponentialMaths K} (hexp : StrictMono maths.exp)
    [IsStrictOrderedRing K] (max : K) :
    StrictMono (expBelow maths max) := by
  intro lower higher hlt
  cases higher with
  | bot => exact absurd hlt not_lt_bot
  | coe score =>
    cases lower with
    | bot => exact expBelow_pos maths max WithBot.coe_ne_bot
    | coe other =>
      have hlt : other < score := WithBot.coe_lt_coe.mp hlt
      exact hexp (sub_lt_sub_right hlt max)

variable {logits : List (WithBot K)} {token : TokenId}

theorem probabilityOf_strictMono [IsStrictOrderedRing K] {maths : ExponentialMaths K}
    (hexp : StrictMono maths.exp) (max : K) (h : Alive logits token) :
    StrictMono (probabilityOf maths logits max) := by
  intro lower higher hlt
  have hweight := expBelow_strictMono hexp max hlt
  exact div_lt_div_of_pos_right hweight (sum_expBelow_pos maths max h)

theorem mem_survivorProbabilities [IsStrictOrderedRing K] (maths : ExponentialMaths K) {max : K}
    (h : Alive logits token) (hmax : maximumLogit logits = (max : WithBot K)) {prob : K}
    {index : Nat} :
    (prob, index) ∈ survivorProbabilities maths logits ↔
      exists logit, logits[index]? = some logit ∧ logit ≠ ⊥ ∧
        prob = probabilityOf maths logits max logit := by
  rw [survivorProbabilities_eq_map maths h hmax]
  constructor
  · intro hmem
    rcases List.mem_map.mp hmem with ⟨candidate, hcandidate, heq⟩
    have hkept := List.mem_filter.mp hcandidate
    have hfound := List.mem_zipIdx_iff_getElem?.mp hkept.1
    cases heq
    exact ⟨candidate.1, hfound, of_decide_eq_true hkept.2, rfl⟩
  · intro hlogit
    rcases hlogit with ⟨logit, hfound, hne, rfl⟩
    apply List.mem_map.mpr
    refine ⟨(logit, index), List.mem_filter.mpr ⟨?_, decide_eq_true hne⟩, rfl⟩
    exact List.mem_zipIdx_iff_getElem?.mpr hfound

/-!
# The cutoff of top-p
-/

theorem not_alive_dropPastCutoff {p cumsum : K} {indexed : List (K × Nat)}
    (h : token ∈ indexed.map Prod.snd) :
    ¬ Alive (dropPastCutoff p cumsum true indexed logits) token := by
  induction indexed generalizing logits with
  | nil => cases h
  | cons candidate rest ih =>
    unfold dropPastCutoff
    rcases List.mem_cons.mp h with hhead | hrest
    · intro halive
      rcases (dropPastCutoff_lowers p cumsum true rest _).alive halive with ⟨score, hscore⟩
      rw [hhead, List.getElem?_set_self'] at hscore
      cases hlogit : logits[candidate.2]? with
      | none =>
        rw [hlogit] at hscore
        cases hscore
      | some logit =>
        rw [hlogit] at hscore
        cases hscore
    · exact ih hrest

/-- The loop splits the candidates: all but the last kept one stay within the bound,
and past the bound the rest is dropped. -/
structure CutAt (p cumsum : K) (indexed : List (K × Nat)) (before after : List (WithBot K))
    (kept dropped : List (K × Nat)) : Prop where
  split_eq : indexed = kept ++ dropped
  within : cumsum + (kept.dropLast.map Prod.fst).sum <= p
  past : dropped = [] ∨ p < cumsum + (kept.map Prod.fst).sum
  unchanged : forall token, token ∉ dropped.map Prod.snd -> after[token]? = before[token]?
  lowered : forall token, token ∈ dropped.map Prod.snd -> ¬ Alive after token

theorem dropPastCutoff_cutAt {p cumsum : K} (indexed : List (K × Nat))
    (logits : List (WithBot K)) (hstart : cumsum <= p) :
    exists kept dropped, CutAt p cumsum indexed logits
      (dropPastCutoff p cumsum false indexed logits) kept dropped := by
  induction indexed generalizing cumsum with
  | nil =>
    exists []
    exists []
    constructor
    · rfl
    · simpa using hstart
    · exact Or.inl rfl
    · intro token _
      rfl
    · intro token htoken
      cases htoken
  | cons candidate rest ih =>
    unfold dropPastCutoff
    by_cases hpast : p < cumsum + candidate.1
    · rw [decide_eq_true hpast]
      exists [candidate]
      exists rest
      constructor
      · rfl
      · simpa using hstart
      · apply Or.inr
        simpa using hpast
      · intro token htoken
        exact getElem?_dropPastCutoff htoken
      · intro token htoken
        exact not_alive_dropPastCutoff htoken
    · rw [decide_eq_false hpast]
      rcases ih (not_lt.mp hpast) with ⟨kept, dropped, hcut⟩
      exists candidate :: kept
      exists dropped
      constructor
      · rw [hcut.split_eq, List.cons_append]
      · cases kept with
        | nil => simpa using hstart
        | cons second kept =>
          have hwithin := hcut.within
          rw [List.dropLast_cons_cons, List.map_cons, List.sum_cons, ← add_assoc]
          exact hwithin
      · rw [List.map_cons, List.sum_cons, ← add_assoc]
        exact hcut.past
      · exact hcut.unchanged
      · exact hcut.lowered

/-!
# Sets of kept candidates
-/

def keptMass (maths : ExponentialMaths K) (before after : List (WithBot K)) : K :=
  (((survivorProbabilities maths before).filter
    (fun candidate => decide (after[candidate.2]? ≠ some ⊥))).map Prod.fst).sum

/-- Among the sets of top logits whose probability exceeds the bound a smallest one,
and everything where there is none. -/
structure IsNucleus (maths : ExponentialMaths K) (p : K)
    (before after : List (WithBot K)) : Prop where
  smallest : (exists other, KeepsTop before other ∧ p < keptMass maths before other) ->
    p < keptMass maths before after ∧
      forall other, KeepsTop before other -> p < keptMass maths before other ->
        aliveCount after <= aliveCount other
  whole : (¬ exists other, KeepsTop before other ∧ p < keptMass maths before other) ->
    after = before

omit [Field K] in
theorem aliveCount_eq_countP_range (logits : List (WithBot K)) :
    aliveCount logits =
      (List.range' 0 logits.length).countP (fun index => decide (logits[index]? ≠ some ⊥)) := by
  have hindexes := List.zipIdx_map_snd 0 logits
  have hvalues := List.zipIdx_map_fst 0 logits
  have hcount : aliveCount logits =
      logits.zipIdx.countP (fun candidate => decide (⊥ < candidate.1)) := by
    unfold aliveCount
    conv_lhs => rw [← hvalues, List.countP_map]
    rfl
  rw [hcount, ← hindexes, List.countP_map]
  apply List.countP_congr
  intro candidate hcandidate
  have hfound := List.mem_zipIdx_iff_getElem?.mp hcandidate
  simp [hfound, bot_lt_iff_ne_bot]

theorem aliveCount_eq_length_filter [IsStrictOrderedRing K] (maths : ExponentialMaths K)
    {before other : List (WithBot K)} (hsome : exists token, Alive before token)
    (h : Lowers before other) :
    aliveCount other = ((survivorProbabilities maths before).filter
      (fun candidate => decide (other[candidate.2]? ≠ some ⊥))).length := by
  rcases hsome with ⟨token, halive⟩
  rcases maximumLogit_of_alive halive with ⟨max, hmax⟩
  rw [aliveCount_eq_countP_range, survivorProbabilities_eq_map maths halive hmax,
    ← List.countP_eq_length_filter, List.countP_map, List.countP_filter, h.length_eq,
    ← List.zipIdx_map_snd 0 before, List.countP_map]
  apply List.countP_congr
  intro candidate hcandidate
  have hfound := List.mem_zipIdx_iff_getElem?.mp hcandidate
  have hindex : candidate.2 < other.length := by
    rw [h.length_eq]
    exact (List.getElem?_eq_some_iff.mp hfound).1
  have hkept : other[candidate.2]? ≠ some ⊥ -> candidate.1 ≠ ⊥ := by
    intro hne hbot
    have halive : Alive other candidate.2 := by
      apply alive_iff.mpr
      refine ⟨_, List.getElem?_eq_getElem hindex, ?_⟩
      intro hlowered
      exact hne (by rw [List.getElem?_eq_getElem hindex, hlowered])
    rcases h.alive halive with ⟨score, hscore⟩
    rw [hfound, hbot] at hscore
    cases hscore
  simp only [Function.comp_apply, Bool.and_eq_true, decide_eq_true_eq]
  constructor
  · intro hne
    exact ⟨hne, hkept hne⟩
  · intro hboth
    exact hboth.1

section TopP

variable [IsStrictOrderedRing K]

def byProbability (maths : ExponentialMaths K) (logits : List (WithBot K)) : List (K × Nat) :=
  (survivorProbabilities maths logits).mergeSort (fun a b => decide (b.1 <= a.1))

variable (maths : ExponentialMaths K)

omit [IsStrictOrderedRing K] in
theorem byProbability_perm (logits : List (WithBot K)) :
    (byProbability maths logits).Perm (survivorProbabilities maths logits) :=
  List.mergeSort_perm _ _

omit [IsStrictOrderedRing K] in
theorem pairwise_byProbability (logits : List (WithBot K)) :
    (byProbability maths logits).Pairwise (fun a b => b.1 <= a.1) := by
  have hsorted : (byProbability maths logits).Pairwise
      (fun a b => decide (b.1 <= a.1) = true) := by
    apply List.pairwise_mergeSort
    · intro a b c hab hbc
      exact decide_eq_true (le_trans (of_decide_eq_true hbc) (of_decide_eq_true hab))
    · intro a b
      simpa using le_total b.1 a.1
  exact hsorted.imp (fun h => of_decide_eq_true h)

variable {logits : List (WithBot K)}

theorem byProbability_nonneg (hsome : exists token, Alive logits token) {prob : K}
    (h : prob ∈ (byProbability maths logits).map Prod.fst) :
    0 <= prob := by
  rcases hsome with ⟨token, halive⟩
  have hcandidates := (survivorProbabilities_of_alive maths halive).2
  rcases List.mem_map.mp h with ⟨candidate, hcandidate, rfl⟩
  have hmem := (byProbability_perm maths logits).mem_iff.mp hcandidate
  exact le_of_lt (hcandidates.pos candidate hmem)

omit [IsStrictOrderedRing K] in
theorem keptMass_eq (before after : List (WithBot K)) :
    keptMass maths before after = (((byProbability maths before).filter
      (fun candidate => decide (after[candidate.2]? ≠ some ⊥))).map Prod.fst).sum := by
  unfold keptMass
  exact ((((byProbability_perm maths before).filter _).map Prod.fst).sum_eq).symm

theorem keptMass_le_of_fewer {p : K} {before after other : List (WithBot K)}
    {kept dropped : List (K × Nat)} (hsome : exists token, Alive before token)
    (hcut : CutAt p 0 (byProbability maths before) before after kept dropped)
    (hother : Lowers before other) (hfewer : aliveCount other < kept.length) :
    keptMass maths before other <= p := by
  rw [keptMass_eq]
  have hcount : aliveCount other = (((byProbability maths before).filter
      (fun candidate => decide (other[candidate.2]? ≠ some ⊥))).map Prod.fst).length := by
    rw [aliveCount_eq_length_filter maths hsome hother, List.length_map]
    exact (((byProbability_perm maths before).filter _).length_eq).symm
  have hsub := (List.filter_sublist (l := byProbability maths before)
    (p := fun candidate => decide (other[candidate.2]? ≠ some ⊥))).map Prod.fst
  have hsorted : ((byProbability maths before).map Prod.fst).Pairwise (fun a b => b <= a) := by
    rw [List.pairwise_map]
    exact pairwise_byProbability maths before
  have hshort : aliveCount other <= kept.length - 1 := Nat.le_sub_one_of_lt hfewer
  have hfirst : ((byProbability maths before).map Prod.fst).take (kept.length - 1) =
      kept.dropLast.map Prod.fst := by
    rw [hcut.split_eq, List.map_append,
      List.take_append_of_le_length (by rw [List.length_map]; exact Nat.sub_le ..),
      ← List.map_take, List.dropLast_eq_take]
  have hwithin := hcut.within
  rw [zero_add, ← hfirst] at hwithin
  have hnonneg : forall prob, prob ∈ (byProbability maths before).map Prod.fst -> 0 <= prob :=
    fun prob hprob => byProbability_nonneg maths hsome hprob
  calc (((byProbability maths before).filter
          (fun candidate => decide (other[candidate.2]? ≠ some ⊥))).map Prod.fst).sum
      <= (((byProbability maths before).map Prod.fst).take (aliveCount other)).sum := by
        rw [hcount]
        exact sum_le_sum_take_of_sublist hsub hsorted
    _ <= (((byProbability maths before).map Prod.fst).take (kept.length - 1)).sum :=
        sum_take_le_sum_take hnonneg hshort
    _ <= p := hwithin

theorem filter_byProbability_eq_kept {p : K} {before after : List (WithBot K)}
    {kept dropped : List (K × Nat)} (hsome : exists token, Alive before token)
    (hafter : Lowers before after)
    (hcut : CutAt p 0 (byProbability maths before) before after kept dropped) :
    (byProbability maths before).filter
      (fun candidate => decide (after[candidate.2]? ≠ some ⊥)) = kept := by
  rcases hsome with ⟨token, halive⟩
  have hcandidates := (survivorProbabilities_of_alive maths halive).2
  have hnodup := ((byProbability_perm maths before).map Prod.snd).nodup_iff.mpr
    hcandidates.nodup
  rw [hcut.split_eq, List.map_append] at hnodup
  have hdisjoint := (List.nodup_append.mp hnodup).2.2
  have hbefore : forall candidate, candidate ∈ kept ++ dropped ->
      Alive before candidate.2 := by
    intro candidate hcandidate
    rw [← hcut.split_eq] at hcandidate
    exact hcandidates.alive candidate ((byProbability_perm maths before).mem_iff.mp hcandidate)
  have hfirst : kept.filter (fun candidate => decide (after[candidate.2]? ≠ some ⊥)) = kept := by
    apply List.filter_eq_self.mpr
    intro candidate hcandidate
    have hnot : candidate.2 ∉ dropped.map Prod.snd := by
      intro hdropped
      exact hdisjoint candidate.2 (List.mem_map_of_mem hcandidate) candidate.2 hdropped rfl
    rcases hbefore candidate (List.mem_append_left dropped hcandidate) with ⟨score, hscore⟩
    rw [hcut.unchanged candidate.2 hnot, hscore]
    simp
  have hrest : dropped.filter (fun candidate => decide (after[candidate.2]? ≠ some ⊥)) = [] := by
    apply List.filter_eq_nil_iff.mpr
    intro candidate hcandidate hkept
    have hindex : candidate.2 < after.length := by
      rw [hafter.length_eq]
      exact (hbefore candidate (List.mem_append_right kept hcandidate)).lt_length
    apply hcut.lowered candidate.2 (List.mem_map_of_mem hcandidate)
    apply alive_iff.mpr
    refine ⟨_, List.getElem?_eq_getElem hindex, ?_⟩
    intro hbot
    apply of_decide_eq_true hkept
    rw [List.getElem?_eq_getElem hindex, hbot]
  rw [hcut.split_eq, List.filter_append, hfirst, hrest, List.append_nil]

theorem topPFilter_keepsTop {maths : ExponentialMaths K} (hexp : StrictMono maths.exp) {p : K}
    (hp : 0 <= p) (hsome : exists token, Alive logits token) :
    KeepsTop logits (topPFilter maths p logits) := by
  rcases hsome with ⟨token, halive⟩
  rcases maximumLogit_of_alive halive with ⟨max, hmax⟩
  rcases dropPastCutoff_cutAt (byProbability maths logits) logits hp with ⟨kept, dropped, hcut⟩
  apply KeepsTop.of_upward (topPFilter_lowers maths p logits) _
    (exists_alive_topPFilter maths p halive)
  intro keptToken better score higher hkept hscore hhigher hlt
  have hcandidate : forall (index : Nat) (logit : WithBot K), logits[index]? = some logit ->
      logit ≠ ⊥ ->
        (probabilityOf maths logits max logit, index) ∈ byProbability maths logits := by
    intro index logit hlogit hne
    apply (byProbability_perm maths logits).mem_iff.mpr
    exact (mem_survivorProbabilities maths halive hmax).mpr ⟨logit, hlogit, hne, rfl⟩
  have hscoreNe : score ≠ ⊥ := by
    rcases alive_iff.mp ((topPFilter_lowers maths p logits).alive hkept) with ⟨found, hfound, hne⟩
    rw [hscore] at hfound
    cases hfound
    exact hne
  have hbetterNe : higher ≠ ⊥ := ne_bot_of_gt hlt
  have hnot : better ∉ dropped.map Prod.snd := by
    intro hdropped
    rcases List.mem_map.mp hdropped with ⟨candidate, hmem, rfl⟩
    have hkeptMem := hcandidate keptToken score hscore hscoreNe
    have hbetterMem := (byProbability_perm maths logits).mem_iff.mp
      (hcut.split_eq ▸ List.mem_append_right kept hmem)
    rcases (mem_survivorProbabilities maths halive hmax).mp hbetterMem with
      ⟨logit, hlogit, _, hprob⟩
    rw [hhigher] at hlogit
    cases hlogit
    rw [hcut.split_eq] at hkeptMem
    rcases List.mem_append.mp hkeptMem with hfirst | hsecond
    · have hsorted := pairwise_byProbability maths logits
      rw [hcut.split_eq] at hsorted
      have hle := (List.pairwise_append.mp hsorted).2.2 _ hfirst _ hmem
      rw [hprob] at hle
      exact absurd (probabilityOf_strictMono hexp max halive hlt) (not_lt_of_ge hle)
    · exact hcut.lowered keptToken (List.mem_map_of_mem (f := Prod.snd) hsecond) hkept
  apply alive_iff.mpr
  refine ⟨higher, ?_, hbetterNe⟩
  have hsame := hcut.unchanged better hnot
  rw [hhigher] at hsame
  exact hsame

theorem topPFilter_isNucleus {maths : ExponentialMaths K} (hexp : StrictMono maths.exp) {p : K}
    (hp : 0 <= p) (hsome : exists token, Alive logits token) :
    IsNucleus maths p logits (topPFilter maths p logits) := by
  have hkeeps := topPFilter_keepsTop hexp hp hsome
  rcases dropPastCutoff_cutAt (byProbability maths logits) logits hp with ⟨kept, dropped, hcut⟩
  have hfilter := filter_byProbability_eq_kept maths hsome hkeeps.lowers hcut
  have hmass : keptMass maths logits (topPFilter maths p logits) = (kept.map Prod.fst).sum := by
    rw [keptMass_eq, hfilter]
  have hcount : aliveCount (topPFilter maths p logits) = kept.length := by
    rw [aliveCount_eq_length_filter maths hsome hkeeps.lowers,
      ← ((byProbability_perm maths logits).filter _).length_eq, hfilter]
  have hpast := hcut.past
  rw [zero_add] at hpast
  constructor
  · intro hother
    rcases hother with ⟨other, hother, hmore⟩
    constructor
    · rw [hmass]
      rcases hpast with hall | hpast
      · have hwhole : byProbability maths logits = kept := by
          rw [hcut.split_eq, hall, List.append_nil]
        rw [← hwhole]
        apply lt_of_lt_of_le hmore
        rw [keptMass_eq]
        apply List.Sublist.sum_le_sum (List.filter_sublist.map Prod.fst)
        intro prob hprob
        exact byProbability_nonneg maths hsome hprob
      · exact hpast
    · intro other hother hmore
      rw [hcount]
      apply Nat.le_of_not_lt
      intro hfewer
      exact absurd hmore (not_lt_of_ge (keptMass_le_of_fewer maths hsome hcut hother.lowers hfewer))
  · intro hnone
    rcases hpast with hall | hpast
    · apply List.ext_getElem?
      intro token
      apply hcut.unchanged token
      rw [hall]
      exact List.not_mem_nil
    · exact absurd ⟨_, hkeeps, by rw [hmass]; exact hpast⟩ hnone

end TopP

/-!
# The share of min-p
-/

section MinP

variable [IsStrictOrderedRing K]

theorem exists_minPFilter_threshold (maths : ExponentialMaths K) (share : K)
    {logits : List (WithBot K)} {max : K} {token : TokenId} (halive : Alive logits token)
    (hmax : maximumLogit logits = (max : WithBot K)) :
    exists top, 0 < top ∧
      (forall (index : Nat) (logit : WithBot K), logits[index]? = some logit ->
        probabilityOf maths logits max logit <= top) ∧
      forall (index : Nat) (logit : WithBot K), logits[index]? = some logit ->
        (minPFilter maths share logits)[index]? =
          some (if probabilityOf maths logits max logit < top * share then ⊥ else logit) := by
  have hsoftmax := softmax_eq_map maths halive hmax
  rcases softmax_of_alive maths halive with ⟨probs, hprobs, hdistribution⟩
  have hmap : probs = logits.map (probabilityOf maths logits max) := by
    rw [hsoftmax] at hprobs
    exact (Option.some.inj hprobs).symm
  rcases hdistribution.exists_maximum halive with ⟨best, top, htop, hbest, hpos⟩
  refine ⟨top, hpos, ?_, ?_⟩
  · intro index logit hlogit
    have hmem : WithBot.some (probabilityOf maths logits max logit) ∈ probs.map WithBot.some := by
      rw [hmap]
      exact List.mem_map_of_mem (List.mem_map_of_mem (List.mem_of_getElem? hlogit))
    have hle := le_maximumLogit hmem
    rw [htop] at hle
    exact WithBot.coe_le_coe.mp hle
  · intro index logit hlogit
    have hprob : probs[index]? = some (probabilityOf maths logits max logit) := by
      rw [hmap, List.getElem?_map, hlogit]
      rfl
    have hshare : (WithBot.some (probabilityOf maths logits max logit) <
        WithBot.map (fun prob => prob * share) (WithBot.some top)) =
          (probabilityOf maths logits max logit < top * share) :=
      propext WithBot.coe_lt_coe
    unfold minPFilter
    rw [hprobs]
    dsimp only
    rw [List.getElem?_zipWith, hlogit, hprob, htop]
    simp only [hshare]

theorem minPFilter_keeps_iff {maths : ExponentialMaths K} (hexp : StrictMono maths.exp)
    (share : K) {logits : List (WithBot K)} (hsome : exists token, Alive logits token) :
    KeepsTop logits (minPFilter maths share logits) ↔ share <= 1 := by
  rcases hsome with ⟨token, halive⟩
  rcases maximumLogit_of_alive halive with ⟨max, hmax⟩
  rcases exists_minPFilter_threshold maths share halive hmax with ⟨top, hpos, hle, hfilter⟩
  have hlowers := minPFilter_lowers maths share logits
  constructor
  · intro hkeeps
    apply le_of_not_gt
    intro hshare
    rcases hkeeps.exists_alive with ⟨kept, hkept⟩
    rcases hlowers.alive hkept with ⟨score, hscore⟩
    have hbelow : probabilityOf maths logits max score < top * share :=
      lt_of_le_of_lt (hle kept score hscore) (lt_mul_of_one_lt_right hpos hshare)
    rcases hkept with ⟨value, hvalue⟩
    rw [hfilter kept score hscore, if_pos hbelow] at hvalue
    cases hvalue
  · intro hshare
    apply KeepsTop.of_upward hlowers _ (exists_alive_minPFilter maths hshare halive)
    intro kept better score higher hkept hscore hhigher hlt
    have hreach : ¬ probabilityOf maths logits max score < top * share := by
      intro hbelow
      rcases hkept with ⟨value, hvalue⟩
      rw [hfilter kept score hscore, if_pos hbelow] at hvalue
      cases hvalue
    have hmore := probabilityOf_strictMono hexp max halive hlt
    have hbetter : ¬ probabilityOf maths logits max higher < top * share :=
      not_lt_of_ge (le_trans (not_lt.mp hreach) (le_of_lt hmore))
    apply alive_iff.mpr
    refine ⟨higher, ?_, ne_bot_of_gt hlt⟩
    rw [hfilter better higher hhigher, if_neg hbetter]

end MinP

/-!
# Chains
-/

/-- The filters of a chain, with the ranges their constructors assert. -/
inductive LogitFilter (K : Type) [Field K] [LinearOrder K] where
  | topK (k : Nat) (pos : 0 < k)
  | topP (p : K) (nonneg : 0 <= p) (le_one : p <= 1)
  | minP (share : K) (nonneg : 0 <= share)

namespace LogitFilter

def apply (maths : ExponentialMaths K) : LogitFilter K -> List (WithBot K) -> List (WithBot K)
  | topK k _, logits => topKFilter k logits
  | topP p _ _, logits => topPFilter maths p logits
  | minP share _, logits => minPFilter maths share logits

def applyAll (maths : ExponentialMaths K) (filters : List (LogitFilter K))
    (logits : List (WithBot K)) : List (WithBot K) :=
  filters.foldl (fun logits filter => filter.apply maths logits) logits

def Keeps (maths : ExponentialMaths K) (filter : LogitFilter K)
    (before after : List (WithBot K)) : Prop :=
  KeepsTop before after ∧
    match filter with
    | topK k _ => aliveCount after = min k (aliveCount before)
    | topP p _ _ => IsNucleus maths p before after
    | minP _ _ => True

def Meets : LogitFilter K -> List (WithBot K) -> Prop
  | topK k _, logits => TopKRoom k logits
  | topP _ _ _, _ => True
  | minP share _, _ => share <= 1

section

variable (maths : ExponentialMaths K) (filters : List (LogitFilter K))

/-- Every filter of the chain does what it is to do, and what the chain has kept so
far is a top of its first logits. -/
def ChainKeeps (logits : List (WithBot K)) : Prop :=
  forall earlier filter later, filters = earlier ++ filter :: later ->
    filter.Keeps maths (applyAll maths earlier logits)
        (applyAll maths (earlier ++ [filter]) logits) ∧
      KeepsTop logits (applyAll maths (earlier ++ [filter]) logits)

def ChainMeets (logits : List (WithBot K)) : Prop :=
  forall earlier filter later, filters = earlier ++ filter :: later ->
    filter.Meets (applyAll maths earlier logits)

theorem applyAll_concat (filter : LogitFilter K) (logits : List (WithBot K)) :
    applyAll maths (filters ++ [filter]) logits =
      filter.apply maths (applyAll maths filters logits) := by
  unfold applyAll
  rw [List.foldl_append]
  rfl

end

variable [IsStrictOrderedRing K] {maths : ExponentialMaths K} {logits : List (WithBot K)}

theorem keeps_iff_meets (hexp : StrictMono maths.exp) (filter : LogitFilter K)
    (hsome : exists token, Alive logits token) :
    filter.Keeps maths logits (filter.apply maths logits) ↔ filter.Meets logits := by
  cases filter with
  | topK k pos => exact topKFilter_keeps_iff pos hsome
  | topP p nonneg le_one =>
    constructor
    · intro _
      trivial
    · intro _
      exact ⟨topPFilter_keepsTop hexp nonneg hsome, topPFilter_isNucleus hexp nonneg hsome⟩
  | minP share nonneg =>
    constructor
    · intro hkeeps
      exact (minPFilter_keeps_iff hexp share hsome).mp hkeeps.1
    · intro hmeets
      exact ⟨(minPFilter_keeps_iff hexp share hsome).mpr hmeets, trivial⟩

theorem keepsTop_applyAll (hexp : StrictMono maths.exp) (hsome : exists token, Alive logits token)
    (filters : List (LogitFilter K)) (hmeets : ChainMeets maths filters logits) :
    KeepsTop logits (applyAll maths filters logits) := by
  induction filters using List.reverseRecOn with
  | nil => exact KeepsTop.refl hsome
  | append_singleton filters filter ih =>
    have hkeeps := ih (fun earlier other later hsplit =>
      hmeets earlier other (later ++ [filter]) (by rw [hsplit]; simp))
    have hfilter := hmeets filters filter [] rfl
    rw [applyAll_concat]
    exact hkeeps.trans ((keeps_iff_meets hexp filter hkeeps.exists_alive).mpr hfilter).1

omit [IsStrictOrderedRing K] in
theorem ChainMeets.earlier {filters earlier : List (LogitFilter K)} {later : List (LogitFilter K)}
    (h : ChainMeets maths filters logits) (hsplit : filters = earlier ++ later) :
    ChainMeets maths earlier logits := by
  intro first filter rest hfirst
  apply h first filter (rest ++ later)
  rw [hsplit, hfirst, List.append_assoc, List.cons_append]

theorem chainKeeps_iff_chainMeets (maths : ExponentialMaths K) (hexp : StrictMono maths.exp)
    (filters : List (LogitFilter K)) (logits : List (WithBot K))
    (hsome : exists token, Alive logits token) :
    ChainKeeps maths filters logits ↔ ChainMeets maths filters logits := by
  constructor
  · intro hkeeps earlier filter later hsplit
    have hthis := (hkeeps earlier filter later hsplit).1
    rw [applyAll_concat] at hthis
    apply (keeps_iff_meets hexp filter _).mp hthis
    -- the filters before this one have left a logit alive
    rcases List.eq_nil_or_concat earlier with hnil | ⟨first, last, hconcat⟩
    · rw [hnil]
      exact hsome
    · have hbefore := hkeeps first last (filter :: later) (by rw [hsplit, hconcat]; simp)
      rw [hconcat, List.concat_eq_append]
      exact hbefore.2.exists_alive
  · intro hmeets earlier filter later hsplit
    have hearlier := keepsTop_applyAll hexp hsome earlier (hmeets.earlier hsplit)
    have hthis := (keeps_iff_meets hexp filter hearlier.exists_alive).mpr
      (hmeets earlier filter later hsplit)
    rw [applyAll_concat]
    exact ⟨hthis, hearlier.trans hthis.1⟩

end LogitFilter

noncomputable def realMaths : ExponentialMaths Real where
  exp := Real.exp
  log2 := Real.logb (2 : Nat)
  exp_pos := Real.exp_pos

/-- The largest logit stands before two smaller equal ones. -/
theorem chainKeeps_three :
    LogitFilter.ChainKeeps realMaths
      [.topK 2 (by decide), .topP (1 / 2) (by norm_num) (by norm_num), .minP (1 / 2) (by norm_num)]
      [WithBot.some 2, WithBot.some 1, WithBot.some 1] := by
  have hsome : exists token,
      Alive [WithBot.some (2 : Real), WithBot.some 1, WithBot.some 1] token := ⟨0, 2, rfl⟩
  apply (LogitFilter.chainKeeps_iff_chainMeets realMaths Real.exp_strictMono _ _ hsome).mpr
  intro earlier filter later hsplit
  cases earlier with
  | nil =>
    cases hsplit
    apply Or.inr
    intro threshold hthreshold token logit hlogit hlt
    have hone : threshold = WithBot.some 1 := by
      have hkth : kthLargest 2 [WithBot.some (2 : Real), WithBot.some 1, WithBot.some 1] =
          some (WithBot.some 1) := by
        apply kthLargest_eq_of_countP (by decide)
        · norm_num [List.countP_cons]
        · norm_num [List.countP_cons]
      exact Option.some.inj (hthreshold.symm.trans hkth)
    rw [hone] at hlt ⊢
    match token, hlogit with
    | 0, _ => decide
    | 1, hlogit =>
      cases hlogit
      exact absurd hlt (lt_irrefl _)
    | 2, hlogit =>
      cases hlogit
      exact absurd hlt (lt_irrefl _)
  | cons first earlier =>
    cases earlier with
    | nil =>
      cases hsplit
      trivial
    | cons second earlier =>
      cases earlier with
      | nil =>
        cases hsplit
        show (1 / 2 : Real) <= 1
        norm_num
      | cons third earlier => simp at hsplit

/-- Two smaller logits fill the room before the largest one. -/
theorem topK_drops_largest :
    topKFilter 2 [WithBot.some (1 : Rat), WithBot.some 1, WithBot.some 2] =
        [WithBot.some 1, WithBot.some 1, ⊥] ∧
      ¬ KeepsTop [WithBot.some (1 : Rat), WithBot.some 1, WithBot.some 2]
        [WithBot.some 1, WithBot.some 1, ⊥] := by
  constructor
  · have hkth : kthLargest 2 [WithBot.some (1 : Rat), WithBot.some 1, WithBot.some 2] =
        some (WithBot.some 1) := by
      apply kthLargest_eq_of_countP (by decide)
      · decide
      · decide
    unfold topKFilter
    rw [if_neg (by decide), hkth]
    decide
  · intro hkeeps
    have hlt : WithBot.some (1 : Rat) < WithBot.some 2 := by decide
    rcases hkeeps.upward 0 2 _ _ ⟨1, rfl⟩ rfl rfl hlt with ⟨score, hscore⟩
    cases hscore

end Generate
end RunNBurn
