import RunNBurn.Moe.SoftmaxRouting

/-!
# The sigmoid router

Experts are selected by probability plus bias and weighed by probability.  An adaptive mass
keeps the first of them that reach it.
-/

namespace RunNBurn
namespace Moe

open Library

variable {F : Type} [Field F] [LinearOrder F]

/-!
## The first ranks that reach a mass
-/

structure ReachesFirst (topP : F) (weights : List F) (ranks : Nat) : Prop where
  pos : 0 < ranks
  le : ranks <= weights.length
  reaches : topP <= (weights.take ranks).sum
  first : forall fewer, 0 < fewer -> fewer < ranks -> (weights.take fewer).sum < topP

theorem retainMass_spec [IsStrictOrderedRing F] (topP : F) (weights : List F) (mass : F) :
    match retainMass topP mass weights with
    | (reached, some ranks) =>
      reached = mass + (weights.take ranks).sum ∧ ReachesFirst (topP - mass) weights ranks
    | (reached, none) =>
      reached = mass + weights.sum ∧
        forall ranks, 0 < ranks -> ranks <= weights.length ->
          mass + (weights.take ranks).sum < topP := by
  induction weights generalizing mass with
  | nil =>
    constructor
    · exact (add_zero mass).symm
    · intro ranks hpos hle
      exact absurd hle (Nat.not_le.mpr hpos)
  | cons weight rest ih =>
    unfold retainMass
    by_cases hreached : topP <= mass + weight
    · rw [if_pos hreached]
      dsimp only
      have hone : ((weight :: rest).take 1).sum = weight := List.sum_singleton
      constructor
      · rw [hone]
      · constructor
        · exact Nat.one_pos
        · exact Nat.succ_le_succ (Nat.zero_le _)
        · rw [hone]
          exact sub_le_iff_le_add'.mpr hreached
        · intro fewer hpos hless
          omega
    · rw [if_neg hreached]
      have hrest := ih (mass + weight)
      have hfirst : mass + ((weight :: rest).take 1).sum < topP := by
        have hone : ((weight :: rest).take 1).sum = weight := List.sum_singleton
        rw [hone]
        exact not_le.mp hreached
      cases hfound : retainMass topP (mass + weight) rest with
      | mk reached ranks =>
        rw [hfound] at hrest
        cases ranks with
        | none =>
          dsimp only [Option.map_none] at hrest ⊢
          constructor
          · rw [hrest.1, List.sum_cons, add_assoc]
          · intro ranks hpos hle
            cases ranks with
            | zero => exact absurd hpos (Nat.lt_irrefl 0)
            | succ ranks =>
              rcases Nat.eq_zero_or_pos ranks with hzero | hmore
              · rw [hzero]
                exact hfirst
              · rw [List.take_succ_cons, List.sum_cons, ← add_assoc]
                exact hrest.2 ranks hmore (Nat.le_of_succ_le_succ hle)
        | some ranks =>
          dsimp only [Option.map_some] at hrest ⊢
          rcases hrest with ⟨hmass, hreaches⟩
          constructor
          · rw [hmass, List.take_succ_cons, List.sum_cons, add_assoc]
          · constructor
            · exact Nat.succ_pos ranks
            · exact Nat.succ_le_succ hreaches.le
            · rw [List.take_succ_cons, List.sum_cons]
              have hmore := hreaches.reaches
              rw [← sub_sub] at hmore
              exact sub_le_iff_le_add'.mp hmore
            · intro fewer hpos hless
              cases fewer with
              | zero => exact absurd hpos (Nat.lt_irrefl 0)
              | succ fewer =>
                rcases Nat.eq_zero_or_pos fewer with hzero | hmore
                · rw [hzero]
                  exact lt_sub_iff_add_lt'.mpr hfirst
                · rw [List.take_succ_cons, List.sum_cons]
                  have hbelow := hreaches.first fewer hmore (Nat.lt_of_succ_lt_succ hless)
                  rw [← sub_sub] at hbelow
                  exact lt_sub_iff_add_lt'.mp hbelow

/-!
## The weights that are retained
-/

theorem take_changeFront {entry : Type} {len : Nat} {buffer : List entry}
    (change : entry -> entry) (h : len <= buffer.length) :
    (changeFront len change buffer).take len = (buffer.take len).map change := by
  unfold changeFront
  apply List.take_left'
  rw [List.length_map, List.length_take, Nat.min_eq_left h]

theorem length_changeFront {entry : Type} (len : Nat) (change : entry -> entry)
    (buffer : List entry) : (changeFront len change buffer).length = buffer.length := by
  unfold changeFront
  rw [List.length_append, List.length_map, ← List.length_append, List.take_append_drop]

def normalized (weights : List F) : List F :=
  weights.map fun weight => weight / weights.sum

omit [LinearOrder F] in
theorem sum_take_normalized (weights : List F) (ranks : Nat) :
    ((normalized weights).take ranks).sum = (weights.take ranks).sum / weights.sum := by
  have hscaled : ((weights.take ranks).map fun weight => weight * weights.sum⁻¹).sum =
      ((weights.take ranks).map fun weight => weight).sum * weights.sum⁻¹ :=
    List.sum_map_mul_right _ _ _
  unfold normalized
  rw [← List.map_take]
  simp only [div_eq_mul_inv]
  rw [hscaled, List.map_id']

variable {weights : List F}

omit [LinearOrder F] in
theorem sum_normalized (h : weights.sum ≠ 0) : (normalized weights).sum = 1 := by
  have hlength : (normalized weights).length = weights.length := List.length_map _
  have hsum := sum_take_normalized weights weights.length
  rw [List.take_length, ← hlength, List.take_length, div_self h] at hsum
  exact hsum

/-- What is retained: how many, and their weights among themselves. -/
structure Retains (adaptiveTopP : Option F) (weights : List F) (retained : Nat × List F) :
    Prop where
  le : retained.1 <= weights.length
  length_eq : retained.2.length = weights.length
  weights_eq : retained.2.take retained.1 = normalized (weights.take retained.1)
  pos : 0 < (weights.take retained.1).sum
  all : adaptiveTopP = none -> retained.1 = weights.length
  mass : forall topP, adaptiveTopP = some topP ->
    ReachesFirst topP (normalized weights) retained.1

theorem retainWeights_retains [IsStrictOrderedRing F] {adaptiveTopP : Option F}
    (hsum : 0 < weights.sum)
    (htopP : forall topP, adaptiveTopP = some topP -> 0 < topP ∧ topP <= 1) :
    Retains adaptiveTopP weights (retainWeights adaptiveTopP weights) := by
  have hnormalized : (if 0 < weights.foldl (fun sum weight => sum + weight) 0 then
      weights.map fun weight => weight / weights.foldl (fun sum weight => sum + weight) 0
      else weights) = normalized weights := by
    rw [← List.sum_eq_foldl, if_pos hsum]
    rfl
  unfold retainWeights
  dsimp only
  rw [hnormalized]
  have hlength : (normalized weights).length = weights.length := List.length_map _
  cases adaptiveTopP with
  | none =>
    dsimp only
    constructor
    · exact le_of_eq hlength
    · exact hlength
    · dsimp only
      rw [List.take_length, hlength, List.take_length]
    · dsimp only
      rw [hlength, List.take_length]
      exact hsum
    · intro _
      exact hlength
    · intro topP htop
      cases htop
  | some topP =>
    dsimp only
    rcases htopP topP rfl with ⟨hpos, hle⟩
    have hspec := retainMass_spec topP (normalized weights) 0
    cases hfound : retainMass topP 0 (normalized weights) with
    | mk reached ranks =>
      rw [hfound] at hspec
      cases ranks with
      | none =>
        have hall := hspec.2 weights.length
          (List.length_pos_iff.mpr (fun hnil => by
            rw [hnil] at hsum
            exact lt_irrefl 0 hsum)) (le_of_eq hlength.symm)
        rw [zero_add, sum_take_normalized, List.take_length, div_self (ne_of_gt hsum)]
          at hall
        exact absurd hall (not_lt.mpr hle)
      | some ranks =>
        dsimp only [Option.getD_some] at hspec ⊢
        rw [zero_add, sub_zero] at hspec
        rcases hspec with ⟨hreached, hreaches⟩
        have hmass : 0 < reached := by
          rw [hreached]
          exact lt_of_lt_of_le hpos hreaches.reaches
        have hfront : ranks <= weights.length := by
          rw [← hlength]
          exact hreaches.le
        rw [if_pos hmass]
        constructor
        · exact hfront
        · exact (length_changeFront _ _ _).trans hlength
        · dsimp only
          rw [take_changeFront _ hreaches.le, hreached, sum_take_normalized]
          unfold normalized
          rw [← List.map_take, List.map_map]
          apply List.map_congr_left
          intro weight _
          exact div_div_div_cancel_right₀ (ne_of_gt hsum) _ _
        · rw [hreached, sum_take_normalized] at hmass
          exact (div_pos_iff_of_pos_right hsum).mp hmass
        · intro hnone
          cases hnone
        · intro other hother
          rw [← Option.some.inj hother]
          exact hreaches

theorem retainWeights_zero [IsStrictOrderedRing F] {adaptiveTopP : Option F}
    (hzero : forall weight, weight ∈ weights -> weight = 0)
    (htopP : forall topP, adaptiveTopP = some topP -> 0 < topP) :
    retainWeights adaptiveTopP weights = (weights.length, weights) := by
  have hfront : forall ranks, (weights.take ranks).sum = 0 := by
    intro ranks
    apply List.sum_eq_zero
    intro weight hweight
    exact hzero weight (List.mem_of_mem_take hweight)
  have hsum : weights.sum = 0 := List.sum_eq_zero hzero
  unfold retainWeights
  rw [← List.sum_eq_foldl]
  dsimp only
  rw [if_neg (by rw [hsum]; exact lt_irrefl 0)]
  cases adaptiveTopP with
  | none => rfl
  | some topP =>
    dsimp only
    have hpos := htopP topP rfl
    have hspec := retainMass_spec topP weights 0
    cases hfound : retainMass topP 0 weights with
    | mk reached ranks =>
      rw [hfound] at hspec
      cases ranks with
      | some ranks =>
        dsimp only at hspec
        have hreaches := hspec.2.reaches
        rw [hfront, sub_zero] at hreaches
        exact absurd hpos (not_lt.mpr hreaches)
      | none =>
        dsimp only at hspec ⊢
        rw [if_neg (by rw [hspec.1, hsum, add_zero]; exact lt_irrefl 0)]
        rfl

/-!
## The router
-/

section Router

variable (exp : F -> F) (logits selectionBias : List (WithBot F))

def sigmoidAt (expert : Nat) : F :=
  sigmoid exp (logitAt logits expert)

def biasedScore (expert : Nat) : WithBot F :=
  ((sigmoidAt exp logits expert : F) : WithBot F) + logitAt selectionBias expert

def scoredExperts : List Nat :=
  ranked (biasedScore exp logits selectionBias) id (List.range logits.length)

/-- The probabilities of the experts that are selected, in their order. -/
def selectedProbs (k : Nat) : List F :=
  ((scoredExperts exp logits selectionBias).take k).map (sigmoidAt exp logits)

omit [LinearOrder F] in
theorem getD_sigmoid (expert : Nat) :
    (logits.map (sigmoid exp)).getD expert 0 = sigmoidAt exp logits expert := by
  unfold sigmoidAt logitAt
  rw [List.getD_eq_getElem?_getD, List.getD_eq_getElem?_getD, List.getElem?_map]
  cases logits[expert]? with
  | none => rfl
  | some logit => rfl

theorem length_scoredExperts : (scoredExperts exp logits selectionBias).length = logits.length := by
  unfold scoredExperts
  rw [(ranked_perm _ _ _).length_eq, List.length_range]

theorem length_selectedProbs {k : Nat} (hk : k <= logits.length) :
    (selectedProbs exp logits selectionBias k).length = k := by
  unfold selectedProbs
  rw [List.length_map, List.length_take, length_scoredExperts, Nat.min_eq_left hk]

theorem take_selectedProbs {k ranks : Nat} (h : ranks <= k) :
    (selectedProbs exp logits selectionBias k).take ranks =
      selectedProbs exp logits selectionBias ranks := by
  unfold selectedProbs
  rw [← List.map_take, List.take_take, Nat.min_eq_left h]

structure RoutesSigmoid (k : Nat) (normalizeSelected : Bool) (scale : F)
    (adaptiveTopP : Option F) (routed : Routed F) : Prop where
  len_le : routed.selectedLen <= k
  experts_eq : routed.experts =
    (scoredExperts exp logits selectionBias).take routed.selectedLen
  plain : normalizeSelected = false ->
    routed.selectedLen = k ∧
      routed.weights = routed.experts.map fun expert => sigmoidAt exp logits expert * scale
  normalizes : normalizeSelected = true -> 0 < (selectedProbs exp logits selectionBias k).sum ->
    routed.weights = (routed.experts.map fun expert => sigmoidAt exp logits expert /
        (routed.experts.map (sigmoidAt exp logits)).sum * scale) ∧
      routed.weights.sum = scale ∧
      (adaptiveTopP = none -> routed.selectedLen = k) ∧
      forall topP, adaptiveTopP = some topP ->
        ReachesFirst topP (normalized (selectedProbs exp logits selectionBias k))
          routed.selectedLen
  silent : normalizeSelected = true -> (selectedProbs exp logits selectionBias k).sum = 0 ->
    routed.selectedLen = k ∧ routed.weights = routed.experts.map fun _ => 0

/-- How many experts are kept, and what their weights are before the scale. -/
def retainedProbs (k : Nat) (normalizeSelected : Bool) (adaptiveTopP : Option F) :
    Nat × List F :=
  if normalizeSelected then retainWeights adaptiveTopP (selectedProbs exp logits selectionBias k)
  else (k, selectedProbs exp logits selectionBias k)

def routedOf (retained : Nat × List F) (scale : F) (buffers : RouteBuffers F) : Routed F where
  selectedLen := retained.1
  buffers :=
    { idxAll := writeFront buffers.idxAll (scoredExperts exp logits selectionBias)
      probs := writeFront buffers.probs (logits.map (sigmoid exp))
      selectedWeights := writeFront buffers.selectedWeights
        (changeFront retained.1 (fun weight => weight * scale) retained.2) }

theorem hy3SigmoidTopkRoute_eq (hbias : selectionBias.length = logits.length)
    (nExpertUsed : Nat) {buffers : RouteBuffers F}
    (hbuffers : buffers.Fit logits.length (min nExpertUsed logits.length))
    (normalizeSelected : Bool) (scale : F) (adaptiveTopP : Option F) :
    hy3SigmoidTopkRoute exp logits selectionBias nExpertUsed normalizeSelected scale adaptiveTopP
        buffers =
      .ok (routedOf exp logits selectionBias
        (retainedProbs exp logits selectionBias (min nExpertUsed logits.length) normalizeSelected
          adaptiveTopP) scale buffers) := by
  unfold hy3SigmoidTopkRoute
  dsimp only
  rw [require_of_true _ hbias, ok_bind, require_of_true _ hbuffers.idx_room, ok_bind,
    require_of_true _ hbuffers.probs_room, ok_bind, require_of_true _ hbuffers.weights_room,
    ok_bind]
  simp only [getD_sigmoid]
  rfl

variable {exp logits selectionBias}

theorem sigmoidAt_nonneg [IsStrictOrderedRing F] (hpos : forall x, 0 < exp x) (expert : Nat) :
    0 <= sigmoidAt exp logits expert := by
  unfold sigmoidAt
  induction logitAt logits expert using WithBot.recBotCoe with
  | bot => exact le_refl 0
  | coe x => exact le_of_lt (one_div_pos.mpr (add_pos zero_lt_one (hpos (-x))))

section Retained

variable {k : Nat} {retained : Nat × List F} (buffers : RouteBuffers F) (scale : F)

theorem experts_routedOf (hretained : retained.1 <= k) (hk : k <= logits.length) :
    (routedOf exp logits selectionBias retained scale buffers).experts =
      (scoredExperts exp logits selectionBias).take retained.1 := by
  apply take_writeFront
  rw [length_scoredExperts]
  exact Nat.le_trans hretained hk

theorem weights_routedOf (hretained : retained.1 <= retained.2.length) :
    (routedOf exp logits selectionBias retained scale buffers).weights =
      (retained.2.take retained.1).map fun weight => weight * scale := by
  show (writeFront _ _).take retained.1 = _
  rw [take_writeFront (by rw [length_changeFront]; exact hretained),
    take_changeFront _ hretained]

theorem map_sigmoidAt_experts (hretained : retained.1 <= k) (hk : k <= logits.length) :
    (routedOf exp logits selectionBias retained scale buffers).experts.map
        (sigmoidAt exp logits) =
      (selectedProbs exp logits selectionBias k).take retained.1 := by
  rw [take_selectedProbs exp logits selectionBias hretained,
    experts_routedOf buffers scale hretained hk]
  rfl

theorem routesSigmoid_plain (adaptiveTopP : Option F) (hk : k <= logits.length) :
    RoutesSigmoid exp logits selectionBias k false scale adaptiveTopP
      (routedOf exp logits selectionBias (k, selectedProbs exp logits selectionBias k) scale
        buffers) := by
  have hlength := length_selectedProbs exp logits selectionBias hk
  have hprobs : (routedOf exp logits selectionBias (k, selectedProbs exp logits selectionBias k)
      scale buffers).experts.map (sigmoidAt exp logits) =
        (selectedProbs exp logits selectionBias k).take k :=
    map_sigmoidAt_experts buffers scale (Nat.le_refl k) hk
  constructor
  · exact Nat.le_refl k
  · exact experts_routedOf buffers scale (Nat.le_refl k) hk
  · intro _
    constructor
    · rfl
    · rw [weights_routedOf buffers scale (le_of_eq hlength.symm), ← hprobs, List.map_map]
      rfl
  · intro hnormalize
    cases hnormalize
  · intro hnormalize
    cases hnormalize

omit [LinearOrder F] in
theorem sum_map_mul (weights : List F) :
    (weights.map fun weight => weight * scale).sum = weights.sum * scale := by
  have hscaled : (weights.map fun weight => weight * scale).sum =
      (weights.map fun weight => weight).sum * scale := List.sum_map_mul_right _ _ _
  rw [hscaled, List.map_id']

theorem routesSigmoid_normalized {adaptiveTopP : Option F} (hk : k <= logits.length)
    (hsum : 0 < (selectedProbs exp logits selectionBias k).sum)
    (hretains : Retains adaptiveTopP (selectedProbs exp logits selectionBias k) retained) :
    RoutesSigmoid exp logits selectionBias k true scale adaptiveTopP
      (routedOf exp logits selectionBias retained scale buffers) := by
  have hlength := length_selectedProbs exp logits selectionBias hk
  have hle : retained.1 <= k := by
    rw [← hlength]
    exact hretains.le
  have hprobs : (routedOf exp logits selectionBias retained scale buffers).experts.map
      (sigmoidAt exp logits) = (selectedProbs exp logits selectionBias k).take retained.1 :=
    map_sigmoidAt_experts buffers scale hle hk
  have hweights : (routedOf exp logits selectionBias retained scale buffers).weights =
      (normalized ((selectedProbs exp logits selectionBias k).take retained.1)).map
        fun weight => weight * scale := by
    rw [weights_routedOf buffers scale (by rw [hretains.length_eq]; exact hretains.le),
      hretains.weights_eq]
  constructor
  · exact hle
  · exact experts_routedOf buffers scale hle hk
  · intro hnormalize
    cases hnormalize
  · intro _ _
    constructor
    · rw [hweights, hprobs, ← hprobs]
      unfold normalized
      rw [List.map_map, List.map_map]
      rfl
    · constructor
      · rw [hweights, sum_map_mul, sum_normalized (ne_of_gt hretains.pos), one_mul]
      · constructor
        · intro hnone
          exact (hretains.all hnone).trans hlength
        · exact hretains.mass
  · intro _ hzero
    exact absurd hzero (ne_of_gt hsum)

theorem routesSigmoid_silent (adaptiveTopP : Option F) (hk : k <= logits.length)
    (hzero : forall prob, prob ∈ selectedProbs exp logits selectionBias k -> prob = 0) :
    RoutesSigmoid exp logits selectionBias k true scale adaptiveTopP
      (routedOf exp logits selectionBias (k, selectedProbs exp logits selectionBias k) scale
        buffers) := by
  have hlength := length_selectedProbs exp logits selectionBias hk
  have hprobs : (routedOf exp logits selectionBias (k, selectedProbs exp logits selectionBias k)
      scale buffers).experts.map (sigmoidAt exp logits) =
        (selectedProbs exp logits selectionBias k).take k :=
    map_sigmoidAt_experts buffers scale (Nat.le_refl k) hk
  have hsum : (selectedProbs exp logits selectionBias k).sum = 0 := List.sum_eq_zero hzero
  constructor
  · exact Nat.le_refl k
  · exact experts_routedOf buffers scale (Nat.le_refl k) hk
  · intro hnormalize
    cases hnormalize
  · intro _ hpositive
    exact absurd hsum (ne_of_gt hpositive)
  · intro _ _
    constructor
    · rfl
    · have hsilent : forall expert, expert ∈ (routedOf exp logits selectionBias
          (k, selectedProbs exp logits selectionBias k) scale buffers).experts ->
          sigmoidAt exp logits expert = 0 := by
        intro expert hexpert
        have hmem := List.mem_map_of_mem (f := sigmoidAt exp logits) hexpert
        rw [hprobs] at hmem
        exact hzero _ (List.mem_of_mem_take hmem)
      rw [weights_routedOf buffers scale (le_of_eq hlength.symm), ← hprobs, List.map_map]
      apply List.map_congr_left
      intro expert hexpert
      show sigmoidAt exp logits expert * scale = 0
      rw [hsilent expert hexpert, zero_mul]

end Retained

theorem hy3SigmoidTopkRoute_routes [IsStrictOrderedRing F] (hpos : forall x, 0 < exp x)
    (hbias : selectionBias.length = logits.length) (nExpertUsed : Nat) {buffers : RouteBuffers F}
    (hbuffers : buffers.Fit logits.length (min nExpertUsed logits.length))
    (normalizeSelected : Bool) (scale : F) (adaptiveTopP : Option F)
    (htopP : forall topP, adaptiveTopP = some topP -> 0 < topP ∧ topP <= 1) :
    Delivers (hy3SigmoidTopkRoute exp logits selectionBias nExpertUsed normalizeSelected scale
        adaptiveTopP buffers)
      (RoutesSigmoid exp logits selectionBias (min nExpertUsed logits.length) normalizeSelected
        scale adaptiveTopP) := by
  have hk : min nExpertUsed logits.length <= logits.length := Nat.min_le_right _ _
  rw [hy3SigmoidTopkRoute_eq exp logits selectionBias hbias nExpertUsed hbuffers]
  apply delivers_ok
  cases normalizeSelected with
  | false => exact routesSigmoid_plain buffers scale adaptiveTopP hk
  | true =>
    by_cases hsum : 0 < (selectedProbs exp logits selectionBias (min nExpertUsed logits.length)).sum
    · exact routesSigmoid_normalized buffers scale hk hsum (retainWeights_retains hsum htopP)
    · have hnonneg : forall prob, prob ∈ selectedProbs exp logits selectionBias
          (min nExpertUsed logits.length) -> 0 <= prob := by
        intro prob hprob
        rcases List.mem_map.mp hprob with ⟨expert, _, heq⟩
        rw [← heq]
        exact sigmoidAt_nonneg hpos expert
      have hzero : forall prob, prob ∈ selectedProbs exp logits selectionBias
          (min nExpertUsed logits.length) -> prob = 0 := by
        intro prob hprob
        have hle := List.single_le_sum hnonneg prob hprob
        exact le_antisymm (le_trans hle (not_lt.mp hsum)) (hnonneg prob hprob)
      have hretained : retainedProbs exp logits selectionBias (min nExpertUsed logits.length)
          true adaptiveTopP = (min nExpertUsed logits.length,
            selectedProbs exp logits selectionBias (min nExpertUsed logits.length)) := by
        unfold retainedProbs
        rw [if_pos rfl, retainWeights_zero hzero (fun topP htop => (htopP topP htop).1),
          length_selectedProbs exp logits selectionBias hk]
      rw [hretained]
      exact routesSigmoid_silent buffers scale adaptiveTopP hk hzero

end Router

end Moe
end RunNBurn
