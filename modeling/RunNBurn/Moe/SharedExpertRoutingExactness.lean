import Mathlib.Analysis.Complex.Exponential
import RunNBurn.Moe.SigmoidRouting

/-!
# What the routers promise

The three ways of the softmax router agree on what is selected and on the weights, and the
first two on the order.  The sigmoid router scores with the bias and weighs without it.
-/

namespace RunNBurn
namespace Moe

open Library

section Routers

variable {F : Type} [Field F] [LinearOrder F]

/-- The largest logits, with the softmax over the experts that have them. -/
structure SelectsLargest (exp : F -> F) (logits : List (WithBot F)) (k : Nat)
    (routed : Routed F) : Prop where
  selectedLen_eq : routed.selectedLen = k
  selection : IsSelection logits k routed.experts
  weights_eq : routed.weights = restrictedSoftmax exp logits routed.experts

theorem RoutesTop.selectsLargest {exp : F -> F} {logits : List (WithBot F)} {k : Nat}
    {routed : Routed F} (h : RoutesTop exp logits k routed) :
    SelectsLargest exp logits k routed where
  selectedLen_eq := h.selectedLen_eq
  selection := by
    have hselection := isSelection_of_tops h.tops
    rw [h.length_eq] at hselection
    exact hselection
  weights_eq := h.weights_eq

theorem pairwise_scoredExperts (exp : F -> F) (logits selectionBias : List (WithBot F)) :
    (scoredExperts exp logits selectionBias).Perm (List.range logits.length) ∧
      (scoredExperts exp logits selectionBias).Pairwise
        (RanksBefore (biasedScore exp logits selectionBias) id) :=
  ⟨ranked_perm _ _ _, pairwise_ranked (nodup_map_id_range _)⟩

/-- Each way of the softmax router selects the largest logits and weighs them with the softmax
over what is selected, the router takes one of these ways, and the two ways that sort agree on
the order where the cut parts no tie.  The sigmoid router ranks by probability plus bias, weighs
by probability, and keeps the shortest front of the ranking that reaches the adaptive mass, with
weights that add up to the scale, when it normalizes and some selected probability is positive. -/
theorem routers_select_largest [IsStrictOrderedRing F] (exp : F -> F) (hexp : Exponential exp)
    (hmono : StrictMono exp) (logits : List (WithBot F))
    (hfinite : exists x : F, (x : WithBot F) ∈ logits) (hlimit : logits.length <= usizeMax)
    (nExpertUsed : Nat) (hused : 1 <= nExpertUsed) (buffers : RouteBuffers F)
    (hbuffers : buffers.Fit logits.length (min nExpertUsed logits.length))
    (sort : PartialSort Nat) :
    let k := min nExpertUsed logits.length
    (k <= 32 ->
      Delivers (selectBounded exp logits k buffers) (SelectsLargest exp logits k)) ∧
    (forall routeSort, Delivers (selectByLogits exp sort routeSort logits k buffers)
      (SelectsLargest exp logits k)) ∧
    Delivers (selectByProbs exp sort logits k buffers) (SelectsLargest exp logits k) ∧
    (forall routeSortEnv fillProbs, Delivers
      (qwen35SoftmaxTopkRoute exp sort routeSortEnv logits nExpertUsed buffers fillProbs)
      (SelectsLargest exp logits k)) ∧
    (k <= 32 -> CutsCleanly k logits ->
      exists inserted sorted, selectBounded exp logits k buffers = .ok inserted ∧
        selectByLogits exp sort true logits k buffers = .ok sorted ∧
        inserted.experts = sorted.experts) ∧
    forall (selectionBias : List (WithBot F)) (normalizeSelected : Bool) (scale : F)
      (adaptiveTopP : Option F), selectionBias.length = logits.length ->
      (forall topP, adaptiveTopP = some topP -> 0 < topP ∧ topP <= 1) ->
      Delivers (hy3SigmoidTopkRoute exp logits selectionBias nExpertUsed normalizeSelected scale
          adaptiveTopP buffers)
        (RoutesSigmoid exp logits selectionBias k normalizeSelected scale adaptiveTopP) ∧
      (scoredExperts exp logits selectionBias).Perm (List.range logits.length) ∧
      (scoredExperts exp logits selectionBias).Pairwise
        (RanksBefore (biasedScore exp logits selectionBias) id) := by
  dsimp only
  have hk : min nExpertUsed logits.length <= logits.length := Nat.min_le_right _ _
  have hpos : 0 < min nExpertUsed logits.length := by
    rcases hfinite with ⟨x, hx⟩
    exact Nat.lt_min.mpr ⟨hused, List.length_pos_of_mem hx⟩
  constructor
  · intro hk32
    exact (selectBounded_routes hexp hfinite hpos hk hk32 hlimit hbuffers).mono
      (fun _ h => h.1.selectsLargest)
  · constructor
    · intro routeSort
      exact (selectByLogits_routes hexp hfinite sort routeSort hpos hk buffers).mono
        (fun _ h => h.1.selectsLargest)
    · constructor
      · exact (selectByProbs_routes hexp hmono hfinite sort hpos hk buffers).mono
          (fun _ h => h.selectsLargest)
      · constructor
        · intro routeSortEnv fillProbs
          exact (qwen35SoftmaxTopkRoute_routes hexp hmono hfinite hlimit hused hbuffers sort
            routeSortEnv fillProbs).mono (fun _ h => h.selectsLargest)
        · constructor
          · intro hk32 hcut
            rcases selectBounded_routes hexp hfinite hpos hk hk32 hlimit hbuffers with
              ⟨inserted, hinserted, _, hleft⟩
            rcases selectByLogits_routes hexp hfinite sort true hpos hk buffers with
              ⟨sorted, hsorted, _, hright⟩
            exists inserted, sorted
            constructor
            · exact hinserted
            · constructor
              · exact hsorted
              · rw [hleft, hright rfl hcut]
          · intro selectionBias normalizeSelected scale adaptiveTopP hbias htopP
            constructor
            · exact hy3SigmoidTopkRoute_routes hexp.pos hbias nExpertUsed hbuffers
                normalizeSelected scale adaptiveTopP htopP
            · exact pairwise_scoredExperts exp logits selectionBias

end Routers

/-!
## Two small calls
-/

theorem exponential_real : Exponential Real.exp where
  add := Real.exp_add
  zero := Real.exp_zero

noncomputable def zeroLogit : List (WithBot ℝ) :=
  [((0 : ℝ) : WithBot ℝ)]

noncomputable def pairLogits : List (WithBot ℝ) :=
  [⊥, ((0 : ℝ) : WithBot ℝ)]

noncomputable def pairBias : List (WithBot ℝ) :=
  [((5 : ℝ) : WithBot ℝ), ((0 : ℝ) : WithBot ℝ)]

noncomputable def zeroBuffers : RouteBuffers ℝ where
  idxAll := [0]
  probs := [0]
  selectedWeights := [0]

noncomputable def pairBuffers : RouteBuffers ℝ where
  idxAll := [0, 0]
  probs := [0, 0]
  selectedWeights := [0]

theorem pairBuffers_fit :
    pairBuffers.Fit pairLogits.length (min 1 pairLogits.length) where
  idx_room := Nat.le_refl 2
  probs_room := Nat.le_refl 2
  weights_room := Nat.le_refl 1

/-- Two experts, one of them without a finite logit, and one is used. -/
theorem routers_select_largest_pair :
    Delivers
      (qwen35SoftmaxTopkRoute Real.exp PartialSort.ofInsertionSort none pairLogits 1
        pairBuffers false)
      (SelectsLargest Real.exp pairLogits 1) :=
  (routers_select_largest Real.exp exponential_real Real.exp_strictMono
    pairLogits (Exists.intro 0 (List.mem_cons_of_mem _ List.mem_cons_self))
    (by decide) 1 (Nat.le_refl 1) pairBuffers pairBuffers_fit
    PartialSort.ofInsertionSort).2.2.2.1 none false

theorem plain_weights_half {routed : Routed ℝ}
    (h : RoutesSigmoid Real.exp zeroLogit zeroLogit 1 false 1 (some (1 / 2)) routed) :
      routed.weights.sum = 1 / 2 := by
  rcases h.plain rfl with ⟨hlen, hweights⟩
  have hscored : scoredExperts Real.exp zeroLogit zeroLogit = [0] :=
    List.perm_singleton.mp (pairwise_scoredExperts _ _ _).1
  have hprob : sigmoidAt Real.exp zeroLogit 0 = 1 / 2 := by
    show 1 / (1 + Real.exp (-0)) = 1 / 2
    rw [neg_zero, Real.exp_zero]
    norm_num
  rw [hweights, h.experts_eq, hlen, hscored, List.take_succ_cons, List.take_zero,
    List.map_singleton, List.sum_singleton, hprob, mul_one]

theorem silent_weights_zero {routed : Routed ℝ}
    (h : RoutesSigmoid Real.exp pairLogits pairBias 1 true 1 (some (1 / 2)) routed) :
    routed.weights.sum = 0 := by
  have hrank : RanksBefore (biasedScore Real.exp pairLogits pairBias) id 0 1 := by
    left
    show (((1 / (1 + Real.exp (-0)) : ℝ) : WithBot ℝ) + ((0 : ℝ) : WithBot ℝ)) <
      ((0 : ℝ) : WithBot ℝ) + ((5 : ℝ) : WithBot ℝ)
    rw [neg_zero, Real.exp_zero, ← WithBot.coe_add, ← WithBot.coe_add, WithBot.coe_lt_coe]
    norm_num
  have hscored : scoredExperts Real.exp pairLogits pairBias = [0, 1] := by
    have hsorted : [0, 1].Pairwise (RanksBefore (biasedScore Real.exp pairLogits pairBias) id) := by
      rw [List.pairwise_pair]
      exact hrank
    exact (eq_ranked (nodup_map_id_range 2) (List.Perm.refl [0, 1]) hsorted).symm
  have hsum : (selectedProbs Real.exp pairLogits pairBias 1).sum = 0 := by
    unfold selectedProbs
    rw [hscored, List.take_succ_cons, List.take_zero, List.map_singleton, List.sum_singleton]
    rfl
  rw [(h.silent rfl hsum).2]
  apply List.sum_eq_zero
  intro weight hweight
  rcases List.mem_map.mp hweight with ⟨_, _, heq⟩
  exact heq.symm

/-- The weights need not add up to the scale: without normalization the adaptive mass is not
looked at, and a bias may select an expert whose probability is zero. -/
theorem adaptive_weights_below_scale :
    (exists routed, hy3SigmoidTopkRoute Real.exp zeroLogit zeroLogit 1 false 1
        (some (1 / 2)) zeroBuffers = .ok routed ∧ routed.weights.sum ≠ 1) ∧
    exists routed, hy3SigmoidTopkRoute Real.exp pairLogits pairBias 1 true 1 (some (1 / 2))
        pairBuffers = .ok routed ∧ routed.weights.sum ≠ 1 := by
  have htopP : forall topP : ℝ, some (1 / 2) = some topP -> 0 < topP ∧ topP <= 1 := by
    intro topP h
    rw [← Option.some.inj h]
    norm_num
  have hone : zeroBuffers.Fit zeroLogit.length (min 1 zeroLogit.length) :=
    ⟨Nat.le_refl 1, Nat.le_refl 1, Nat.le_refl 1⟩
  have hbias : pairBias.length = pairLogits.length := rfl
  constructor
  · rcases hy3SigmoidTopkRoute_routes Real.exp_pos (Eq.refl zeroLogit.length) 1 hone false
      (1 : ℝ) (some (1 / 2)) htopP with ⟨routed, hrun, hroutes⟩
    exists routed
    constructor
    · exact hrun
    · rw [plain_weights_half hroutes]
      norm_num
  · rcases hy3SigmoidTopkRoute_routes Real.exp_pos hbias 1 pairBuffers_fit true (1 : ℝ)
      (some (1 / 2)) htopP with ⟨routed, hrun, hroutes⟩
    exists routed
    constructor
    · exact hrun
    · rw [silent_weights_zero hroutes]
      exact zero_ne_one

end Moe
end RunNBurn
