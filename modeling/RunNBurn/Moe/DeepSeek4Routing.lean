import RunNBurn.Library.RowLoops
import RunNBurn.Moe.DeepSeek4Moe

/-!
# Routing and evaluating in DeepSeek4

When a token can be routed, and what the experts and the shared expert make of rows.
-/

namespace RunNBurn
namespace Moe

open Library

variable {F : Type} {config : DeepSeek4Config F}

/-!
## Routing
-/

/-- The hash table has a row for the token, and its entries are experts. -/
def HashCovers (weights : DeepSeek4MoeWeights F config) (tokenId : Nat) : Prop :=
  forall table, weights.hashRoutes = some table ->
    (tokenId + 1) * config.expertUsedCount <= table.length ∧
      forall id, id ∈ table -> 0 <= id ∧ id < config.expertCount

/-- As many experts as are used, each with a weight; an expert may come twice. -/
structure IsRouting (config : DeepSeek4Config F) (routes : List Nat × List F) : Prop where
  length_experts : routes.1.length = config.expertUsedCount
  length_weights : routes.2.length = config.expertUsedCount
  lt : forall expert, expert ∈ routes.1 -> expert < config.expertCount

theorem asUsize_lt {id : Int} {bound : Nat} (hpos : 0 <= id) (hlt : id < bound) :
    asUsize id < bound := by
  have hmod : id % (2 ^ 64 : Int) <= id := by
    omega
  unfold asUsize
  omega

theorem hashExperts_delivers {table : List Int} {tokenId used expertCount : Nat}
    (hroom : (tokenId + 1) * used <= table.length)
    (hids : forall id, id ∈ table -> 0 <= id ∧ id < expertCount) :
    Delivers (hashExperts table tokenId used) (fun experts =>
      experts.length = used ∧ forall expert, expert ∈ experts -> expert < expertCount) := by
  rw [Nat.succ_mul] at hroom
  unfold hashExperts
  dsimp only
  rw [slice_of_le (Nat.le_add_right _ _) hroom, ok_bind]
  apply delivers_ok
  constructor
  · rw [List.length_map, List.length_take, List.length_drop]
    omega
  · intro expert hexpert
    rcases List.mem_map.mp hexpert with ⟨id, hid, hsame⟩
    have hmem : id ∈ table := List.mem_of_mem_drop (List.mem_of_mem_take hid)
    rw [← hsame]
    exact asUsize_lt (hids id hmem).1 (hids id hmem).2

variable (f32 : FloatOps F)

theorem scoreExperts_delivers (sorts : Sorts) (scores bias : List F) {expertCount used : Nat}
    (hused : used < expertCount) :
    Delivers (scoreExperts f32 sorts scores (some bias) expertCount used) (fun experts =>
      experts.length = used ∧ forall expert, expert ∈ experts -> expert < expertCount) := by
  have hroom : used < (List.range expertCount).length := by
    rw [List.length_range]
    exact hused
  unfold scoreExperts
  dsimp only
  rw [selectNthUnstableBy_of_lt sorts.selectNth _ hroom, ok_bind]
  apply delivers_ok
  have hparted := sorts.selectNth.perm (byBiasedScore f32 scores bias) used
    (List.range expertCount)
  have hsorted := sorts.sort.perm (byBiasedScore f32 scores bias)
    ((sorts.selectNth.run (byBiasedScore f32 scores bias) used (List.range expertCount)).take used)
  constructor
  · rw [hsorted.length_eq, List.length_take, hparted.length_eq, List.length_range]
    exact Nat.min_eq_left (Nat.le_of_lt hused)
  · intro expert hexpert
    have hmem := List.mem_of_mem_take (hsorted.mem_iff.mp hexpert)
    exact List.mem_range.mp (hparted.mem_iff.mp hmem)

variable {weights : DeepSeek4MoeWeights F config}

theorem route_of_selectExperts {f32 : FloatOps F} {sorts : Sorts} {input : List F} {tokenId : Nat}
    (hinput : input.length = config.hiddenDim)
    (h : forall scores, scores.length = config.expertCount ->
      Delivers (selectExperts f32 sorts weights scores tokenId) (fun experts =>
        experts.length = config.expertUsedCount ∧
          forall expert, expert ∈ experts -> expert < config.expertCount)) :
    Delivers (route f32 sorts input tokenId weights) (IsRouting config) := by
  have hscores : ((weights.router.row input).map fun logit =>
      f32.sqrt (softplus f32 logit)).length = config.expertCount := by
    rw [List.length_map, weights.router.length_row _ hinput]
  unfold route
  dsimp only
  apply (h _ hscores).bind
  intro experts hexperts
  have hselected : experts.mapM (index ((weights.router.row input).map fun logit =>
      f32.sqrt (softplus f32 logit))) =
      .ok (experts.map fun expert => ((weights.router.row input).map fun logit =>
        f32.sqrt (softplus f32 logit)).getD expert f32.zero) := by
    apply mapM_eq_ok
    intro expert hexpert
    apply index_of_getElem?_eq_some
    have hlt := hexperts.2 expert hexpert
    rw [← hscores] at hlt
    rw [List.getD_eq_getElem?_getD, List.getElem?_eq_getElem hlt]
    rfl
  rw [hselected, ok_bind]
  apply delivers_ok
  constructor
  · exact hexperts.1
  · rw [List.length_map, List.length_map]
    exact hexperts.1
  · exact hexperts.2

theorem route_delivers (sorts : Sorts) {input : List F} {tokenId : Nat}
    (hinput : input.length = config.hiddenDim) (hcovers : HashCovers weights tokenId)
    (h : weights.hashRoutes ≠ none ∨ config.expertUsedCount < config.expertCount) :
    Delivers (route f32 sorts input tokenId weights) (IsRouting config) := by
  apply route_of_selectExperts hinput
  intro scores hscores
  unfold selectExperts
  cases hhash : weights.hashRoutes with
  | some table =>
    have hcover := hcovers table hhash
    exact hashExperts_delivers hcover.1 hcover.2
  | none =>
    rcases weights.bias_or_hash hhash with ⟨bias, hbias⟩
    have hused : config.expertUsedCount < config.expertCount :=
      h.elim (fun hsome => absurd hhash hsome) id
    dsimp only
    rw [hbias]
    exact scoreExperts_delivers f32 sorts scores bias hused

theorem route_of_all_used (sorts : Sorts) (input : List F) (tokenId : Nat)
    (hhash : weights.hashRoutes = none) (h : config.expertCount <= config.expertUsedCount) :
    exists message, route f32 sorts input tokenId weights = .error (.panicked message) := by
  rcases weights.bias_or_hash hhash with ⟨bias, hbias⟩
  unfold route selectExperts
  dsimp only
  rw [hhash]
  dsimp only
  rw [hbias]
  unfold scoreExperts selectNthUnstableBy require
  rw [List.length_range, if_neg (Nat.not_lt.mpr h)]
  exact Exists.intro _ rfl

/-!
## Evaluating rows
-/

theorem ExpertTensor.expertSlice_eq {expertCount rows cols expert : Nat}
    (tensor : ExpertTensor F expertCount rows cols) (h : expert < expertCount) :
    tensor.expertSlice expert =
      .ok (rowAt (rows * tensor.bytesPerRow) tensor.bytes expert) :=
  (HoldsRows.of_rowAt tensor.length_bytes).slice_eq h

def ExpertTensor.expertRow {expertCount rows cols : Nat}
    (tensor : ExpertTensor F expertCount rows cols) (expert : Nat) (row : List F) : List F :=
  tensor.hostGemv (rowAt (rows * tensor.bytesPerRow) tensor.bytes expert) row

def sparseRow (f32 : FloatOps F) (weights : DeepSeek4MoeWeights F config) (expert : Nat)
    (row : List F) : List F :=
  weights.downExps.expertRow expert
    (swigluClamped f32 (weights.gateExps.expertRow expert row)
      (weights.upExps.expertRow expert row) weights.routedClamp)

theorem length_sparseRow (weights : DeepSeek4MoeWeights F config) (expert : Nat) (row : List F) :
    (sparseRow f32 weights expert row).length = config.hiddenDim :=
  weights.downExps.length_hostGemv _ _

theorem computeSparseExpert_eq (weights : DeepSeek4MoeWeights F config) {expert : Nat}
    (h : expert < config.expertCount) (input : List F) (routeWeight : F) :
    computeSparseExpert f32 input expert routeWeight weights =
      .ok ((sparseRow f32 weights expert input).map fun value => f32.mul value routeWeight) := by
  unfold computeSparseExpert
  rw [weights.gateExps.expertSlice_eq h, ok_bind, weights.upExps.expertSlice_eq h, ok_bind,
    weights.downExps.expertSlice_eq h, ok_bind]
  rfl

theorem swigluClamped_flatMap {n width : Nat} {gate up : Nat -> List F} (limit : F)
    (hgate : forall t, t < n -> (gate t).length = width)
    (hup : forall t, t < n -> (up t).length = width) :
    swigluClamped f32 ((List.range n).flatMap gate) ((List.range n).flatMap up) limit =
      (List.range n).flatMap fun t => swigluClamped f32 (gate t) (up t) limit := by
  unfold swigluClamped
  rw [zipInto_of_length_eq (by rw [length_flatMap_range hgate, length_flatMap_range hup]),
    zipWith_flatMap_range hgate hup]
  apply List.flatMap_congr
  intro t ht
  have hlt := List.mem_range.mp ht
  rw [zipInto_of_length_eq (by rw [hgate t hlt, hup t hlt])]

theorem length_swigluClamped {width : Nat} {gate up : List F} (limit : F)
    (hgate : gate.length = width) (hup : up.length = width) :
    (swigluClamped f32 gate up limit).length = width := by
  unfold swigluClamped
  rw [zipInto_of_length_eq (by rw [hgate, hup]), List.length_zipWith, hgate, hup, Nat.min_self]

theorem computeSparseExpertBatch_eq (weights : DeepSeek4MoeWeights F config) {expert : Nat}
    (h : expert < config.expertCount) (inputs : List F) (n : Nat) :
    computeSparseExpertBatch f32 inputs expert n weights =
      .ok ((List.range n).flatMap fun t =>
        sparseRow f32 weights expert (rowAt config.hiddenDim inputs t)) := by
  have hgate : forall t, t < n -> (weights.gateExps.expertRow expert
      (rowAt config.hiddenDim inputs t)).length = config.expertFfnDim :=
    fun t _ => weights.gateExps.length_hostGemv _ _
  have hup : forall t, t < n -> (weights.upExps.expertRow expert
      (rowAt config.hiddenDim inputs t)).length = config.expertFfnDim :=
    fun t _ => weights.upExps.length_hostGemv _ _
  have hcombined := swigluClamped_flatMap f32 weights.routedClamp hgate hup
  unfold computeSparseExpertBatch
  rw [weights.gateExps.expertSlice_eq h, ok_bind, weights.upExps.expertSlice_eq h, ok_bind,
    weights.downExps.expertSlice_eq h, ok_bind]
  apply congrArg Except.ok
  unfold ExpertTensor.hostGemvBatch
  apply List.flatMap_congr
  intro t ht
  have hlt := List.mem_range.mp ht
  have hrow : rowAt config.expertFfnDim
      (swigluClamped f32 ((List.range n).flatMap fun t => weights.gateExps.expertRow expert
          (rowAt config.hiddenDim inputs t))
        ((List.range n).flatMap fun t => weights.upExps.expertRow expert
          (rowAt config.hiddenDim inputs t))
        weights.routedClamp) t =
      swigluClamped f32 (weights.gateExps.expertRow expert (rowAt config.hiddenDim inputs t))
        (weights.upExps.expertRow expert (rowAt config.hiddenDim inputs t))
        weights.routedClamp := by
    rw [hcombined]
    exact rowAt_flatMap_range (fun t ht =>
      length_swigluClamped f32 weights.routedClamp (hgate t ht) (hup t ht)) hlt
  exact congrArg (weights.downExps.expertRow expert) hrow

theorem gemvVec_eq {rows cols n : Nat} (weight : Projection F rows cols)
    (hcols : 0 < cols) {input : List F} (hinput : input.length = n * cols) :
    gemvVec weight input =
      .ok ((List.range n).flatMap fun t => weight.row (rowAt cols input t)) := by
  unfold gemvVec
  rw [divide_of_pos hcols, ok_bind, hinput, Nat.mul_div_cancel n hcols]
  rfl

def sharedRow (f32 : FloatOps F) (weights : DeepSeek4MoeWeights F config) (row : List F) :
    List F :=
  weights.sharedDown.row (swigluClamped f32 (weights.sharedGate.row row)
    (weights.sharedUp.row row) weights.sharedClamp)

section

variable (weights : DeepSeek4MoeWeights F config)

theorem length_sharedMiddle {row : List F}
    (hrow : row.length = config.hiddenDim) :
    (swigluClamped f32 (weights.sharedGate.row row) (weights.sharedUp.row row)
      weights.sharedClamp).length = weights.sharedFfnDim :=
  length_swigluClamped f32 weights.sharedClamp (weights.sharedGate.length_row row hrow)
    (weights.sharedUp.length_row row hrow)

theorem length_sharedRow {row : List F}
    (hrow : row.length = config.hiddenDim) :
    (sharedRow f32 weights row).length = config.hiddenDim :=
  weights.sharedDown.length_row _ (length_sharedMiddle f32 weights hrow)

theorem sharedExpert_eq {n : Nat} {input : List F}
    (hinput : input.length = n * config.hiddenDim) :
    sharedExpert f32 input weights =
      .ok ((List.range n).flatMap fun t =>
        sharedRow f32 weights (rowAt config.hiddenDim input t)) := by
  have hgate : forall t, t < n -> (weights.sharedGate.row
      (rowAt config.hiddenDim input t)).length = weights.sharedFfnDim :=
    fun t ht => weights.sharedGate.length_row _ (length_rowAt hinput ht)
  have hup : forall t, t < n -> (weights.sharedUp.row
      (rowAt config.hiddenDim input t)).length = weights.sharedFfnDim :=
    fun t ht => weights.sharedUp.length_row _ (length_rowAt hinput ht)
  have hmid : forall t, t < n -> (swigluClamped f32
      (weights.sharedGate.row (rowAt config.hiddenDim input t))
      (weights.sharedUp.row (rowAt config.hiddenDim input t))
      weights.sharedClamp).length = weights.sharedFfnDim :=
    fun t ht => length_sharedMiddle f32 weights (length_rowAt hinput ht)
  unfold sharedExpert
  rw [gemvVec_eq weights.sharedGate config.hiddenDim_pos hinput, ok_bind,
    gemvVec_eq weights.sharedUp config.hiddenDim_pos hinput, ok_bind]
  dsimp only
  rw [swigluClamped_flatMap f32 weights.sharedClamp hgate hup,
    gemvVec_eq weights.sharedDown weights.sharedFfnDim_pos (length_flatMap_range hmid)]
  apply congrArg Except.ok
  apply List.flatMap_congr
  intro t ht
  rw [rowAt_flatMap_range hmid (List.mem_range.mp ht)]
  rfl

end

end Moe
end RunNBurn
