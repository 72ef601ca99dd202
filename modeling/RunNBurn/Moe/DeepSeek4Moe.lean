import Mathlib.Algebra.Group.Int.Defs
import RunNBurn.Library.FloatOps
import RunNBurn.Library.Selection
import RunNBurn.Library.RowScatter

/-!
# The mixture of experts of DeepSeek4

A token is routed by a hash table or by its scores.  Decoding evaluates the experts of one
token; verification groups the routes of several tokens by expert.
-/

namespace RunNBurn
namespace Moe

open Library

variable {F : Type}

structure DeepSeek4Config (F : Type) where
  hiddenDim : Nat
  expertCount : Nat
  expertUsedCount : Nat
  expertFfnDim : Nat
  expertScale : F
  hiddenDim_pos : 0 < hiddenDim

/-!
## Weights
-/

/-- `QuantizedWeight::gemv_vec` -/
def gemvVec {rows cols : Nat} (weight : Projection F rows cols) (input : List F) :
    Checked (List F) := do
  let seqLen <- divide input.length cols
  return (List.range seqLen).flatMap fun t => weight.row (rowAt cols input t)

/-- The matrices of all experts, one after the other.  `hostGemv` is what the bytes of one
expert make of a row. -/
structure ExpertTensor (F : Type) (expertCount rows cols : Nat) where
  bytes : List UInt8
  bytesPerRow : Nat
  hostGemv : List UInt8 -> List F -> List F
  length_bytes : bytes.length = expertCount * (rows * bytesPerRow)
  length_hostGemv : forall part input, (hostGemv part input).length = rows

def ExpertTensor.expertSlice {expertCount rows cols : Nat}
    (tensor : ExpertTensor F expertCount rows cols) (expert : Nat) : Checked (List UInt8) :=
  let expertBytes := rows * tensor.bytesPerRow
  slice tensor.bytes (expert * expertBytes) ((expert + 1) * expertBytes)

def ExpertTensor.hostGemvBatch {expertCount rows cols : Nat}
    (tensor : ExpertTensor F expertCount rows cols) (part : List UInt8) (input : List F)
    (seqLen : Nat) : List F :=
  (List.range seqLen).flatMap fun t => tensor.hostGemv part (rowAt cols input t)

/-- A layer as the loader leaves it: one that is not hashed has a selection bias. -/
structure DeepSeek4MoeWeights (F : Type) (config : DeepSeek4Config F) where
  sharedFfnDim : Nat
  router : Projection F config.expertCount config.hiddenDim
  routerSelectionBias : Option (List F)
  hashRoutes : Option (List Int)
  gateExps : ExpertTensor F config.expertCount config.expertFfnDim config.hiddenDim
  upExps : ExpertTensor F config.expertCount config.expertFfnDim config.hiddenDim
  downExps : ExpertTensor F config.expertCount config.hiddenDim config.expertFfnDim
  sharedGate : Projection F sharedFfnDim config.hiddenDim
  sharedUp : Projection F sharedFfnDim config.hiddenDim
  sharedDown : Projection F config.hiddenDim sharedFfnDim
  routedClamp : F
  sharedClamp : F
  sharedFfnDim_pos : 0 < sharedFfnDim
  length_bias : forall bias, routerSelectionBias = some bias -> bias.length = config.expertCount
  bias_or_hash : hashRoutes = none -> exists bias, routerSelectionBias = some bias

/-!
## Routing
-/

def softplus (f32 : FloatOps F) (value : F) : F :=
  if f32.lt (f32.literal 20) value then
    value
  else if f32.lt value (f32.literal (-20)) then
    f32.exp value
  else
    f32.ln1p (f32.exp value)

/-- `expert as usize` -/
def asUsize (expert : Int) : Nat :=
  (expert % (2 ^ 64 : Int)).toNat

def byBiasedScore (f32 : FloatOps F) (scores bias : List F) (left right : Nat) : Ordering :=
  f32.descending (f32.add (scores.getD left f32.zero) (bias.getD left f32.zero))
    (f32.add (scores.getD right f32.zero) (bias.getD right f32.zero))

structure Sorts where
  selectNth : PartialSort Nat
  sort : UnstableSort Nat

def hashExperts (hashRoutes : List Int) (tokenId expertUsedCount : Nat) :
    Checked (List Nat) := do
  let start := tokenId * expertUsedCount
  let row <- slice hashRoutes start (start + expertUsedCount)
  return row.map asUsize

def scoreExperts (f32 : FloatOps F) (sorts : Sorts) (scores : List F)
    (routerSelectionBias : Option (List F)) (expertCount expertUsedCount : Nat) :
    Checked (List Nat) :=
  match routerSelectionBias with
  | none => abort "DeepSeek4 score router requires selection bias"
  | some bias => do
      let candidates <- selectNthUnstableBy sorts.selectNth expertUsedCount
        (byBiasedScore f32 scores bias) (List.range expertCount)
      return sorts.sort.run (byBiasedScore f32 scores bias) (candidates.take expertUsedCount)

def selectExperts {config : DeepSeek4Config F} (f32 : FloatOps F) (sorts : Sorts)
    (weights : DeepSeek4MoeWeights F config) (scores : List F) (tokenId : Nat) :
    Checked (List Nat) :=
  match weights.hashRoutes with
  | some hashRoutes => hashExperts hashRoutes tokenId config.expertUsedCount
  | none => scoreExperts f32 sorts scores weights.routerSelectionBias config.expertCount
      config.expertUsedCount

def route {config : DeepSeek4Config F} (f32 : FloatOps F) (sorts : Sorts) (input : List F)
    (tokenId : Nat) (weights : DeepSeek4MoeWeights F config) :
    Checked (List Nat × List F) := do
  let logits := weights.router.row input
  let scores := logits.map fun logit => f32.sqrt (softplus f32 logit)
  let experts <- selectExperts f32 sorts weights scores tokenId
  let selected <- experts.mapM (index scores)
  let selectedSum := f32.sum selected
  return (experts, selected.map fun score => f32.mul (f32.div score selectedSum) config.expertScale)

/-!
## One token
-/

def swigluClamped (f32 : FloatOps F) (gate up : List F) (limit : F) : List F :=
  zipInto
    (fun gate up =>
      let gateValue := f32.min gate limit
      let upValue := f32.clamp up (f32.neg limit) limit
      f32.mul (f32.div gateValue (f32.add f32.one (f32.exp (f32.neg gateValue)))) upValue)
    gate up

section

variable {config : DeepSeek4Config F} (f32 : FloatOps F)

def computeSparseExpert (input : List F)
    (expert : Nat) (routeWeight : F) (weights : DeepSeek4MoeWeights F config) :
    Checked (List F) := do
  let gateSlice <- weights.gateExps.expertSlice expert
  let upSlice <- weights.upExps.expertSlice expert
  let downSlice <- weights.downExps.expertSlice expert
  let gate := weights.gateExps.hostGemv gateSlice input
  let up := weights.upExps.hostGemv upSlice input
  let gate := swigluClamped f32 gate up weights.routedClamp
  let output := weights.downExps.hostGemv downSlice gate
  return output.map fun value => f32.mul value routeWeight

def sharedExpert (input : List F)
    (weights : DeepSeek4MoeWeights F config) : Checked (List F) := do
  let sharedGate <- gemvVec weights.sharedGate input
  let sharedUp <- gemvVec weights.sharedUp input
  let sharedGate := swigluClamped f32 sharedGate sharedUp weights.sharedClamp
  gemvVec weights.sharedDown sharedGate

def forwardMoe (sorts : Sorts)
    (input : List F) (tokenId : Nat) (weights : DeepSeek4MoeWeights F config) :
    Checked (List F) := do
  let (experts, routeWeights) <- route f32 sorts input tokenId weights
  let sparseOutputs <- (experts.zip routeWeights).mapM fun pair =>
    computeSparseExpert f32 input pair.1 pair.2 weights
  let sharedOutput <- sharedExpert f32 input weights
  return sparseOutputs.foldl (zipInto f32.add) sharedOutput

end

/-!
## Several tokens
-/

def computeSparseExpertBatch {config : DeepSeek4Config F} (f32 : FloatOps F) (inputs : List F)
    (expert seqLen : Nat) (weights : DeepSeek4MoeWeights F config) : Checked (List F) := do
  let gateSlice <- weights.gateExps.expertSlice expert
  let upSlice <- weights.upExps.expertSlice expert
  let downSlice <- weights.downExps.expertSlice expert
  let gate := weights.gateExps.hostGemvBatch gateSlice inputs seqLen
  let up := weights.upExps.hostGemvBatch upSlice inputs seqLen
  let gate := swigluClamped f32 gate up weights.routedClamp
  return weights.downExps.hostGemvBatch downSlice gate seqLen

/-- What an expert is given: the token, its slot and the weight of the route. -/
structure Assignment (F : Type) where
  token : Nat
  slot : Nat
  routeWeight : F
deriving DecidableEq, Repr

/-- `assignments[expert].push(..)`, for the routes of one token. -/
def assignToken (token : Nat) (routes : List Nat × List F)
    (assignments : List (List (Assignment F))) : Checked (List (List (Assignment F))) :=
  forEnumerated
    (fun slot pair assignments =>
      modifyAt assignments pair.1 fun earlier =>
        earlier ++ [{ token := token, slot := slot, routeWeight := pair.2 }])
    (routes.1.zip routes.2) assignments

def assignRoutes (routes : List (List Nat × List F)) (expertCount : Nat) :
    Checked (List (List (Assignment F))) :=
  forEnumerated assignToken routes (List.replicate expertCount [])

def gatherInputs (inputs : List F) (hiddenDim : Nat) (assignments : List (Assignment F)) :
    Checked (List F) :=
  assignments.foldlM
    (fun expertInputs assignment => do
      let start := assignment.token * hiddenDim
      let row <- slice inputs start (start + hiddenDim)
      return expertInputs ++ row)
    []

def computeGroup {config : DeepSeek4Config F} (f32 : FloatOps F) (inputs : List F)
    (weights : DeepSeek4MoeWeights F config) (group : List (Assignment F) × Nat) :
    Checked (List (Assignment F) × List F) := do
  let expertInputs <- gatherInputs inputs config.hiddenDim group.1
  let expertOutput <- computeSparseExpertBatch f32 expertInputs group.2 group.1.length weights
  return (group.1, expertOutput)

def sparseGroups {config : DeepSeek4Config F} (f32 : FloatOps F) (inputs : List F)
    (weights : DeepSeek4MoeWeights F config) (assignments : List (List (Assignment F))) :
    Checked (List (List (Assignment F) × List F)) :=
  (assignments.zipIdx.filter fun group => !group.1.isEmpty).mapM (computeGroup f32 inputs weights)

def scatterGroup (f32 : FloatOps F) (hiddenDim slotStride : Nat) (sparseBySlot : List F)
    (group : List (Assignment F) × List F) : Checked (List F) :=
  forEnumerated
    (fun groupRow assignment sparseBySlot => do
      let srcStart := groupRow * hiddenDim
      let dstStart := assignment.token * slotStride + assignment.slot * hiddenDim
      let source <- slice group.2 srcStart (srcStart + hiddenDim)
      updateSlice sparseBySlot dstStart (dstStart + hiddenDim) fun destination =>
        .ok (zipInto (fun _ value => f32.mul value assignment.routeWeight) destination source))
    group.1 sparseBySlot

def addSlot (f32 : FloatOps F) (sparseBySlot : List F) (hiddenDim slotStride token slot : Nat)
    (outputRow : List F) : Checked (List F) := do
  let start := token * slotStride + slot * hiddenDim
  let source <- slice sparseBySlot start (start + hiddenDim)
  return zipInto f32.add outputRow source

def forwardMoeVerifyBatch {config : DeepSeek4Config F} (f32 : FloatOps F) (sorts : Sorts)
    (inputs : List F) (tokenIds : List Nat) (weights : DeepSeek4MoeWeights F config) :
    Checked (List F) := do
  let seqLen := tokenIds.length
  require (inputs.length = seqLen * config.hiddenDim) "assertion `left == right` failed"
  require (config.hiddenDim ≠ 0) "chunk size must be non-zero"
  let rows := (List.range (inputs.length / config.hiddenDim)).map (rowAt config.hiddenDim inputs)
  let routes <- (rows.zip tokenIds).mapM fun pair => route f32 sorts pair.1 pair.2 weights
  let assignments <- assignRoutes routes config.expertCount
  let groups <- sparseGroups f32 inputs weights assignments
  let output <- sharedExpert f32 inputs weights
  let slotStride := config.expertUsedCount * config.hiddenDim
  let sparseBySlot <- groups.foldlM (scatterGroup f32 config.hiddenDim slotStride)
    (List.replicate (seqLen * slotStride) f32.zero)
  forRange
    (fun token output =>
      updateSlice output (token * config.hiddenDim) ((token + 1) * config.hiddenDim)
        (forRange (addSlot f32 sparseBySlot config.hiddenDim slotStride token)
          config.expertUsedCount))
    seqLen output

end Moe
end RunNBurn
