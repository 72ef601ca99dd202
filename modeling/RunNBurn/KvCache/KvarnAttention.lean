import Mathlib.Algebra.Order.Field.Basic
import RunNBurn.KvCache.KvarnQuantize

/-!
# Decode attention over a compressed cache

The view that the layer cache lends, and the fused attention of one query over its
three regions: exact rows are weighed as they are, quantized rows in the rotated
domain, and the regions are merged under a running maximum.
-/

namespace RunNBurn
namespace KvCache

open Library

/-!
# Views
-/

structure KvarnKvView (codec : KvarnCodec) where
  config : KvarnConfig
  numKvHeads : Nat
  headDim : Nat
  sinkKey : List UInt16
  sinkValue : List UInt16
  blocks : List (KvarnBlock codec)
  deviceLayout : KvarnDeviceRecordLayout
  deviceBlocks : List UInt8
  tailStart : Nat
  tailKey : List UInt16
  tailValue : List UInt16
  len : Nat

def KvarnLayerCache.view {codec : KvarnCodec} (cache : KvarnLayerCache codec) (len : Nat) :
    Checked (KvarnKvView codec) := do
  require (len <= cache.storedLen) "KVarN view exceeds initialized rows"
  let width := cache.rowWidth
  let sinkRows := min len cache.config.sinkTokens
  let tailStart := cache.config.sinkTokens + cache.blocks.length * cache.config.group
  let tailRows := len - tailStart
  let sinkKey <- slice cache.sinkKey 0 (sinkRows * width)
  let sinkValue <- slice cache.sinkValue 0 (sinkRows * width)
  let tailKey <- slice cache.tailKey 0 (tailRows * width)
  let tailValue <- slice cache.tailValue 0 (tailRows * width)
  return {
    config := cache.config
    numKvHeads := cache.numKvHeads
    headDim := cache.headDim
    sinkKey := sinkKey
    sinkValue := sinkValue
    blocks := cache.blocks
    deviceLayout := cache.deviceLayout
    deviceBlocks := cache.deviceBlocks
    tailStart := tailStart
    tailKey := tailKey
    tailValue := tailValue
    len := len }

variable {F : Type} [Field F] [LinearOrder F]

/-!
# The online softmax
-/

/-- `maximum` is none for negative infinity. -/
structure SoftmaxState (F : Type) where
  maximum : Option F
  sum : F
  numerator : List F

namespace SoftmaxState

def new (headDim : Nat) : SoftmaxState F where
  maximum := none
  sum := 0
  numerator := List.replicate headDim 0

def valid (state : SoftmaxState F) : Bool :=
  state.maximum.isSome

def weight (math : KvarnMath F) (state : SoftmaxState F) (score : F) : SoftmaxState F × F :=
  match state.maximum with
  | none =>
    ({ state with
        maximum := some score
        sum := state.sum + 1 }, 1)
  | some maximum =>
    if maximum < score then
      let rescale := math.exp (maximum - score)
      ({ maximum := some score
         sum := state.sum * rescale + 1
         numerator := state.numerator.map (fun value => value * rescale) }, 1)
    else
      let weight := math.exp (score - maximum)
      ({ state with sum := state.sum + weight }, weight)

def merge (math : KvarnMath F) (left right : SoftmaxState F) : SoftmaxState F :=
  match left.maximum, right.maximum with
  | none, _ => right
  | some _, none => left
  | some leftMaximum, some rightMaximum =>
    let maximum := max leftMaximum rightMaximum
    let leftScale := math.exp (leftMaximum - maximum)
    let rightScale := math.exp (rightMaximum - maximum)
    { maximum := some maximum
      sum := left.sum * leftScale + right.sum * rightScale
      numerator := (List.range left.numerator.length).map fun dim =>
        floatAt left.numerator dim * leftScale + floatAt right.numerator dim * rightScale }

end SoftmaxState

/-!
# Regions
-/

structure AttentionWindow (F : Type) where
  kvLen : Nat
  windowStart : Nat
  scale : F
  softcap : Option F

namespace AttentionWindow

def capped (math : KvarnMath F) (window : AttentionWindow F) (score : F) : F :=
  match window.softcap with
  | some cap => cap * math.tanh (score / cap)
  | none => score

end AttentionWindow

/-- `xs[offset..offset + count]` -/
def bitsAt (xs : List UInt16) (offset count : Nat) : List UInt16 :=
  (xs.drop offset).take count

def dotF32F16 (math : KvarnMath F) (left : List F) (right : List UInt16) : F :=
  (List.zipWith (fun lhs rhs => lhs * math.ofF16 rhs) left right).sum

def axpyF16 (math : KvarnMath F) (output : List F) (input : List UInt16) (scale : F) : List F :=
  List.zipWith (fun destination source => destination + scale * math.ofF16 source) output input ++
    output.drop input.length

def processF16Row (math : KvarnMath F) (window : AttentionWindow F) (query : List F)
    (key value : List UInt16) (globalStart rowWidth kvHead headDim : Nat)
    (state : SoftmaxState F) (row : Nat) : SoftmaxState F :=
  let position := globalStart + row
  if position < window.windowStart ∨ window.kvLen <= position then state
  else
    let offset := row * rowWidth + kvHead * headDim
    let score :=
      window.capped math (dotF32F16 math query (bitsAt key offset headDim) * window.scale)
    let (state, weight) := state.weight math score
    { state with
      numerator := axpyF16 math state.numerator (bitsAt value offset headDim) weight }

def processF16Region (math : KvarnMath F) (window : AttentionWindow F) (query : List F)
    (key value : List UInt16) (globalStart rowCount rowWidth kvHead headDim : Nat) :
    SoftmaxState F :=
  (List.range rowCount).foldl
    (processF16Row math window query key value globalStart rowWidth kvHead headDim)
    (SoftmaxState.new headDim)

def q4At (packed : List UInt8) (token : Nat) : UInt8 :=
  let byte := packed.getD (token / 2) 0
  if token % 2 = 0 then byte &&& 0x0f else byte >>> 4

def accumulateQ4Scores (scores : List F) (packed : List UInt8) (start stop : Nat) (scale : F) :
    List F :=
  (List.range' start (stop - start)).foldl
    (fun scores token =>
      scores.modify token (fun score => score + scale * ((q4At packed token).toNat : F)))
    scores

def accumulateQuantizedValue (math : KvarnMath F) (output : List F) (packed : List UInt8)
    (bits : Nat) (channelScale : List UInt16) (valueScale valueZero weight : F) : List F :=
  let pack := 8 / bits
  (List.range output.length).map fun dim =>
    let quantized := (packed.getD (dim / pack) 0 >>> UInt8.ofNat (dim % pack * bits)) &&&
      UInt8.ofNat (codeMask bits)
    let channel := math.ofF16 (channelScale.getD dim 0)
    floatAt output dim + weight * ((quantized.toNat : F) * valueScale + valueZero) * channel

/-- `scores` and `zero_dot` -/
structure BlockScores (F : Type) where
  scores : List F
  zeroDot : F

namespace KvarnBuffers

variable (math : KvarnMath F) (config : KvarnConfig) (headDim : Nat) (block : KvarnBuffers)
  (kvHead : Nat)

def accumulateChannel (rotatedQuery : List F) (localStart localEnd : Nat)
    (sums : BlockScores F) (dim : Nat) : BlockScores F :=
  let packedKeyRow := config.group / 2
  let keyBase := kvHead * (headDim * packedKeyRow)
  let keyScaleBase := kvHead * headDim
  let keyScale := math.ofF16 (block.keyScale.getD (keyScaleBase + dim) 0)
  let keyZero := math.ofF16 (block.keyZero.getD (keyScaleBase + dim) 0)
  let queryValue := floatAt rotatedQuery dim
  let packedRow := (block.keyPacked.drop (keyBase + dim * packedKeyRow)).take packedKeyRow
  { scores := accumulateQ4Scores sums.scores packedRow localStart localEnd (queryValue * keyScale)
    zeroDot := sums.zeroDot + queryValue * keyZero }

def blockScores (rotatedQuery : List F) (localStart localEnd : Nat) : BlockScores F :=
  (List.range headDim).foldl
    (block.accumulateChannel math config headDim kvHead rotatedQuery localStart localEnd)
    { scores := List.replicate config.group 0
      zeroDot := 0 }

def processQuantizedToken (window : AttentionWindow F) (sums : BlockScores F)
    (state : SoftmaxState F) (token : Nat) : SoftmaxState F :=
  let valuePack := 8 / config.valueBits
  let packedValueRow := headDim / valuePack
  let valueBase := kvHead * (config.group * packedValueRow)
  let channelScaleBase := kvHead * headDim
  let tokenScale := math.ofF16 (block.keyTokenScale.getD (kvHead * config.group + token) 0)
  let score := window.capped math
    ((floatAt sums.scores token + sums.zeroDot) * tokenScale * window.scale)
  let (state, weight) := state.weight math score
  let valueScale := math.ofF16 (block.valueTokenScale.getD (kvHead * config.group + token) 0)
  let valueZero := math.ofF16 (block.valueZero.getD (kvHead * config.group + token) 0)
  let packedRow := (block.valuePacked.drop (valueBase + token * packedValueRow)).take
    packedValueRow
  { state with
    numerator := accumulateQuantizedValue math state.numerator packedRow config.valueBits
      (bitsAt block.valueChannelScale channelScaleBase headDim) valueScale valueZero weight }

def processQuantizedBlock (window : AttentionWindow F) (rotatedQuery : List F)
    (blockStart : Nat) (state : SoftmaxState F) : SoftmaxState F :=
  let localStart := min (window.windowStart - blockStart) config.group
  let localEnd := min (window.kvLen - blockStart) config.group
  if localEnd <= localStart then state
  else
    let sums := block.blockScores math config headDim kvHead rotatedQuery localStart localEnd
    (List.range' localStart (localEnd - localStart)).foldl
      (block.processQuantizedToken math config headDim kvHead window sums) state

end KvarnBuffers

/-!
# Attention
-/

namespace KvarnKvView

variable (math : KvarnMath F) (view : KvarnKvView (packedCodec math))

/-- The blocks under one state, and the state brought back from the rotation. -/
def quantizedState (window : AttentionWindow F) (query : List F) (kvHead : Nat) :
    SoftmaxState F :=
  let rotatedQuery := math.normalizedHadamard query
  let state := view.blocks.zipIdx.foldl
    (fun state entry =>
      let blockStart := view.config.sinkTokens + entry.2 * view.config.group
      entry.1.buffers.processQuantizedBlock math entry.1.config entry.1.headDim kvHead window
        rotatedQuery blockStart state)
    (SoftmaxState.new view.headDim)
  if state.valid then
    { state with numerator := math.normalizedHadamard state.numerator }
  else state

def attentionHead (window : AttentionWindow F) (query : List F) (kvHead : Nat) : List F :=
  let rowWidth := view.numKvHeads * view.headDim
  let sinkLen := view.sinkKey.length / rowWidth
  let tailLen := view.tailKey.length / rowWidth
  let sinkState := processF16Region math window query view.sinkKey view.sinkValue 0 sinkLen
    rowWidth kvHead view.headDim
  let quantizedState := view.quantizedState math window query kvHead
  let tailState := processF16Region math window query view.tailKey view.tailValue
    view.tailStart tailLen rowWidth kvHead view.headDim
  let merged := (sinkState.merge math quantizedState).merge math tailState
  if 0 < merged.sum then
    let inverse := 1 / merged.sum
    (List.range view.headDim).map fun dim => floatAt merged.numerator dim * inverse
  else
    List.replicate view.headDim 0

/-- The output buffer after the call; it was of length `outputLen`. -/
def attentionDecode (query : List F) (outputLen numHeads : Nat) (scale : F)
    (slidingWindow : Option Nat) (softcap : Option F) : Checked (List F) := do
  require (query.length = numHeads * view.headDim) "assertion `left == right` failed"
  require (outputLen = numHeads * view.headDim) "assertion `left == right` failed"
  require (0 < view.numKvHeads ∧ numHeads % view.numKvHeads = 0)
    "assertion failed: cache.num_kv_heads > 0 && num_heads % cache.num_kv_heads == 0"
  let headsPerGroup := numHeads / view.numKvHeads
  let windowStart := match slidingWindow with
    | some window => view.len - window
    | none => 0
  let window : AttentionWindow F := {
    kvLen := view.len
    windowStart := windowStart
    scale := scale
    softcap := softcap }
  return (List.range numHeads).flatMap fun head =>
    let q := (query.drop (head * view.headDim)).take view.headDim
    view.attentionHead math window q (head / headsPerGroup)

end KvarnKvView

end KvCache
end RunNBurn
