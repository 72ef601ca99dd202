import RunNBurn.KvCache.SnapshotRestore

/-!
# Keys and values shared with an external drafter

The drafter attends to two layers of the target: the last sliding one and the
last full one of those that own their keys and values.  The view of the two is
extracted once and afterwards only extended by the committed suffix.
-/

namespace RunNBurn
namespace KvCache

open Library

variable {codec : KvarnCodec}

/-!
# Reads that only the drafter takes
-/

def LayerCache.readRangeMaterialized (layer : LayerCache codec) (start stop : Nat) :
    Checked (List UInt16 × List UInt16) :=
  match layer.storage with
  | .f16 key value => do
      let keyBits <- slice key (start * layer.stride) (stop * layer.stride)
      let valueBits <- slice value (start * layer.stride) (stop * layer.stride)
      return (keyBits, valueBits)
  | .kvarn cache => cache.materializeRange start stop

namespace KVCache

def readRange (cache : KVCache codec) (layer start stop : Nat) :
    Checked (List UInt16 × List UInt16) := do
  let current <- index cache.layers layer
  current.readRangeMaterialized start stop

def layerKvDim (cache : KVCache codec) (layerIdx : Nat) : Checked Nat := do
  let layer <- index cache.layers layerIdx
  return layer.numKvHeads * layer.headDim

def dequantKLayer (f32FromF16 : UInt16 -> UInt32) (cache : KVCache codec) (layerIdx : Nat) :
    Checked (List UInt32) := do
  let (bits, _) <- cache.readUpTo layerIdx cache.currentLen
  return bits.map f32FromF16

def dequantVLayer (f32FromF16 : UInt16 -> UInt32) (cache : KVCache codec) (layerIdx : Nat) :
    Checked (List UInt32) := do
  let (_, bits) <- cache.readUpTo layerIdx cache.currentLen
  return bits.map f32FromF16

end KVCache
end KvCache

namespace Inference

open Library
open KvCache

variable {codec : KvarnCodec}

/-!
# The target
-/

structure TargetMetadata where
  numLayers : Nat
  sharedKvLayers : Nat
  slidingWindowPattern : List Bool
  keyLengthSwa : Nat
  keyLengthFull : Nat
  headDim : Nat

structure SequenceCursor where
  physicalRows : Nat
  logicalPosition : Nat
  tokenCount : Nat

/-- `nativeCudaKv` is the build feature together with the drafter's policy. -/
structure DrafterTarget (codec : KvarnCodec) where
  metadata : TargetMetadata
  nativeCudaKv : Bool
  kvCache : KVCache codec
  sequenceCursor : Option SequenceCursor

namespace TargetMetadata

/-- The pattern is read cyclically, and an empty one slides nowhere. -/
def isSlidingAt (metadata : TargetMetadata) (layerIdx : Nat) : Bool :=
  let pattern := metadata.slidingWindowPattern
  pattern.getD (layerIdx % pattern.length) false

def headDimForLayer (metadata : TargetMetadata) (layerIdx : Nat) : Nat :=
  if metadata.isSlidingAt layerIdx ∧ metadata.keyLengthSwa > 0 then
    metadata.keyLengthSwa
  else if metadata.keyLengthFull > 0 then
    metadata.keyLengthFull
  else
    metadata.headDim

/-- The loop over the layers below `i`, downwards, which keeps the first layer
of either kind and stops once it has both. -/
def scanPrevLayers (metadata : TargetMetadata) :
    Nat -> Option Nat -> Option Nat -> Option Nat × Option Nat
  | 0, slidingIdx, fullIdx => (slidingIdx, fullIdx)
  | i + 1, slidingIdx, fullIdx =>
    let sliding := metadata.isSlidingAt i
    let slidingIdx := if sliding then slidingIdx.or (some i) else slidingIdx
    let fullIdx := if sliding then fullIdx else fullIdx.or (some i)
    if slidingIdx.isSome && fullIdx.isSome then (slidingIdx, fullIdx)
    else metadata.scanPrevLayers i slidingIdx fullIdx

end TargetMetadata

/-- `Option::expect`. -/
def expect {alpha : Type} (value : Option alpha) (message : String) : Checked alpha :=
  match value with
  | some x => .ok x
  | none => abort message

/-!
# The shared view

The plain buffers hold f32 bit patterns, head by head; the native ones hold
f16 bit patterns, row by row.
-/

structure SharedKvLayer where
  k : List UInt32
  v : List UInt32
  kF16 : Option (List UInt16)
  vF16 : Option (List UInt16)
  sourceLayerIdx : Option Nat
  nKvHeads : Nat
  seqLen : Nat
  headDim : Nat

structure SharedKvStates where
  slidingAttention : SharedKvLayer
  fullAttention : SharedKvLayer

/-- The body of the innermost loop of `transposeToHeadMajor`. -/
def transposeEntry (raw : List UInt32) (seqLen nKvHeads headDim s h d : Nat)
    (out : List UInt32) : Checked (List UInt32) := do
  let src := s * (nKvHeads * headDim) + h * headDim + d
  let dst := h * (seqLen * headDim) + s * headDim + d
  let entry <- index raw src
  modifyAt out dst fun _ => entry

/-- The rows of `[seq_len, n_kv_heads, head_dim]` with the head axis outermost. -/
def transposeToHeadMajor (raw : List UInt32) (seqLen nKvHeads headDim : Nat) :
    Checked (List UInt32) := do
  require (raw.length = seqLen * nKvHeads * headDim)
    "transpose_to_head_major input length mismatch (release-safe assert)"
  forRange
    (fun s => forRange
      (fun h => forRange (transposeEntry raw seqLen nKvHeads headDim s h) headDim)
      nKvHeads)
    seqLen (List.replicate raw.length 0)

namespace DrafterTarget

def extractNativeKvLayer (target : DrafterTarget codec) (layerIdx nKvHeads headDim : Nat) :
    Checked SharedKvLayer := do
  let seqLen := target.kvCache.currentLen
  let (kBits, vBits) <- target.kvCache.readUpTo layerIdx seqLen
  return {
    k := []
    v := []
    kF16 := some kBits
    vF16 := some vBits
    sourceLayerIdx := some layerIdx
    nKvHeads := nKvHeads
    seqLen := seqLen
    headDim := headDim }

def extractPlainKvLayer (f32FromF16 : UInt16 -> UInt32) (target : DrafterTarget codec)
    (layerIdx nKvHeads headDim : Nat) : Checked SharedKvLayer := do
  let seqLen := target.kvCache.currentLen
  let kRaw <- target.kvCache.dequantKLayer f32FromF16 layerIdx
  let vRaw <- target.kvCache.dequantVLayer f32FromF16 layerIdx
  let k <- transposeToHeadMajor kRaw seqLen nKvHeads headDim
  let v <- transposeToHeadMajor vRaw seqLen nKvHeads headDim
  return {
    k := k
    v := v
    kF16 := none
    vF16 := none
    sourceLayerIdx := none
    nKvHeads := nKvHeads
    seqLen := seqLen
    headDim := headDim }

def extractSharedKvLayer (f32FromF16 : UInt16 -> UInt32) (target : DrafterTarget codec)
    (layerIdx : Nat) : Checked SharedKvLayer := do
  let headDim := target.metadata.headDimForLayer layerIdx
  let kvDim <- target.kvCache.layerKvDim layerIdx
  let nKvHeads <- divide kvDim headDim
  require (nKvHeads * headDim = kvDim)
    s!"kv_dim {kvDim} not divisible by head_dim {headDim} at layer {layerIdx}"
  if target.nativeCudaKv then
    target.extractNativeKvLayer layerIdx nKvHeads headDim
  else
    target.extractPlainKvLayer f32FromF16 layerIdx nKvHeads headDim

def prevSharedLayers (metadata : TargetMetadata) : Checked (Option Nat × Option Nat) := do
  let nLayers := metadata.numLayers
  let sharedKv := metadata.sharedKvLayers
  require (metadata.slidingWindowPattern ≠ [])
    ("shared_kv_states_for_drafter requires sliding_window_pattern " ++
      "(Gemma4 only); current arch has empty pattern")
  require (sharedKv <= nLayers)
    s!"shared_kv_layers ({sharedKv}) > num_layers ({nLayers}) — corrupt metadata"
  let firstKvShared := nLayers - sharedKv
  require (firstKvShared > 0)
    ("first_kv_shared == 0: shared_kv_layers must be < num_layers " ++
      s!"(current: shared_kv={sharedKv}, num_layers={nLayers})")
  return metadata.scanPrevLayers firstKvShared none none

def sharedKvStatesForDrafter (f32FromF16 : UInt16 -> UInt32)
    (target : DrafterTarget codec) : Checked SharedKvStates := do
  let (slidingFound, fullFound) <- prevSharedLayers target.metadata
  let slidingIdx <-
    expect slidingFound "no sliding layer found in prev_layers for drafter dict"
  let slidingAttention <- target.extractSharedKvLayer f32FromF16 slidingIdx
  let fullIdx <-
    expect fullFound "no full attention layer found in prev_layers for drafter dict"
  let fullAttention <- target.extractSharedKvLayer f32FromF16 fullIdx
  return {
    slidingAttention := slidingAttention
    fullAttention := fullAttention }

def sharedKvView (f32FromF16 : UInt16 -> UInt32) (target : DrafterTarget codec) :
    Checked SharedKvStates :=
  target.sharedKvStatesForDrafter f32FromF16

/-!
# Refreshing the view
-/

def refreshSharedKvLayer (target : DrafterTarget codec) (layer : SharedKvLayer) :
    Checked SharedKvLayer := do
  let sourceLayerIdx <- expect layer.sourceLayerIdx "native shared KV source layer missing"
  let stop := target.kvCache.currentLen
  let start := layer.seqLen
  require (stop >= start) s!"shared KV committed length moved backwards: {start} -> {stop}"
  if stop = start then
    return layer
  else
    let (kBits, vBits) <- target.kvCache.readRange sourceLayerIdx start stop
    let kF16 <- expect layer.kF16 "native shared K cache missing"
    let vF16 <- expect layer.vF16 "native shared V cache missing"
    return { layer with
      kF16 := some (kF16 ++ kBits)
      vF16 := some (vF16 ++ vBits)
      seqLen := stop }

def refreshSharedKvView (f32FromF16 : UInt16 -> UInt32) (target : DrafterTarget codec)
    (sharedKv : SharedKvStates) : Checked SharedKvStates := do
  if sharedKv.slidingAttention.sourceLayerIdx.isNone ∨
      sharedKv.fullAttention.sourceLayerIdx.isNone then
    target.sharedKvStatesForDrafter f32FromF16
  else
    let slidingAttention <- target.refreshSharedKvLayer sharedKv.slidingAttention
    let fullAttention <- target.refreshSharedKvLayer sharedKv.fullAttention
    return {
      slidingAttention := slidingAttention
      fullAttention := fullAttention }

end DrafterTarget

/-!
# Committing a verify window
-/

def u32TryFrom (message : String) (n : Nat) : Checked Nat :=
  if n < 2 ^ 32 then .ok n else report message

def checkedSub (message : String) (a b : Nat) : Checked Nat :=
  if b <= a then .ok (a - b) else report message

namespace SequenceCursor

section

variable (cursor : SequenceCursor) (physicalRows : Nat)

def advanceTo : Checked SequenceCursor := do
  let added := physicalRows - cursor.physicalRows
  let delta <- u32TryFrom "multimodal sequence cursor delta exceeds u32" added
  let logicalPosition <-
    u32TryFrom "multimodal logical position overflows during KV commit"
      (cursor.logicalPosition + delta)
  let tokenCount <-
    checkedAdd "multimodal token count overflows during KV commit" cursor.tokenCount added
  return {
    physicalRows := physicalRows
    logicalPosition := logicalPosition
    tokenCount := tokenCount }

def rollBackTo : Checked SequenceCursor := do
  let removed := cursor.physicalRows - physicalRows
  let delta <- u32TryFrom "multimodal sequence cursor rollback exceeds u32" removed
  let logicalPosition <-
    checkedSub "multimodal logical position underflows during KV rollback"
      cursor.logicalPosition delta
  let tokenCount <-
    checkedSub "multimodal token count underflows during KV rollback"
      cursor.tokenCount removed
  return {
    physicalRows := physicalRows
    logicalPosition := logicalPosition
    tokenCount := tokenCount }

def syncTo : Checked SequenceCursor :=
  if physicalRows >= cursor.physicalRows then cursor.advanceTo physicalRows
  else cursor.rollBackTo physicalRows

end

end SequenceCursor

namespace DrafterTarget

def syncSequenceCursorToKvLen (target : DrafterTarget codec) :
    Checked (DrafterTarget codec) :=
  match target.sequenceCursor with
  | none => .ok target
  | some cursor => do
      let cursor <- cursor.syncTo target.kvCache.currentLen
      return { target with sequenceCursor := some cursor }

def commitKvThrough (target : DrafterTarget codec) (newPosition : UInt32) :
    Checked (DrafterTarget codec) := do
  let newLen := min newPosition.toNat target.kvCache.maxSeqLen
  let kvCache <- target.kvCache.setLen newLen
  syncSequenceCursorToKvLen { target with kvCache := kvCache }

end DrafterTarget

/-!
# The drafter's loop

What the loop does to the cache and the view between two refreshes: the writes,
compactions and cuts of a verify pass, and the commits.
-/

structure DrafterLoop (codec : KvarnCodec) where
  target : DrafterTarget codec
  sharedKv : SharedKvStates

inductive LoopStep where
  | verify (op : CacheOp)
  | commit (newPosition : UInt32)
  | refresh

namespace DrafterLoop

def start (f32FromF16 : UInt16 -> UInt32) (target : DrafterTarget codec) :
    Checked (DrafterLoop codec) := do
  let sharedKv <- target.sharedKvView f32FromF16
  return {
    target := target
    sharedKv := sharedKv }

end DrafterLoop

namespace LoopStep

variable (f16FromF32 : UInt32 -> UInt16) (f32FromF16 : UInt16 -> UInt32)

def call (loop : DrafterLoop codec) : LoopStep -> Checked (DrafterLoop codec)
  | verify op => do
      let kvCache <- op.call f16FromF32 loop.target.kvCache
      return { loop with target := { loop.target with kvCache := kvCache } }
  | commit newPosition => do
      let target <- loop.target.commitKvThrough newPosition
      return { loop with target := target }
  | refresh => do
      let sharedKv <- loop.target.refreshSharedKvView f32FromF16 loop.sharedKv
      return { loop with sharedKv := sharedKv }

def callAll (loop : DrafterLoop codec) (steps : List LoopStep) :
    Checked (DrafterLoop codec) :=
  steps.foldlM (call f16FromF32 f32FromF16) loop

end LoopStep

end Inference
end RunNBurn
