import RunNBurn.KvCache.KvarnQuantize
import RunNBurn.KvCache.Snapshot
import RunNBurn.Library.Allocation

/-!
# Byte sizes

The caches and snapshots with the allocations of their buffers, and the byte
sizes that the program reports for them.  Sums are plain: what is allocated fits
the address space, so no saturating addition is cut off.
-/

namespace RunNBurn
namespace KvCache

open Library

structure TypeSizes where
  layerCacheSnapshot : Nat
  ssmSlot : Nat
  kvarnBlock : Nat

def vecSize : Nat :=
  24

def snapshotSize : Nat :=
  3 * vecSize + 4 * 8

/-!
# Compressed layers
-/

structure AllocatedBlock where
  config : KvarnConfig
  numKvHeads : Nat
  headDim : Nat
  keyPacked : Buffer UInt8
  keyScale : Buffer UInt16
  keyZero : Buffer UInt16
  keyTokenScale : Buffer UInt16
  valuePacked : Buffer UInt8
  valueChannelScale : Buffer UInt16
  valueTokenScale : Buffer UInt16
  valueZero : Buffer UInt16

section Codec

variable {F : Type} [Zero F] [One F] [NatCast F] [Add F] [Neg F] [Sub F] [Mul F] [Div F]
  [Min F] [Max F] [LE F] [DecidableLE F]

namespace AllocatedBlock

def clone (block : AllocatedBlock) : AllocatedBlock :=
  { block with
    keyPacked := block.keyPacked.clone
    keyScale := block.keyScale.clone
    keyZero := block.keyZero.clone
    keyTokenScale := block.keyTokenScale.clone
    valuePacked := block.valuePacked.clone
    valueChannelScale := block.valueChannelScale.clone
    valueTokenScale := block.valueTokenScale.clone
    valueZero := block.valueZero.clone }

def byteSize (block : AllocatedBlock) : Nat :=
  block.keyPacked.capacity + block.valuePacked.capacity +
    (block.keyScale.capacity + block.keyZero.capacity + block.keyTokenScale.capacity +
      block.valueChannelScale.capacity + block.valueTokenScale.capacity +
      block.valueZero.capacity) * 2

def toBlock (math : KvarnMath F) (block : AllocatedBlock) : KvarnBlock (packedCodec math) where
  config := block.config
  numKvHeads := block.numKvHeads
  headDim := block.headDim
  payload := ({
    keyPacked := block.keyPacked.items
    keyScale := block.keyScale.items
    keyZero := block.keyZero.items
    keyTokenScale := block.keyTokenScale.items
    valuePacked := block.valuePacked.items
    valueChannelScale := block.valueChannelScale.items
    valueTokenScale := block.valueTokenScale.items
    valueZero := block.valueZero.items } : KvarnBuffers)

end AllocatedBlock

structure AllocatedKvarn where
  config : KvarnConfig
  numKvHeads : Nat
  headDim : Nat
  maxSeqLen : Nat
  sinkKey : Buffer UInt16
  sinkValue : Buffer UInt16
  blocks : Buffer AllocatedBlock
  tailKey : Buffer UInt16
  tailValue : Buffer UInt16
  deviceLayout : KvarnDeviceRecordLayout
  deviceBlocks : Buffer UInt8
  storedLen : Nat

namespace AllocatedKvarn

def toCache (math : KvarnMath F) (cache : AllocatedKvarn) :
    KvarnLayerCache (packedCodec math) where
  config := cache.config
  numKvHeads := cache.numKvHeads
  headDim := cache.headDim
  maxSeqLen := cache.maxSeqLen
  sinkKey := cache.sinkKey.items
  sinkValue := cache.sinkValue.items
  blocks := cache.blocks.items.map (AllocatedBlock.toBlock math)
  tailKey := cache.tailKey.items
  tailValue := cache.tailValue.items
  deviceLayout := cache.deviceLayout
  deviceBlocks := cache.deviceBlocks.items
  storedLen := cache.storedLen

def clone (cache : AllocatedKvarn) : AllocatedKvarn :=
  { cache with
    sinkKey := cache.sinkKey.clone
    sinkValue := cache.sinkValue.clone
    blocks := cache.blocks.cloneWith AllocatedBlock.clone
    tailKey := cache.tailKey.clone
    tailValue := cache.tailValue.clone
    deviceBlocks := cache.deviceBlocks.clone }

section

variable (math : KvarnMath F) (cache : AllocatedKvarn)

def truncateIntoBlocks (len : Nat) :
    Checked AllocatedKvarn := do
  let width := cache.numKvHeads * cache.headDim
  let afterSink := len - cache.config.sinkTokens
  let retainedBlocks := afterSink / cache.config.group
  let partialRows := afterSink % cache.config.group
  let (tailKey, tailValue) <-
    if partialRows > 0 then do
      let block <- index cache.blocks.items retainedBlocks
      let key <- slice (block.toBlock math).dequantizeF16.1 0 (partialRows * width)
      let value <- slice (block.toBlock math).dequantizeF16.2 0 (partialRows * width)
      pure (Buffer.ofList key, Buffer.ofList value)
    else
      pure (cache.tailKey.clear, cache.tailValue.clear)
  return { cache with
    tailKey := tailKey
    tailValue := tailValue
    blocks := cache.blocks.truncate retainedBlocks
    deviceBlocks :=
      cache.deviceBlocks.truncate (retainedBlocks * cache.deviceLayout.blockBytes)
    storedLen := len }

def truncateTo (requested : Nat) :
    Checked AllocatedKvarn :=
  let len := min requested cache.storedLen
  let width := cache.numKvHeads * cache.headDim
  if len <= cache.config.sinkTokens then
    .ok { cache with
      sinkKey := cache.sinkKey.truncate (len * width)
      sinkValue := cache.sinkValue.truncate (len * width)
      blocks := cache.blocks.clear
      deviceBlocks := cache.deviceBlocks.clear
      tailKey := cache.tailKey.clear
      tailValue := cache.tailValue.clear
      storedLen := len }
  else
    let afterSink := len - cache.config.sinkTokens
    let quantizedRows := cache.blocks.items.length * cache.config.group
    if afterSink < quantizedRows then
      cache.truncateIntoBlocks math len
    else
      let tailRows := afterSink - quantizedRows
      .ok { cache with
        tailKey := cache.tailKey.truncate (tailRows * width)
        tailValue := cache.tailValue.truncate (tailRows * width)
        storedLen := len }

def snapshot (len : Nat) :
    Checked AllocatedKvarn :=
  cache.clone.truncateTo math len

end

def actualByteSize (cache : AllocatedKvarn) : Nat :=
  (cache.sinkKey.capacity + cache.sinkValue.capacity + cache.tailKey.capacity +
      cache.tailValue.capacity) * 2 +
    (cache.blocks.items.map AllocatedBlock.byteSize).sum

def ownedBytes (sizes : TypeSizes) (cache : AllocatedKvarn) : Nat :=
  cache.sinkKey.capacity * 2 + cache.sinkValue.capacity * 2 + cache.tailKey.capacity * 2 +
    cache.tailValue.capacity * 2 + cache.blocks.capacity * sizes.kvarnBlock +
    (cache.blocks.items.map AllocatedBlock.byteSize).sum + cache.deviceBlocks.capacity

end AllocatedKvarn

/-!
# Caches
-/

inductive AllocatedStorage where
  | f16 (key value : Buffer UInt16)
  | kvarn (cache : AllocatedKvarn)

structure AllocatedLayer where
  storage : AllocatedStorage
  numKvHeads : Nat
  headDim : Nat
  maxSeqLen : Nat

structure AllocatedSsmState where
  convState : Buffer UInt32
  deltaState : Buffer UInt32
  convKernel : Nat
  convChannels : Nat

def AllocatedSsmState.clone (state : AllocatedSsmState) : AllocatedSsmState :=
  { state with
    convState := state.convState.clone
    deltaState := state.deltaState.clone }

structure AllocatedKVCache where
  layers : List AllocatedLayer
  ssmStates : List (Option AllocatedSsmState)
  maxSeqLen : Nat
  currentLen : Nat
  glmIndexerK : List (Buffer UInt16)
  glmIndexerKeyLen : Nat
  glmIndexerTopK : Nat

structure AllocatedLayerSnapshot where
  storage : AllocatedStorage
  numKvHeads : Nat
  headDim : Nat

structure AllocatedSnapshot where
  layers : Buffer AllocatedLayerSnapshot
  ssmStates : Buffer (Option AllocatedSsmState)
  maxSeqLen : Nat
  currentLen : Nat
  glmIndexerK : Buffer (Buffer UInt16)
  glmIndexerKeyLen : Nat
  glmIndexerTopK : Nat

namespace AllocatedLayer

def snapshot (math : KvarnMath F) (layer : AllocatedLayer) (currentLen : Nat) :
    Checked AllocatedLayerSnapshot := do
  let storage <-
    match layer.storage with
    | .f16 key value => do
        let stride := layer.numKvHeads * layer.headDim
        let key <- slice key.items 0 (currentLen * stride)
        let value <- slice value.items 0 (currentLen * stride)
        pure (AllocatedStorage.f16 (Buffer.ofList key) (Buffer.ofList value))
    | .kvarn cache => do
        let cache <- cache.snapshot math currentLen
        pure (AllocatedStorage.kvarn cache)
  return {
    storage := storage
    numKvHeads := layer.numKvHeads
    headDim := layer.headDim }

def snapshotByteSize (layer : AllocatedLayer) (currentLen : Nat) : Nat :=
  match layer.storage with
  | .f16 _ _ => currentLen * layer.numKvHeads * layer.headDim * 2 * 2
  | .kvarn cache => cache.actualByteSize

end AllocatedLayer

namespace AllocatedKVCache

def snapshot (math : KvarnMath F) (cache : AllocatedKVCache) : Checked AllocatedSnapshot := do
  let layers <- cache.layers.mapM fun layer => layer.snapshot math cache.currentLen
  let glmIndexerLen := cache.currentLen * cache.glmIndexerKeyLen
  let glmIndexerK <- cache.glmIndexerK.mapM fun keys => do
    let keys <- slice keys.items 0 glmIndexerLen
    return Buffer.ofList keys
  return {
    layers := Buffer.ofList layers
    ssmStates := Buffer.ofList (cache.ssmStates.map (Option.map AllocatedSsmState.clone))
    maxSeqLen := cache.maxSeqLen
    currentLen := cache.currentLen
    glmIndexerK := Buffer.ofList glmIndexerK
    glmIndexerKeyLen := cache.glmIndexerKeyLen
    glmIndexerTopK := cache.glmIndexerTopK }

def snapshotByteSize (sizes : TypeSizes) (cache : AllocatedKVCache) : Nat :=
  let structuralBytes := snapshotSize + cache.layers.length * sizes.layerCacheSnapshot +
    cache.ssmStates.length * sizes.ssmSlot + cache.glmIndexerK.length * vecSize
  let kvBytes := (cache.layers.map fun layer => layer.snapshotByteSize cache.currentLen).sum
  let ssmBytes := (cache.ssmStates.reduceOption.map fun state =>
    (state.convState.items.length + state.deltaState.items.length) * 4).sum
  let glmIndexerBytes :=
    cache.currentLen * cache.glmIndexerKeyLen * cache.glmIndexerK.length * 2
  structuralBytes + kvBytes + ssmBytes + glmIndexerBytes

end AllocatedKVCache

/-!
# Snapshots
-/

namespace AllocatedLayerSnapshot

def byteSize (layer : AllocatedLayerSnapshot) : Nat :=
  match layer.storage with
  | .f16 key value => (key.capacity + value.capacity) * 2
  | .kvarn cache => cache.actualByteSize

def ownedBytes (sizes : TypeSizes) (layer : AllocatedLayerSnapshot) : Nat :=
  match layer.storage with
  | .f16 key value => key.capacity * 2 + value.capacity * 2
  | .kvarn cache => cache.ownedBytes sizes

end AllocatedLayerSnapshot

namespace AllocatedSnapshot

/-- `KVCacheSnapshot::byte_size` -/
def byteSize (sizes : TypeSizes) (taken : AllocatedSnapshot) : Nat :=
  let structuralBytes := snapshotSize + taken.layers.capacity * sizes.layerCacheSnapshot +
    taken.ssmStates.capacity * sizes.ssmSlot + taken.glmIndexerK.capacity * vecSize
  let kvBytes := (taken.layers.items.map AllocatedLayerSnapshot.byteSize).sum
  let ssmBytes := (taken.ssmStates.items.reduceOption.map fun state =>
    (state.convState.capacity + state.deltaState.capacity) * 4).sum
  let glmIndexerBytes := (taken.glmIndexerK.items.map fun keys => keys.capacity * 2).sum
  structuralBytes + kvBytes + ssmBytes + glmIndexerBytes

def ownedBytes (sizes : TypeSizes) (taken : AllocatedSnapshot) : Nat :=
  taken.layers.capacity * sizes.layerCacheSnapshot +
    (taken.layers.items.map fun layer => layer.ownedBytes sizes).sum +
    taken.ssmStates.capacity * sizes.ssmSlot +
    (taken.ssmStates.items.reduceOption.map fun state =>
      state.convState.capacity * 4 + state.deltaState.capacity * 4).sum +
    taken.glmIndexerK.capacity * vecSize +
    (taken.glmIndexerK.items.map fun keys => keys.capacity * 2).sum

end AllocatedSnapshot

end Codec

end KvCache
end RunNBurn
