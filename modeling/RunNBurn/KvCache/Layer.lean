import RunNBurn.KvCache.Kvarn

/-!
# The KV cache

Layer caches in either storage format, the recurrent layer states, and the
operations through which a forward pass writes them.
-/

namespace RunNBurn
namespace KvCache

open Library

inductive LayerCacheStorage (codec : KvarnCodec) where
  | f16 (key value : List UInt16)
  | kvarn (cache : KvarnLayerCache codec)

structure LayerCache (codec : KvarnCodec) where
  storage : LayerCacheStorage codec
  numKvHeads : Nat
  headDim : Nat
  maxSeqLen : Nat

/-- `Vec::resize` with zeros, when the buffer is shorter than `len`. -/
def growF16Buffer (buffer : List UInt16) (len : Nat) : List UInt16 :=
  buffer ++ List.replicate (len - buffer.length) 0

/-- `buffer[start..start + row.len()].copy_from_slice(row)`. -/
def overwrite (buffer : List UInt16) (start : Nat) (row : List UInt16) :
    List UInt16 :=
  buffer.take start ++ row ++ buffer.drop (start + row.length)

namespace LayerCache

variable {codec : KvarnCodec}

def new (codec : KvarnCodec) (maxSeqLen numKvHeads headDim : Nat)
    (format : KvCacheFormat) : Checked (LayerCache codec) := do
  let storage <-
    match format.kvarnConfig with
    | some config =>
      LayerCacheStorage.kvarn <$>
        KvarnLayerCache.new codec config maxSeqLen numKvHeads headDim
    | none =>
      let size := maxSeqLen * numKvHeads * headDim
      pure (LayerCacheStorage.f16 (List.replicate size 0) (List.replicate size 0))
  return {
    storage := storage
    numKvHeads := numKvHeads
    headDim := headDim
    maxSeqLen := maxSeqLen }

def stride (layer : LayerCache codec) : Nat :=
  layer.numKvHeads * layer.headDim

def withStorage (layer : LayerCache codec) (storage : LayerCacheStorage codec) :
    LayerCache codec :=
  { layer with storage := storage }

def writeAt (f16FromF32 : UInt32 -> UInt16) (layer : LayerCache codec) (pos : Nat)
    (kSlice vSlice : List UInt32) : Checked (LayerCache codec) := do
  require (pos < layer.maxSeqLen) "KV cache overflow"
  match layer.storage with
  | .f16 key value =>
    let stride := layer.stride
    let start := pos * stride
    let stop := start + stride
    let keyRow <- slice kSlice 0 stride
    let valueRow <- slice vSlice 0 stride
    return layer.withStorage (.f16
      (overwrite (growF16Buffer key stop) start (keyRow.map f16FromF32))
      (overwrite (growF16Buffer value stop) start (valueRow.map f16FromF32)))
  | .kvarn cache =>
    let cache <- cache.writeF32 f16FromF32 pos kSlice vSlice
    return layer.withStorage (.kvarn cache)

def writeBitsRange (layer : LayerCache codec) (posStart kvLen : Nat)
    (kBits vBits : List UInt16) : Checked (LayerCache codec) := do
  let stride := layer.stride
  let start := posStart * stride
  let count := kvLen * stride
  let stop := start + count
  require (kBits.length >= count ∧ vBits.length >= count) "KV bits range underflow"
  match layer.storage with
  | .f16 key value =>
    require (stop <= layer.maxSeqLen * stride) "KV bits range overflow"
    return layer.withStorage (.f16 (overwrite (growF16Buffer key stop) start (kBits.take count))
      (overwrite (growF16Buffer value stop) start (vBits.take count)))
  | .kvarn cache =>
    let cache <-
      cache.writeBitsRange posStart kvLen (kBits.take count) (vBits.take count)
    return layer.withStorage (.kvarn cache)

/-- The first `len` rows replaced; a compressed layer is emptied first. -/
def writeBitsUpTo (layer : LayerCache codec) (len : Nat) (kBits vBits : List UInt16) :
    Checked (LayerCache codec) := do
  let count := len * layer.stride
  require (kBits.length >= count ∧ vBits.length >= count) "KV bits underflow"
  match layer.storage with
  | .f16 key value =>
    return layer.withStorage (.f16 (overwrite (growF16Buffer key count) 0 (kBits.take count))
      (overwrite (growF16Buffer value count) 0 (vBits.take count)))
  | .kvarn cache =>
    let cache <- cache.writeBitsUpTo len (kBits.take count) (vBits.take count)
    return layer.withStorage (.kvarn cache)

/-- A compressed layer is decoded into buffers of the reserved length, a plain
layer only grown to it. -/
def convertToF16 (layer : LayerCache codec) (currentLen reserveLen : Nat) :
    Checked (LayerCache codec) := do
  let reserveLen := min (max reserveLen currentLen) layer.maxSeqLen
  let valueCount := reserveLen * layer.stride
  match layer.storage with
  | .f16 key value =>
    return layer.withStorage (.f16 (growF16Buffer key valueCount) (growF16Buffer value valueCount))
  | .kvarn cache =>
    let initializedLen := min currentLen cache.storedLen
    let (sourceKey, sourceValue) <- cache.materialize initializedLen
    let zeros := List.replicate valueCount (0 : UInt16)
    require (sourceKey.length <= valueCount) "range end index out of range"
    require (sourceValue.length <= valueCount) "range end index out of range"
    return layer.withStorage (.f16 (overwrite zeros 0 sourceKey) (overwrite zeros 0 sourceValue))

def compact (layer : LayerCache codec) : Checked (LayerCache codec) :=
  match layer.storage with
  | .f16 _ _ => .ok layer
  | .kvarn cache => do
      let cache <- cache.compact
      return layer.withStorage (.kvarn cache)

def truncateTo (layer : LayerCache codec) (len : Nat) : Checked (LayerCache codec) :=
  match layer.storage with
  | .f16 _ _ => .ok layer
  | .kvarn cache => do
      let cache <- cache.truncateTo len
      return layer.withStorage (.kvarn cache)

def isKvarn (layer : LayerCache codec) : Bool :=
  match layer.storage with
  | .f16 _ _ => false
  | .kvarn _ => true

/-- The readable bits of the first `len` rows, borrowed or materialized. -/
def readUpToMaterialized (layer : LayerCache codec) (len : Nat) :
    Checked (List UInt16 × List UInt16) :=
  match layer.storage with
  | .f16 key value => do
      let keyBits <- slice key 0 (len * layer.stride)
      let valueBits <- slice value 0 (len * layer.stride)
      return (keyBits, valueBits)
  | .kvarn cache => cache.materialize len

end LayerCache

/-!
# Recurrent layer states

The buffers hold f32 bit patterns.
-/

structure SsmLayerState (F : Type) where
  convState : List F
  deltaState : List F
  convKernel : Nat
  convChannels : Nat
deriving DecidableEq, Repr

/-- `kv_cache.ssm_states` as a layer reads and writes them. -/
abbrev SsmStates (F : Type) : Type :=
  Nat -> Option (SsmLayerState F)

def SsmLayerState.clear (state : SsmLayerState UInt32) : SsmLayerState UInt32 :=
  { state with
    convState := List.replicate state.convState.length 0
    deltaState := List.replicate state.deltaState.length 0 }

/-!
# The cache of all layers

The indexer keys are one flat buffer of `maxSeqLen` rows for each layer, or
none at all while the indexer is off.
-/

structure KVCache (codec : KvarnCodec) where
  layers : List (LayerCache codec)
  ssmStates : List (Option (SsmLayerState UInt32))
  maxSeqLen : Nat
  currentLen : Nat
  glmIndexerK : List (List UInt16)
  glmIndexerKeyLen : Nat
  glmIndexerTopK : Nat

namespace KVCache

variable {codec : KvarnCodec}

def newPerLayerWithFormats (codec : KvarnCodec) (maxSeqLen : Nat)
    (layerNumKvHeads layerHeadDims : List Nat) (layerFormats : List KvCacheFormat) :
    Checked (KVCache codec) := do
  if layerNumKvHeads.length ≠ layerHeadDims.length ∨
      layerFormats.length ≠ layerHeadDims.length then
    report "KV cache layer config length mismatch"
  else
    let layers <-
      ((layerNumKvHeads.zip layerHeadDims).zip layerFormats).mapM fun layer =>
        LayerCache.new codec maxSeqLen layer.1.1 layer.1.2 layer.2
    return {
      layers := layers
      ssmStates := List.replicate layerHeadDims.length none
      maxSeqLen := maxSeqLen
      currentLen := 0
      glmIndexerK := []
      glmIndexerKeyLen := 0
      glmIndexerTopK := 0 }

def convertToF16 (cache : KVCache codec) (reserveLen : Nat) : Checked (KVCache codec) := do
  let layers <-
    cache.layers.mapM fun layer => layer.convertToF16 cache.currentLen reserveLen
  return { cache with layers := layers }

def initGlmIndexer (cache : KVCache codec) (numLayers keyLen topK : Nat) :
    KVCache codec :=
  { cache with
    glmIndexerK :=
      List.replicate numLayers (List.replicate (cache.maxSeqLen * keyLen) 0)
    glmIndexerKeyLen := keyLen
    glmIndexerTopK := topK }

/-- A key longer than the row is cut and a shorter one leaves the rest of the row. -/
def writeGlmIndexerK (f16FromF32 : UInt32 -> UInt16) (cache : KVCache codec)
    (layer pos : Nat) (k : List UInt32) : Checked (KVCache codec) := do
  let keyLen := cache.glmIndexerKeyLen
  require (pos < cache.maxSeqLen) "GLM indexer cache overflow"
  let keys <- index cache.glmIndexerK layer
  require ((pos + 1) * keyLen <= keys.length) "slice index out of range"
  let row := (k.take keyLen).map f16FromF32
  return { cache with
    glmIndexerK := cache.glmIndexerK.set layer (overwrite keys (pos * keyLen) row) }

section

variable (cache : KVCache codec)

def glmIndexerKUpTo (layer len : Nat) :
    Checked (List UInt16) := do
  let keys <- index cache.glmIndexerK layer
  slice keys 0 (len * cache.glmIndexerKeyLen)

def initSsmState (layerIdx : Nat) (state : SsmLayerState UInt32) :
    KVCache codec :=
  if layerIdx < cache.ssmStates.length then
    { cache with ssmStates := cache.ssmStates.set layerIdx (some state) }
  else
    cache

/-- A write through `get_ssm_state_mut`; a missing state is left missing. -/
def updateSsmState (layerIdx : Nat) (state : SsmLayerState UInt32) :
    KVCache codec :=
  match cache.ssmStates[layerIdx]? with
  | some (some _) => { cache with ssmStates := cache.ssmStates.set layerIdx (some state) }
  | _ => cache

def assignSsmState (layerIdx : Nat)
    (state : Option (SsmLayerState UInt32)) : Checked (KVCache codec) := do
  require (layerIdx < cache.ssmStates.length) "index out of bounds"
  return { cache with ssmStates := cache.ssmStates.set layerIdx state }

/-- Replace `self.layers[layer]` by the result of a call on it. -/
def updateLayer (layer : Nat) (call : LayerCache codec -> Checked (LayerCache codec)) :
    Checked (KVCache codec) := do
  let current <- index cache.layers layer
  let next <- call current
  return { cache with layers := cache.layers.set layer next }

/-- The length bookkeeping after a write: only the last layer moves it. -/
def noteWritten (layer stop : Nat) : KVCache codec :=
  if layer = cache.layers.length - 1 then
    { cache with currentLen := max cache.currentLen stop }
  else
    cache

end

def append (f16FromF32 : UInt32 -> UInt16) (cache : KVCache codec) (layer pos : Nat)
    (k v : List UInt32) : Checked (KVCache codec) := do
  let written <- cache.updateLayer layer (fun current => current.writeAt f16FromF32 pos k v)
  return written.noteWritten layer (pos + 1)

section

variable (cache : KVCache codec)

def appendBitsRange (layer posStart seqLen : Nat)
    (kBits vBits : List UInt16) : Checked (KVCache codec) := do
  let written <-
    cache.updateLayer layer (fun current =>
      current.writeBitsRange posStart seqLen kBits vBits)
  return written.noteWritten layer (posStart + seqLen)

def compactLayer (layer : Nat) : Checked (KVCache codec) :=
  cache.updateLayer layer LayerCache.compact

def replaceLayerF16 (layer len : Nat) (kBits vBits : List UInt16) : Checked (KVCache codec) :=
  cache.updateLayer layer (fun current => current.writeBitsUpTo len kBits vBits)

def replaceLayerF16Range (layer posStart kvLen : Nat)
    (kBits vBits : List UInt16) : Checked (KVCache codec) :=
  cache.updateLayer layer (fun current =>
    current.writeBitsRange posStart kvLen kBits vBits)

def layerUsesKvarn (layer : Nat) : Checked Bool := do
  let current <- index cache.layers layer
  return current.isKvarn

def replaceLayerF16RangeCompacted (layer posStart kvLen : Nat)
    (kBits vBits : List UInt16) : Checked (KVCache codec) := do
  let written <- cache.replaceLayerF16Range layer posStart kvLen kBits vBits
  let kvarn <- written.layerUsesKvarn layer
  if kvarn then
    written.compactLayer layer
  else
    return written

def readUpTo (layer len : Nat) :
    Checked (List UInt16 × List UInt16) := do
  let current <- index cache.layers layer
  current.readUpToMaterialized len

def setLen (len : Nat) : Checked (KVCache codec) := do
  let layers <- cache.layers.mapM fun layer => layer.truncateTo len
  return { cache with layers := layers, currentLen := len }

end

def clear (cache : KVCache codec) : Checked (KVCache codec) := do
  let layers <- cache.layers.mapM fun layer => layer.truncateTo 0
  return { cache with
    layers := layers
    ssmStates := cache.ssmStates.map (fun state => state.map SsmLayerState.clear)
    currentLen := 0 }

end KVCache

end KvCache
end RunNBurn
