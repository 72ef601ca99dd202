import RunNBurn.Library.InPlace
import RunNBurn.KvCache.Layer

/-!
# Sequence snapshots

A snapshot keeps the rows of every layer below the current length, the
recurrent states and the indexer keys.  Restoring it first compares layouts and
then copies into the buffers of the cache at hand.
-/

namespace RunNBurn
namespace KvCache

open Library

namespace KvarnLayerCache

variable {codec : KvarnCodec}

def snapshot (cache : KvarnLayerCache codec) (len : Nat) :
    Checked (KvarnLayerCache codec) :=
  cache.truncateTo len

def LayoutMatches (cache other : KvarnLayerCache codec) : Prop :=
  cache.config = other.config ∧ cache.numKvHeads = other.numKvHeads ∧
    cache.headDim = other.headDim ∧ cache.maxSeqLen = other.maxSeqLen ∧
    other.storedLen <= cache.maxSeqLen

instance (cache other : KvarnLayerCache codec) : Decidable (cache.LayoutMatches other) :=
  inferInstanceAs (Decidable (_ ∧ _))

end KvarnLayerCache

inductive LayerCacheSnapshotStorage (codec : KvarnCodec) where
  | f16 (key value : List UInt16)
  | kvarn (cache : KvarnLayerCache codec)

structure LayerCacheSnapshot (codec : KvarnCodec) where
  storage : LayerCacheSnapshotStorage codec
  numKvHeads : Nat
  headDim : Nat

structure KVCacheSnapshot (codec : KvarnCodec) where
  layers : List (LayerCacheSnapshot codec)
  ssmStates : List (Option (SsmLayerState UInt32))
  maxSeqLen : Nat
  currentLen : Nat
  glmIndexerK : List (List UInt16)
  glmIndexerKeyLen : Nat
  glmIndexerTopK : Nat

/-!
# Taking a snapshot
-/

namespace LayerCache

variable {codec : KvarnCodec}

def snapshot (layer : LayerCache codec) (currentLen : Nat) :
    Checked (LayerCacheSnapshot codec) := do
  let storage <-
    match layer.storage with
    | .f16 _ _ => do
        let (key, value) <- layer.readUpToMaterialized currentLen
        pure (LayerCacheSnapshotStorage.f16 key value)
    | .kvarn cache => do
        let cache <- cache.snapshot currentLen
        pure (LayerCacheSnapshotStorage.kvarn cache)
  return {
    storage := storage
    numKvHeads := layer.numKvHeads
    headDim := layer.headDim }

end LayerCache

namespace KVCache

variable {codec : KvarnCodec}

def snapshot (cache : KVCache codec) : Checked (KVCacheSnapshot codec) := do
  let layers <- cache.layers.mapM fun layer => layer.snapshot cache.currentLen
  let glmIndexerLen := cache.currentLen * cache.glmIndexerKeyLen
  let glmIndexerK <- cache.glmIndexerK.mapM fun keys => slice keys 0 glmIndexerLen
  return {
    layers := layers
    ssmStates := cache.ssmStates
    maxSeqLen := cache.maxSeqLen
    currentLen := cache.currentLen
    glmIndexerK := glmIndexerK
    glmIndexerKeyLen := cache.glmIndexerKeyLen
    glmIndexerTopK := cache.glmIndexerTopK }

end KVCache

/-!
# Restoring a snapshot
-/

namespace LayerCacheSnapshot

variable {codec : KvarnCodec}

def StorageMatches (saved : LayerCacheSnapshot codec) (currentLen : Nat)
    (layer : LayerCache codec) : Prop :=
  match layer.storage, saved.storage with
  | .f16 _ _, .f16 key value =>
    key.length = currentLen * layer.numKvHeads * layer.headDim ∧
      value.length = currentLen * layer.numKvHeads * layer.headDim
  | .kvarn current, .kvarn saved => current.LayoutMatches saved ∧ saved.storedLen <= currentLen
  | _, _ => False

instance (saved : LayerCacheSnapshot codec) (currentLen : Nat)
    (layer : LayerCache codec) : Decidable (saved.StorageMatches currentLen layer) := by
  unfold StorageMatches
  split <;> infer_instance

def validateLayer (saved : LayerCacheSnapshot codec) (currentLen : Nat)
    (layer : LayerCache codec) : Checked Unit :=
  if layer.numKvHeads ≠ saved.numKvHeads ∨ layer.headDim ≠ saved.headDim then
    report "sequence state layer layout does not match this KV cache"
  else if ¬ saved.StorageMatches currentLen layer then
    report "sequence state layer storage does not match this KV cache"
  else
    return ()

end LayerCacheSnapshot

/-- `buffer[..row.len()].copy_from_slice(row)`. -/
def copyPrefix (row : List UInt16) : InPlace Fault (List UInt16) Unit :=
  fun buffer =>
    if row.length <= buffer.length then (overwrite buffer 0 row, .ok ())
    else (buffer, abort "range end index out of range")

def LayerCache.restoreSnapshot {codec : KvarnCodec} (saved : LayerCacheSnapshot codec) :
    InPlace Fault (LayerCache codec) Unit :=
  fun layer =>
    match layer.storage, saved.storage with
    | .f16 key value, .f16 savedKey savedValue =>
      match copyPrefix savedKey key with
      | (key, .error fault) => (layer.withStorage (.f16 key value), .error fault)
      | (key, .ok ()) =>
        let (value, copied) := copyPrefix savedValue value
        (layer.withStorage (.f16 key value), copied)
    | .kvarn _, .kvarn saved => (layer.withStorage (.kvarn saved), .ok ())
    | _, _ => (layer, abort "snapshot layout was validated")

/-- One entry of the restore loop: copied in place when the sizes agree. -/
def restoreSavedSsmState (current saved : Option (SsmLayerState UInt32)) : Option
    (SsmLayerState UInt32) :=
  match current, saved with
  | some current, some saved =>
    if current.convState.length = saved.convState.length ∧
        current.deltaState.length = saved.deltaState.length then
      some { current with
        convState := saved.convState
        deltaState := saved.deltaState
        convKernel := saved.convKernel
        convChannels := saved.convChannels }
    else
      some saved
  | none, some saved => some saved
  | _, none => none

def restoreSsmStates (current saved : List (Option (SsmLayerState UInt32))) :
    List (Option (SsmLayerState UInt32)) :=
  List.zipWith restoreSavedSsmState current saved ++ current.drop saved.length

namespace KVCache

variable {codec : KvarnCodec}

def validateSnapshot (cache : KVCache codec) (snapshot : KVCacheSnapshot codec) :
    Checked Unit :=
  if snapshot.currentLen > cache.maxSeqLen ∨
      snapshot.maxSeqLen ≠ cache.maxSeqLen ∨
      snapshot.layers.length ≠ cache.layers.length ∨
      snapshot.ssmStates.length ≠ cache.ssmStates.length ∨
      snapshot.glmIndexerK.length ≠ cache.glmIndexerK.length ∨
      snapshot.glmIndexerKeyLen ≠ cache.glmIndexerKeyLen ∨
      snapshot.glmIndexerTopK ≠ cache.glmIndexerTopK then
    report "sequence state does not match this KV cache"
  else do
    (cache.layers.zip snapshot.layers).forM fun (current, saved) =>
      saved.validateLayer snapshot.currentLen current
    let glmIndexerLen := snapshot.currentLen * snapshot.glmIndexerKeyLen
    if exists keys, keys ∈ snapshot.glmIndexerK ∧ keys.length ≠ glmIndexerLen then
      report "sequence state GLM indexer layout does not match this KV cache"
    else
      return ()

def restoreSnapshot (snapshot : KVCacheSnapshot codec) : InPlace Fault (KVCache codec) Unit := do
  InPlace.reading fun cache => cache.validateSnapshot snapshot
  InPlace.onPart KVCache.layers (fun layers cache => { cache with layers := layers })
    (InPlace.eachZip LayerCache.restoreSnapshot snapshot.layers)
  InPlace.onPart KVCache.glmIndexerK (fun keys cache => { cache with glmIndexerK := keys })
    (InPlace.eachZip copyPrefix snapshot.glmIndexerK)
  InPlace.modifying fun cache => { cache with
    ssmStates := restoreSsmStates cache.ssmStates snapshot.ssmStates
    currentLen := snapshot.currentLen }

end KVCache

/-!
# Speculative checkpoints

A checkpoint keeps a length and a copy of the recurrent states.  Restoring it
cuts the cache back to the length and writes the states back.
-/

structure SsmLayerCheckpoint where
  convState : List UInt32
  deltaState : Option (List UInt32)
  convKernel : Nat
  convChannels : Nat

structure SpecCheckpoint where
  kvLen : Nat
  ssmStates : List (Option SsmLayerCheckpoint)

/-- The state that a checkpoint entry holds in full, if its delta was copied. -/
def SsmLayerCheckpoint.toState (saved : SsmLayerCheckpoint) : Option (SsmLayerState UInt32) :=
  saved.deltaState.map fun deltaState => {
    convState := saved.convState
    deltaState := deltaState
    convKernel := saved.convKernel
    convChannels := saved.convChannels }

def checkpointSsmStates (states : List (Option (SsmLayerState UInt32)))
    (residentDeltaLayers : List Nat) : List (Option SsmLayerCheckpoint) :=
  states.mapIdx fun layerIdx state =>
    state.map fun state => {
      convState := state.convState
      deltaState :=
        if residentDeltaLayers.contains layerIdx then none else some state.deltaState
      convKernel := state.convKernel
      convChannels := state.convChannels }

/-- One layer of the restore loop: copied in place when the sizes agree. -/
def restoreSsmState (current : Option (SsmLayerState UInt32))
    (saved : Option SsmLayerCheckpoint) : Option (SsmLayerState UInt32) :=
  match current, saved with
  | some current, some saved =>
    if current.convState.length = saved.convState.length ∧
        (forall delta, saved.deltaState = some delta ->
          current.deltaState.length = delta.length) then
      some {
        convState := saved.convState
        deltaState := saved.deltaState.getD current.deltaState
        convKernel := saved.convKernel
        convChannels := saved.convChannels }
    else
      saved.toState
  | none, some saved => saved.toState
  | _, none => none

def restoreSsmStatesPreservingAllocations (current : List (Option (SsmLayerState UInt32)))
    (saved : List (Option SsmLayerCheckpoint)) : List (Option (SsmLayerState UInt32)) :=
  if current.length ≠ saved.length then
    saved.map fun entry => entry.bind SsmLayerCheckpoint.toState
  else
    List.zipWith restoreSsmState current saved

namespace SpecCheckpoint

variable {codec : KvarnCodec}

def save (cache : KVCache codec) : SpecCheckpoint where
  kvLen := cache.currentLen
  ssmStates := checkpointSsmStates cache.ssmStates []

def restore (checkpoint : SpecCheckpoint) (cache : KVCache codec) :
    Checked (KVCache codec) := do
  let cut <- cache.setLen checkpoint.kvLen
  return { cut with
    ssmStates :=
      restoreSsmStatesPreservingAllocations cut.ssmStates checkpoint.ssmStates }

end SpecCheckpoint

end KvCache
end RunNBurn
