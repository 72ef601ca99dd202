import RunNBurn.Library.FlatRows

/-!
# The Muse draft cache

Every layer keeps the key and value rows of the last tokens that the target has seen.
A checkpoint keeps lengths and the front of every layer, enough to undo one block.
-/

namespace RunNBurn
namespace Inference

open Library

variable {feature row : Type}

/-- The rows that a layer computes of a token, by the layer, the target's features of the
token and its position; the accelerator and the CPU store the same ones. -/
structure RowModel (feature row : Type) where
  key : Nat -> List feature -> Nat -> row
  value : Nat -> List feature -> Nat -> row

structure DflashLayerCache (row : Type) where
  keys : List row
  values : List row
deriving DecidableEq, Repr

structure MuseDflashSequenceState (row : Type) where
  layers : List (DflashLayerCache row)
  position : Nat

structure MuseDflashCheckpoint (row : Type) where
  position : Nat
  layerLengths : List Nat
  frontKeys : List (List row)
  frontValues : List (List row)

structure MuseDflashRuntime (row : Type) where
  layerCache : List (DflashLayerCache row)
  hiddenDim : Nat
  targetLayers : List Nat
  maxSeqLen : Nat
  windowSize : Nat
  blockSize : Nat
  position : Nat

namespace DflashLayerCache

/-- Push the rows of a token; the front goes when the window is full. -/
def push (windowSize : Nat) (cache : DflashLayerCache row) (key value : row) :
    DflashLayerCache row :=
  let keys := cache.keys ++ [key]
  let values := cache.values ++ [value]
  if windowSize < keys.length then
    { keys := keys.tail
      values := values.tail }
  else
    { keys := keys
      values := values }

/-- The rows of the tokens from `position` on. -/
def observe (rows : RowModel feature row) (windowSize layerIndex : Nat) :
    List (List feature) -> (position : Nat) -> DflashLayerCache row -> DflashLayerCache row
  | [], _, cache => cache
  | token :: tokens, position, cache =>
    observe rows windowSize layerIndex tokens (position + 1)
      (cache.push windowSize (rows.key layerIndex token position)
        (rows.value layerIndex token position))

end DflashLayerCache

/-- `pop_back`, so many times. -/
def popBack (count : Nat) (rows : List row) : List row :=
  rows.take (rows.length - count)

/-- `push_front` of each row, the last one first. -/
def pushFront (front rows : List row) : List row :=
  front.reverse.foldl (fun rows row => row :: rows) rows

namespace MuseDflashRuntime

def clear (runtime : MuseDflashRuntime row) : MuseDflashRuntime row :=
  { runtime with
    layerCache := runtime.layerCache.map fun _ =>
      { keys := []
        values := [] }
    position := 0 }

def checkpoint (runtime : MuseDflashRuntime row) : MuseDflashCheckpoint row where
  position := runtime.position
  layerLengths := runtime.layerCache.map fun layer => layer.keys.length
  frontKeys := runtime.layerCache.map fun layer => layer.keys.take runtime.blockSize
  frontValues := runtime.layerCache.map fun layer => layer.values.take runtime.blockSize

def restoreLayer (windowSize appended : Nat) (checkpoint : MuseDflashCheckpoint row)
    (layer : DflashLayerCache row) (layerIndex : Nat) : Checked (DflashLayerCache row) := do
  let popped := min appended layer.keys.length
  let keys := popBack popped layer.keys
  let values := popBack popped layer.values
  let originalLen <- index checkpoint.layerLengths layerIndex
  let evicted := appended - (windowSize - originalLen)
  let frontKeys <- index checkpoint.frontKeys layerIndex
  let frontValues <- index checkpoint.frontValues layerIndex
  if evicted > frontKeys.length ∨ evicted > frontValues.length then
    report "Muse DFlash checkpoint did not retain enough evicted rows"
  else do
    let keys := pushFront (frontKeys.take evicted) keys
    let values := pushFront (frontValues.take evicted) values
    if keys.length ≠ originalLen ∨ values.length ≠ originalLen then
      report "Muse DFlash checkpoint restored an invalid cache length"
    else
      return {
        keys := keys
        values := values }

section

variable (runtime : MuseDflashRuntime row)

def restoreCheckpoint (checkpoint : MuseDflashCheckpoint row) :
    Checked (MuseDflashRuntime row) :=
  if runtime.position < checkpoint.position then
    report "Muse DFlash checkpoint is ahead of runtime"
  else
    let appended := runtime.position - checkpoint.position
    if appended > runtime.blockSize ∨
        checkpoint.layerLengths.length ≠ runtime.layerCache.length ∨
        checkpoint.frontKeys.length ≠ runtime.layerCache.length ∨
        checkpoint.frontValues.length ≠ runtime.layerCache.length then
      report "Muse DFlash checkpoint does not match runtime"
    else do
      let layerCache <- runtime.layerCache.zipIdx.mapM fun (layer, layerIndex) =>
        restoreLayer runtime.windowSize appended checkpoint layer layerIndex
      return { runtime with
        layerCache := layerCache
        position := checkpoint.position }

def captureSequenceState : MuseDflashSequenceState row where
  layers := runtime.layerCache
  position := runtime.position

def restoreSequenceState (state : MuseDflashSequenceState row) :
    Checked (MuseDflashRuntime row) :=
  if state.layers.length ≠ runtime.layerCache.length ∨
      state.layers.any fun layer =>
        layer.keys.length != layer.values.length || layer.keys.length > runtime.windowSize then
    report "Muse DFlash sequence state does not match runtime"
  else
    .ok { runtime with
      layerCache := state.layers
      position := state.position }

def featureDim : Nat :=
  runtime.targetLayers.length * runtime.hiddenDim

end

section

variable (rows : RowModel feature row) (runtime : MuseDflashRuntime row)

def observed (tokens : List (List feature)) : MuseDflashRuntime row :=
  { runtime with
    layerCache := runtime.layerCache.zipIdx.map fun (layer, layerIndex) =>
      layer.observe rows runtime.windowSize layerIndex tokens runtime.position
    position := runtime.position + tokens.length }

/-- A call that fails leaves the runtime as it was: it fails before the first row. -/
def observeTargetBatch (features : List feature) (tokenCount startPosition : Nat) :
    Checked (MuseDflashRuntime row) :=
  let length := features.length
  let dim := runtime.featureDim
  let position := runtime.position
  if length ≠ tokenCount * dim then
    report s!"Muse DFlash target feature length {length} != {tokenCount} tokens * {dim}"
  else if startPosition ≠ position then
    report s!"Muse DFlash target position {startPosition} != draft position {position}"
  else if startPosition + tokenCount > runtime.maxSeqLen then
    report "Muse DFlash KV cache overflow"
  else .ok (runtime.observed rows (chunks dim tokenCount features))

def retainVerifiedPrefix
    (checkpoint : MuseDflashCheckpoint row) (features : List feature) (tokenCount : Nat) :
    Checked (MuseDflashRuntime row) := do
  let restored <- runtime.restoreCheckpoint checkpoint
  restored.observeTargetBatch rows features tokenCount restored.position

end

end MuseDflashRuntime

end Inference
end RunNBurn
