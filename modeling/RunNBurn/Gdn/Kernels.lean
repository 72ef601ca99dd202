import Mathlib.Algebra.Field.Basic
import RunNBurn.Library.TokenRows

/-!
# Kernels of the gated delta net

The buffers are flat, as in the source: the rows of the tokens stand end to end, and a row
holds its heads end to end.  Arithmetic is that of a field.
-/

namespace RunNBurn
namespace Gdn

open Library

/-- The functions that a field does not bring along. -/
structure Elementary (F : Type) where
  exp : F -> F
  ln : F -> F
  sqrt : F -> F

variable {F : Type} [Field F]

/-- `xs[i]` -/
def entry (xs : List F) (i : Nat) : F :=
  xs.getD i 0

/-- `xs[start..start + count]` -/
def part (xs : List F) (start count : Nat) : List F :=
  (xs.drop start).take count

def Elementary.sigmoid (e : Elementary F) (x : F) : F :=
  1 / (1 + e.exp (-x))

def Elementary.silu (e : Elementary F) (x : F) : F :=
  x / (1 + e.exp (-x))

/-- Each row of `dim` entries is divided by its norm. -/
def l2NormInto (e : Elementary F) (input : List F) (eps : F) (dim : Nat) : List F :=
  (List.range (input.length / dim)).flatMap fun row =>
    let rowData := part input (row * dim) dim
    let normSq := rowData.foldl (fun sum x => sum + x * x) 0
    let invNorm := 1 / e.sqrt (normSq + eps)
    rowData.map fun x => x * invNorm

/-!
# The convolution
-/

def ssmConv1dSilu (e : Elementary F) (input kernel : List F)
    (seqLen channels kernelSize : Nat) : List F :=
  (List.range seqLen).flatMap fun t =>
    (List.range channels).map fun c =>
      e.silu ((List.range kernelSize).foldl
        (fun sum k => sum + entry input ((t + k) * channels + c) * entry kernel (k * channels + c))
        0)

/-- The convolution input of the window, and the state that the window leaves. -/
def buildConvInputAndAdvanceState (convState qkvData : List F)
    (seqLen convChannels convKernel : Nat) : Checked (List F × List F) := do
  require (0 < convKernel) "attempt to subtract with overflow"
  let convStateLen := (convKernel - 1) * convChannels
  let convInput := convState ++ qkvData
  let newStateStart := seqLen * convChannels
  let newState <- slice convInput newStateStart (newStateStart + convStateLen)
  require (convState.length = newState.length)
    "copy_from_slice: source slice length does not match destination slice length"
  return (convInput, newState)

def convStateAfterPrefixTokens (convInput : List F)
    (prefixTokens convChannels convKernel : Nat) : List F :=
  let convStateLen := (convKernel - 1) * convChannels
  let start := prefixTokens * convChannels
  part convInput start convStateLen

structure ConvQkv (F : Type) where
  q : List F
  k : List F
  v : List F

def splitConvQkv (convData : List F) (seqLen convChannels qDim kDim vDim : Nat) : ConvQkv F where
  q := (List.range seqLen).flatMap fun t => part convData (t * convChannels) qDim
  k := (List.range seqLen).flatMap fun t => part convData (t * convChannels + qDim) kDim
  v := (List.range seqLen).flatMap fun t => part convData (t * convChannels + qDim + kDim) vDim

/-- The heads of each token, so often that there is one for each value head. -/
def repeatHeads (raw : List F) (seqLen numKHeads numVHeads headKDim : Nat) : List F :=
  (List.range seqLen).flatMap fun t =>
    (List.range numVHeads).flatMap fun vh =>
      part raw ((t * numKHeads + vh % numKHeads) * headKDim) headKDim

def repeatQkForValueHeads (qRaw kRaw : List F) (seqLen numKHeads numVHeads headKDim : Nat) :
    Checked (List F × List F) :=
  if numVHeads = numKHeads then
    .ok (qRaw, kRaw)
  else do
    require (numKHeads ≠ 0) "attempt to calculate the remainder with a divisor of zero"
    require (numVHeads % numKHeads = 0)
      s!"gdn GQA: num_v_heads ({numVHeads}) must be multiple of num_k_heads ({numKHeads})"
    return (repeatHeads qRaw seqLen numKHeads numVHeads headKDim,
      repeatHeads kRaw seqLen numKHeads numVHeads headKDim)

def applyDtGateInplace (e : Elementary F) (gateData dtBias ssmA : List F)
    (seqLen numVHeads : Nat) : List F :=
  (List.range seqLen).flatMap fun t =>
    (List.range numVHeads).map fun h =>
      let biased := entry gateData (t * numVHeads + h) + entry dtBias h
      e.ln (1 + e.exp biased) * entry ssmA h

/-!
# The delta net
-/

def deltaNetStepScalarHead (k v : List F) (decay beta : F) (state : List F)
    (headKDim headVDim : Nat) : List F :=
  (List.range headVDim).flatMap fun vi =>
    let sk := (List.range headKDim).foldl
      (fun sk ki => sk + decay * entry state (vi * headKDim + ki) * entry k ki) 0
    let d := (entry v vi - sk) * beta
    (List.range headKDim).map fun ki =>
      decay * entry state (vi * headKDim + ki) + entry k ki * d

def stepHeads (step : Nat -> List F -> List F) (numHeads stateSize : Nat) (state : List F) :
    Checked (List F) := do
  require (numHeads * stateSize <= state.length) "range end index out of range for slice"
  return (List.range numHeads).flatMap
    (fun h => step h (part state (h * stateSize) stateSize)) ++ state.drop (numHeads * stateSize)

def deltaNetStepStateOnly (e : Elementary F) (k v gate beta state : List F)
    (numHeads headKDim headVDim : Nat) : Checked (List F) :=
  stepHeads
    (fun h => fun stateH =>
      deltaNetStepScalarHead (part k (h * headKDim) headKDim) (part v (h * headVDim) headVDim)
        (e.exp (entry gate h)) (entry beta h) stateH headKDim headVDim)
    numHeads (headVDim * headKDim) state

/-- What the heads answer to `q` from the state that the token has left. -/
def scanOutput (q state : List F) (t numHeads headKDim headVDim : Nat) : List F :=
  (List.range numHeads).flatMap fun h =>
    let stateH := part state (h * (headVDim * headKDim)) (headVDim * headKDim)
    let qH := part q ((t * numHeads + h) * headKDim) headKDim
    (List.range headVDim).map fun vi =>
      (List.range headKDim).foldl
        (fun sq ki => sq + entry stateH (vi * headKDim + ki) * entry qH ki) 0

def deltaNetScan (e : Elementary F) (q k v gate beta state : List F)
    (seqLen numHeads headKDim headVDim : Nat) : Checked (List F × List F) :=
  (List.range seqLen).foldlM
    (fun result t => do
      let state <- stepHeads
        (fun h => fun stateH =>
          deltaNetStepScalarHead (part k ((t * numHeads + h) * headKDim) headKDim)
            (part v ((t * numHeads + h) * headVDim) headVDim)
            (e.exp (entry gate (t * numHeads + h))) (entry beta (t * numHeads + h)) stateH
            headKDim headVDim)
        numHeads (headVDim * headKDim) result.2
      return (result.1 ++ scanOutput q state t numHeads headKDim headVDim, state))
    ([], state)

structure ScanSegments (F : Type) where
  output : List F
  snapshots : List (Nat × List F)
  segmentStart : Nat
  deltaState : List F

/-- The scan up to `segmentEnd`, unless the window has no such token ahead. -/
def scanSegment (e : Elementary F) (q k v gate beta : List F)
    (seqLen numVHeads headKDim headVDim : Nat) (segments : ScanSegments F) (segmentEnd : Nat) :
    Checked (ScanSegments F) :=
  if segmentEnd <= segments.segmentStart ∨ seqLen < segmentEnd then
    .ok segments
  else do
    let qkStride := numVHeads * headKDim
    let vStride := numVHeads * headVDim
    let gateStride := numVHeads
    let start := segments.segmentStart
    let segmentLen := segmentEnd - start
    let scanned <- deltaNetScan e (part q (start * qkStride) (segmentLen * qkStride))
      (part k (start * qkStride) (segmentLen * qkStride))
      (part v (start * vStride) (segmentLen * vStride))
      (part gate (start * gateStride) (segmentLen * gateStride))
      (part beta (start * gateStride) (segmentLen * gateStride))
      segments.deltaState segmentLen numVHeads headKDim headVDim
    return {
      output := segments.output ++ scanned.1
      snapshots :=
        if segmentEnd < seqLen then segments.snapshots ++ [(segmentEnd, scanned.2)]
        else segments.snapshots
      segmentStart := segmentEnd
      deltaState := scanned.2 }

/-- The scan from one requested prefix to the next, with the state kept at each. -/
def deltaNetScanPrefillWithSnapshots (e : Elementary F) (q k v gate beta deltaState : List F)
    (seqLen numVHeads headKDim headVDim : Nat) (snapshotTokens : List Nat) :
    Checked (ScanSegments F) :=
  (snapshotTokens ++ [seqLen]).foldlM
    (scanSegment e q k v gate beta seqLen numVHeads headKDim headVDim)
    { output := []
      snapshots := []
      segmentStart := 0
      deltaState := deltaState }

end Gdn
end RunNBurn
