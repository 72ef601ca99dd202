import Mathlib.Order.Lattice
import RunNBurn.Gdn.Kernels
import RunNBurn.KvCache.Layer
import RunNBurn.Library.FilledRows

/-!
# The Mamba2 layer

A call takes the hidden rows of some tokens through the projections, the convolution and the scan
of a layer, and moves the two states of the layer on.  Every access to a buffer is checked.  No
accelerator answers.
-/

namespace RunNBurn
namespace Nemotron

open Library
open Gdn (Elementary entry)
open KvCache (SsmLayerState SsmStates)

structure Mamba2Metadata where
  hiddenDim : Nat
  ssmDInner : Nat
  ssmDState : Nat
  ssmNGroup : Nat
  ssmDtRank : Nat
  ssmConvKernel : Nat
deriving DecidableEq, Repr

namespace Mamba2Metadata

section

variable (metadata : Mamba2Metadata)

def nGroup : Nat :=
  max metadata.ssmNGroup 1

def numHeads : Nat :=
  max metadata.ssmDtRank 1

def convKernel : Nat :=
  max metadata.ssmConvKernel 1

def headDim : Nat :=
  metadata.ssmDInner / metadata.numHeads

def bcDim : Nat :=
  metadata.nGroup * metadata.ssmDState

def convChannels : Nat :=
  metadata.ssmDInner + 2 * metadata.bcDim

def expectedRows : Nat :=
  metadata.ssmDInner + metadata.convChannels + metadata.numHeads

def headStateLen : Nat :=
  metadata.headDim * metadata.ssmDState

def groupDim : Nat :=
  metadata.ssmDInner / metadata.nGroup

end

end Mamba2Metadata

variable {F : Type}

/-- The weights have the shapes that the metadata says; the convolution is `[kernel, channels]`. -/
structure NemotronMamba2LayerWeights (F : Type) (metadata : Mamba2Metadata) where
  norm : List F
  ssmIn : Projection F metadata.expectedRows metadata.hiddenDim
  ssmConv1d : List F
  ssmConv1dBias : List F
  ssmDtBias : List F
  ssmA : List F
  ssmD : List F
  ssmNorm : List F
  ssmOut : Projection F metadata.hiddenDim metadata.ssmDInner
  length_norm : norm.length = metadata.hiddenDim
  length_ssmConv1d : ssmConv1d.length = metadata.convKernel * metadata.convChannels
  length_ssmConv1dBias : 0 < ssmConv1dBias.length
  length_ssmDtBias : 0 < ssmDtBias.length
  length_ssmA : 0 < ssmA.length
  length_ssmD : 0 < ssmD.length
  length_ssmNorm : ssmNorm.length = metadata.ssmDInner

/-!
## Kernels
-/

/-- `xs[i.min(xs.len() - 1)]` -/
def clampedAt (xs : List F) (i : Nat) : Checked F := do
  require (0 < xs.length) "attempt to subtract with overflow"
  index xs (min i (xs.length - 1))

/-- `xs[i.min(xs.len().saturating_sub(1))]` -/
def saturatedAt (xs : List F) (i : Nat) : Checked F :=
  index xs (min i (xs.length - 1))

def quantizedProject {rows cols : Nat} (weight : Projection F rows cols) (input : List F) :
    Checked (List F) := do
  let seqLen <- divide input.length cols
  fillRows seqLen fun t => do
    let row <- slice input (t * cols) ((t + 1) * cols)
    return weight.row row

section Kernels

variable [Field F]

def rmsNormRow (e : Elementary F) (eps : F) (weight row : List F) : List F :=
  let meanSq := row.foldl (fun sum v => sum + v * v) 0 / (weight.length : F)
  let rms := e.sqrt (meanSq + eps)
  List.zipWith (fun x w => x / rms * w) row weight

/-- What is left of the output behind the last whole row stays zero. -/
def rmsNormInto (e : Elementary F) (input weight : List F) (eps : F) : Checked (List F) := do
  let seqLen <- divide input.length weight.length
  let rows <- fillRows seqLen fun s => do
    let row <- slice input (s * weight.length) ((s + 1) * weight.length)
    return rmsNormRow e eps weight row
  return rows ++ List.replicate (input.length - seqLen * weight.length) 0

def buildConvInputAndAdvanceState (state current : List F) (seqLen channels kernel : Nat) :
    Checked (List F × List F) := do
  require (1 <= kernel) "attempt to subtract with overflow"
  let stateLen := (kernel - 1) * channels
  require (state.length = stateLen)
    "copy_from_slice: source slice length does not match destination slice length"
  require (current.length = seqLen * channels)
    "copy_from_slice: source slice length does not match destination slice length"
  let out := state ++ current
  let suffix <- slice out (out.length - stateLen) out.length
  return (out, if 0 < stateLen then suffix else state)

def convTap (input kernel : List F) (channels t c : Nat) (sum : F) (k : Nat) : Checked F := do
  let x <- index input ((t + k) * channels + c)
  let w <- index kernel (k * channels + c)
  return sum + x * w

def ssmConv1d (input kernel : List F) (totalLen channels kernelSize : Nat) :
    Checked (List F) := do
  require (1 <= kernelSize ∧ kernelSize - 1 <= totalLen) "attempt to subtract with overflow"
  fillRows (totalLen - (kernelSize - 1)) fun t =>
    (List.range channels).mapM fun c =>
      (List.range kernelSize).foldlM (convTap input kernel channels t c) 0

def activateConv (e : Elementary F) (convData convBias : List F) (seqLen channels : Nat) :
    Checked (List F) :=
  fillRows seqLen fun t =>
    (List.range channels).mapM fun c => do
      let value <- index convData (t * channels + c)
      let bias <- clampedAt convBias c
      return e.silu (value + bias)

/-- `values *= sigmoid(gate)`, as far as there are gates. -/
def sigmoidMul (e : Elementary F) (values gate : List F) : List F :=
  List.zipWith (fun value gate => value * e.sigmoid gate) values gate ++ values.drop gate.length

def addTensors (lhs rhs : List F) : Checked (List F) := do
  ensure (0 < rhs.length ∧ lhs.length % rhs.length = 0) "shape mismatch"
  (List.range lhs.length).mapM fun i => do
    let x <- index lhs i
    let y <- index rhs (i % rhs.length)
    return x + y

/-!
## The scan
-/

section Scan

variable [LinearOrder F]

def softplus (e : Elementary F) (x : F) : F :=
  if 20 < x then x else e.ln (1 + e.exp x)

structure HeadToken (F : Type) where
  dt : F
  a : F
  d : F
  x : List F
  b : List F
  c : List F

/-- One entry of a row of the head state, which is written in place, and the sum so far. -/
def scanEntry (token : HeadToken F) (decay xDt : F) (stateHead : List F)
    (group dState p : Nat) (row : List F × F) (s : Nat) : Checked (List F × F) := do
  let old <- index stateHead (p * dState + s)
  let b <- index token.b (group * dState + s)
  let c <- index token.c (group * dState + s)
  let next := old * decay + b * xDt
  return (row.1 ++ [next], row.2 + next * c)

def scanRow (token : HeadToken F) (decay : F) (stateHead : List F)
    (h group headDim dState p : Nat) :
    Checked (List F × F) := do
  let x <- index token.x (h * headDim + p)
  (List.range dState).foldlM
    (scanEntry token decay (x * token.dt) stateHead group dState p) ([], token.d * x)

/-- The next state of a head, and its output; `outLen` is the length of its chunk of the output. -/
def scanHead (e : Elementary F) (token : HeadToken F) (stateHead : List F)
    (outLen h group headDim dState : Nat) : Checked (List F × List F) := do
  let rows <- (List.range headDim).mapM fun p => do
    let row <- scanRow token (e.exp (token.dt * token.a)) stateHead h group headDim dState p
    require (p < outLen) "index out of bounds"
    return row
  return ((rows.map Prod.fst).flatten, rows.map Prod.snd)

def chunkCount (length size : Nat) : Nat :=
  (length + size - 1) / size

/-- One token: the heads step side by side, each in its own chunk of the state. -/
def scanToken (e : Elementary F) (metadata : Mamba2Metadata) (convActivated dtData a d : List F)
    (t : Nat) (state : List F) : Checked (List F × List F) := do
  let dInner := metadata.ssmDInner
  let token <- slice convActivated (t * metadata.convChannels) ((t + 1) * metadata.convChannels)
  let x <- slice token 0 dInner
  let b <- slice token dInner (dInner + metadata.bcDim)
  let c <- slice token (dInner + metadata.bcDim) (dInner + 2 * metadata.bcDim)
  require (0 < metadata.headStateLen ∧ 0 < metadata.headDim) "chunk_size must not be zero"
  let headsPerGroup := max (metadata.numHeads / metadata.nGroup) 1
  let heads := min (chunkCount state.length metadata.headStateLen)
    (chunkCount dInner metadata.headDim)
  let results <- (List.range heads).mapM fun h => do
    let dtRaw <- index dtData (t * metadata.numHeads + h)
    let headA <- saturatedAt a h
    let headD <- saturatedAt d h
    scanHead e
      { dt := softplus e dtRaw
        a := headA
        d := headD
        x := x
        b := b
        c := c }
      ((state.drop (h * metadata.headStateLen)).take metadata.headStateLen)
      (min metadata.headDim (dInner - h * metadata.headDim)) h (h / headsPerGroup)
      metadata.headDim metadata.ssmDState
  return ((results.map Prod.snd).flatten ++ List.replicate (dInner - heads * metadata.headDim) 0,
    (results.map Prod.fst).flatten ++ state.drop (heads * metadata.headStateLen))

def scanMamba2Cpu (e : Elementary F) (metadata : Mamba2Metadata)
    (state convActivated dtData : List F)
    (a d : List F) (seqLen : Nat) : Checked (List F × List F) :=
  (List.range seqLen).foldlM
    (fun result t => do
      let next <- scanToken e metadata convActivated dtData a d t result.2
      return (result.1 ++ next.1, next.2))
    ([], state)

end Scan

/-!
## The layer
-/

/-- The gate, the input of the convolution and the time steps of a token. -/
structure SplitToken (F : Type) where
  z : List F
  convSeed : List F
  dt : List F

def splitToken (metadata : Mamba2Metadata) (projected dtBias : List F) (t : Nat) :
    Checked (SplitToken F) := do
  let start := metadata.ssmDInner + metadata.convChannels
  let src <- slice projected (t * metadata.expectedRows) ((t + 1) * metadata.expectedRows)
  let z <- slice src 0 metadata.ssmDInner
  let convSeed <- slice src metadata.ssmDInner start
  let dt <- (List.range metadata.numHeads).mapM fun h => do
    let value <- index src (start + h)
    let bias <- clampedAt dtBias h
    return value + bias
  return {
    z := z
    convSeed := convSeed
    dt := dt }

def normGroups (e : Elementary F) (metadata : Mamba2Metadata) (gated ssmNorm : List F) (eps : F)
    (t : Nat) : Checked (List F) := do
  let groupDim := metadata.groupDim
  let groups <- fillRows metadata.nGroup fun group => do
    let off := t * metadata.ssmDInner + group * groupDim
    let row <- slice gated off (off + groupDim)
    let weight <- slice ssmNorm (group * groupDim) (group * groupDim + groupDim)
    rmsNormInto e row weight eps
  return groups ++ List.replicate (metadata.ssmDInner - metadata.nGroup * groupDim) 0

variable [LinearOrder F]

def forwardMamba2Layer (e : Elementary F) (metadata : Mamba2Metadata)
    (w : NemotronMamba2LayerWeights F metadata) (eps : F) (layerIdx : Nat) (hidden : List F)
    (seqLen : Nat) (states : SsmStates F) : Checked (List F × SsmStates F) := do
  let channels := metadata.convChannels
  let normed <- rmsNormInto e hidden w.norm eps
  let projected <- quantizedProject w.ssmIn normed
  let rows := projected.length / seqLen
  let expected := metadata.expectedRows
  ensure (projected.length = seqLen * expected)
    s!"Nemotron-H Mamba2 ssm_in rows {rows} != expected {expected}"
  let tokens <- (List.range seqLen).mapM (splitToken metadata projected w.ssmDtBias)
  let state <- (states layerIdx).elim
    (report s!"Nemotron-H Mamba2 state not initialized for layer {layerIdx}") .ok
  let conv <- buildConvInputAndAdvanceState state.convState
    ((tokens.map SplitToken.convSeed).flatten) seqLen channels metadata.convKernel
  let convOut <- ssmConv1d conv.1 w.ssmConv1d (metadata.convKernel - 1 + seqLen) channels
    metadata.convKernel
  let convActivated <- activateConv e convOut w.ssmConv1dBias seqLen channels
  let scan <- scanMamba2Cpu e metadata state.deltaState convActivated
    ((tokens.map SplitToken.dt).flatten) w.ssmA w.ssmD seqLen
  let gated := sigmoidMul e scan.1 ((tokens.map SplitToken.z).flatten)
  let ssmNormed <- fillRows seqLen (normGroups e metadata gated w.ssmNorm eps)
  let proj <- quantizedProject w.ssmOut ssmNormed
  require (proj.length = seqLen * metadata.hiddenDim) "data length must match shape"
  let output <- addTensors hidden proj
  return (output, Function.update states layerIdx (some {
    state with
    convState := conv.2
    deltaState := scan.2 }))

/-- Calls on consecutive tokens, each with the hidden rows of its own. -/
def forwardCalls (e : Elementary F) (metadata : Mamba2Metadata)
    (w : NemotronMamba2LayerWeights F metadata) (eps : F) (layerIdx : Nat) :
    List (List (List F)) -> SsmStates F -> Checked (List F × SsmStates F)
  | [], states => .ok ([], states)
  | rows :: calls, states => do
      let first <- forwardMamba2Layer e metadata w eps layerIdx rows.flatten rows.length states
      let rest <- forwardCalls e metadata w eps layerIdx calls first.2
      return (first.1 ++ rest.1, rest.2)

end Kernels

end Nemotron
end RunNBurn
