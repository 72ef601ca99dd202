import RunNBurn.Gdn.PrefixStates
import RunNBurn.KvCache.Layer

/-!
# The gated delta net layer

A window of tokens goes through the layer at once, or token by token through the decode
core.  No accelerator answers: every helper that may hand back `None` does.
-/

namespace RunNBurn
namespace Gdn

open Library
open KvCache (SsmLayerState SsmStates)

variable {F : Type} [Field F]

structure GdnMetadata (F : Type) where
  ssmDInner : Nat
  ssmDState : Nat
  ssmNGroup : Nat
  ssmDtRank : Nat
  ssmConvKernel : Nat
  normEps : F

namespace GdnMetadata

section

variable (metadata : GdnMetadata F)

def headVDim : Nat :=
  metadata.ssmDInner / metadata.ssmDtRank

def headKDim : Nat :=
  metadata.ssmDState

def numVHeads : Nat :=
  metadata.ssmDtRank

def numKHeads : Nat :=
  metadata.ssmNGroup

def convChannels : Nat :=
  metadata.ssmDInner + 2 * metadata.ssmNGroup * metadata.ssmDState

def qDim : Nat :=
  metadata.headKDim * metadata.numKHeads

def vDim : Nat :=
  metadata.headVDim * metadata.numVHeads

end

end GdnMetadata

/-- The weights, each as the map that it is on the row of one token; the projections have
as many rows as the metadata says. -/
structure GdnLayerWeights (F : Type) (metadata : GdnMetadata F) where
  attnNorm : List F -> List F
  qkvWeight : List F -> List F
  gateWeight : List F -> List F
  ssmAlpha : List F -> List F
  ssmBeta : List F -> List F
  ssmConv1d : List F
  ssmDtBias : List F
  ssmA : List F
  ssmNorm : List F -> List F
  ssmOut : List F -> List F
  sharedExpertMoe : Option (List (List F) -> List (List F))
  denseFfn : List (List F) -> List (List F)
  length_qkvWeight : forall row, (qkvWeight row).length = metadata.convChannels
  length_ssmAlpha : forall row, (ssmAlpha row).length = metadata.numVHeads
  length_ssmBeta : forall row, (ssmBeta row).length = metadata.numVHeads

/-- The two environment variables of the verify window of two tokens. -/
structure VerifyPolicy where
  verifyTokens2Decode : Bool
  verifyTokens2FullCore : Bool

def VerifyPolicy.decodeEquivalent (policy : VerifyPolicy) (seqLen : Nat) : Bool :=
  seqLen == 2 && policy.verifyTokens2Decode

structure LayerOutput (F : Type) where
  state : SsmLayerState F
  hidden : List (List F)
  collector : Option (GdnPrefixStateCollector F)

structure DeltaHeads (F : Type) where
  q : List F
  k : List F
  v : List F

section Layer

variable (e : Elementary F) {metadata : GdnMetadata F} (w : GdnLayerWeights F metadata)

def scaleQ (metadata : GdnMetadata F) (q : List F) : List F :=
  let scale := 1 / e.sqrt (metadata.headKDim : F)
  q.map fun x => x * scale

/-- The normed outputs of the heads, gated by `z`; what `z` has beyond them stays. -/
def gatedOutput (output zData : List F) (seqLen : Nat) : List F :=
  let outNormed := (List.range (seqLen * metadata.numVHeads)).flatMap fun head =>
    w.ssmNorm (part output (head * metadata.headVDim) metadata.headVDim)
  List.zipWith (fun z x => e.silu z * x) zData outNormed ++ zData.drop outNormed.length

def addRow (left right : List F) : List F :=
  List.zipWith (fun x y => x + y) left right

/-!
# The decode core
-/

def decodeGdnLayerQwenCore (state : SsmLayerState F) (hidden : List F) :
    Checked (SsmLayerState F × List F) := do
  let convKernel := metadata.ssmConvKernel
  let convChannels := metadata.convChannels
  let normBuf := w.attnNorm hidden
  let qkvBuf := w.qkvWeight normBuf
  let zBuf := w.gateWeight normBuf
  let alphaBuf := w.ssmAlpha normBuf
  let betaBuf := (w.ssmBeta normBuf).map e.sigmoid
  let gateBuf := (List.range metadata.numVHeads).map fun h =>
    let biased := entry alphaBuf h + entry w.ssmDtBias h
    e.ln (1 + e.exp biased) * entry w.ssmA h
  let convStateLen := (convKernel - 1) * convChannels
  require (state.convState.length = convStateLen)
    "copy_from_slice: source slice length does not match destination slice length"
  let convInput := state.convState ++ qkvBuf
  require (2 <= convKernel) "attempt to subtract with overflow"
  let shiftLen := (convKernel - 2) * convChannels
  -- `copy_within` moves the rows after the first to the front and leaves the rest.
  let shifted :=
    if 0 < shiftLen then state.convState.drop convChannels ++ state.convState.drop shiftLen
    else state.convState
  let convState := shifted.take shiftLen ++ qkvBuf
  let convOut := ssmConv1dSilu e convInput w.ssmConv1d 1 convChannels convKernel
  let gdnQ := part convOut 0 metadata.qDim
  let gdnK := part convOut metadata.qDim metadata.qDim
  let gdnV := part convOut (metadata.qDim + metadata.qDim) metadata.vDim
  let qNorm := scaleQ e metadata (l2NormInto e gdnQ metadata.normEps metadata.headKDim)
  let kNorm := l2NormInto e gdnK metadata.normEps metadata.headKDim
  let repeated <- repeatQkForValueHeads qNorm kNorm 1 metadata.numKHeads metadata.numVHeads
    metadata.headKDim
  let scanned <- deltaNetScan e repeated.1 repeated.2 gdnV gateBuf betaBuf state.deltaState 1
    metadata.numVHeads metadata.headKDim metadata.headVDim
  let gatedOut := gatedOutput e w scanned.1 zBuf 1
  return (
    { state with
      convState := convState
      deltaState := scanned.2 },
    addRow hidden (w.ssmOut gatedOut))

/-- One token of the window, by its index, with a record when its prefix is asked for. -/
def fullCoreToken (layerIdx : Nat) (snapshotPrefixTokens : List Nat) (result : LayerOutput F)
    (token : List F × Nat) : Checked (LayerOutput F) := do
  let decoded <- decodeGdnLayerQwenCore e w result.state token.1
  let prefixTokens := token.2 + 1
  return {
    state := decoded.1
    hidden := result.hidden ++ [decoded.2]
    collector :=
      if prefixTokens ∈ snapshotPrefixTokens then
        result.collector.map fun collector =>
          collector.recordLayerWithDeltaStateForPrefix prefixTokens layerIdx
            decoded.1.convState decoded.1.deltaState
      else
        result.collector }

def forwardFullCore (layerIdx : Nat) (state : SsmLayerState F) (hidden : List (List F))
    (collector : Option (GdnPrefixStateCollector F)) : Checked (LayerOutput F) := do
  let seqLen := hidden.length
  let snapshotPrefixTokens :=
    (collector.map fun collector => collector.snapshotPrefixTokens seqLen).getD []
  let core <- hidden.zipIdx.foldlM (fullCoreToken e w layerIdx snapshotPrefixTokens)
    { state := state
      hidden := []
      collector := collector }
  match w.sharedExpertMoe with
  | some moe => return { core with hidden := moe core.hidden }
  | none => report "Qwen3.5 decode-equivalent GDN layer is missing shared MoE weights"

/-!
# The window at once
-/

def windowHeads (metadata : GdnMetadata F) (convData : List F) (seqLen : Nat) : Checked
    (DeltaHeads F) := do
  let qkv := splitConvQkv convData seqLen metadata.convChannels metadata.qDim metadata.qDim
    metadata.vDim
  -- The rows of a decode-equivalent window are normed in the same way.
  let qNormed := l2NormInto e qkv.q metadata.normEps metadata.headKDim
  let kNormed := l2NormInto e qkv.k metadata.normEps metadata.headKDim
  let repeated <- repeatQkForValueHeads qNormed kNormed seqLen metadata.numKHeads
    metadata.numVHeads metadata.headKDim
  return {
    q := scaleQ e metadata repeated.1
    k := repeated.2
    v := qkv.v }

/-- The scan of the window, in segments when the states in between are to be kept. -/
def scanWindow (metadata : GdnMetadata F) (segmented : Bool) (heads : DeltaHeads F)
    (gateData betaVec deltaState : List F) (seqLen : Nat) (prefixSnapshotTokens : List Nat) :
    Checked (ScanSegments F) :=
  if segmented then
    deltaNetScanPrefillWithSnapshots e heads.q heads.k heads.v gateData betaVec deltaState seqLen
      metadata.numVHeads metadata.headKDim metadata.headVDim prefixSnapshotTokens
  else do
    let scanned <- deltaNetScan e heads.q heads.k heads.v gateData betaVec deltaState seqLen
      metadata.numVHeads metadata.headKDim metadata.headVDim
    return {
      output := scanned.1
      snapshots := []
      segmentStart := seqLen
      deltaState := scanned.2 }

/-- What the collector takes of a layer, given the state at each requested prefix where
the scan kept it. -/
def captureLayer (metadata : GdnMetadata F) (layerIdx : Nat) (heads : DeltaHeads F)
    (gateData betaVec : List F) (prefixConvStates directDeltaSnapshots : List (Nat × List F))
    (collector : GdnPrefixStateCollector F) : GdnPrefixStateCollector F :=
  let collector :=
    if prefixConvStates.isEmpty then collector.markIncomplete layerIdx else collector
  prefixConvStates.foldl
    (fun collector captured =>
      match directDeltaSnapshots.lookup captured.1 with
      | some deltaState =>
        collector.recordLayerWithDeltaStateForPrefix captured.1 layerIdx captured.2 deltaState
      | none =>
        match prefixDeltaRestoreKind captured.1 false with
        | .residentSnapshot => collector.markIncompleteForPrefix captured.1 layerIdx
        | .oneStepDeltaInput =>
          let qkLen := metadata.numVHeads * metadata.headKDim
          let vLen := metadata.numVHeads * metadata.headVDim
          let gateLen := metadata.numVHeads
          collector.recordLayerForPrefix captured.1 layerIdx captured.2 {
            q := part heads.q 0 qkLen
            k := part heads.k 0 qkLen
            v := part heads.v 0 vLen
            gate := part gateData 0 gateLen
            beta := part betaVec 0 gateLen
            numHeads := metadata.numVHeads
            headKDim := metadata.headKDim
            headVDim := metadata.headVDim }
        | .unsupported => collector.markIncompleteForPrefix captured.1 layerIdx)
    collector

def forwardWindow (policy : VerifyPolicy) (layerIdx : Nat) (state : SsmLayerState F)
    (hidden : List (List F)) (collector : Option (GdnPrefixStateCollector F)) :
    Checked (LayerOutput F) := do
  let seqLen := hidden.length
  let convKernel := metadata.ssmConvKernel
  let convChannels := metadata.convChannels
  let wantsPrefixState :=
    (collector.map fun collector => collector.wantsSnapshotFor seqLen).getD false
  let prefixSnapshotTokens :=
    (collector.map fun collector => collector.snapshotPrefixTokens seqLen).getD []
  let normed := hidden.map w.attnNorm
  let zData := normed.flatMap w.gateWeight
  let betaVec := (normed.flatMap w.ssmBeta).map e.sigmoid
  let gateData := applyDtGateInplace e (normed.flatMap w.ssmAlpha) w.ssmDtBias w.ssmA seqLen
    metadata.numVHeads
  let built <- buildConvInputAndAdvanceState state.convState (normed.flatMap w.qkvWeight) seqLen
    convChannels convKernel
  let prefixConvStates := prefixSnapshotTokens.map fun prefixTokens =>
    (prefixTokens, convStateAfterPrefixTokens built.1 prefixTokens convChannels convKernel)
  let convData := ssmConv1dSilu e built.1 w.ssmConv1d seqLen convChannels convKernel
  let heads <- windowHeads e metadata convData seqLen
  let scanned <- scanWindow e metadata
    (wantsPrefixState && !prefixConvStates.isEmpty && policy.decodeEquivalent seqLen) heads
    gateData betaVec state.deltaState seqLen prefixSnapshotTokens
  let collector := collector.map fun collector =>
    if collector.wantsSnapshotFor seqLen then
      captureLayer metadata layerIdx heads gateData betaVec prefixConvStates scanned.snapshots
        collector
    else
      collector
  let gatedData := gatedOutput e w scanned.output zData seqLen
  let projected := (List.range seqLen).map fun t =>
    w.ssmOut (part gatedData (t * metadata.ssmDInner) metadata.ssmDInner)
  require (seqLen ≠ 0) "attempt to divide by zero"
  let added := List.zipWith addRow hidden projected
  return {
    state :=
      { state with
        convState := built.2
        deltaState := scanned.deltaState }
    hidden :=
      match w.sharedExpertMoe with
      | some moe => moe added
      | none => w.denseFfn added
    collector := collector }

/-- The body of `forward_gdn_layer_impl`, given the state of the layer. -/
def forwardGdnLayerState (policy : VerifyPolicy) (layerIdx : Nat) (state : SsmLayerState F)
    (hidden : List (List F)) (collector : Option (GdnPrefixStateCollector F)) :
    Checked (LayerOutput F) :=
  if policy.decodeEquivalent hidden.length = true ∧ policy.verifyTokens2FullCore = true then
    forwardFullCore e w layerIdx state hidden collector
  else
    forwardWindow e w policy layerIdx state hidden collector

end Layer

/-!
# Layers of a model
-/

structure GdnCall (F : Type) (metadata : GdnMetadata F) where
  layerIdx : Nat
  weights : GdnLayerWeights F metadata
  hidden : List (List F)

variable (e : Elementary F) (policy : VerifyPolicy) {metadata : GdnMetadata F}

/-- The hidden rows that come out, with the states and the collector. -/
structure ForwardOutput (F : Type) where
  states : SsmStates F
  hidden : List (List F)
  collector : Option (GdnPrefixStateCollector F)

def forwardGdnLayerImpl (states : SsmStates F) (call : GdnCall F metadata)
    (collector : Option (GdnPrefixStateCollector F)) : Checked (ForwardOutput F) :=
  match states call.layerIdx with
  | none => report s!"SSM state not initialized for layer {call.layerIdx}"
  | some state => do
      let result <- forwardGdnLayerState e call.weights policy call.layerIdx state call.hidden
        collector
      return {
        states := fun layerIdx =>
          if layerIdx = call.layerIdx then some result.state else states layerIdx
        hidden := result.hidden
        collector := result.collector }

/-- The layers of a window in their order, with one collector for all of them. -/
def forwardGdnLayers (states : SsmStates F) (collector : Option (GdnPrefixStateCollector F)) :
    List (GdnCall F metadata) ->
      Checked (SsmStates F × Option (GdnPrefixStateCollector F))
  | [] => .ok (states, collector)
  | call :: calls => do
      let output <- forwardGdnLayerImpl e policy states call collector
      forwardGdnLayers output.states output.collector calls

def feedTokens (states : SsmStates F) (layerIdx : Nat) (w : GdnLayerWeights F metadata)
    (rows : List (List F)) : Checked (SsmStates F) :=
  rows.foldlM
    (fun states row => do
      let output <- forwardGdnLayerImpl e policy states
        { layerIdx := layerIdx
          weights := w
          hidden := [row] }
        none
      return output.states)
    states

end Gdn
end RunNBurn
