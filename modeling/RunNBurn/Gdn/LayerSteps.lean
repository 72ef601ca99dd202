import RunNBurn.Gdn.TokenSteps

/-!
# The layer is a recurrence

The window at once, the decode core and a call for a single token all leave the state that
the recurrence leaves.
-/

namespace RunNBurn
namespace Gdn

open Library
open KvCache (SsmLayerState SsmStates)

variable {F : Type} [Field F]
  {e : Elementary F} {metadata : GdnMetadata F} {w : GdnLayerWeights F metadata}
  {policy : VerifyPolicy} {layerIdx : Nat} {state : SsmLayerState F}

def stateAt (w : GdnLayerWeights F metadata) (state : SsmLayerState F) (hidden : List (List F))
    (count : Nat) (deltaState : List F) : SsmLayerState F :=
  { state with
    convState := historyAt metadata.convChannels state.convState (windowQkv w hidden) count
    deltaState := deltaState }

theorem scanWindow_returns (segmented : Bool) (heads : DeltaHeads F)
    (gateData betaVec deltaState : List F) (seqLen : Nat) (prefixSnapshotTokens : List Nat) :
    Returns
      (scanWindow e metadata segmented heads gateData betaVec deltaState seqLen
        prefixSnapshotTokens)
      (fun scanned =>
        SegmentsSound e heads.k heads.v gateData betaVec metadata.numVHeads metadata.headKDim
            metadata.headVDim seqLen deltaState scanned ∧
          scanned.segmentStart = seqLen) := by
  unfold scanWindow
  split
  · exact deltaNetScanPrefillWithSnapshots_returns e heads.k heads.v gateData betaVec
      metadata.numVHeads metadata.headKDim metadata.headVDim heads.q deltaState seqLen
      prefixSnapshotTokens
  · intro scanned hscanned
    rcases bind_eq_ok hscanned with ⟨result, hresult, hscanned⟩
    cases hscanned
    refine ⟨⟨Nat.le_refl _, ?_, ?_⟩, rfl⟩
    · exact (deltaNetScan_eq_ok_iff e heads.k heads.v gateData betaVec metadata.numVHeads
        metadata.headKDim metadata.headVDim).mp ⟨result.1, hresult⟩
    · intro requested kept hkept
      cases hkept

/-- What a window that returns has done: the states on its way are those of the recurrence,
and the collector took what they leave. -/
structure WindowDone (e : Elementary F) (w : GdnLayerWeights F metadata) (layerIdx : Nat)
    (state : SsmLayerState F) (hidden : List (List F))
    (collector : Option (GdnPrefixStateCollector F)) (output : LayerOutput F)
    (scanned : ScanSegments F) : Prop where
  ready : Ready metadata state
  all : windowSteps e w state hidden hidden.length = .ok scanned.deltaState
  kept : forall requested deltaState, scanned.snapshots.lookup requested = some deltaState ->
    windowSteps e w state hidden requested = .ok deltaState
  state_eq : output.state = stateAt w state hidden hidden.length scanned.deltaState
  collector_eq : output.collector = collector.map fun collector =>
    if collector.wantsSnapshotFor hidden.length then
      let convData := windowConv e w state.convState hidden
      captureLayer metadata layerIdx
        { q := windowQueries e metadata convData hidden.length
          k := windowKeys e metadata convData hidden.length
          v := windowValues metadata convData hidden.length }
        (windowGate e w hidden) (windowBeta e w hidden)
        ((collector.snapshotPrefixTokens hidden.length).map fun prefixTokens =>
          (prefixTokens,
            historyAt metadata.convChannels state.convState (windowQkv w hidden) prefixTokens))
        scanned.snapshots collector
    else
      collector

theorem forwardWindow_returns (hidden : List (List F))
    (collector : Option (GdnPrefixStateCollector F)) :
    Returns (forwardWindow e w policy layerIdx state hidden collector)
      (fun output => exists scanned,
        WindowDone e w layerIdx state hidden collector output scanned) := by
  intro output houtput
  unfold forwardWindow at houtput
  dsimp only at houtput
  rcases bind_eq_ok houtput with ⟨built, hbuilt, houtput⟩
  rcases bind_eq_ok houtput with ⟨heads, hheads, houtput⟩
  rcases bind_eq_ok houtput with ⟨scanned, hscanned, houtput⟩
  rcases bind_eq_ok houtput with ⟨_, _, houtput⟩
  rcases (buildConvInput_eq_ok_iff (length_windowQkv hidden)).mp hbuilt with
    ⟨hkernel, hconv, rfl⟩
  rcases (windowHeads_eq_ok_iff e metadata).mp hheads with ⟨hspread, rfl⟩
  have hscan := scanWindow_returns _ _ _ _ _ _ _ scanned hscanned
  rcases hscan with ⟨hsound, hend⟩
  have hall := hsound.state
  rw [hend] at hall
  cases houtput
  exists scanned
  constructor
  · exact ⟨hkernel, hconv, hspread⟩
  · exact hall
  · exact hsound.kept
  · rfl
  · cases collector with
    | none => rfl
    | some collector =>
      simp only [Option.map_some, Option.getD_some, convStateAfterPrefixTokens_eq hconv]
      rfl

/-!
# A call for one token
-/

variable (row : List F)

omit [Field F] in
theorem windowQkv_singleton :
    windowQkv w [row] = w.qkvWeight (w.attnNorm row) := by
  unfold windowQkv
  rw [List.map_singleton, List.flatMap_singleton]

theorem windowBeta_singleton :
    windowBeta e w [row] = (w.ssmBeta (w.attnNorm row)).map e.sigmoid := by
  unfold windowBeta
  rw [List.map_singleton, List.flatMap_singleton]

theorem windowGate_singleton :
    windowGate e w [row] = (List.range metadata.numVHeads).map fun h =>
      e.ln (1 + e.exp (entry (w.ssmAlpha (w.attnNorm row)) h + entry w.ssmDtBias h)) *
        entry w.ssmA h := by
  unfold windowGate applyDtGateInplace
  rw [List.map_singleton, List.flatMap_singleton, List.length_singleton, List.range_one,
    List.flatMap_singleton]
  simp only [Nat.zero_mul, Nat.zero_add]

variable {following : SsmLayerState F}

theorem Ready.tokenStep {row : List F} (hready : Ready metadata state)
    (h : tokenStep e w state row = .ok following) :
    Ready metadata following := by
  have hqkv := length_windowQkv (w := w) [row]
  rw [List.length_singleton, Nat.one_mul] at hqkv
  refine ⟨hready.kernel, ?_, hready.heads⟩
  rw [following_of_tokenStep h]
  dsimp only
  rw [List.length_drop, List.length_append, hqkv, Nat.add_sub_cancel]
  exact hready.conv

theorem windowSteps_singleton {row : List F} (hready : Ready metadata state)
    (h : tokenStep e w state row = .ok following) :
    windowSteps e w state [row] 1 = .ok following.deltaState := by
  have hget : [row][0]? = some row := rfl
  rw [windowSteps_succ hready hget, historyAt_zero]
  exact congrArg (fun step => step >>= fun following => pure following.deltaState) h

omit [Field F] in
/-- The first row is dropped and the row of the token put at the end. -/
theorem historyAt_one :
    historyAt metadata.convChannels state.convState (windowQkv w [row]) 1 =
      (state.convState ++ windowQkv w [row]).drop metadata.convChannels := by
  have hqkv := length_windowQkv (w := w) [row]
  rw [List.length_singleton, Nat.one_mul] at hqkv
  rw [historyAt_succ, historyAt_zero, rowAt_zero_of_length hqkv]

theorem forwardWindow_of_steps {hidden : List (List F)} {deltaState : List F}
    (hready : Ready metadata state) (hne : hidden ≠ [])
    (h : windowSteps e w state hidden hidden.length = .ok deltaState) :
    exists output, forwardWindow e w policy layerIdx state hidden none = .ok output ∧
      output.state = stateAt w state hidden hidden.length deltaState := by
  have hlength : hidden.length ≠ 0 := fun hzero => hne (List.length_eq_zero_iff.mp hzero)
  have hbuilt := (buildConvInput_eq_ok_iff (length_windowQkv (w := w) hidden)).mpr
    ⟨hready.kernel, hready.conv, rfl⟩
  have hheads : windowHeads e metadata (windowConv e w state.convState hidden) hidden.length =
      .ok _ :=
    (windowHeads_eq_ok_iff e metadata).mpr ⟨hready.heads, rfl⟩
  rcases (deltaNetScan_eq_ok_iff e
      (windowKeys e metadata (windowConv e w state.convState hidden) hidden.length)
      (windowValues metadata (windowConv e w state.convState hidden) hidden.length)
      (windowGate e w hidden) (windowBeta e w hidden) metadata.numVHeads metadata.headKDim
      metadata.headVDim
      (q := windowQueries e metadata (windowConv e w state.convState hidden) hidden.length)).mpr h
    with ⟨output, hscan⟩
  have hok : exists output, forwardWindow e w policy layerIdx state hidden none = .ok output := by
    unfold forwardWindow
    show exists output, (buildConvInputAndAdvanceState state.convState (windowQkv w hidden)
      hidden.length metadata.convChannels metadata.ssmConvKernel >>= _) = .ok output
    rw [hbuilt, ok_bind]
    show exists output,
      (windowHeads e metadata (windowConv e w state.convState hidden) hidden.length >>= _) =
        .ok output
    rw [hheads, ok_bind]
    show exists output, ((deltaNetScan e _ _ _ (windowGate e w hidden) (windowBeta e w hidden)
      state.deltaState hidden.length metadata.numVHeads metadata.headKDim metadata.headVDim >>= _)
        >>= _) = .ok output
    rw [hscan, ok_bind]
    show exists output, (require (hidden.length ≠ 0) _ >>= _) = .ok output
    rw [require_of_true _ hlength, ok_bind]
    exact ⟨_, rfl⟩
  rcases hok with ⟨output, houtput⟩
  rcases forwardWindow_returns hidden none output houtput with ⟨scanned, hdone⟩
  have hsame : scanned.deltaState = deltaState := Except.ok.inj (hdone.all.symm.trans h)
  exact ⟨output, houtput, by rw [hdone.state_eq, hsame]⟩

theorem forwardWindow_singleton {row : List F} (hready : Ready metadata state)
    (h : tokenStep e w state row = .ok following) :
    exists output, forwardWindow e w policy layerIdx state [row] none = .ok output ∧
      output.state = following := by
  have hsame := following_of_tokenStep h
  rw [← historyAt_one] at hsame
  have hcall : exists output, forwardWindow e w policy layerIdx state [row] none = .ok output ∧
      output.state = stateAt w state [row] 1 following.deltaState :=
    forwardWindow_of_steps hready (List.cons_ne_nil row []) (windowSteps_singleton hready h)
  rcases hcall with ⟨output, houtput, hstate⟩
  refine ⟨output, houtput, ?_⟩
  exact hstate.trans hsame.symm

/-!
# The decode core
-/

omit [Field F] in
/-- The rows are moved up by one, and the row of the token is put behind them. -/
theorem shifted_convState {convState qkv : List F} {convKernel convChannels : Nat}
    (hkernel : 2 <= convKernel) (hconv : convState.length = (convKernel - 1) * convChannels) :
    (if 0 < (convKernel - 2) * convChannels then
        convState.drop convChannels ++ convState.drop ((convKernel - 2) * convChannels)
      else convState).take ((convKernel - 2) * convChannels) ++ qkv =
      (convState ++ qkv).drop convChannels := by
  have hrows : convKernel - 1 = (convKernel - 2) + 1 := by
    omega
  rw [hrows, Nat.succ_mul] at hconv
  have hlength : (convState.drop convChannels).length = (convKernel - 2) * convChannels := by
    rw [List.length_drop, hconv, Nat.add_sub_cancel]
  have hle : convChannels <= convState.length := by
    rw [hconv]
    exact Nat.le_add_left _ _
  rw [List.drop_append_of_le_length hle]
  congr 1
  split
  · rw [← hlength, List.take_left]
  · rename_i hzero
    have hnil : (convKernel - 2) * convChannels = 0 := Nat.eq_zero_of_not_pos hzero
    rw [hnil, List.take_zero]
    rw [hnil] at hlength
    exact (List.length_eq_zero_iff.mp hlength).symm

omit [Field F] in
theorem splitConvQkv_one (convData : List F) (convChannels qDim kDim vDim : Nat) :
    splitConvQkv convData 1 convChannels qDim kDim vDim =
      { q := part convData 0 qDim
        k := part convData qDim kDim
        v := part convData (qDim + kDim) vDim } := by
  unfold splitConvQkv
  simp only [List.range_one, List.flatMap_singleton, Nat.zero_mul, Nat.zero_add]

theorem tokenStep_of_windowSteps {row deltaState : List F} (hready : Ready metadata state)
    (h : windowSteps e w state [row] 1 = .ok deltaState) :
    tokenStep e w state row =
      .ok
        { state with
          convState := (state.convState ++ windowQkv w [row]).drop metadata.convChannels
          deltaState := deltaState } := by
  have hget : [row][0]? = some row := rfl
  rw [windowSteps_succ hready hget, historyAt_zero] at h
  rcases bind_eq_ok h with ⟨before, hbefore, hafter⟩
  have hsame : state.deltaState = before := Except.ok.inj hbefore
  rw [← hsame] at hafter
  rcases bind_eq_ok hafter with ⟨following, hfollowing, hdelta⟩
  have hstep : tokenStep e w state row = .ok following := hfollowing
  have hdelta : following.deltaState = deltaState := Except.ok.inj hdelta
  rw [hstep, ← hdelta]
  exact congrArg Except.ok (following_of_tokenStep hstep)

theorem decodeGdnLayerQwenCore_returns :
    Returns (decodeGdnLayerQwenCore e w state row)
      (fun decoded => Ready metadata state ∧ tokenStep e w state row = .ok decoded.1) := by
  intro decoded hdecoded
  unfold decodeGdnLayerQwenCore at hdecoded
  dsimp only at hdecoded
  rcases bind_eq_ok hdecoded with ⟨_, hconv, hdecoded⟩
  rcases bind_eq_ok hdecoded with ⟨_, hkernel, hdecoded⟩
  rcases bind_eq_ok hdecoded with ⟨repeated, hrepeated, hdecoded⟩
  rcases bind_eq_ok hdecoded with ⟨scanned, hscanned, hdecoded⟩
  cases hdecoded
  have hconv := require_eq_ok hconv
  have hkernel := require_eq_ok hkernel
  rcases repeatQk_eq_ok_iff.mp hrepeated with ⟨hspread, rfl⟩
  have hready : Ready metadata state := ⟨by omega, hconv, hspread⟩
  refine ⟨hready, ?_⟩
  have hsteps := (deltaNetScan_eq_ok_iff ..).mp ⟨scanned.1, hscanned⟩
  have hwindow : windowSteps e w state [row] 1 = .ok scanned.2 := by
    unfold windowSteps windowKeys windowValues windowConv
    dsimp only
    rw [List.length_singleton, splitConvQkv_one, windowQkv_singleton, windowGate_singleton,
      windowBeta_singleton]
    exact hsteps
  rw [shifted_convState hkernel hconv, tokenStep_of_windowSteps hready hwindow, windowQkv_singleton]

end Gdn
end RunNBurn
