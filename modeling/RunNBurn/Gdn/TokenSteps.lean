import RunNBurn.Gdn.Forward
import RunNBurn.Gdn.KernelRows

/-!
# A window is its tokens

The layer seen as a recurrence: a token moves the convolution state on by one row and the
delta state by one step.  A window at once, and the decode core, run through its states.
-/

namespace RunNBurn
namespace Gdn

open Library
open KvCache (SsmLayerState SsmStates)

variable {F : Type}

namespace GdnMetadata

theorem dims_le (metadata : GdnMetadata F) :
    metadata.qDim + metadata.qDim + metadata.vDim <= metadata.convChannels := by
  have hv : metadata.vDim <= metadata.ssmDInner := Nat.div_mul_le_self _ _
  have hq : metadata.qDim + metadata.qDim = 2 * metadata.ssmNGroup * metadata.ssmDState := by
    unfold qDim headKDim numKHeads
    rw [← Nat.two_mul, Nat.mul_comm metadata.ssmDState, Nat.mul_assoc]
  unfold convChannels
  omega

end GdnMetadata

structure Ready (metadata : GdnMetadata F) (state : SsmLayerState F) : Prop where
  kernel : 0 < metadata.ssmConvKernel
  conv : state.convState.length = (metadata.ssmConvKernel - 1) * metadata.convChannels
  heads : HeadsSpread metadata.numKHeads metadata.numVHeads

variable [Field F]

section Heads

variable (e : Elementary F) (metadata : GdnMetadata F)

def windowQueries (convData : List F) (seqLen : Nat) : List F :=
  scaleQ e metadata
    (spreadHeads (l2NormInto e
        (splitConvQkv convData seqLen metadata.convChannels metadata.qDim metadata.qDim
          metadata.vDim).q metadata.normEps metadata.headKDim)
      seqLen metadata.numKHeads metadata.numVHeads metadata.headKDim)

def windowKeys (convData : List F) (seqLen : Nat) : List F :=
  spreadHeads
    (l2NormInto e (splitConvQkv convData seqLen metadata.convChannels metadata.qDim metadata.qDim
        metadata.vDim).k metadata.normEps metadata.headKDim)
    seqLen metadata.numKHeads metadata.numVHeads metadata.headKDim

def windowValues (convData : List F) (seqLen : Nat) : List F :=
  (splitConvQkv convData seqLen metadata.convChannels metadata.qDim metadata.qDim metadata.vDim).v

theorem windowHeads_eq_ok_iff {convData : List F} {seqLen : Nat} {heads : DeltaHeads F} :
    windowHeads e metadata convData seqLen = .ok heads ↔
      HeadsSpread metadata.numKHeads metadata.numVHeads ∧
        heads =
          { q := windowQueries e metadata convData seqLen
            k := windowKeys e metadata convData seqLen
            v := windowValues metadata convData seqLen } := by
  unfold windowHeads
  constructor
  · intro h
    rcases bind_eq_ok h with ⟨repeated, hrepeated, h⟩
    rcases repeatQk_eq_ok_iff.mp hrepeated with ⟨hspread, hpair⟩
    cases hpair
    cases h
    exact ⟨hspread, rfl⟩
  · intro h
    rcases h with ⟨hspread, rfl⟩
    dsimp only
    rw [repeatQk_eq_ok_iff.mpr ⟨hspread, rfl⟩]
    rfl

theorem perToken_windowKeys (h : HeadsSpread metadata.numKHeads metadata.numVHeads) :
    PerToken (fun n data => windowKeys e metadata data n) metadata.convChannels
      (metadata.numVHeads * metadata.headKDim) := by
  have hdims := metadata.dims_le
  have hsplit := perToken_part (F := F) metadata.convChannels metadata.qDim metadata.qDim
    (by omega)
  have hnorm := (perToken_l2NormInto e metadata.normEps metadata.headKDim).regroup
    metadata.numKHeads
  have hwidth : metadata.qDim = metadata.numKHeads * metadata.headKDim := Nat.mul_comm _ _
  rw [← hwidth] at hnorm
  have hspread := perToken_spreadHeads (F := F) h metadata.headKDim
  rw [← hwidth] at hspread
  exact hspread.comp (hnorm.comp hsplit)

omit [Field F] in
theorem perToken_windowValues :
    PerToken (fun n (data : List F) => windowValues metadata data n) metadata.convChannels
      (metadata.numVHeads * metadata.headVDim) := by
  have hsplit := perToken_part (F := F) metadata.convChannels (metadata.qDim + metadata.qDim)
    metadata.vDim metadata.dims_le
  simp only [← Nat.add_assoc] at hsplit
  rw [Nat.mul_comm metadata.numVHeads]
  exact hsplit

end Heads

section Tokens

variable (e : Elementary F) {metadata : GdnMetadata F} (w : GdnLayerWeights F metadata)

/-!
# The buffers of a window
-/

def windowQkv (hidden : List (List F)) : List F :=
  (hidden.map w.attnNorm).flatMap w.qkvWeight

def windowConv (convState : List F) (hidden : List (List F)) : List F :=
  ssmConv1dSilu e (convState ++ windowQkv w hidden) w.ssmConv1d hidden.length
    metadata.convChannels metadata.ssmConvKernel

def windowGate (hidden : List (List F)) : List F :=
  applyDtGateInplace e ((hidden.map w.attnNorm).flatMap w.ssmAlpha) w.ssmDtBias w.ssmA
    hidden.length metadata.numVHeads

def windowBeta (hidden : List (List F)) : List F :=
  ((hidden.map w.attnNorm).flatMap w.ssmBeta).map e.sigmoid

/-- So many tokens of the window, from the delta state in front of it. -/
def windowSteps (state : SsmLayerState F) (hidden : List (List F)) (count : Nat) :
    Checked (List F) :=
  let convData := windowConv e w state.convState hidden
  scanSteps e (windowKeys e metadata convData hidden.length)
    (windowValues metadata convData hidden.length) (windowGate e w hidden) (windowBeta e w hidden)
    metadata.numVHeads metadata.headKDim metadata.headVDim 0 count state.deltaState

/-!
# The recurrence
-/

def tokenStep (state : SsmLayerState F) (row : List F) : Checked (SsmLayerState F) := do
  let convData := windowConv e w state.convState [row]
  let deltaState <- deltaNetStepStateOnly e (windowKeys e metadata convData 1)
    (windowValues metadata convData 1) (windowGate e w [row]) (windowBeta e w [row])
    state.deltaState metadata.numVHeads metadata.headKDim metadata.headVDim
  return {
    state with
    convState := (state.convState ++ windowQkv w [row]).drop metadata.convChannels
    deltaState := deltaState }

def tokenRun (state : SsmLayerState F) (rows : List (List F)) : Checked (SsmLayerState F) :=
  rows.foldlM (tokenStep e w) state

/-!
# Rows of the buffers
-/

variable {e} {w}

omit [Field F] in
theorem length_windowQkv (hidden : List (List F)) :
    (windowQkv w hidden).length = hidden.length * metadata.convChannels := by
  unfold windowQkv
  rw [length_flatMap_of_uniformRows (fun row _ => w.length_qkvWeight row), List.length_map]

theorem length_windowConv (convState : List F) (hidden : List (List F)) :
    (windowConv e w convState hidden).length = hidden.length * metadata.convChannels :=
  length_ssmConv1dSilu ..

variable {hidden : List (List F)} {row : List F} {t : Nat}

omit [Field F] in
theorem rowAt_windowQkv (h : hidden[t]? = some row) :
    rowAt metadata.convChannels (windowQkv w hidden) t = windowQkv w [row] := by
  have hget : (hidden.map w.attnNorm)[t]? = some (w.attnNorm row) := by
    rw [List.getElem?_map, h]
    rfl
  unfold windowQkv
  rw [rowAt_flatMap (fun row _ => w.length_qkvWeight row) hget]
  simp

variable {state : SsmLayerState F}

theorem rowAt_windowConv (hready : Ready metadata state) (h : hidden[t]? = some row) :
    rowAt metadata.convChannels (windowConv e w state.convState hidden) t =
      windowConv e w
        (historyAt metadata.convChannels state.convState (windowQkv w hidden) t) [row] := by
  have ht : t < hidden.length := (List.getElem?_eq_some_iff.mp h).1
  unfold windowConv
  rw [rowAt_ssmConv1dSilu e _ _ ht, part_convInput hready.kernel hready.conv, rowAt_windowQkv h]
  rfl

theorem rowAt_windowGate (h : hidden[t]? = some row) :
    rowAt metadata.numVHeads (windowGate e w hidden) t = windowGate e w [row] := by
  have ht : t < hidden.length := (List.getElem?_eq_some_iff.mp h).1
  have hget : (hidden.map w.attnNorm)[t]? = some (w.attnNorm row) := by
    rw [List.getElem?_map, h]
    rfl
  have hlength : ((hidden.map w.attnNorm).flatMap w.ssmAlpha).length =
      hidden.length * metadata.numVHeads := by
    rw [length_flatMap_of_uniformRows (fun row _ => w.length_ssmAlpha row), List.length_map]
  unfold windowGate
  rw [(perToken_applyDtGate e w.ssmDtBias w.ssmA metadata.numVHeads).row_eq hlength ht,
    rowAt_flatMap (fun row _ => w.length_ssmAlpha row) hget]
  simp

theorem rowAt_windowBeta (h : hidden[t]? = some row) :
    rowAt metadata.numVHeads (windowBeta e w hidden) t = windowBeta e w [row] := by
  have hget : (hidden.map w.attnNorm)[t]? = some (w.attnNorm row) := by
    rw [List.getElem?_map, h]
    rfl
  unfold windowBeta
  rw [rowAt, ← List.map_drop, ← List.map_take, ← rowAt,
    rowAt_flatMap (fun row _ => w.length_ssmBeta row) hget]
  simp

theorem windowSteps_succ (hready : Ready metadata state) (h : hidden[t]? = some row) :
    windowSteps e w state hidden (t + 1) =
      windowSteps e w state hidden t >>= fun deltaState => do
        let following <- tokenStep e w
          { state with
            convState := historyAt metadata.convChannels state.convState (windowQkv w hidden) t
            deltaState := deltaState }
          row
        return following.deltaState := by
  have ht : t < hidden.length := (List.getElem?_eq_some_iff.mp h).1
  have hconv := length_windowConv (e := e) (w := w) state.convState hidden
  unfold windowSteps
  dsimp only
  rw [scanSteps_succ]
  congr 1
  funext deltaState
  unfold scanStep tokenStep
  dsimp only
  rw [Nat.zero_add, (perToken_windowKeys e metadata hready.heads).row_eq hconv ht,
    (perToken_windowValues metadata).row_eq hconv ht, rowAt_windowConv hready h,
    rowAt_windowGate h, rowAt_windowBeta h, bind_assoc]
  exact (bind_pure _).symm

theorem following_of_tokenStep {state following : SsmLayerState F}
    (h : tokenStep e w state row = .ok following) :
    following = { state with
      convState := (state.convState ++ windowQkv w [row]).drop metadata.convChannels
      deltaState := following.deltaState } := by
  unfold tokenStep at h
  rcases bind_eq_ok h with ⟨deltaState, _, h⟩
  cases h
  rfl

theorem windowSteps_of_le {count more : Nat} {final : List F}
    (h : windowSteps e w state hidden more = .ok final) (hle : count <= more) :
    exists deltaState, windowSteps e w state hidden count = .ok deltaState := by
  have hsplit : count + (more - count) = more := by
    omega
  unfold windowSteps at h ⊢
  rw [← hsplit, scanSteps_add] at h
  rcases bind_eq_ok h with ⟨deltaState, hcount, _⟩
  exact ⟨deltaState, hcount⟩

theorem tokenRun_take {count : Nat} {deltaState : List F} (hready : Ready metadata state)
    (hcount : count <= hidden.length) (h : windowSteps e w state hidden count = .ok deltaState) :
    tokenRun e w state (hidden.take count) =
      .ok
        { state with
          convState := historyAt metadata.convChannels state.convState (windowQkv w hidden) count
          deltaState := deltaState } := by
  induction count generalizing deltaState with
  | zero =>
    cases h
    rw [historyAt_zero]
    rfl
  | succ count ih =>
    have hget : hidden[count]? = some hidden[count] := List.getElem?_eq_getElem hcount
    rw [windowSteps_succ hready hget] at h
    rcases bind_eq_ok h with ⟨before, hbefore, h⟩
    rcases bind_eq_ok h with ⟨following, hfollowing, h⟩
    cases h
    have hsame := following_of_tokenStep hfollowing
    rw [← rowAt_windowQkv hget, ← historyAt_succ] at hsame
    have hprevious := ih (Nat.le_of_succ_le hcount) hbefore
    unfold tokenRun at hprevious ⊢
    rw [List.take_add_one, hget, List.foldlM_append, hprevious, ok_bind, Option.toList_some,
      List.foldlM_cons, hfollowing]
    exact congrArg Except.ok hsame

end Tokens

end Gdn
end RunNBurn
