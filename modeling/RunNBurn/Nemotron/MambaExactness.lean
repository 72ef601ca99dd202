import Mathlib.Algebra.Field.Rat
import Mathlib.Algebra.Order.Ring.Rat
import RunNBurn.Nemotron.MambaScan

/-!
# Calls of the Mamba2 layer

A call is a run over the rows of its tokens from the state of the layer.  Runs follow one another,
so it does not matter how the tokens are cut into calls.
-/

namespace RunNBurn
namespace Nemotron

open Library
open Gdn (Elementary entry)
open KvCache (SsmLayerState SsmStates)

variable {F : Type} [Field F] {e : Elementary F} {eps : F} {metadata : Mamba2Metadata}

/-!
## The rows of a token
-/

def splitRow (metadata : Mamba2Metadata) (dtBias row : List F) : SplitToken F where
  z := row.take metadata.ssmDInner
  convSeed := (row.drop metadata.ssmDInner).take metadata.convChannels
  dt := (List.range metadata.numHeads).map fun h =>
    entry row (metadata.ssmDInner + metadata.convChannels + h) + lastEntry dtBias h

theorem splitToken_rows {dtBias : List F} {rows : List (List F)} (hbias : 0 < dtBias.length)
    (hrows : UniformRows id metadata.expectedRows rows) :
    (List.range rows.length).mapM (splitToken metadata rows.flatten dtBias) =
      .ok (rows.map (splitRow metadata dtBias)) := by
  apply mapM_items_eq_ok
  intro t row hrow
  have hwidth : row.length = metadata.ssmDInner + metadata.convChannels + metadata.numHeads :=
    hrows row (List.mem_of_getElem? hrow)
  have hseed : slice row metadata.ssmDInner (metadata.ssmDInner + metadata.convChannels) =
      .ok ((row.drop metadata.ssmDInner).take metadata.convChannels) := by
    rw [slice_of_le (Nat.le_add_right _ _) (by omega), Nat.add_sub_cancel_left]
  have hdt : (List.range metadata.numHeads).mapM (fun h => do
      let value <- index row (metadata.ssmDInner + metadata.convChannels + h)
      let bias <- clampedAt dtBias h
      return value + bias) = .ok (splitRow metadata dtBias row).dt := by
    apply mapM_range_eq_ok
    intro h hh
    rw [index_eq (by omega), ok_bind, clampedAt_eq hbias, ok_bind]
    rfl
  unfold splitToken
  dsimp only
  rw [slice_flatten_row hrows hrow, ok_bind, slice_zero_of_le (by omega), ok_bind, hseed, ok_bind,
    hdt, ok_bind]
  rfl

def normGroupsRow (e : Elementary F) (metadata : Mamba2Metadata) (ssmNorm : List F) (eps : F)
    (row : List F) : List F :=
  ((List.range metadata.nGroup).map fun group =>
    rmsNormRow e eps ((ssmNorm.drop (group * metadata.groupDim)).take metadata.groupDim)
      ((row.drop (group * metadata.groupDim)).take metadata.groupDim)).flatten

theorem group_room (h : metadata.Splits) {group : Nat} (hgroup : group < metadata.nGroup) :
    group * metadata.groupDim + metadata.groupDim <= metadata.ssmDInner := by
  rw [← Nat.succ_mul, ← h.nGroup_mul_groupDim]
  exact Nat.mul_le_mul_right _ hgroup

omit [Field F] in
theorem length_groupPart (h : metadata.Splits) {xs : List F} {group : Nat}
    (hxs : xs.length = metadata.ssmDInner) (hgroup : group < metadata.nGroup) :
    ((xs.drop (group * metadata.groupDim)).take metadata.groupDim).length = metadata.groupDim := by
  have hroom := group_room h hgroup
  rw [List.length_take, List.length_drop]
  omega

theorem length_normGroupsRow (h : metadata.Splits) {ssmNorm row : List F}
    (hnorm : ssmNorm.length = metadata.ssmDInner) (hrow : row.length = metadata.ssmDInner) :
    (normGroupsRow e metadata ssmNorm eps row).length = metadata.ssmDInner := by
  have hgroups : UniformRows id metadata.groupDim ((List.range metadata.nGroup).map fun group =>
      rmsNormRow e eps ((ssmNorm.drop (group * metadata.groupDim)).take metadata.groupDim)
        ((row.drop (group * metadata.groupDim)).take metadata.groupDim)) := by
    apply uniformRows_map
    intro group hgroup
    have hinside := List.mem_range.mp hgroup
    rw [length_rmsNormRow (by rw [length_groupPart h hrow hinside,
      length_groupPart h hnorm hinside]), length_groupPart h hnorm hinside]
  unfold normGroupsRow
  rw [length_flatten_rows hgroups, List.length_map, List.length_range, h.nGroup_mul_groupDim]

theorem normGroups_rows (h : metadata.Splits) {ssmNorm : List F} {rows : List (List F)}
    (hnorm : ssmNorm.length = metadata.ssmDInner) (hrows : UniformRows id metadata.ssmDInner rows) :
    fillRows rows.length (normGroups e metadata rows.flatten ssmNorm eps) =
      .ok (rows.map (normGroupsRow e metadata ssmNorm eps)).flatten := by
  apply fillRows_items
  intro t row hrow
  have hwidth : row.length = metadata.ssmDInner := hrows row (List.mem_of_getElem? hrow)
  have ht : t < rows.length := (List.getElem?_eq_some_iff.mp hrow).1
  have hwhole : (t + 1) * metadata.ssmDInner <= rows.flatten.length := by
    rw [length_flatten_rows hrows]
    exact Nat.mul_le_mul_right _ ht
  rw [Nat.succ_mul] at hwhole
  have hrowAt : (rows.flatten.drop (t * metadata.ssmDInner)).take metadata.ssmDInner = row := by
    have hat := rowAt_flatMap hrows hrow
    rw [List.flatMap_id] at hat
    exact hat
  have hgroups : fillRows metadata.nGroup (fun group => do
      let row <- slice rows.flatten (t * metadata.ssmDInner + group * metadata.groupDim)
        (t * metadata.ssmDInner + group * metadata.groupDim + metadata.groupDim)
      let weight <- slice ssmNorm (group * metadata.groupDim)
        (group * metadata.groupDim + metadata.groupDim)
      rmsNormInto e row weight eps) = .ok (normGroupsRow e metadata ssmNorm eps row) := by
    apply fillRows_range
    intro group hgroup
    have hroom := group_room h hgroup
    have hpart := take_drop_take_drop rows.flatten (t * metadata.ssmDInner) hroom
    rw [hrowAt] at hpart
    rw [slice_of_le (Nat.le_add_right _ _) (by omega), Nat.add_sub_cancel_left, ok_bind, ← hpart,
      slice_of_le (Nat.le_add_right _ _) (by omega), Nat.add_sub_cancel_left, ok_bind]
    apply rmsNormInto_row
    · rw [length_groupPart h hnorm hgroup]
      exact h.groupDim_pos
    · rw [length_groupPart h hwidth hgroup, length_groupPart h hnorm hgroup]
  unfold normGroups
  dsimp only
  rw [hgroups, ok_bind, h.nGroup_mul_groupDim, Nat.sub_self, List.replicate_zero, List.append_nil]
  rfl

section Layer

variable (e) (eps) (w : NemotronMamba2LayerWeights F metadata)

def projectRow (row : List F) : List F :=
  w.ssmIn.row (rmsNormRow e eps w.norm row)

def tokensOf (rows : List (List F)) : List (SplitToken F) :=
  rows.map fun row => splitRow metadata w.ssmDtBias (projectRow e eps w row)

def activated (window : List F) : List F :=
  activateRow e w.ssmConv1dBias metadata.convChannels
    (convRow w.ssmConv1d metadata.convChannels metadata.convKernel window)

def projectBack (gated : List F) : List F :=
  w.ssmOut.row (normGroupsRow e metadata w.ssmNorm eps gated)

end Layer

variable {w : NemotronMamba2LayerWeights F metadata} {rows more : List (List F)}
  {state : SsmLayerState F}

theorem length_projectRow {row : List F} (hrow : row.length = metadata.hiddenDim) :
    (projectRow e eps w row).length = metadata.expectedRows := by
  apply w.ssmIn.length_row
  rw [length_rmsNormRow (by rw [hrow, w.length_norm]), w.length_norm]

@[simp] theorem length_tokensOf (rows : List (List F)) :
    (tokensOf e eps w rows).length = rows.length :=
  List.length_map _

theorem tokensOf_append (rows more : List (List F)) :
    tokensOf e eps w (rows ++ more) = tokensOf e eps w rows ++ tokensOf e eps w more :=
  List.map_append

theorem uniform_tokensOf (hrows : UniformRows id metadata.hiddenDim rows) :
    UniformRows id metadata.ssmDInner ((tokensOf e eps w rows).map SplitToken.z) ∧
      UniformRows id metadata.convChannels ((tokensOf e eps w rows).map SplitToken.convSeed) ∧
      UniformRows id metadata.numHeads ((tokensOf e eps w rows).map SplitToken.dt) := by
  have hlengths : forall token, token ∈ tokensOf e eps w rows ->
      token.z.length = metadata.ssmDInner ∧ token.convSeed.length = metadata.convChannels ∧
        token.dt.length = metadata.numHeads := by
    intro token htoken
    rcases List.mem_map.mp htoken with ⟨row, hrow, hsame⟩
    have hprojected := @length_projectRow F _ e eps metadata w row (hrows row hrow)
    have hsizes : metadata.expectedRows =
        metadata.ssmDInner + metadata.convChannels + metadata.numHeads := rfl
    rw [← hsame]
    refine ⟨?_, ?_, ?_⟩
    · exact List.length_take_of_le (by omega)
    · exact List.length_take_of_le (by rw [List.length_drop]; omega)
    · unfold splitRow
      rw [List.length_map, List.length_range]
  exact ⟨uniformRows_map fun token htoken => (hlengths token htoken).1,
    uniformRows_map fun token htoken => (hlengths token htoken).2.1,
    uniformRows_map fun token htoken => (hlengths token htoken).2.2⟩

/-!
## In front of the scan
-/

structure Mamba2Metadata.Fits (metadata : Mamba2Metadata) (state : SsmLayerState F) : Prop where
  convState : state.convState.length = (metadata.convKernel - 1) * metadata.convChannels
  deltaState : state.deltaState.length = metadata.numHeads * metadata.headStateLen

theorem convKernel_pos (metadata : Mamba2Metadata) : 1 <= metadata.convKernel :=
  Nat.le_max_right _ _

section Activated

variable (e) (eps) (w)

def activatedRows (rows : List (List F)) (state : SsmLayerState F) : List (List F) :=
  (windowsFrom metadata.convChannels state.convState
    ((tokensOf e eps w rows).map SplitToken.convSeed)).map (activated e w)

end Activated

@[simp] theorem length_activatedRows (rows : List (List F)) (state : SsmLayerState F) :
    (activatedRows e eps w rows state).length = rows.length := by
  unfold activatedRows
  rw [List.length_map, length_windowsFrom, List.length_map, length_tokensOf]

theorem uniform_activatedRows (rows : List (List F)) (state : SsmLayerState F) :
    UniformRows id metadata.convChannels (activatedRows e eps w rows state) := by
  apply uniformRows_map
  intro window _
  unfold activated activateRow
  rw [List.length_map, List.length_range]

theorem norm_rows (h : metadata.Splits) (hrows : UniformRows id metadata.hiddenDim rows) :
    rmsNormInto e rows.flatten w.norm eps = .ok (rows.map (rmsNormRow e eps w.norm)).flatten := by
  apply rmsNormInto_rows
  · rw [w.length_norm]
    exact h.hiddenDim_pos
  · rw [w.length_norm]
    exact hrows

theorem project_rows (h : metadata.Splits) (hrows : UniformRows id metadata.hiddenDim rows) :
    quantizedProject w.ssmIn (rows.map (rmsNormRow e eps w.norm)).flatten =
      .ok (rows.map (projectRow e eps w)).flatten := by
  have hnormed : UniformRows id metadata.hiddenDim (rows.map (rmsNormRow e eps w.norm)) := by
    apply uniformRows_map
    intro row hrow
    have hwidth : row.length = metadata.hiddenDim := hrows row hrow
    rw [length_rmsNormRow (by rw [hwidth, w.length_norm]), w.length_norm]
  have hproject := quantizedProject_rows w.ssmIn h.hiddenDim_pos hnormed
  rw [List.map_map] at hproject
  exact hproject

theorem uniform_projected (hrows : UniformRows id metadata.hiddenDim rows) :
    UniformRows id metadata.expectedRows (rows.map (projectRow e eps w)) :=
  uniformRows_map fun row hrow => length_projectRow (hrows row hrow)

theorem split_rows (hrows : UniformRows id metadata.hiddenDim rows) :
    (List.range rows.length).mapM
        (splitToken metadata (rows.map (projectRow e eps w)).flatten w.ssmDtBias) =
      .ok (tokensOf e eps w rows) := by
  have hsplit := splitToken_rows w.length_ssmDtBias
    (@uniform_projected F _ e eps metadata w rows hrows)
  rw [List.length_map, List.map_map] at hsplit
  exact hsplit

theorem convInput_rows (hstate : metadata.Fits state)
    (hrows : UniformRows id metadata.hiddenDim rows) :
    buildConvInputAndAdvanceState state.convState
        ((tokensOf e eps w rows).map SplitToken.convSeed).flatten rows.length
        metadata.convChannels metadata.convKernel =
      .ok (state.convState ++ ((tokensOf e eps w rows).map SplitToken.convSeed).flatten,
        rowsBefore metadata.convChannels state.convState
          ((tokensOf e eps w rows).map SplitToken.convSeed)) := by
  have hinput := buildConvInput_eq (convKernel_pos metadata) hstate.convState
    (@uniform_tokensOf F _ e eps metadata w rows hrows).2.1
  rw [List.length_map, length_tokensOf] at hinput
  exact hinput

theorem activated_rows (hstate : metadata.Fits state)
    (hrows : UniformRows id metadata.hiddenDim rows) :
    (ssmConv1d (state.convState ++ ((tokensOf e eps w rows).map SplitToken.convSeed).flatten)
        w.ssmConv1d (metadata.convKernel - 1 + rows.length) metadata.convChannels
        metadata.convKernel >>= fun convOut =>
      activateConv e convOut w.ssmConv1dBias rows.length metadata.convChannels) =
      .ok (activatedRows e eps w rows state).flatten := by
  have hconv := ssmConv1d_rows (convKernel_pos metadata) hstate.convState
    (@uniform_tokensOf F _ e eps metadata w rows hrows).2.1 w.length_ssmConv1d
  have hconvRows : UniformRows id metadata.convChannels
      ((windowsFrom metadata.convChannels state.convState
        ((tokensOf e eps w rows).map SplitToken.convSeed)).map
          (convRow w.ssmConv1d metadata.convChannels metadata.convKernel)) :=
    uniformRows_map fun _ _ => length_convRow _ _ _ _
  have hactivate := @activateConv_rows F _ e _ _ _ w.length_ssmConv1dBias hconvRows
  rw [List.length_map, length_tokensOf] at hconv
  rw [List.length_map, length_windowsFrom, List.length_map, length_tokensOf,
    List.map_map] at hactivate
  rw [hconv, ok_bind]
  exact hactivate

/-!
## Runs
-/

variable [LinearOrder F]

section Run

variable (e) (eps) (w)

section

variable (rows : List (List F)) (state : SsmLayerState F)

def scanOf : List (List F) × List F :=
  scanFrom e metadata w.ssmA w.ssmD state.deltaState
    ((activatedRows e eps w rows state).zip ((tokensOf e eps w rows).map SplitToken.dt))

def gatedRows : List (List F) :=
  List.zipWith (gateRow e) (scanOf e eps w rows state).1
    ((tokensOf e eps w rows).map SplitToken.z)

def outputRows : List (List F) :=
  List.zipWith (List.zipWith (· + ·)) rows
    ((gatedRows e eps w rows state).map (projectBack e eps w))

def stateAfter : SsmLayerState F :=
  { state with
    convState := rowsBefore metadata.convChannels state.convState
      ((tokensOf e eps w rows).map SplitToken.convSeed)
    deltaState := (scanOf e eps w rows state).2 }

end

end Run

theorem scanOf_append :
    scanOf e eps w (rows ++ more) state =
      ((scanOf e eps w rows state).1 ++ (scanOf e eps w more (stateAfter e eps w rows state)).1,
        (scanOf e eps w more (stateAfter e eps w rows state)).2) := by
  have hactivated : activatedRows e eps w (rows ++ more) state =
      activatedRows e eps w rows state ++
        activatedRows e eps w more (stateAfter e eps w rows state) := by
    unfold activatedRows stateAfter
    rw [tokensOf_append, List.map_append, windowsFrom_append, List.map_append]
  have hlengths : (activatedRows e eps w rows state).length =
      ((tokensOf e eps w rows).map SplitToken.dt).length := by
    rw [length_activatedRows, List.length_map, length_tokensOf]
  unfold scanOf
  rw [hactivated, tokensOf_append, List.map_append, List.zip_append hlengths, scanFrom_append]
  rfl

theorem stateAfter_append :
    stateAfter e eps w (rows ++ more) state =
      stateAfter e eps w more (stateAfter e eps w rows state) := by
  unfold stateAfter
  rw [scanOf_append, tokensOf_append, List.map_append, rowsBefore_append]
  rfl

section

variable (h : metadata.Splits) (hstate : metadata.Fits state)
include h hstate

theorem scanOf_lengths (rows : List (List F)) :
    (scanOf e eps w rows state).1.length = rows.length ∧
      UniformRows id metadata.ssmDInner (scanOf e eps w rows state).1 ∧
      (scanOf e eps w rows state).2.length = metadata.numHeads * metadata.headStateLen := by
  have hlengths := @length_scanFrom F _ _ e metadata w.ssmA w.ssmD h
    ((activatedRows e eps w rows state).zip ((tokensOf e eps w rows).map SplitToken.dt))
    state.deltaState hstate.deltaState
  rw [List.length_zip, length_activatedRows, List.length_map, length_tokensOf,
    Nat.min_self] at hlengths
  exact hlengths

theorem stateAfter_fits (hrows : UniformRows id metadata.hiddenDim rows) :
    metadata.Fits (stateAfter e eps w rows state) where
  convState := by
    unfold stateAfter
    rw [length_rowsBefore (uniform_tokensOf hrows).2.1]
    exact hstate.convState
  deltaState := (scanOf_lengths h hstate rows).2.2

theorem length_gatedRows
    (rows : List (List F)) : (gatedRows e eps w rows state).length = rows.length := by
  unfold gatedRows
  rw [List.length_zipWith, (scanOf_lengths h hstate rows).1, List.length_map, length_tokensOf,
    Nat.min_self]

theorem uniform_gatedRows (hrows : UniformRows id metadata.hiddenDim rows) :
    UniformRows id metadata.ssmDInner (gatedRows e eps w rows state) := by
  apply uniformRows_zipWith
  intro row z hrow hz
  have hrowWidth : row.length = metadata.ssmDInner := (scanOf_lengths h hstate rows).2.1 row hrow
  have hzWidth : z.length = metadata.ssmDInner := (uniform_tokensOf hrows).1 z hz
  unfold gateRow
  rw [List.length_zipWith, hrowWidth, hzWidth, Nat.min_self]

theorem outputRows_append :
    outputRows e eps w (rows ++ more) state =
      outputRows e eps w rows state ++
        outputRows e eps w more (stateAfter e eps w rows state) := by
  have hgated : gatedRows e eps w (rows ++ more) state =
      gatedRows e eps w rows state ++
        gatedRows e eps w more (stateAfter e eps w rows state) := by
    unfold gatedRows
    rw [scanOf_append, tokensOf_append, List.map_append, List.zipWith_append]
    rw [(scanOf_lengths h hstate rows).1, List.length_map, length_tokensOf]
  unfold outputRows
  rw [hgated, List.map_append, List.zipWith_append]
  rw [List.length_map, length_gatedRows h hstate]

end

/-!
## Behind the scan
-/

section

variable (h : metadata.Splits) (hstate : metadata.Fits state)
  (hrows : UniformRows id metadata.hiddenDim rows)
include h hstate hrows

theorem scan_rows :
    scanMamba2Cpu e metadata state.deltaState (activatedRows e eps w rows state).flatten
        ((tokensOf e eps w rows).map SplitToken.dt).flatten w.ssmA w.ssmD rows.length =
      .ok ((scanOf e eps w rows state).1.flatten, (stateAfter e eps w rows state).deltaState) := by
  have hscan := @scanMamba2Cpu_rows F _ _ e metadata w.ssmA w.ssmD h
    (activatedRows e eps w rows state) ((tokensOf e eps w rows).map SplitToken.dt) state.deltaState
    { acts := uniform_activatedRows rows state
      dts := (uniform_tokensOf hrows).2.2
      a := w.length_ssmA
      d := w.length_ssmD }
    (by rw [length_activatedRows, List.length_map, length_tokensOf]) hstate.deltaState
  rw [length_activatedRows] at hscan
  exact hscan

theorem gated_rows :
    sigmoidMul e (scanOf e eps w rows state).1.flatten
        ((tokensOf e eps w rows).map SplitToken.z).flatten =
      (gatedRows e eps w rows state).flatten := by
  rcases @scanOf_lengths F _ e eps metadata w state _ h hstate rows with ⟨hcount, houts, -⟩
  apply sigmoidMul_rows _ houts (uniform_tokensOf hrows).1
  rw [hcount, List.length_map, length_tokensOf]

theorem uniform_grouped :
    UniformRows id metadata.ssmDInner
      ((gatedRows e eps w rows state).map (normGroupsRow e metadata w.ssmNorm eps)) :=
  uniformRows_map fun row hrow =>
    length_normGroupsRow h w.length_ssmNorm (uniform_gatedRows h hstate hrows row hrow)

theorem group_rows :
    fillRows rows.length
        (normGroups e metadata (gatedRows e eps w rows state).flatten w.ssmNorm eps) =
      .ok ((gatedRows e eps w rows state).map
        (normGroupsRow e metadata w.ssmNorm eps)).flatten := by
  have hgroups := @normGroups_rows F _ e eps metadata h _ _ w.length_ssmNorm
    (@uniform_gatedRows F _ e eps metadata w rows state _ h hstate hrows)
  rw [length_gatedRows h hstate] at hgroups
  exact hgroups

theorem back_rows :
    quantizedProject w.ssmOut
        ((gatedRows e eps w rows state).map (normGroupsRow e metadata w.ssmNorm eps)).flatten =
      .ok ((gatedRows e eps w rows state).map (projectBack e eps w)).flatten := by
  have hproject := quantizedProject_rows w.ssmOut h.ssmDInner_pos
    (@uniform_grouped F _ e eps metadata w rows state _ h hstate hrows)
  rw [List.map_map] at hproject
  exact hproject

theorem uniform_back :
    UniformRows id metadata.hiddenDim
      ((gatedRows e eps w rows state).map (projectBack e eps w)) :=
  uniformRows_map fun row hrow => w.ssmOut.length_row _
    (length_normGroupsRow h w.length_ssmNorm (uniform_gatedRows h hstate hrows row hrow))

theorem length_back :
    ((gatedRows e eps w rows state).map (projectBack e eps w)).flatten.length =
      rows.length * metadata.hiddenDim := by
  rw [length_flatten_rows (uniform_back h hstate hrows), List.length_map, length_gatedRows h hstate]

end

theorem sum_rows (h : metadata.Splits) (hstate : metadata.Fits state) (hsome : rows ≠ [])
    (hrows : UniformRows id metadata.hiddenDim rows) :
    addTensors rows.flatten
        ((gatedRows e eps w rows state).map (projectBack e eps w)).flatten =
      .ok (outputRows e eps w rows state).flatten := by
  have hback := @uniform_back F _ e eps metadata w rows state _ h hstate hrows
  have hcount : rows.length =
    ((gatedRows e eps w rows state).map (projectBack e eps w)).length := by
    rw [List.length_map, length_gatedRows h hstate]
  have hhidden : rows.flatten.length = rows.length * metadata.hiddenDim := length_flatten_rows hrows
  have hpos : 0 < rows.flatten.length := by
    rw [hhidden]
    exact Nat.mul_pos (List.length_pos_iff.mpr hsome) h.hiddenDim_pos
  rw [addTensors_eq hpos ((length_back h hstate hrows).trans hhidden.symm),
    zipWith_flatten_rows hcount hrows hback]
  rfl

/-!
## Calls
-/

section

variable (h : metadata.Splits) {layerIdx : Nat} {states : SsmStates F}
  (hlayer : states layerIdx = some state) (hstate : metadata.Fits state)
include h hlayer hstate

theorem forwardMamba2Layer_sum (hrows : UniformRows id metadata.hiddenDim rows) :
    forwardMamba2Layer e metadata w eps layerIdx rows.flatten rows.length states =
      (addTensors rows.flatten
          ((gatedRows e eps w rows state).map (projectBack e eps w)).flatten >>= fun output =>
        .ok (output,
          Function.update states layerIdx (some (stateAfter e eps w rows state)))) := by
  have hprojected := length_flatten_rows (@uniform_projected F _ e eps metadata w rows hrows)
  rw [List.length_map] at hprojected
  have hactivated := @activated_rows F _ e eps metadata w rows state hstate hrows
  rcases bind_eq_ok hactivated with ⟨convOut, hconv, hactivate⟩
  unfold forwardMamba2Layer
  dsimp only
  rw [norm_rows h hrows, ok_bind, project_rows h hrows, ok_bind, ensure_of_true _ hprojected,
    ok_bind, split_rows hrows, ok_bind, hlayer]
  change (buildConvInputAndAdvanceState _ _ _ _ _ >>= _) = _
  rw [convInput_rows hstate hrows, ok_bind]
  dsimp only
  rw [hconv, ok_bind, hactivate, ok_bind, scan_rows h hstate hrows, ok_bind]
  dsimp only
  rw [gated_rows h hstate hrows, group_rows h hstate hrows, ok_bind, back_rows h hstate hrows,
    ok_bind, require_of_true _ (length_back h hstate hrows), ok_bind]
  rfl

theorem forwardMamba2Layer_eq (hsome : rows ≠ []) (hrows : UniformRows id metadata.hiddenDim rows) :
    forwardMamba2Layer e metadata w eps layerIdx rows.flatten rows.length states =
      .ok ((outputRows e eps w rows state).flatten,
        Function.update states layerIdx (some (stateAfter e eps w rows state))) := by
  rw [forwardMamba2Layer_sum h hlayer hstate hrows, sum_rows h hstate hsome hrows, ok_bind]

theorem forwardMamba2Layer_nil :
    forwardMamba2Layer e metadata w eps layerIdx [] 0 states = report "shape mismatch" := by
  have hnone : gatedRows e eps w [] state = [] :=
    List.eq_nil_of_length_eq_zero (length_gatedRows h hstate [])
  have hsum := @forwardMamba2Layer_sum F _ e eps metadata w [] state _ h layerIdx states hlayer
    hstate (uniformRows_nil id _)
  rw [hnone] at hsum
  exact hsum

end

theorem forwardCalls_eq (h : metadata.Splits) {layerIdx : Nat} {states : SsmStates F}
    {calls : List (List (List F))} (hlayer : states layerIdx = some state)
    (hstate : metadata.Fits state) (hcalls : forall rows, rows ∈ calls ->
      rows ≠ [] ∧ UniformRows id metadata.hiddenDim rows) :
    forwardCalls e metadata w eps layerIdx calls states =
      .ok ((outputRows e eps w calls.flatten state).flatten,
        Function.update states layerIdx (some (stateAfter e eps w calls.flatten state))) := by
  induction calls generalizing states state with
  | nil =>
    have hsame : Function.update states layerIdx (some (stateAfter e eps w [] state)) = states := by
      have hstay : some (stateAfter e eps w [] state) = states layerIdx := hlayer.symm
      rw [hstay, Function.update_eq_self]
    rw [List.flatten_nil, hsame]
    rfl
  | cons rows calls ih =>
    rcases hcalls rows List.mem_cons_self with ⟨hsome, hrows⟩
    have hrest := @ih (stateAfter e eps w rows state)
      (Function.update states layerIdx (some (stateAfter e eps w rows state)))
      (Function.update_self layerIdx _ states) (stateAfter_fits h hstate hrows)
      (fun other hother => hcalls other (List.mem_cons_of_mem rows hother))
    unfold forwardCalls
    rw [forwardMamba2Layer_eq h hlayer hstate hsome hrows, ok_bind]
    dsimp only
    rw [hrest, ok_bind, Function.update_idem, List.flatten_cons, outputRows_append h hstate,
      stateAfter_append, List.flatten_append]
    rfl

theorem mamba2_calls_run_on (h : metadata.Splits) {layerIdx : Nat} {states : SsmStates F}
    {calls : List (List (List F))} (hlayer : states layerIdx = some state)
    (hstate : metadata.Fits state) (hsome : calls ≠ []) (hcalls : forall rows, rows ∈ calls ->
      rows ≠ [] ∧ UniformRows id metadata.hiddenDim rows) :
    exists output states', forwardCalls e metadata w eps layerIdx calls states =
        .ok (output, states') ∧
      forwardMamba2Layer e metadata w eps layerIdx calls.flatten.flatten calls.flatten.length
          states = .ok (output, states') := by
  have hrows : UniformRows id metadata.hiddenDim calls.flatten := by
    intro row hrow
    rcases List.mem_flatten.mp hrow with ⟨rows, hmem, hinside⟩
    exact (hcalls rows hmem).2 row hinside
  have hany : calls.flatten ≠ [] := by
    intro hnone
    rcases List.exists_mem_of_ne_nil calls hsome with ⟨rows, hmem⟩
    exact (hcalls rows hmem).1 (List.flatten_eq_nil_iff.mp hnone rows hmem)
  exact ⟨_, _, forwardCalls_eq h hlayer hstate hcalls,
    forwardMamba2Layer_eq h hlayer hstate hany hrows⟩

/-- Two heads of one group, and a kernel that is wider than most calls. -/
def smallMetadata (ssmDState : Nat) : Mamba2Metadata where
  hiddenDim := 1
  ssmDInner := 2
  ssmDState := ssmDState
  ssmNGroup := 1
  ssmDtRank := 2
  ssmConvKernel := 4

def constantProjection (rows cols : Nat) : Projection Rat rows cols where
  row input := List.replicate rows (input.headD 0)
  length_row _ _ := List.length_replicate

def smallWeights (ssmDState : Nat) :
    NemotronMamba2LayerWeights Rat (smallMetadata ssmDState) where
  norm := [1]
  ssmIn := constantProjection _ _
  ssmConv1d := List.replicate ((smallMetadata ssmDState).convKernel *
    (smallMetadata ssmDState).convChannels) 1
  ssmConv1dBias := [0]
  ssmDtBias := [0]
  ssmA := [1]
  ssmD := [1]
  ssmNorm := [1, 1]
  ssmOut := constantProjection _ _
  length_norm := rfl
  length_ssmConv1d := List.length_replicate
  length_ssmConv1dBias := Nat.zero_lt_one
  length_ssmDtBias := Nat.zero_lt_one
  length_ssmA := Nat.zero_lt_one
  length_ssmD := Nat.zero_lt_one
  length_ssmNorm := rfl

def plainFunctions : Elementary Rat where
  exp x := x
  ln x := x
  sqrt x := x

def zeroState (metadata : Mamba2Metadata) : SsmLayerState Rat where
  convState := List.replicate ((metadata.convKernel - 1) * metadata.convChannels) 0
  deltaState := List.replicate (metadata.numHeads * metadata.headStateLen) 0
  convKernel := metadata.convKernel
  convChannels := metadata.convChannels

theorem fits_zeroState (metadata : Mamba2Metadata) : metadata.Fits (zeroState metadata) where
  convState := List.length_replicate
  deltaState := List.length_replicate

theorem splits_smallMetadata : (smallMetadata 1).Splits where
  heads := by decide
  inner := by decide
  hiddenDim_pos := by decide
  ssmDInner_pos := by decide
  ssmDState_pos := by decide

theorem mamba2_calls_run_on_small :
    exists output states',
      forwardCalls plainFunctions (smallMetadata 1) (smallWeights 1) 0 0 [[[1]], [[2], [3]]]
          (fun _ => some (zeroState (smallMetadata 1))) = .ok (output, states') ∧
        forwardMamba2Layer plainFunctions (smallMetadata 1) (smallWeights 1) 0 0
          [[[(1 : Rat)]], [[2], [3]]].flatten.flatten [[[(1 : Rat)]], [[2], [3]]].flatten.length
          (fun _ => some (zeroState (smallMetadata 1))) = .ok (output, states') := by
  apply mamba2_calls_run_on splits_smallMetadata rfl (fits_zeroState (smallMetadata 1))
    (List.cons_ne_nil _ _)
  intro rows hrows
  rcases List.mem_cons.mp hrows with hfirst | hlater
  · rw [hfirst]
    exact ⟨List.cons_ne_nil _ _, fun row hrow => by rw [List.mem_singleton.mp hrow]; rfl⟩
  · rw [List.mem_singleton.mp hlater]
    refine ⟨List.cons_ne_nil _ _, ?_⟩
    intro row hrow
    rcases List.mem_cons.mp hrow with hone | htwo
    · rw [hone]
      rfl
    · rw [List.mem_singleton.mp htwo]
      rfl

/-- A call of no tokens between others is an error, and a layer without a state panics. -/
theorem mamba2_empty_call_fails :
    (exists output states',
      forwardMamba2Layer plainFunctions (smallMetadata 1) (smallWeights 1) 0 0 [1] 1
        (fun _ => some (zeroState (smallMetadata 1))) = .ok (output, states')) ∧
      forwardCalls plainFunctions (smallMetadata 1) (smallWeights 1) 0 0 [[], [[1]]]
        (fun _ => some (zeroState (smallMetadata 1))) = report "shape mismatch" ∧
      forwardMamba2Layer plainFunctions (smallMetadata 0) (smallWeights 0) 0 0 [1] 1
        (fun _ => some (zeroState (smallMetadata 0))) = abort "chunk_size must not be zero" := by
  refine ⟨?_, ?_, ?_⟩
  · have hcall := @forwardMamba2Layer_eq Rat _ plainFunctions 0 (smallMetadata 1) (smallWeights 1)
      [[1]] (zeroState (smallMetadata 1)) _ splits_smallMetadata 0
      (fun _ => some (zeroState (smallMetadata 1))) rfl (fits_zeroState _) (List.cons_ne_nil _ _)
      (fun row hrow => by rw [List.mem_singleton.mp hrow]; rfl)
    exact ⟨_, _, hcall⟩
  · unfold forwardCalls
    change (forwardMamba2Layer _ _ _ _ _ [] 0 _ >>= _) = _
    rw [forwardMamba2Layer_nil splits_smallMetadata rfl (fits_zeroState _)]
    rfl
  · rfl

end Nemotron
end RunNBurn
