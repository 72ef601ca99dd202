import RunNBurn.Gdn.LayerSteps

/-!
# What a layer leaves in the collector

A captured prefix gets one record more, which restores the state of the recurrence at that
prefix, or it is marked as incomplete.
-/

namespace RunNBurn
namespace Gdn

open Library
open KvCache (SsmLayerState SsmStates)
open GdnPrefixStateCollector (Snapshots)

variable {F : Type} [Field F]

/-- The record restores the state after so many tokens of the window. -/
structure LayerRestores {metadata : GdnMetadata F} (e : Elementary F)
    (w : GdnLayerWeights F metadata) (layerIdx : Nat) (state : SsmLayerState F)
    (hidden : List (List F)) (prefixTokens : Nat) (record : VerifyWindowSsmLayerPrefixState F) :
    Prop where
  layer : record.layerIdx = layerIdx
  restores : exists reached, tokenRun e w state (hidden.take prefixTokens) = .ok reached ∧
    record.convState = reached.convState ∧
    record.restoredDelta e state.deltaState = .ok reached.deltaState

structure SlotStep (seqLen : Nat)
    (captured : Nat -> VerifyWindowSsmLayerPrefixState F -> Prop) (slot following : PrefixSlot F) :
    Prop where
  same : following.prefixTokens = slot.prefixTokens
  complete : following.incompleteLayer = none -> slot.incompleteLayer = none
  outside : ¬ Snapshots seqLen slot.prefixTokens -> following.layers = slot.layers
  inside : Snapshots seqLen slot.prefixTokens -> following.incompleteLayer = none ->
    exists record, captured slot.prefixTokens record ∧ following.layers = slot.layers ++ [record]

section Slots

variable {seqLen : Nat} {captured : Nat -> VerifyWindowSsmLayerPrefixState F -> Prop}
  {slot : PrefixSlot F}

omit [Field F] in
theorem slotStep_of_outside (h : ¬ Snapshots seqLen slot.prefixTokens) :
    SlotStep seqLen captured slot slot where
  same := rfl
  complete := fun hnone => hnone
  outside := fun _ => rfl
  inside := fun hsnapshots => absurd hsnapshots h

omit [Field F] in
theorem slotStep_record {record : VerifyWindowSsmLayerPrefixState F}
    (h : Snapshots seqLen slot.prefixTokens) (hrecord : captured slot.prefixTokens record) :
    SlotStep seqLen captured slot (slot.record record) where
  same := rfl
  complete := fun hnone => hnone
  outside := fun houtside => absurd h houtside
  inside := fun _ _ => ⟨record, hrecord, rfl⟩

omit [Field F] in
theorem slotStep_markIncomplete (h : Snapshots seqLen slot.prefixTokens) (layerIdx : Nat) :
    SlotStep seqLen captured slot (slot.markIncomplete layerIdx) where
  same := rfl
  complete := fun hnone => by cases hnone
  outside := fun houtside => absurd h houtside
  inside := fun _ hnone => by cases hnone

omit [Field F] in
theorem same_of_slotSteps {slots followings : List (PrefixSlot F)}
    (h : List.Forall₂ (SlotStep seqLen captured) slots followings) :
    followings.map PrefixSlot.prefixTokens = slots.map PrefixSlot.prefixTokens := by
  induction h with
  | nil => rfl
  | cons hhead _ ih => rw [List.map_cons, List.map_cons, hhead.same, ih]

omit [Field F] in
theorem ordered_of_slotSteps {collector following : GdnPrefixStateCollector F}
    (h : collector.Ordered)
    (hsteps : List.Forall₂ (SlotStep seqLen captured) collector.slots following.slots) :
    following.Ordered :=
  GdnPrefixStateCollector.ordered_of_slots h (same_of_slotSteps hsteps)

end Slots

variable {e : Elementary F} {metadata : GdnMetadata F} {w : GdnLayerWeights F metadata}
  {layerIdx : Nat} {state : SsmLayerState F} {hidden : List (List F)}

/-!
# The window at once
-/

/-- What `captureLayer` does to the slot of a prefix. -/
def captureSlot (metadata : GdnMetadata F) (layerIdx : Nat) (heads : DeltaHeads F)
    (gateData betaVec : List F) (directDeltaSnapshots : List (Nat × List F))
    (convStateAt : Nat -> List F) (requested : Nat) (slot : PrefixSlot F) : PrefixSlot F :=
  match directDeltaSnapshots.lookup requested with
  | some deltaState =>
    slot.record {
      layerIdx := layerIdx
      convState := convStateAt requested
      deltaInput := none
      deltaState := some deltaState }
  | none =>
    match prefixDeltaRestoreKind requested false with
    | .residentSnapshot => slot.markIncomplete layerIdx
    | .oneStepDeltaInput =>
      slot.record {
        layerIdx := layerIdx
        convState := convStateAt requested
        deltaInput := some {
          q := part heads.q 0 (metadata.numVHeads * metadata.headKDim)
          k := part heads.k 0 (metadata.numVHeads * metadata.headKDim)
          v := part heads.v 0 (metadata.numVHeads * metadata.headVDim)
          gate := part gateData 0 metadata.numVHeads
          beta := part betaVec 0 metadata.numVHeads
          numHeads := metadata.numVHeads
          headKDim := metadata.headKDim
          headVDim := metadata.headVDim }
        deltaState := none }
    | .unsupported => slot.markIncomplete layerIdx

omit [Field F] in
theorem captureSlot_same (heads : DeltaHeads F) (gateData betaVec : List F)
    (directDeltaSnapshots : List (Nat × List F)) (convStateAt : Nat -> List F) (requested : Nat)
    (slot : PrefixSlot F) :
    (captureSlot metadata layerIdx heads gateData betaVec directDeltaSnapshots convStateAt
      requested slot).prefixTokens = slot.prefixTokens := by
  unfold captureSlot
  cases directDeltaSnapshots.lookup requested with
  | some deltaState => rfl
  | none =>
    cases prefixDeltaRestoreKind requested false with
    | oneStepDeltaInput => rfl
    | residentSnapshot => rfl
    | unsupported => rfl

omit [Field F] in
theorem captureLayer_slots {collector : GdnPrefixStateCollector F} {seqLen : Nat}
    (hordered : collector.Ordered) (hwants : collector.wantsSnapshotFor seqLen = true)
    (heads : DeltaHeads F) (gateData betaVec : List F)
    (directDeltaSnapshots : List (Nat × List F)) (convStateAt : Nat -> List F) :
    (captureLayer metadata layerIdx heads gateData betaVec
        ((collector.snapshotPrefixTokens seqLen).map fun requested =>
          (requested, convStateAt requested))
        directDeltaSnapshots collector).slots =
      collector.slots.map (fun slot =>
        if slot.prefixTokens ∈ collector.snapshotPrefixTokens seqLen then
          captureSlot metadata layerIdx heads gateData betaVec directDeltaSnapshots convStateAt
            slot.prefixTokens slot
        else slot) := by
  rcases GdnPrefixStateCollector.wantsSnapshotFor_iff.mp hwants with ⟨slot, hslot, hsnapshots⟩
  have hmem := (GdnPrefixStateCollector.mem_snapshotPrefixTokens hslot seqLen).mpr hsnapshots
  have hnonempty : ((collector.snapshotPrefixTokens seqLen).map fun requested =>
      (requested, convStateAt requested)).isEmpty = false := by
    rw [List.isEmpty_map]
    exact List.isEmpty_eq_false_iff.mpr (List.ne_nil_of_mem hmem)
  have hsame : forall requested slot,
      (captureSlot metadata layerIdx heads gateData betaVec directDeltaSnapshots convStateAt
        requested slot).prefixTokens = slot.prefixTokens :=
    captureSlot_same heads gateData betaVec directDeltaSnapshots convStateAt
  have hfold := GdnPrefixStateCollector.foldl_changePrefix hordered
    (GdnPrefixStateCollector.nodup_snapshotPrefixTokens hordered seqLen) hsame
  rw [← hfold]
  unfold captureLayer
  dsimp only
  rw [hnonempty, if_neg Bool.false_ne_true, List.foldl_map]
  congr 1
  apply List.foldl_ext
  intro following requested _
  unfold captureSlot
  dsimp only
  cases directDeltaSnapshots.lookup requested with
  | some deltaState => rfl
  | none =>
    cases prefixDeltaRestoreKind requested false with
    | oneStepDeltaInput => rfl
    | residentSnapshot => rfl
    | unsupported => rfl

theorem restoredDelta_oneStep {deltaState : List F} {record : VerifyWindowSsmLayerPrefixState F}
    (h : windowSteps e w state hidden 1 = .ok deltaState) (hstate : record.deltaState = none)
    (hinput : record.deltaInput = some {
      q := part (windowQueries e metadata (windowConv e w state.convState hidden) hidden.length) 0
        (metadata.numVHeads * metadata.headKDim)
      k := part (windowKeys e metadata (windowConv e w state.convState hidden) hidden.length) 0
        (metadata.numVHeads * metadata.headKDim)
      v := part (windowValues metadata (windowConv e w state.convState hidden) hidden.length) 0
        (metadata.numVHeads * metadata.headVDim)
      gate := part (windowGate e w hidden) 0 metadata.numVHeads
      beta := part (windowBeta e w hidden) 0 metadata.numVHeads
      numHeads := metadata.numVHeads
      headKDim := metadata.headKDim
      headVDim := metadata.headVDim }) :
    record.restoredDelta e state.deltaState = .ok deltaState := by
  unfold windowSteps at h
  dsimp only at h
  rw [scanSteps_succ, scanSteps_zero, ok_bind, Nat.zero_add] at h
  unfold scanStep at h
  rw [rowAt_zero, rowAt_zero, rowAt_zero, rowAt_zero] at h
  unfold VerifyWindowSsmLayerPrefixState.restoredDelta
  rw [hstate, hinput]
  exact h

variable {output : LayerOutput F}

theorem slotStep_captureSlot {collector : Option (GdnPrefixStateCollector F)}
    {scanned : ScanSegments F} {slot : PrefixSlot F}
    (h : WindowDone e w layerIdx state hidden collector output scanned)
    (hslot : Snapshots hidden.length slot.prefixTokens) :
    SlotStep hidden.length (LayerRestores e w layerIdx state hidden) slot
      (captureSlot metadata layerIdx
        { q := windowQueries e metadata (windowConv e w state.convState hidden) hidden.length
          k := windowKeys e metadata (windowConv e w state.convState hidden) hidden.length
          v := windowValues metadata (windowConv e w state.convState hidden) hidden.length }
        (windowGate e w hidden) (windowBeta e w hidden) scanned.snapshots
        (historyAt metadata.convChannels state.convState (windowQkv w hidden))
        slot.prefixTokens slot) := by
  have hle : slot.prefixTokens <= hidden.length := Nat.le_of_lt hslot.2
  unfold captureSlot
  cases hlookup : scanned.snapshots.lookup slot.prefixTokens with
  | some deltaState =>
    have hrun := tokenRun_take h.ready hle (h.kept _ _ hlookup)
    exact slotStep_record hslot ⟨rfl, _, hrun, rfl, rfl⟩
  | none =>
    dsimp only
    unfold prefixDeltaRestoreKind
    rw [if_neg Bool.false_ne_true]
    by_cases hone : slot.prefixTokens = 1
    · rw [if_pos hone]
      rcases windowSteps_of_le h.all hle with ⟨deltaState, hsteps⟩
      have hrun := tokenRun_take h.ready hle hsteps
      rw [hone] at hsteps
      exact slotStep_record hslot ⟨rfl, _, hrun, rfl, restoredDelta_oneStep hsteps rfl rfl⟩
    · rw [if_neg hone]
      exact slotStep_markIncomplete hslot layerIdx

theorem WindowDone.slotSteps {collector : GdnPrefixStateCollector F} {scanned : ScanSegments F}
    (h : WindowDone e w layerIdx state hidden (some collector) output scanned)
    (hordered : collector.Ordered) :
    exists following, output.collector = some following ∧
      List.Forall₂ (SlotStep hidden.length (LayerRestores e w layerIdx state hidden))
        collector.slots following.slots := by
  have hcollector := h.collector_eq
  rw [Option.map_some] at hcollector
  refine ⟨_, hcollector, ?_⟩
  by_cases hwants : collector.wantsSnapshotFor hidden.length = true
  · rw [if_pos hwants]
    dsimp only
    rw [captureLayer_slots hordered hwants, List.forall₂_map_right_iff]
    apply forall₂_same
    intro slot hslot
    by_cases hsnapshots : Snapshots hidden.length slot.prefixTokens
    · rw [if_pos ((GdnPrefixStateCollector.mem_snapshotPrefixTokens hslot _).mpr hsnapshots)]
      exact slotStep_captureSlot h hsnapshots
    · rw [if_neg (fun hmem => hsnapshots
        ((GdnPrefixStateCollector.mem_snapshotPrefixTokens hslot _).mp hmem))]
      exact slotStep_of_outside hsnapshots
  · rw [if_neg hwants]
    apply forall₂_same
    intro slot hslot
    apply slotStep_of_outside
    intro hsnapshots
    exact hwants (GdnPrefixStateCollector.wantsSnapshotFor_iff.mpr ⟨slot, hslot, hsnapshots⟩)

/-!
# The decode core
-/

/-- A slot when the tokens after `start` are through: one record more, if its prefix was
among the captured ones. -/
def FullCoreSlot (e : Elementary F) (w : GdnLayerWeights F metadata) (layerIdx : Nat)
    (snapshotPrefixTokens : List Nat) (state : SsmLayerState F) (start : Nat)
    (rows : List (List F)) (slot following : PrefixSlot F) : Prop :=
  if slot.prefixTokens ∈ snapshotPrefixTokens ∧ start < slot.prefixTokens ∧
      slot.prefixTokens <= start + rows.length then
    exists reached, tokenRun e w state (rows.take (slot.prefixTokens - start)) = .ok reached ∧
      following = slot.record {
        layerIdx := layerIdx
        convState := reached.convState
        deltaInput := none
        deltaState := some reached.deltaState }
  else
    following = slot

theorem fullCoreSlot_cons {snapshotPrefixTokens : List Nat} {start : Nat} {row : List F}
    {rows : List (List F)} {after : SsmLayerState F} {slot middle following : PrefixSlot F}
    (hstep : tokenStep e w state row = .ok after) (hmiddle : middle =
      if start + 1 ∈ snapshotPrefixTokens ∧ slot.prefixTokens = start + 1 then
        slot.record {
          layerIdx := layerIdx
          convState := after.convState
          deltaInput := none
          deltaState := some after.deltaState }
      else slot)
    (hrest : FullCoreSlot e w layerIdx snapshotPrefixTokens after (start + 1) rows middle
      following) :
    FullCoreSlot e w layerIdx snapshotPrefixTokens state start (row :: rows) slot following := by
  have hrun : forall count, tokenRun e w state ((row :: rows).take (count + 1)) =
      tokenRun e w after (rows.take count) := by
    intro count
    unfold tokenRun
    rw [List.take_succ_cons, List.foldlM_cons, hstep, ok_bind]
  unfold FullCoreSlot at hrest ⊢
  by_cases hnow : slot.prefixTokens = start + 1
  · have hpast : ¬ (start + 1 < slot.prefixTokens) := by
      omega
    by_cases hcaptured : start + 1 ∈ snapshotPrefixTokens
    · rw [if_pos ⟨hcaptured, hnow⟩] at hmiddle
      have hsame : middle.prefixTokens = slot.prefixTokens := by
        rw [hmiddle]
        rfl
      rw [hsame, if_neg (fun h => hpast h.2.1)] at hrest
      have hin : slot.prefixTokens ∈ snapshotPrefixTokens ∧ start < slot.prefixTokens ∧
          slot.prefixTokens <= start + (row :: rows).length := by
        rw [hnow, List.length_cons]
        exact ⟨hcaptured, by omega, by omega⟩
      rw [if_pos hin]
      refine ⟨after, ?_, hrest.trans hmiddle⟩
      have hcount : slot.prefixTokens - start = 0 + 1 := by
        omega
      rw [hcount, hrun]
      rfl
    · rw [if_neg (fun h => hcaptured h.1)] at hmiddle
      rw [hmiddle, if_neg (fun h => hpast h.2.1)] at hrest
      rw [if_neg (fun h => hcaptured (hnow ▸ h.1))]
      exact hrest
  · rw [if_neg (fun h => hnow h.2)] at hmiddle
    rw [hmiddle] at hrest
    by_cases hlater : slot.prefixTokens ∈ snapshotPrefixTokens ∧ start + 1 < slot.prefixTokens ∧
        slot.prefixTokens <= start + 1 + rows.length
    · rw [if_pos hlater] at hrest
      rcases hlater with ⟨hcaptured, hlow, hhigh⟩
      have hcount : slot.prefixTokens - start = slot.prefixTokens - (start + 1) + 1 := by
        omega
      have hin : start < slot.prefixTokens ∧
          slot.prefixTokens <= start + (row :: rows).length := by
        rw [List.length_cons]
        omega
      rw [if_pos ⟨hcaptured, hin⟩, hcount, hrun]
      exact hrest
    · rw [if_neg hlater] at hrest
      rw [if_neg]
      · exact hrest
      · intro hin
        rw [List.length_cons] at hin
        exact hlater ⟨hin.1, by omega, by omega⟩

theorem fullCore_returns {snapshotPrefixTokens : List Nat} {rows : List (List F)} {start : Nat}
    {result output : LayerOutput F}
    (h : (rows.zipIdx start).foldlM (fullCoreToken e w layerIdx snapshotPrefixTokens) result =
      .ok output) :
    (rows ≠ [] -> Ready metadata result.state) ∧
      tokenRun e w result.state rows = .ok output.state ∧
      forall collector, result.collector = some collector -> collector.Ordered ->
        exists following, output.collector = some following ∧
          List.Forall₂
            (FullCoreSlot e w layerIdx snapshotPrefixTokens result.state start rows)
            collector.slots following.slots := by
  induction rows generalizing start result with
  | nil =>
    cases h
    refine ⟨fun hne => absurd rfl hne, rfl, ?_⟩
    intro collector hcollector _
    refine ⟨collector, hcollector, ?_⟩
    apply forall₂_same
    intro slot _
    unfold FullCoreSlot
    rw [if_neg]
    intro hin
    have hlow := hin.2.1
    have hhigh : slot.prefixTokens <= start := hin.2.2
    omega
  | cons row rows ih =>
    rw [List.zipIdx_cons, List.foldlM_cons] at h
    rcases bind_eq_ok h with ⟨next, hnext, h⟩
    unfold fullCoreToken at hnext
    rcases bind_eq_ok hnext with ⟨decoded, hdecoded, hnext⟩
    rcases decodeGdnLayerQwenCore_returns row decoded hdecoded with ⟨hready, hstep⟩
    cases hnext
    rcases ih h with ⟨_, hrun, hslots⟩
    refine ⟨fun _ => hready, ?_, ?_⟩
    · unfold tokenRun at hrun ⊢
      rw [List.foldlM_cons, hstep, ok_bind]
      exact hrun
    · intro collector hcollector hordered
      by_cases hcaptured : start + 1 ∈ snapshotPrefixTokens
      · have hmiddle := hslots
          (collector.recordLayerWithDeltaStateForPrefix (start + 1) layerIdx decoded.1.convState
            decoded.1.deltaState)
          (by rw [if_pos hcaptured, hcollector, Option.map_some])
          (GdnPrefixStateCollector.ordered_changePrefix hordered (fun _ => rfl))
        rcases hmiddle with ⟨following, hfollowing, hrest⟩
        refine ⟨following, hfollowing, ?_⟩
        unfold GdnPrefixStateCollector.recordLayerWithDeltaStateForPrefix at hrest
        rw [GdnPrefixStateCollector.changePrefix_eq_map hordered,
          List.forall₂_map_left_iff] at hrest
        apply hrest.imp
        intro slot after hafter
        apply fullCoreSlot_cons hstep _ hafter
        by_cases hnow : slot.prefixTokens = start + 1
        · rw [if_pos hnow, if_pos ⟨hcaptured, hnow⟩]
        · rw [if_neg hnow, if_neg (fun h => hnow h.2)]
      · rcases hslots collector (by rw [if_neg hcaptured, hcollector]) hordered with
          ⟨following, hfollowing, hrest⟩
        refine ⟨following, hfollowing, ?_⟩
        apply hrest.imp
        intro slot after hafter
        apply fullCoreSlot_cons hstep _ hafter
        rw [if_neg (fun h => hcaptured h.1)]

theorem forwardFullCore_returns {collector : Option (GdnPrefixStateCollector F)}
    (h : forwardFullCore e w layerIdx state hidden collector = .ok output) :
    (hidden ≠ [] -> Ready metadata state) ∧
      tokenRun e w state hidden = .ok output.state ∧
      forall before, collector = some before -> before.Ordered ->
        exists following, output.collector = some following ∧
          List.Forall₂ (SlotStep hidden.length (LayerRestores e w layerIdx state hidden))
            before.slots following.slots := by
  unfold forwardFullCore at h
  dsimp only at h
  rcases bind_eq_ok h with ⟨core, hcore, h⟩
  rcases fullCore_returns hcore with ⟨hready, hrun, hslots⟩
  cases hmoe : w.sharedExpertMoe with
  | none =>
    rw [hmoe] at h
    cases h
  | some moe =>
    rw [hmoe] at h
    cases h
    refine ⟨hready, hrun, ?_⟩
    intro before hbefore hordered
    rcases hslots before hbefore hordered with ⟨following, hfollowing, hsteps⟩
    refine ⟨following, hfollowing, ?_⟩
    have hboth := (List.forall₂_and_left (p := fun slot => slot ∈ before.slots) _ _).mpr
      ⟨fun _ hslot => hslot, hsteps⟩
    apply hboth.imp
    intro slot after hafter
    rcases hafter with ⟨hslot, hafter⟩
    have hmem := GdnPrefixStateCollector.mem_snapshotPrefixTokens hslot hidden.length
    rw [hbefore] at hafter
    unfold FullCoreSlot at hafter
    by_cases hsnapshots : Snapshots hidden.length slot.prefixTokens
    · have hhigh : slot.prefixTokens <= 0 + hidden.length := by
        rw [Nat.zero_add]
        exact Nat.le_of_lt hsnapshots.2
      rw [if_pos ⟨hmem.mpr hsnapshots, hsnapshots.1, hhigh⟩] at hafter
      rcases hafter with ⟨reached, hreached, rfl⟩
      exact slotStep_record hsnapshots ⟨rfl, reached, hreached, rfl, rfl⟩
    · rw [if_neg (fun hin => hsnapshots (hmem.mp hin.1))] at hafter
      rw [hafter]
      exact slotStep_of_outside hsnapshots

end Gdn
end RunNBurn
