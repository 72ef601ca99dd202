import Mathlib.Algebra.Field.Rat
import RunNBurn.Gdn.LayerCapture

/-!
# Prefix states are exact

When every requested prefix was captured, each holds one record for each layer, and the
record restores what the layer holds after so many tokens in calls of their own.
-/

namespace RunNBurn
namespace Gdn

open Library
open KvCache (SsmLayerState SsmStates)
open GdnPrefixStateCollector (Snapshots)

variable {F : Type} [Field F] {e : Elementary F} {policy : VerifyPolicy} {metadata : GdnMetadata F}

/-!
# One layer
-/

/-- A layer reads its own state and leaves the one that its tokens lead to. -/
structure LayerDone (e : Elementary F) (states : SsmStates F) (call : GdnCall F metadata)
    (output : ForwardOutput F) (before after : SsmLayerState F) : Prop where
  before_eq : states call.layerIdx = some before
  ready : call.hidden ≠ [] -> Ready metadata before
  run : tokenRun e call.weights before call.hidden = .ok after
  after_eq : output.states call.layerIdx = some after
  others : forall layerIdx, layerIdx ≠ call.layerIdx ->
    output.states layerIdx = states layerIdx

variable {states : SsmStates F} {call : GdnCall F metadata} {collector : GdnPrefixStateCollector F}

theorem forwardGdnLayerImpl_returns {output : ForwardOutput F}
    (h : forwardGdnLayerImpl e policy states call (some collector) = .ok output)
    (hordered : collector.Ordered) :
    exists before after following, LayerDone e states call output before after ∧
      output.collector = some following ∧
        List.Forall₂
          (SlotStep call.hidden.length
            (LayerRestores e call.weights call.layerIdx before call.hidden))
          collector.slots following.slots := by
  unfold forwardGdnLayerImpl at h
  cases hstate : states call.layerIdx with
  | none =>
    rw [hstate] at h
    cases h
  | some before =>
    rw [hstate] at h
    rcases bind_eq_ok h with ⟨result, hresult, h⟩
    cases h
    have hlayer : (call.hidden ≠ [] -> Ready metadata before) ∧
        tokenRun e call.weights before call.hidden = .ok result.state ∧
        exists following, result.collector = some following ∧
          List.Forall₂
            (SlotStep call.hidden.length
              (LayerRestores e call.weights call.layerIdx before call.hidden))
            collector.slots following.slots := by
      unfold forwardGdnLayerState at hresult
      split at hresult
      · rcases forwardFullCore_returns hresult with ⟨hready, hrun, hslots⟩
        exact ⟨hready, hrun, hslots collector rfl hordered⟩
      · rcases forwardWindow_returns _ _ result hresult with ⟨scanned, hdone⟩
        have hrun := tokenRun_take hdone.ready (Nat.le_refl _) hdone.all
        rw [List.take_length] at hrun
        refine ⟨fun _ => hdone.ready, ?_, hdone.slotSteps hordered⟩
        rw [hdone.state_eq]
        exact hrun
    rcases hlayer with ⟨hready, hrun, following, hfollowing, hslots⟩
    refine ⟨before, result.state, following, ?_, hfollowing, hslots⟩
    constructor
    · exact hstate
    · exact hready
    · exact hrun
    · exact if_pos rfl
    · intro layerIdx hother
      exact if_neg hother

theorem feedTokens_of_tokenRun {w : GdnLayerWeights F metadata} {layerIdx : Nat}
    {rows : List (List F)} {before after : SsmLayerState F}
    (hbefore : states layerIdx = some before) (hready : rows ≠ [] -> Ready metadata before)
    (h : tokenRun e w before rows = .ok after) :
    exists fed, feedTokens e policy states layerIdx w rows = .ok fed ∧
      fed layerIdx = some after := by
  induction rows generalizing states before with
  | nil =>
    cases h
    exact ⟨states, rfl, hbefore⟩
  | cons row rows ih =>
    have hready := hready (List.cons_ne_nil row rows)
    unfold tokenRun at h
    rw [List.foldlM_cons] at h
    rcases bind_eq_ok h with ⟨next, hnext, h⟩
    have hcall : exists output, forwardWindow e w policy layerIdx before [row] none =
        .ok output ∧ output.state = next :=
      forwardWindow_singleton hready hnext
    rcases hcall with ⟨output, houtput, hstate⟩
    have hlayer : exists output, forwardGdnLayerImpl e policy states
        { layerIdx := layerIdx
          weights := w
          hidden := [row] }
        none = .ok output ∧ output.states layerIdx = some next := by
      unfold forwardGdnLayerImpl
      dsimp only
      rw [hbefore]
      unfold forwardGdnLayerState
      dsimp only
      rw [if_neg (fun hdecode => by cases hdecode.1), houtput, ok_bind]
      refine ⟨_, rfl, ?_⟩
      rw [← hstate]
      exact if_pos rfl
    rcases hlayer with ⟨called, hcalled, hafter⟩
    rcases ih hafter (fun _ => hready.tokenStep hnext) h with ⟨fed, hfed, hfinal⟩
    refine ⟨fed, ?_, hfinal⟩
    unfold feedTokens at hfed ⊢
    rw [List.foldlM_cons, hcalled, ok_bind]
    exact hfed

/-!
# All layers
-/

def RestoresRun (e : Elementary F) (states : SsmStates F) (prefixTokens : Nat)
    (call : GdnCall F metadata) (record : VerifyWindowSsmLayerPrefixState F) : Prop :=
  exists before, states call.layerIdx = some before ∧
    (call.hidden ≠ [] -> Ready metadata before) ∧
    LayerRestores e call.weights call.layerIdx before call.hidden prefixTokens record

def EndsRun (e : Elementary F) (states final : SsmStates F) (call : GdnCall F metadata) : Prop :=
  exists before after, states call.layerIdx = some before ∧
    (call.hidden ≠ [] -> Ready metadata before) ∧
    tokenRun e call.weights before call.hidden = .ok after ∧
    final call.layerIdx = some after

structure SlotRun (e : Elementary F) (seqLen : Nat) (states : SsmStates F)
    (calls : List (GdnCall F metadata)) (slot following : PrefixSlot F) : Prop where
  same : following.prefixTokens = slot.prefixTokens
  complete : following.incompleteLayer = none -> slot.incompleteLayer = none
  outside : ¬ Snapshots seqLen slot.prefixTokens -> following.layers = slot.layers
  inside : Snapshots seqLen slot.prefixTokens -> following.incompleteLayer = none ->
    exists records,
      List.Forall₂ (RestoresRun e states slot.prefixTokens) calls records ∧
        following.layers = slot.layers ++ records

variable {calls : List (GdnCall F metadata)} {seqLen : Nat}

theorem slotRun_cons {states next : SsmStates F} {before : SsmLayerState F}
    {slot middle following : PrefixSlot F} (hbefore : states call.layerIdx = some before)
    (hready : call.hidden ≠ [] -> Ready metadata before)
    (hothers : forall other, other ∈ calls -> next other.layerIdx = states other.layerIdx)
    (hstep : SlotStep seqLen (LayerRestores e call.weights call.layerIdx before call.hidden) slot
      middle) (hrest : SlotRun e seqLen next calls middle following) :
    SlotRun e seqLen states (call :: calls) slot following := by
  constructor
  · exact hrest.same.trans hstep.same
  · intro hnone
    exact hstep.complete (hrest.complete hnone)
  · intro houtside
    rw [← hstep.outside houtside]
    apply hrest.outside
    rw [hstep.same]
    exact houtside
  · intro hinside hnone
    rcases hstep.inside hinside (hrest.complete hnone) with ⟨record, hrecord, hmiddle⟩
    rw [← hstep.same] at hinside
    rcases hrest.inside hinside hnone with ⟨records, hrecords, hfollowing⟩
    refine ⟨record :: records, List.Forall₂.cons ⟨before, hbefore, hready, hrecord⟩ ?_, ?_⟩
    · rw [hstep.same] at hrecords
      have hboth := (List.forall₂_and_left (p := fun other => other ∈ calls) _ _).mpr
        ⟨fun _ hother => hother, hrecords⟩
      apply hboth.imp
      intro other captured hcaptured
      rcases hcaptured with ⟨hother, state, hstate, hrestores⟩
      exact ⟨state, (hothers other hother).symm.trans hstate, hrestores⟩
    · rw [hfollowing, hmiddle, List.append_assoc]
      rfl

theorem slotRun_nil (slot : PrefixSlot F) :
    SlotRun e seqLen states ([] : List (GdnCall F metadata)) slot slot where
  same := rfl
  complete := fun hnone => hnone
  outside := fun _ => rfl
  inside := fun _ _ => ⟨[], List.Forall₂.nil, (List.append_nil _).symm⟩

theorem forwardGdnLayers_others {states final : SsmStates F}
    {following : Option (GdnPrefixStateCollector F)} {layerIdx : Nat} (hordered : collector.Ordered)
    (h : forwardGdnLayers e policy states (some collector) calls = .ok (final, following))
    (hother : layerIdx ∉ calls.map GdnCall.layerIdx) :
    final layerIdx = states layerIdx := by
  induction calls generalizing states collector with
  | nil =>
    cases h
    rfl
  | cons call calls ih =>
    unfold forwardGdnLayers at h
    rcases bind_eq_ok h with ⟨output, houtput, h⟩
    rcases forwardGdnLayerImpl_returns houtput hordered with
      ⟨before, after, middle, hdone, hmiddle, hslots⟩
    rw [List.map_cons, List.mem_cons, not_or] at hother
    rw [hmiddle] at h
    rw [ih (ordered_of_slotSteps hordered hslots) h hother.2, hdone.others _ hother.1]

theorem forwardGdnLayers_returns {states final : SsmStates F}
    {following : Option (GdnPrefixStateCollector F)} (hlayers : (calls.map GdnCall.layerIdx).Nodup)
    (hwindow : forall call, call ∈ calls -> call.hidden.length = seqLen)
    (hordered : collector.Ordered)
    (h : forwardGdnLayers e policy states (some collector) calls = .ok (final, following)) :
    (forall call, call ∈ calls -> EndsRun e states final call) ∧
      exists gathered, following = some gathered ∧
        List.Forall₂ (SlotRun e seqLen states calls) collector.slots gathered.slots := by
  induction calls generalizing states collector with
  | nil =>
    cases h
    constructor
    · intro call hcall
      cases hcall
    · exact ⟨collector, rfl, forall₂_same (fun slot _ => slotRun_nil slot)⟩
  | cons call calls ih =>
    unfold forwardGdnLayers at h
    rcases bind_eq_ok h with ⟨output, houtput, h⟩
    rcases forwardGdnLayerImpl_returns houtput hordered with
      ⟨before, after, middle, hdone, hmiddle, hslots⟩
    rw [List.map_cons, List.nodup_cons] at hlayers
    rw [hmiddle] at h
    have hnext := ordered_of_slotSteps hordered hslots
    have hothers : forall other, other ∈ calls ->
        output.states other.layerIdx = states other.layerIdx := by
      intro other hother
      apply hdone.others
      intro hsame
      exact hlayers.1 (hsame ▸ List.mem_map.mpr ⟨other, hother, rfl⟩)
    rcases ih hlayers.2 (fun other hother => hwindow other (List.mem_cons_of_mem _ hother)) hnext
      h with ⟨hends, gathered, hgathered, hruns⟩
    constructor
    · intro other hother
      rcases List.mem_cons.mp hother with hhead | htail
      · rw [hhead]
        refine ⟨before, after, hdone.before_eq, hdone.ready, hdone.run, ?_⟩
        rw [forwardGdnLayers_others hnext h hlayers.1]
        exact hdone.after_eq
      · rcases hends other htail with ⟨state, reached, hstate, hrest⟩
        exact ⟨state, reached, (hothers other htail).symm.trans hstate, hrest⟩
    · refine ⟨gathered, hgathered, ?_⟩
      rw [hwindow call List.mem_cons_self] at hslots
      exact forall₂_comp hslots hruns (fun slot middle following hstep hrun =>
        slotRun_cons hdone.before_eq hdone.ready hothers hstep hrun)

/-!
# Tokens in calls of their own
-/

/-- The record restores what the layer holds when so many of its tokens were fed one by
one, from the states in front of the window. -/
def Restores (e : Elementary F) (policy : VerifyPolicy) (states : SsmStates F)
    (prefixTokens : Nat) (call : GdnCall F metadata)
    (record : VerifyWindowSsmLayerPrefixState F) : Prop :=
  record.layerIdx = call.layerIdx ∧
    exists before fed reached, states call.layerIdx = some before ∧
      feedTokens e policy states call.layerIdx call.weights (call.hidden.take prefixTokens) =
        .ok fed ∧
      fed call.layerIdx = some reached ∧
      record.convState = reached.convState ∧
      record.restoredDelta e before.deltaState = .ok reached.deltaState

def EndsFed (e : Elementary F) (policy : VerifyPolicy) (states final : SsmStates F)
    (call : GdnCall F metadata) : Prop :=
  exists fed after,
    feedTokens e policy states call.layerIdx call.weights call.hidden = .ok fed ∧
      fed call.layerIdx = some after ∧ final call.layerIdx = some after

theorem RestoresRun.restores {prefixTokens : Nat} {record : VerifyWindowSsmLayerPrefixState F}
    (h : RestoresRun e states prefixTokens call record) :
    Restores e policy states prefixTokens call record := by
  rcases h with ⟨before, hbefore, hready, hlayer, reached, hreached, hconv, hdelta⟩
  have hready : call.hidden.take prefixTokens ≠ [] -> Ready metadata before := by
    intro hne
    apply hready
    intro hnil
    rw [hnil, List.take_nil] at hne
    exact hne rfl
  have hfeed : exists fed, feedTokens e policy states call.layerIdx call.weights
      (call.hidden.take prefixTokens) = .ok fed ∧ fed call.layerIdx = some reached :=
    feedTokens_of_tokenRun hbefore hready hreached
  rcases hfeed with ⟨fed, hfed, hafter⟩
  exact ⟨hlayer, before, fed, reached, hbefore, hfed, hafter, hconv, hdelta⟩

theorem EndsRun.fed {states final : SsmStates F} (h : EndsRun e states final call) :
    EndsFed e policy states final call := by
  rcases h with ⟨before, after, hbefore, hready, hrun, hfinal⟩
  have hfeed : exists fed, feedTokens e policy states call.layerIdx call.weights call.hidden =
      .ok fed ∧ fed call.layerIdx = some after :=
    feedTokens_of_tokenRun hbefore hready hrun
  rcases hfeed with ⟨fed, hfed, hafter⟩
  exact ⟨fed, after, hfed, hafter, hfinal⟩

/-!
# The finished collector
-/

variable {finished : VerifyWindowPrefixState F} {slot : PrefixSlot F}

omit [Field F] in
theorem finishSlot_eq_ok (h : GdnPrefixStateCollector.finishSlot slot = .ok finished) :
    slot.incompleteLayer = none ∧ slot.layers ≠ [] ∧
      finished.prefixTokens = slot.prefixTokens ∧ finished.layers = slot.layers := by
  unfold GdnPrefixStateCollector.finishSlot at h
  cases hincomplete : slot.incompleteLayer with
  | some layerIdx =>
    rw [hincomplete] at h
    cases h
  | none =>
    rw [hincomplete] at h
    dsimp only at h
    split at h
    · cases h
    · rename_i hlayers
      cases h
      exact ⟨rfl, fun hnil => hlayers (List.isEmpty_iff.mpr hnil), rfl, rfl⟩

def Handed (e : Elementary F) (seqLen : Nat) (states : SsmStates F)
    (calls : List (GdnCall F metadata)) (slot : PrefixSlot F)
    (finished : VerifyWindowPrefixState F) : Prop :=
  exists following, SlotRun e seqLen states calls slot following ∧
    GdnPrefixStateCollector.finishSlot following = .ok finished

theorem Handed.same (h : Handed e seqLen states calls slot finished) :
    finished.prefixTokens = slot.prefixTokens := by
  rcases h with ⟨following, hrun, hfinish⟩
  rw [(finishSlot_eq_ok hfinish).2.2.1, hrun.same]

theorem same_of_handed {slots : List (PrefixSlot F)} {captured : List (VerifyWindowPrefixState F)}
    (h : List.Forall₂ (Handed e seqLen states calls) slots captured) :
    captured.map VerifyWindowPrefixState.prefixTokens = slots.map PrefixSlot.prefixTokens := by
  induction h with
  | nil => rfl
  | cons hhead _ ih => rw [List.map_cons, List.map_cons, hhead.same, ih]

theorem Handed.restores (h : Handed e seqLen states calls slot finished)
    (hempty : slot.layers = []) :
    List.Forall₂ (Restores e policy states slot.prefixTokens) calls finished.layers := by
  rcases h with ⟨following, hrun, hfinish⟩
  rcases finishSlot_eq_ok hfinish with ⟨hcomplete, hnonempty, _, hlayers⟩
  by_cases hinside : Snapshots seqLen slot.prefixTokens
  · rcases hrun.inside hinside hcomplete with ⟨records, hrecords, hfollowing⟩
    rw [hlayers, hfollowing, hempty, List.nil_append]
    exact hrecords.imp (fun _ _ hrecord => hrecord.restores)
  · exact absurd ((hrun.outside hinside).trans hempty) hnonempty

/-- If the collector hands its states back, each requested prefix has one record for each
layer, in their order, which restores the layer after so many tokens; and every layer ends
as if its tokens had come one by one. -/
theorem prefixStates_exact
    (e : Elementary F) (policy : VerifyPolicy) (states final : SsmStates F)
    (calls : List (GdnCall F metadata)) (seqLen : Nat) (requested : List Nat)
    (collector : GdnPrefixStateCollector F) (hlayers : (calls.map GdnCall.layerIdx).Nodup)
    (hwindow : forall call, call ∈ calls -> call.hidden.length = seqLen)
    (hrun : forwardGdnLayers e policy states (some (GdnPrefixStateCollector.newMany requested))
      calls = .ok (final, some collector)) :
    (forall captured, collector.finishManyRequired = .ok captured ->
        (captured.map VerifyWindowPrefixState.prefixTokens).Nodup ∧
          forall prefixTokens, prefixTokens ∈ requested ->
            exists state, state ∈ captured ∧ state.prefixTokens = prefixTokens ∧
              List.Forall₂ (Restores e policy states prefixTokens) calls state.layers) ∧
      forall call, call ∈ calls -> EndsFed e policy states final call := by
  have hordered := GdnPrefixStateCollector.ordered_newMany (F := F) requested
  rcases forwardGdnLayers_returns hlayers hwindow hordered hrun with
    ⟨hends, gathered, hsome, hslots⟩
  cases hsome
  constructor
  · intro captured hcaptured
    have hfinished := mapM_returns GdnPrefixStateCollector.finishSlot collector.slots captured
      hcaptured
    have hhanded : List.Forall₂ (Handed e seqLen states calls)
        (GdnPrefixStateCollector.newMany requested : GdnPrefixStateCollector F).slots captured :=
      forall₂_comp hslots hfinished (fun slot following finished hslot hfinish =>
        ⟨following, hslot, hfinish⟩)
    constructor
    · rw [same_of_handed hhanded]
      exact hordered.imp Nat.ne_of_lt
    · intro prefixTokens hrequested
      have hslot : { prefixTokens := prefixTokens, layers := [], incompleteLayer := none } ∈
          (GdnPrefixStateCollector.newMany requested : GdnPrefixStateCollector F).slots := by
        apply List.mem_map.mpr
        refine ⟨prefixTokens, ?_, rfl⟩
        rw [mem_dedup, List.mem_insertionSort]
        exact hrequested
      rcases exists_of_mem_of_forall₂ hhanded hslot with ⟨state, hstate, hhand⟩
      exact ⟨state, hstate, hhand.same, hhand.restores rfl⟩
  · intro call hcall
    exact (hends call hcall).fed

def tinyMetadata : GdnMetadata Rat where
  ssmDInner := 1
  ssmDState := 1
  ssmNGroup := 1
  ssmDtRank := 1
  ssmConvKernel := 2
  normEps := 1

/-- The first two terms of each series. -/
def tinyElementary : Elementary Rat where
  exp := fun x => 1 + x
  ln := fun x => x - 1
  sqrt := fun x => (1 + x) / 2

def tinyWeights : GdnLayerWeights Rat tinyMetadata where
  attnNorm := id
  qkvWeight := fun row => [entry row 0, entry row 0, entry row 0]
  gateWeight := fun row => [entry row 0]
  ssmAlpha := fun row => [entry row 0]
  ssmBeta := fun row => [entry row 0]
  ssmConv1d := [1, 0, 1, 1, 1, 1]
  ssmDtBias := [0]
  ssmA := [1]
  ssmNorm := id
  ssmOut := id
  sharedExpertMoe := none
  denseFfn := id
  length_qkvWeight := fun _ => rfl
  length_ssmAlpha := fun _ => rfl
  length_ssmBeta := fun _ => rfl

def tinyCall (layerIdx : Nat) : GdnCall Rat tinyMetadata where
  layerIdx := layerIdx
  weights := tinyWeights
  hidden := [[1], [2], [1]]

def tinyStates : SsmStates Rat := fun layerIdx =>
  if layerIdx = 3 ∨ layerIdx = 5 then
    some {
      convState := [7, 8, 9]
      deltaState := [5]
      convKernel := 2
      convChannels := 3 }
  else none

def tinyPolicy : VerifyPolicy where
  verifyTokens2Decode := false
  verifyTokens2FullCore := false

def tinyRun : Checked (SsmStates Rat × Option (GdnPrefixStateCollector Rat)) :=
  forwardGdnLayers tinyElementary tinyPolicy tinyStates
    (some (GdnPrefixStateCollector.newMany [1])) [tinyCall 3, tinyCall 5]

def deltaOf (states : SsmStates Rat) (layerIdx : Nat) : Option (List Rat) :=
  (states layerIdx).map SsmLayerState.deltaState

/-- Two layers over three tokens, whose states both move. -/
theorem prefixStates_exact_tiny :
    exists final collector captured, tinyRun = .ok (final, some collector) ∧
      deltaOf final 3 = some [48] ∧ deltaOf final 5 = some [48] ∧
      collector.finishManyRequired = .ok captured ∧
      (exists state, state ∈ captured ∧ state.prefixTokens = 1 ∧
        List.Forall₂ (Restores tinyElementary tinyPolicy tinyStates 1) [tinyCall 3, tinyCall 5]
          state.layers) ∧
      EndsFed tinyElementary tinyPolicy tinyStates final (tinyCall 5) := by
  have hreturns : (tinyRun.toOption.map fun result => (deltaOf result.1 3, deltaOf result.1 5,
      result.2.map fun collector => collector.finishManyRequired.toBool)) =
        some (some [48], some [48], some true) := by
    decide +kernel
  cases hrun : tinyRun with
  | error fault =>
    rw [hrun] at hreturns
    cases hreturns
  | ok result =>
    rcases result with ⟨final, collected⟩
    rw [hrun] at hreturns
    have hparts := Prod.ext_iff.mp (Option.some.inj hreturns)
    have hrest := Prod.ext_iff.mp hparts.2
    cases collected with
    | none => cases hrest.2
    | some collector =>
      cases hcaptured : collector.finishManyRequired with
      | error fault =>
        have hfinished : some collector.finishManyRequired.toBool = some true := hrest.2
        rw [hcaptured] at hfinished
        cases hfinished
      | ok captured =>
        have hexact := prefixStates_exact tinyElementary tinyPolicy tinyStates final
          [tinyCall 3, tinyCall 5] 3 [1] collector (by decide) (by decide) hrun
        exact ⟨final, collector, captured, rfl, hparts.1, hrest.1, hcaptured,
          (hexact.1 captured hcaptured).2 1 List.mem_cons_self, hexact.2 (tinyCall 5) (by simp)⟩

end Gdn
end RunNBurn
