import Mathlib.Algebra.Field.Basic
import RunNBurn.Gdn.Kernels

/-!
# The kernels token by token

Every kernel leaves at a token what it leaves in a call of its own for that token; the
convolution does so on the rows in front of the token, and the scan on its state.
-/

namespace RunNBurn
namespace Gdn

open Library

section KernelRows

variable {F : Type}

theorem part_eq_rowAt (xs : List F) (t width : Nat) : part xs
    (t * width) width = rowAt width xs t :=
  rfl

theorem length_part {xs : List F} {start count : Nat} (h : start + count <= xs.length) :
    (part xs start count).length = count := by
  unfold part
  rw [List.length_take, List.length_drop]
  omega

/-!
# Rows of a window
-/

variable {convState qkvData : List F}

theorem buildConvInput_eq_ok_iff {seqLen convChannels convKernel : Nat} {built : List F × List F}
    (hdata : qkvData.length = seqLen * convChannels) :
    buildConvInputAndAdvanceState convState qkvData seqLen convChannels convKernel = .ok built ↔
      0 < convKernel ∧ convState.length = (convKernel - 1) * convChannels ∧
        built = (convState ++ qkvData, historyAt convChannels convState qkvData seqLen) := by
  unfold buildConvInputAndAdvanceState
  have hstart : seqLen * convChannels <= (convState ++ qkvData).length := by
    rw [List.length_append, hdata]
    exact Nat.le_add_left _ _
  constructor
  · intro h
    rcases bind_eq_ok h with ⟨_, hkernel, h⟩
    rcases bind_eq_ok h with ⟨newState, hslice, h⟩
    rcases bind_eq_ok h with ⟨_, hlength, h⟩
    have hlength := require_eq_ok hlength
    cases h
    unfold slice at hslice
    split at hslice
    · rename_i hbounds
      cases hslice
      rw [Nat.add_sub_cancel_left] at hlength ⊢
      rw [List.length_take, List.length_drop, List.length_append, hdata] at hlength
      have hstate : convState.length = (convKernel - 1) * convChannels := by
        have hroom := hbounds.2
        rw [List.length_append, hdata] at hroom
        omega
      refine ⟨require_eq_ok hkernel, hstate, ?_⟩
      unfold historyAt
      rw [hstate]
    · cases hslice
  · rintro ⟨hkernel, hstate, rfl⟩
    have hroom : seqLen * convChannels + (convKernel - 1) * convChannels <=
        (convState ++ qkvData).length := by
      rw [List.length_append, hdata, hstate]
      omega
    rw [require_of_true _ hkernel, ok_bind]
    dsimp only
    rw [slice_of_le (Nat.le_add_right _ _) hroom, ok_bind, Nat.add_sub_cancel_left, ← hstate]
    have hlength : (historyAt convChannels convState qkvData seqLen).length = convState.length :=
      length_historyAt hdata (Nat.le_refl _)
    unfold historyAt at hlength ⊢
    rw [require_of_true _ hlength.symm]
    rfl

theorem part_convInput {convChannels convKernel : Nat} (hkernel : 0 < convKernel)
    (hstate : convState.length = (convKernel - 1) * convChannels) (t : Nat) :
    part (convState ++ qkvData) (t * convChannels) (convKernel * convChannels) =
      historyAt convChannels convState qkvData t ++ rowAt convChannels qkvData t := by
  rw [← take_drop_eq_historyAt, hstate, ← Nat.succ_mul, Nat.succ_eq_add_one,
    Nat.sub_add_cancel hkernel]
  rfl

theorem convStateAfterPrefixTokens_eq {convChannels convKernel : Nat}
    (hstate : convState.length = (convKernel - 1) * convChannels) (prefixTokens : Nat) :
    convStateAfterPrefixTokens (convState ++ qkvData) prefixTokens convChannels convKernel =
      historyAt convChannels convState qkvData prefixTokens := by
  unfold convStateAfterPrefixTokens historyAt
  rw [hstate]
  rfl

/-!
# Heads
-/

theorem perToken_part (width start count : Nat) (h : start + count <= width) :
    PerToken (fun n (data : List F) => (List.range n).flatMap fun t => part data (t * width + start)
      count)
      width count := by
  apply perToken_flatMap (fun row => part row start count)
  · intro n data _
    apply List.flatMap_congr
    intro t _
    exact (take_drop_take_drop data _ h).symm
  · intro row hrow
    exact length_part (by rw [hrow]; exact h)

theorem perToken_repeatHeads (numVHeads headKDim : Nat) {numKHeads : Nat} (hheads : numKHeads ≠ 0) :
    PerToken (fun n (data : List F) => repeatHeads data n numKHeads numVHeads headKDim)
      (numKHeads * headKDim) (numVHeads * headKDim) := by
  apply perToken_flatMap (fun row =>
    (List.range numVHeads).flatMap fun vh => rowAt headKDim row (vh % numKHeads))
  · intro n data _
    apply List.flatMap_congr
    intro t _
    apply List.flatMap_congr
    intro vh _
    rw [rowAt_rowAt _ (Nat.mod_lt vh (Nat.pos_of_ne_zero hheads))]
    rfl
  · intro row hrow
    apply length_flatMap_range
    intro vh _
    exact length_rowAt hrow (Nat.mod_lt vh (Nat.pos_of_ne_zero hheads))

def HeadsSpread (numKHeads numVHeads : Nat) : Prop :=
  numVHeads = numKHeads ∨ numKHeads ≠ 0 ∧ numVHeads % numKHeads = 0

def spreadHeads (raw : List F) (seqLen numKHeads numVHeads headKDim : Nat) : List F :=
  if numVHeads = numKHeads then raw else repeatHeads raw seqLen numKHeads numVHeads headKDim

theorem repeatQk_eq_ok_iff {qRaw kRaw : List F} {seqLen numKHeads numVHeads headKDim : Nat}
    {repeated : List F × List F} :
    repeatQkForValueHeads qRaw kRaw seqLen numKHeads numVHeads headKDim = .ok repeated ↔
      HeadsSpread numKHeads numVHeads ∧
        repeated = (spreadHeads qRaw seqLen numKHeads numVHeads headKDim,
          spreadHeads kRaw seqLen numKHeads numVHeads headKDim) := by
  unfold repeatQkForValueHeads HeadsSpread spreadHeads
  by_cases hsame : numVHeads = numKHeads
  · rw [if_pos hsame, if_pos hsame, if_pos hsame]
    constructor
    · intro h
      cases h
      exact ⟨Or.inl hsame, rfl⟩
    · intro h
      rw [h.2]
  · rw [if_neg hsame, if_neg hsame, if_neg hsame]
    constructor
    · intro h
      rcases bind_eq_ok h with ⟨_, hzero, h⟩
      rcases bind_eq_ok h with ⟨_, hspread, h⟩
      cases h
      exact ⟨Or.inr ⟨require_eq_ok hzero, require_eq_ok hspread⟩, rfl⟩
    · intro h
      rcases h with ⟨heq | ⟨hzero, hspread⟩, rfl⟩
      · exact absurd heq hsame
      · rw [require_of_true _ hzero, ok_bind, require_of_true _ hspread]
        rfl

theorem perToken_spreadHeads {numKHeads numVHeads : Nat} (h : HeadsSpread numKHeads numVHeads)
    (headKDim : Nat) :
    PerToken (fun n (data : List F) => spreadHeads data n numKHeads numVHeads headKDim)
      (numKHeads * headKDim) (numVHeads * headKDim) := by
  unfold spreadHeads
  by_cases hsame : numVHeads = numKHeads
  · simp only [if_pos hsame]
    rw [hsame]
    constructor
    · intro n data hdata
      exact hdata
    · intro n t data _ _
      rfl
  · simp only [if_neg hsame]
    rcases h with heq | hspread
    · exact absurd heq hsame
    · exact perToken_repeatHeads numVHeads headKDim hspread.1

/-!
# Arithmetic of a row
-/

variable [Field F]

theorem entry_part {xs : List F} {start count i : Nat} (h : i < count) :
    entry (part xs start count) i = entry xs (start + i) := by
  unfold entry part
  rw [List.getD_eq_getElem?_getD, List.getD_eq_getElem?_getD, List.getElem?_take_of_lt h,
    List.getElem?_drop]

theorem entry_rowAt {xs : List F} {width t i : Nat} (h : i < width) :
    entry (rowAt width xs t) i = entry xs (t * width + i) :=
  entry_part h

variable (e : Elementary F)

theorem length_ssmConv1dSilu (input kernel : List F) (seqLen channels kernelSize : Nat) :
    (ssmConv1dSilu e input kernel seqLen channels kernelSize).length = seqLen * channels := by
  apply length_flatMap_range
  intro t _
  rw [List.length_map, List.length_range]

theorem rowAt_ssmConv1dSilu (input kernel : List F) {seqLen channels kernelSize t : Nat}
    (ht : t < seqLen) :
    rowAt channels (ssmConv1dSilu e input kernel seqLen channels kernelSize) t =
      ssmConv1dSilu e (part input (t * channels) (kernelSize * channels)) kernel 1 channels
        kernelSize := by
  unfold ssmConv1dSilu
  rw [rowAt_flatMap_range (fun t _ => by rw [List.length_map, List.length_range]) ht,
    List.range_one, List.flatMap_singleton]
  apply List.map_congr_left
  intro c hc
  rw [List.mem_range] at hc
  congr 1
  apply List.foldl_ext
  intro sum k hk
  have hk := List.mem_range.mp hk
  have hroom : (k + 1) * channels <= kernelSize * channels := Nat.mul_le_mul_right channels hk
  rw [Nat.succ_mul] at hroom
  rw [entry_part (by rw [Nat.zero_add]; omega), Nat.zero_add, Nat.add_mul, Nat.add_assoc]

theorem perToken_l2NormInto (eps : F) (dim : Nat) :
    PerToken (fun _ data => l2NormInto e data eps dim) dim dim := by
  apply perToken_flatMap (fun rowData =>
    rowData.map fun x => x * (1 / e.sqrt (rowData.foldl (fun sum x => sum + x * x) 0 + eps)))
  · intro n data hdata
    unfold l2NormInto
    rcases Nat.eq_zero_or_pos dim with hzero | hpos
    · rw [hzero]
      simp [rowAt]
    · rw [hdata, Nat.mul_div_cancel n hpos]
      rfl
  · intro row hrow
    rw [List.length_map, hrow]

theorem perToken_applyDtGate (dtBias ssmA : List F) (numVHeads : Nat) :
    PerToken (fun n data => applyDtGateInplace e data dtBias ssmA n numVHeads) numVHeads
      numVHeads := by
  apply perToken_flatMap (fun row => (List.range numVHeads).map fun h =>
    e.ln (1 + e.exp (entry row h + entry dtBias h)) * entry ssmA h)
  · intro n data _
    apply List.flatMap_congr
    intro t _
    apply List.map_congr_left
    intro h hh
    rw [entry_rowAt (List.mem_range.mp hh)]
  · intro row _
    rw [List.length_map, List.length_range]

end KernelRows

/-!
# The scan token by token

The state that a scan leaves is that of one step for each token, and a scan in segments
passes through the states of the scan at once.
-/

section ScanRows

variable {F : Type}

theorem lookup_append_singleton {value : Type} {requested key : Nat} {kept state : value}
    {snapshots : List (Nat × value)}
    (h : (snapshots ++ [(key, state)]).lookup requested = some kept) :
    snapshots.lookup requested = some kept ∨ requested = key ∧ state = kept := by
  rw [List.lookup_append] at h
  cases hfirst : snapshots.lookup requested with
  | some found =>
    rw [hfirst] at h
    exact Or.inl h
  | none =>
    rw [hfirst, Option.none_or] at h
    rw [List.lookup_cons] at h
    by_cases hkey : requested = key
    · rw [beq_iff_eq.mpr hkey] at h
      exact Or.inr ⟨hkey, Option.some.inj h⟩
    · rw [beq_false_of_ne hkey] at h
      cases h

theorem stepHeads_congr {first second : Nat -> List F -> List F} {numHeads : Nat}
    (h : forall head, head < numHeads -> forall state, first head state = second head state)
    (stateSize : Nat) (state : List F) :
    stepHeads first numHeads stateSize state = stepHeads second numHeads stateSize state := by
  unfold stepHeads
  have hheads : (List.range numHeads).flatMap
        (fun head => first head (part state (head * stateSize) stateSize)) =
      (List.range numHeads).flatMap
        (fun head => second head (part state (head * stateSize) stateSize)) := by
    apply List.flatMap_congr
    intro head hhead
    exact h head (List.mem_range.mp hhead) _
  rw [hheads]

variable [Field F]

section Scan

variable (e : Elementary F) (k v gate beta : List F) (numHeads headKDim headVDim : Nat)

def scanStep (state : List F) (t : Nat) : Checked (List F) :=
  deltaNetStepStateOnly e (rowAt (numHeads * headKDim) k t) (rowAt (numHeads * headVDim) v t)
    (rowAt numHeads gate t) (rowAt numHeads beta t) state numHeads headKDim headVDim

/-- So many tokens of a window, from `start` on. -/
def scanSteps (start count : Nat) (state : List F) : Checked (List F) :=
  (List.range' start count).foldlM (scanStep e k v gate beta numHeads headKDim headVDim) state

theorem scanSteps_zero (start : Nat) (state : List F) :
    scanSteps e k v gate beta numHeads headKDim headVDim start 0 state = .ok state := rfl

theorem scanSteps_add (start first second : Nat) (state : List F) :
    scanSteps e k v gate beta numHeads headKDim headVDim start (first + second) state =
      scanSteps e k v gate beta numHeads headKDim headVDim start first state >>=
        scanSteps e k v gate beta numHeads headKDim headVDim (start + first) second := by
  unfold scanSteps
  rw [← List.range'_append_1, List.foldlM_append]

theorem scanSteps_succ (start count : Nat) (state : List F) :
    scanSteps e k v gate beta numHeads headKDim headVDim start (count + 1) state =
      scanSteps e k v gate beta numHeads headKDim headVDim start count state >>= fun state =>
        scanStep e k v gate beta numHeads headKDim headVDim state (start + count) := by
  rw [scanSteps_add]
  congr 1
  funext state
  unfold scanSteps
  rw [List.range'_succ, List.foldlM_cons]
  cases scanStep e k v gate beta numHeads headKDim headVDim state (start + count) with
  | error fault => rfl
  | ok following => rfl

theorem stepHeads_window (t : Nat) (state : List F) :
    stepHeads
        (fun h => fun stateH =>
          deltaNetStepScalarHead (part k ((t * numHeads + h) * headKDim) headKDim)
            (part v ((t * numHeads + h) * headVDim) headVDim)
            (e.exp (entry gate (t * numHeads + h))) (entry beta (t * numHeads + h)) stateH
            headKDim headVDim)
        numHeads (headVDim * headKDim) state =
      scanStep e k v gate beta numHeads headKDim headVDim state t := by
  unfold scanStep deltaNetStepStateOnly
  apply stepHeads_congr
  intro head hhead stateH
  rw [entry_rowAt hhead, entry_rowAt hhead, part_eq_rowAt, part_eq_rowAt, part_eq_rowAt,
    part_eq_rowAt, rowAt_rowAt _ hhead, rowAt_rowAt _ hhead]

theorem deltaNetScan_eq_ok_iff {q state final : List F} {seqLen : Nat} :
    (exists output, deltaNetScan e q k v gate beta state seqLen numHeads headKDim headVDim =
        .ok (output, final)) ↔
      scanSteps e k v gate beta numHeads headKDim headVDim 0 seqLen state = .ok final := by
  unfold deltaNetScan scanSteps
  simp only [stepHeads_window]
  rw [List.range_eq_range']
  exact foldlM_gather_eq_ok_iff (scanStep e k v gate beta numHeads headKDim headVDim)
    (fun output t state => output ++ scanOutput q state t numHeads headKDim headVDim)

/-!
# Segments
-/

theorem scanSteps_segment {start count length : Nat} (h : count <= length) (state : List F) :
    scanSteps e (part k (start * (numHeads * headKDim)) (length * (numHeads * headKDim)))
        (part v (start * (numHeads * headVDim)) (length * (numHeads * headVDim)))
        (part gate (start * numHeads) (length * numHeads))
        (part beta (start * numHeads) (length * numHeads)) numHeads headKDim headVDim 0 count
        state =
      scanSteps e k v gate beta numHeads headKDim headVDim start count state := by
  induction count with
  | zero => rfl
  | succ count ih =>
    rw [scanSteps_succ, scanSteps_succ, ih (Nat.le_of_succ_le h), Nat.zero_add]
    congr 1
    funext state
    unfold scanStep part
    rw [rowAt_take_drop k start h, rowAt_take_drop v start h, rowAt_take_drop gate start h,
      rowAt_take_drop beta start h]

structure SegmentsSound (seqLen : Nat) (initial : List F) (segments : ScanSegments F) : Prop where
  start_le : segments.segmentStart <= seqLen
  state : scanSteps e k v gate beta numHeads headKDim headVDim 0 segments.segmentStart initial =
    .ok segments.deltaState
  kept : forall requested state, segments.snapshots.lookup requested = some state ->
    scanSteps e k v gate beta numHeads headKDim headVDim 0 requested initial = .ok state

theorem scanSegment_returns (q initial : List F) {seqLen segmentEnd : Nat}
    {segments : ScanSegments F}
    (h : SegmentsSound e k v gate beta numHeads headKDim headVDim seqLen initial segments) :
    Returns
      (scanSegment e q k v gate beta seqLen numHeads headKDim headVDim segments segmentEnd)
      (fun following =>
        SegmentsSound e k v gate beta numHeads headKDim headVDim seqLen initial following ∧
          (segmentEnd <= seqLen -> segmentEnd <= following.segmentStart)) := by
  intro following hfollowing
  unfold scanSegment at hfollowing
  split at hfollowing
  · rename_i hskip
    cases hfollowing
    refine ⟨h, ?_⟩
    intro hend
    rcases hskip with hbehind | hbeyond
    · exact hbehind
    · exact absurd hend (Nat.not_le_of_lt hbeyond)
  · rename_i hahead
    rcases bind_eq_ok hfollowing with ⟨scanned, hscanned, hfollowing⟩
    cases hfollowing
    have hlt : segments.segmentStart < segmentEnd := Nat.lt_of_not_le
      (fun hle => hahead (Or.inl hle))
    have hend : segmentEnd <= seqLen := Nat.le_of_not_lt (fun hlt => hahead (Or.inr hlt))
    have hlength : segments.segmentStart + (segmentEnd - segments.segmentStart) = segmentEnd := by
      omega
    have hreached : scanSteps e k v gate beta numHeads headKDim headVDim 0 segmentEnd initial =
        .ok scanned.2 := by
      have hsegment := (deltaNetScan_eq_ok_iff ..).mp ⟨scanned.1, hscanned⟩
      rw [scanSteps_segment _ _ _ _ _ _ _ _ (Nat.le_refl _)] at hsegment
      rw [← hlength, scanSteps_add, h.state, ok_bind, Nat.zero_add]
      exact hsegment
    refine ⟨⟨hend, hreached, ?_⟩, fun _ => Nat.le_refl _⟩
    intro requested state hkept
    dsimp only at hkept
    split at hkept
    · rcases lookup_append_singleton hkept with hold | ⟨hkey, hstate⟩
      · exact h.kept requested state hold
      · rw [hkey, ← hstate]
        exact hreached
    · exact h.kept requested state hkept

theorem deltaNetScanPrefillWithSnapshots_returns (q initial : List F) (seqLen : Nat)
    (snapshotTokens : List Nat) :
    Returns
      (deltaNetScanPrefillWithSnapshots e q k v gate beta initial seqLen numHeads headKDim headVDim
        snapshotTokens)
      (fun segments =>
        SegmentsSound e k v gate beta numHeads headKDim headVDim seqLen initial segments ∧
          segments.segmentStart = seqLen) := by
  unfold deltaNetScanPrefillWithSnapshots
  rw [List.foldlM_append]
  have hrun : Returns
      (snapshotTokens.foldlM (scanSegment e q k v gate beta seqLen numHeads headKDim headVDim)
        { output := []
          snapshots := []
          segmentStart := 0
          deltaState := initial })
      (SegmentsSound e k v gate beta numHeads headKDim headVDim seqLen initial) := by
    apply foldlM_returns
    · refine ⟨Nat.zero_le _, rfl, ?_⟩
      intro requested state hkept
      cases hkept
    · intro segmentEnd _ segments hsound
      exact (scanSegment_returns e k v gate beta numHeads headKDim headVDim q initial hsound).mono
        (fun _ hfollowing => hfollowing.1)
  have hlast : forall segments,
      SegmentsSound e k v gate beta numHeads headKDim headVDim seqLen initial segments ->
      Returns
        ([seqLen].foldlM (scanSegment e q k v gate beta seqLen numHeads headKDim headVDim) segments)
        (fun following =>
          SegmentsSound e k v gate beta numHeads headKDim headVDim seqLen initial following ∧
            following.segmentStart = seqLen) := by
    intro segments hsound following hfollowing
    rw [List.foldlM_cons] at hfollowing
    rcases bind_eq_ok hfollowing with ⟨final, hfinal, hdone⟩
    cases hdone
    have hend := scanSegment_returns e k v gate beta numHeads headKDim headVDim q initial hsound
      following hfinal
    exact ⟨hend.1, Nat.le_antisymm hend.1.start_le (hend.2 (Nat.le_refl _))⟩
  exact hrun.bind hlast

end Scan

end ScanRows

end Gdn
end RunNBurn
