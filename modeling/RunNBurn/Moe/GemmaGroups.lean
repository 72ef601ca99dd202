import RunNBurn.Moe.GemmaExpertMajor

/-!
# The groups of the expert-major prefill

The groups cut the slots into pieces.  The places of the routes are all different, so that the
rows that are scattered group by group stand where any other order would have put them.
-/

namespace RunNBurn
namespace Moe

open Library

variable {F scratch : Type}

/-!
## The shape of the groups
-/

theorem gemmaExpertGroupShape_delivers (slots : List (GemmaRouteSlot F)) :
    Delivers (gemmaExpertGroupShape slots) (fun shape =>
      forall r, r ∈ runs GemmaRouteSlot.expert slots -> r.stop - r.start <= shape.2) := by
  unfold gemmaExpertGroupShape
  apply forRuns_delivers (fun earlier (shape : Nat × Nat) =>
    forall r, r ∈ earlier -> r.stop - r.start <= shape.2)
  · intro r hr
    cases hr
  · intro earlier r later shape hsplit hrun hshape
    apply delivers_ok
    intro other hother
    rcases List.mem_append.mp hother with hearlier | hlast
    · exact Nat.le_trans (hshape other hearlier) (Nat.le_max_left _ _)
    · rw [List.mem_singleton.mp hlast]
      exact Nat.le_max_right _ _

/-!
## Gathering
-/

def overRows {entry : Type} (first : List (List entry)) (rows : Nat -> List entry) :
    Nat -> List entry :=
  fun t => first.getD t (rows t)

theorem update_overRows {entry : Type} (first : List (List entry)) (row : List entry)
    (rows : Nat -> List entry) :
    Function.update (overRows first rows) first.length row = overRows (first ++ [row]) rows := by
  funext t
  unfold overRows
  rw [List.getD_eq_getElem?_getD, List.getElem?_append]
  rcases Nat.lt_trichotomy t first.length with hless | hsame | hgreater
  · rw [Function.update_of_ne (Nat.ne_of_lt hless), if_pos hless, List.getD_eq_getElem?_getD]
  · rw [hsame, Function.update_self, if_neg (Nat.lt_irrefl _), Nat.sub_self]
    rfl
  · have hpast : [row][t - first.length]? = none := by
      rw [List.getElem?_eq_none_iff]
      exact Nat.sub_pos_of_lt hgreater
    have hnone : first[t]? = none := by
      rw [List.getElem?_eq_none_iff]
      exact Nat.le_of_lt hgreater
    rw [Function.update_of_ne (Nat.ne_of_gt hgreater), if_neg (Nat.not_lt_of_gt hgreater), hpast,
      List.getD_eq_getElem?_getD, hnone]

variable {rows : Nat -> List F}

theorem gatherExpertInput_delivers {slots : List (GemmaRouteSlot F)}
    {moeInput expertInput : List F} {hiddenDim seqLen room : Nat}
    (hinput : moeInput.length = seqLen * hiddenDim)
    (htokens : forall slot, slot ∈ slots -> slot.token < seqLen) (hroom : slots.length <= room)
    (hrows : HoldsRows hiddenDim room rows expertInput) :
    Delivers (gatherExpertInput slots moeInput hiddenDim expertInput)
      (HoldsRows hiddenDim room
        (overRows (slots.map fun slot => rowAt hiddenDim moeInput slot.token) rows)) := by
  unfold gatherExpertInput
  apply forEnumerated_delivers (fun (earlier : List (GemmaRouteSlot F)) => HoldsRows hiddenDim room
    (overRows (earlier.map fun slot => rowAt hiddenDim moeInput slot.token) rows))
  · exact hrows
  · intro earlier slot later expertInput hsplit hholds
    have hmem : slot ∈ slots := by
      rw [hsplit]
      exact List.mem_append_right earlier List.mem_cons_self
    have hplace : earlier.length < room := by
      rw [hsplit, List.length_append, List.length_cons] at hroom
      omega
    have htoken := htokens slot hmem
    have hrow := length_rowAt hinput htoken
    rw [(HoldsRows.of_rowAt hinput).slice_eq htoken, ok_bind]
    have hcopy : copyFromSlice (rowAt hiddenDim moeInput slot.token)
        (overRows (earlier.map fun slot => rowAt hiddenDim moeInput slot.token) rows
          earlier.length) = .ok (rowAt hiddenDim moeInput slot.token) := by
      unfold copyFromSlice
      rw [require_of_true _ (by rw [hrow, hholds.length_row hplace])]
      rfl
    have hupdate := hholds.updateSlice hplace hcopy hrow
    have hlength : earlier.length =
        (earlier.map fun slot => rowAt hiddenDim moeInput slot.token).length := by
      rw [List.length_map]
    nth_rewrite 3 [hlength] at hupdate
    rw [update_overRows] at hupdate
    rw [List.map_append]
    exact hupdate

/-!
## Scattering and reducing
-/

theorem scatterWeightedExpertGroup_delivers {f32 : FloatOps F} {slots : List (GemmaRouteSlot F)}
    {expertOutput rankedOutput : List F} {downScale : F} {nExpertUsed hiddenDim routes : Nat}
    {source rows : Nat -> List F} (output : GemmaRouteSlot F -> List F)
    (hroutes : forall slot, slot ∈ slots -> slot.route nExpertUsed < routes)
    (hsource : HoldsRows hiddenDim slots.length source expertOutput)
    (houtput : forall (t : Nat) slot, slots[t]? = some slot -> source t = output slot)
    (hrows : HoldsRows hiddenDim routes rows rankedOutput) :
    Delivers (scatterWeightedExpertGroup f32 slots expertOutput downScale nExpertUsed hiddenDim
        rankedOutput)
      (HoldsRows hiddenDim routes (scatterRows (GemmaRouteSlot.route nExpertUsed)
        (fun slot => (output slot).map fun value =>
          f32.mul value (f32.mul slot.weight downScale)) slots rows)) := by
  unfold scatterWeightedExpertGroup
  apply forEnumerated_delivers (fun (earlier : List (GemmaRouteSlot F)) =>
    HoldsRows hiddenDim routes (scatterRows (GemmaRouteSlot.route nExpertUsed)
      (fun slot => (output slot).map fun value =>
        f32.mul value (f32.mul slot.weight downScale)) earlier rows))
  · exact hrows
  · intro earlier slot later rankedOutput hsplit hholds
    have hget : slots[earlier.length]? = some slot := by
      rw [hsplit, List.getElem?_append_right (Nat.le_refl _), Nat.sub_self]
      rfl
    have hplace := hroutes slot (List.mem_of_getElem? hget)
    have hgroupRow : earlier.length < slots.length := (List.getElem?_eq_some_iff.mp hget).1
    have hwidth := hsource.length_row hgroupRow
    rw [houtput _ slot hget] at hwidth
    rw [hsource.slice_eq hgroupRow, ok_bind, houtput _ slot hget, scatterRows_concat]
    apply hholds.updateSlice hplace
    · rw [zipInto_overwrite (by rw [hholds.length_row hplace, hwidth])]
    · rw [List.length_map, hwidth]

def rankedSum (f32 : FloatOps F) (hiddenDim : Nat) (rows : List (List F)) : List F :=
  sumRows f32.add (List.replicate hiddenDim f32.zero) rows

def tokenRoutes (nExpertUsed : Nat) (rows : Nat -> List F) (token : Nat) : List (List F) :=
  (List.range nExpertUsed).map fun rank => rows (token * nExpertUsed + rank)

theorem route_lt {seqLen nExpertUsed token rank : Nat} (htoken : token < seqLen)
    (hrank : rank < nExpertUsed) :
    token * nExpertUsed + rank < seqLen * nExpertUsed := by
  have hroom : (token + 1) * nExpertUsed <= seqLen * nExpertUsed :=
    Nat.mul_le_mul_right nExpertUsed htoken
  rw [Nat.succ_mul] at hroom
  omega

theorem length_of_mem_tokenRoutes {seqLen nExpertUsed hiddenDim token : Nat}
    {rankedOutput : List F} (hrows : HoldsRows hiddenDim (seqLen * nExpertUsed) rows rankedOutput)
    (htoken : token < seqLen) {row : List F} (hrow : row ∈ tokenRoutes nExpertUsed rows token) :
    row.length = hiddenDim := by
  rcases List.mem_map.mp hrow with ⟨rank, hrank, hsame⟩
  rw [← hsame]
  exact hrows.length_row (route_lt htoken (List.mem_range.mp hrank))

theorem addRankedRows_eq (f32 : FloatOps F) {rankedOutput : List F}
    {seqLen nExpertUsed hiddenDim token : Nat}
    (hrows : HoldsRows hiddenDim (seqLen * nExpertUsed) rows rankedOutput)
    (htoken : token < seqLen) :
    forRange (addRankedRow f32 rankedOutput nExpertUsed hiddenDim token) nExpertUsed
        (List.replicate hiddenDim f32.zero) =
      .ok (rankedSum f32 hiddenDim (tokenRoutes nExpertUsed rows token)) := by
  apply forRange_zipInto_eq List.length_replicate
  · intro rank hrank
    exact hrows.length_row (route_lt htoken hrank)
  · intro rank sum hrank
    unfold addRankedRow
    dsimp only
    rw [hrows.slice_eq (route_lt htoken hrank)]
    rfl

theorem reduceRankedExpertOutputInto_delivers (f32 : FloatOps F) {rankedOutput reduced : List F}
    {seqLen nExpertUsed hiddenDim : Nat}
    (hrows : HoldsRows hiddenDim (seqLen * nExpertUsed) rows rankedOutput)
    (hreduced : reduced.length = seqLen * hiddenDim) :
    Delivers (reduceRankedExpertOutputInto f32 rankedOutput seqLen nExpertUsed hiddenDim reduced)
      (HoldsRows hiddenDim seqLen
        (fun token => rankedSum f32 hiddenDim (tokenRoutes nExpertUsed rows token))) := by
  unfold reduceRankedExpertOutputInto
  have hzeros : (reduced.map fun _ => f32.zero) =
      List.replicate (seqLen * hiddenDim) f32.zero := by
    rw [List.map_const', hreduced]
  rw [hzeros]
  apply forRange_updateSlice_delivers (HoldsRows.replicate hiddenDim seqLen f32.zero)
  · intro token htoken
    exact addRankedRows_eq f32 hrows htoken
  · intro token htoken
    exact length_sumRows List.length_replicate
      (fun row hrow => length_of_mem_tokenRoutes hrows htoken hrow)

/-!
## The groups
-/

/-- An evaluation computes each row of a group by itself.  `seen` is whatever the scratch
buffers show of the rows evaluated so far. -/
structure RowWise (evaluate : GroupEvaluation F scratch) (expert : Nat -> List F -> List F)
    (hiddenDim : Nat) (seen : List (Nat × List F) -> scratch -> Prop) : Prop where
  length_eq : forall e row, row.length = hiddenDim -> (expert e row).length = hiddenDim
  evaluate_eq : forall e n input done buffers, input.length = n * hiddenDim ->
    seen done buffers ->
    exists left, evaluate e n input buffers =
        .ok (left, (List.range n).flatMap fun t => expert e (rowAt hiddenDim input t)) ∧
      seen (done ++ (List.range n).map fun t => (e, rowAt hiddenDim input t)) left

def weightedRow (f32 : FloatOps F) (expert : Nat -> List F -> List F) (downScale row : List F)
    (e : Nat) (weight : F) : List F :=
  (expert e row).map fun value => f32.mul value (f32.mul weight (downScale.getD e f32.zero))

def slotRow (f32 : FloatOps F) (expert : Nat -> List F -> List F) (moeInput downScale : List F)
    (hiddenDim : Nat) (slot : GemmaRouteSlot F) : List F :=
  weightedRow f32 expert downScale (rowAt hiddenDim moeInput slot.token) slot.expert slot.weight

def slotEvaluation (moeInput : List F) (hiddenDim : Nat) (slot : GemmaRouteSlot F) :
    Nat × List F :=
  (slot.expert, rowAt hiddenDim moeInput slot.token)

theorem overRows_of_getElem? {entry : Type} {first : List (List entry)}
    {rows : Nat -> List entry} {t : Nat} {row : List entry} (h : first[t]? = some row) :
    overRows first rows t = row := by
  unfold overRows
  rw [List.getD_eq_getElem?_getD, h]
  rfl

section Groups

variable {f32 : FloatOps F} {evaluate : GroupEvaluation F scratch}
  {expert : Nat -> List F -> List F} {seen : List (Nat × List F) -> scratch -> Prop}
  {slots : List (GemmaRouteSlot F)} {moeInput downScale : List F}
  {seqLen nExpertUsed hiddenDim : Nat}

structure GroupsDone (f32 : FloatOps F) (expert : Nat -> List F -> List F)
    (seen : List (Nat × List F) -> scratch -> Prop) (moeInput downScale : List F)
    (nExpertUsed hiddenDim room routes : Nat) (done : List (GemmaRouteSlot F))
    (buffers : GroupBuffers F scratch) : Prop where
  length_expertInput : buffers.expertInput.length = room * hiddenDim
  seen : seen (done.map (slotEvaluation moeInput hiddenDim)) buffers.scratch
  rankedOutput : HoldsRows hiddenDim routes
    (scatterRows (GemmaRouteSlot.route nExpertUsed)
      (slotRow f32 expert moeInput downScale hiddenDim) done
      (fun _ => List.replicate hiddenDim f32.zero))
    buffers.rankedOutput

theorem forwardExpertGroup_delivers {room : Nat} {r : Run Nat}
    {done : List (GemmaRouteSlot F)} {buffers : GroupBuffers F scratch}
    (hevaluate : RowWise evaluate expert hiddenDim seen)
    (hinput : moeInput.length = seqLen * hiddenDim)
    (htokens : forall slot, slot ∈ slots -> slot.token < seqLen)
    (hscales : forall slot, slot ∈ slots -> slot.expert < downScale.length)
    (hroutes : forall slot, slot ∈ slots -> slot.route nExpertUsed < slots.length)
    (hrun : IsRun GemmaRouteSlot.expert slots r) (hroom : r.stop - r.start <= room)
    (hdone : GroupsDone f32 expert seen moeInput downScale nExpertUsed hiddenDim room
      slots.length done buffers) :
    Delivers (forwardExpertGroup f32 evaluate slots moeInput downScale nExpertUsed hiddenDim
        r.value r.start r.stop buffers)
      (GroupsDone f32 expert seen moeInput downScale nExpertUsed hiddenDim room slots.length
        (done ++ r.part slots)) := by
  have hsub : r.part slots ⊆ slots := fun slot hslot =>
    List.mem_of_mem_drop (List.mem_of_mem_take hslot)
  have hlength : (r.part slots).length <= room := by
    rw [hrun.length_part]
    exact hroom
  unfold forwardExpertGroup
  rw [hrun.slice_eq, ok_bind]
  apply (gatherExpertInput_delivers hinput (fun slot hslot => htokens slot (hsub hslot)) hlength
    (HoldsRows.of_rowAt hdone.length_expertInput)).bind
  intro expertInput hgathered
  have hgroup := hgathered.take_rows hlength
  rw [slice_zero_of_le (by
    rw [hgathered.length_eq]
    exact Nat.mul_le_mul_right hiddenDim hlength), ok_bind]
  -- What the evaluation is given is the rows of the slots' tokens.
  have hrow : forall (t : Nat) slot, (r.part slots)[t]? = some slot ->
      rowAt hiddenDim (expertInput.take ((r.part slots).length * hiddenDim)) t =
        rowAt hiddenDim moeInput slot.token := by
    intro t slot hget
    rw [hgroup.row_eq t (List.getElem?_eq_some_iff.mp hget).1]
    apply overRows_of_getElem?
    rw [List.getElem?_map, hget]
    rfl
  rcases hevaluate.evaluate_eq r.value (r.part slots).length _ _ _ hgroup.length_eq hdone.seen
    with ⟨left, hcall, hleft⟩
  rw [hcall, ok_bind]
  have hwidth : forall t, t < (r.part slots).length ->
      (expert r.value (rowAt hiddenDim
        (expertInput.take ((r.part slots).length * hiddenDim)) t)).length = hiddenDim := by
    intro t ht
    exact hevaluate.length_eq r.value _ (length_rowAt hgroup.length_eq ht)
  -- A group is not empty, so that its expert has a scale.
  have hscale : r.value < downScale.length := by
    have hpos : 0 < (r.part slots).length := by
      rw [hrun.length_part]
      exact Nat.sub_pos_of_lt hrun.start_lt
    have hmem := List.getElem_mem hpos
    rw [← hrun.key_eq _ hmem]
    exact hscales _ (hsub hmem)
  have hindex : index downScale r.value = .ok (downScale.getD r.value f32.zero) := by
    apply index_of_getElem?_eq_some
    rw [List.getD_eq_getElem?_getD, List.getElem?_eq_getElem hscale]
    rfl
  dsimp only
  rw [hindex, ok_bind]
  apply (scatterWeightedExpertGroup_delivers
    (fun slot => expert r.value (rowAt hiddenDim moeInput slot.token))
    (fun slot hslot => hroutes slot (hsub hslot)) (HoldsRows.of_flatMap hwidth)
    (fun t slot hget => by rw [hrow t slot hget]) hdone.rankedOutput).bind
  intro rankedOutput hscattered
  apply delivers_ok
  constructor
  · exact hgathered.length_eq
  · have hevaluated : (List.range (r.part slots).length).map (fun t => (r.value, rowAt hiddenDim
          (expertInput.take ((r.part slots).length * hiddenDim)) t)) =
        (r.part slots).map (slotEvaluation moeInput hiddenDim) := by
      apply map_range_eq_map
      intro t slot hget
      unfold slotEvaluation
      rw [hrow t slot hget, hrun.key_eq slot (List.mem_of_getElem? hget)]
    rw [hevaluated] at hleft
    rw [List.map_append]
    exact hleft
  · have hsame : forall slot, slot ∈ r.part slots ->
        ((expert r.value (rowAt hiddenDim moeInput slot.token)).map fun value =>
          f32.mul value (f32.mul slot.weight (downScale.getD r.value f32.zero))) =
        slotRow f32 expert moeInput downScale hiddenDim slot := by
      intro slot hslot
      unfold slotRow weightedRow
      rw [hrun.key_eq slot hslot]
    rw [scatterRows_append, ← scatterRows_congr hsame]
    exact hscattered

theorem forwardExpertGroups_delivers (f32 : FloatOps F) {start : scratch}
    (hevaluate : RowWise evaluate expert hiddenDim seen) (hstart : seen [] start)
    (hinput : moeInput.length = seqLen * hiddenDim)
    (htokens : forall slot, slot ∈ slots -> slot.token < seqLen)
    (hscales : forall slot, slot ∈ slots -> slot.expert < downScale.length)
    (hroutes : forall slot, slot ∈ slots -> slot.route nExpertUsed < slots.length) :
    Delivers (forwardExpertGroups f32 evaluate slots moeInput downScale nExpertUsed hiddenDim start)
      (fun buffers => seen (slots.map (slotEvaluation moeInput hiddenDim)) buffers.scratch ∧
        HoldsRows hiddenDim slots.length
          (scatterRows (GemmaRouteSlot.route nExpertUsed)
            (slotRow f32 expert moeInput downScale hiddenDim) slots
            (fun _ => List.replicate hiddenDim f32.zero))
          buffers.rankedOutput) := by
  unfold forwardExpertGroups
  apply (gemmaExpertGroupShape_delivers slots).bind
  intro shape hshape
  have hloop : Delivers
      (forRuns GemmaRouteSlot.expert slots
        (forwardExpertGroup f32 evaluate slots moeInput downScale nExpertUsed hiddenDim)
        { expertInput := List.replicate (shape.2 * hiddenDim) f32.zero
          scratch := start
          rankedOutput := List.replicate (slots.length * hiddenDim) f32.zero })
      (GroupsDone f32 expert seen moeInput downScale nExpertUsed hiddenDim shape.2 slots.length
        ((runs GemmaRouteSlot.expert slots).flatMap fun r => r.part slots)) := by
    apply forRuns_delivers (fun (earlier : List (Run Nat)) =>
      GroupsDone f32 expert seen moeInput downScale nExpertUsed hiddenDim shape.2 slots.length
        (earlier.flatMap fun r => r.part slots))
    · constructor
      · exact List.length_replicate
      · exact hstart
      · exact HoldsRows.replicate hiddenDim slots.length f32.zero
    · intro earlier r later buffers hsplit hrun hdone
      have hmem : r ∈ runs GemmaRouteSlot.expert slots := by
        rw [hsplit]
        exact List.mem_append_right earlier List.mem_cons_self
      rw [List.flatMap_append, List.flatMap_singleton]
      exact forwardExpertGroup_delivers hevaluate hinput htokens hscales hroutes hrun
        (hshape r hmem) hdone
  apply Delivers.mono hloop
  intro buffers hdone
  rw [flatMap_runs] at hdone
  exact ⟨hdone.seen, hdone.rankedOutput⟩

end Groups

/-!
## Evaluating a group
-/

def ExpertKernels.row {hiddenDim nFf : Nat} (kernels : ExpertKernels F hiddenDim nFf)
    (expert : Nat) (row : List F) : List F :=
  kernels.down expert (List.zipWith kernels.gateMul ((kernels.gateUp expert row).take nFf)
    ((kernels.gateUp expert row).drop nFf))

theorem length_resize (buffer : List F) (len : Nat) (fill : F) :
    (resize buffer len fill).length = len := by
  unfold resize
  rw [List.length_append, List.length_take, List.length_replicate]
  omega

theorem prefillRawQuantizedBatch_eq {kernel : List F -> List F} {input output : List F}
    {rows cols seqLen : Nat} (houtput : output.length = seqLen * rows) :
    prefillRawQuantizedBatch kernel input output rows cols seqLen =
      (List.range seqLen).flatMap fun t => kernel (rowAt cols input t) := by
  unfold prefillRawQuantizedBatch
  rw [← houtput, List.drop_length, List.append_nil]

theorem splitGateUp_delivers {gateUpOutput mid up : List F} {nFf groupLen : Nat}
    {gateUp : Nat -> List F} (hff : 0 < nFf)
    (hgateUp : HoldsRows (nFf * 2) groupLen gateUp gateUpOutput)
    (hmid : mid.length = groupLen * nFf) (hup : up.length = groupLen * nFf) :
    splitGateUp gateUpOutput (nFf * 2) nFf groupLen (mid, up) =
      .ok ((List.range groupLen).flatMap fun t => (gateUp t).take nFf,
        (List.range groupLen).flatMap fun t => (gateUp t).drop nFf) := by
  have hgate : forall t, t < groupLen -> ((gateUp t).take nFf).length = nFf := by
    intro t ht
    rw [List.length_take, hgateUp.length_row ht]
    omega
  have hhalf : forall t, t < groupLen -> ((gateUp t).drop nFf).length = nFf := by
    intro t ht
    rw [List.length_drop, hgateUp.length_row ht]
    omega
  have hcopy : forall {rows : Nat -> List F} {buffer : List F} {t : Nat} {source : List F},
      HoldsRows nFf groupLen rows buffer -> t < groupLen -> source.length = nFf ->
      copyFromSlice source (rows t) = .ok source := by
    intro rows buffer t source hrows ht hsource
    unfold copyFromSlice
    rw [require_of_true _ (by rw [hsource, hrows.length_row ht])]
    rfl
  have hloop : Delivers (forRange (splitGateUpRow gateUpOutput (nFf * 2) nFf) groupLen (mid, up))
      (fun midUp =>
        HoldsRows nFf groupLen (firstRows groupLen (fun t => (gateUp t).take nFf)
          (rowAt nFf mid)) midUp.1 ∧
        HoldsRows nFf groupLen (firstRows groupLen (fun t => (gateUp t).drop nFf)
          (rowAt nFf up)) midUp.2) := by
    apply forRange_delivers (fun done (midUp : List F × List F) =>
      HoldsRows nFf groupLen (firstRows done (fun t => (gateUp t).take nFf)
        (rowAt nFf mid)) midUp.1 ∧
      HoldsRows nFf groupLen (firstRows done (fun t => (gateUp t).drop nFf)
        (rowAt nFf up)) midUp.2)
    · exact ⟨HoldsRows.of_rowAt hmid, HoldsRows.of_rowAt hup⟩
    · intro t ht midUp hmidUp
      unfold splitGateUpRow
      rw [hgateUp.slice_eq ht, ok_bind]
      apply (hmidUp.1.updateSlice ht (hcopy hmidUp.1 ht (hgate t ht)) (hgate t ht)).bind
      intro mid' hmid'
      apply (hmidUp.2.updateSlice ht (hcopy hmidUp.2 ht (hhalf t ht)) (hhalf t ht)).bind
      intro up' hup'
      rw [← update_firstRows, ← update_firstRows]
      exact delivers_ok ⟨hmid', hup'⟩
  rcases hloop with ⟨midUp, hrun, hleft, hright⟩
  have hleft' := (hleft.congr (fun t ht => firstRows_of_lt ht)).eq_flatMap
  have hright' := (hright.congr (fun t ht => firstRows_of_lt ht)).eq_flatMap
  unfold splitGateUp
  rw [require_of_true _ (by omega), ok_bind, hrun, ← hleft', ← hright']

theorem rowWise_evaluateGroup {hiddenDim nFf : Nat} (f32 : FloatOps F)
    (kernels : ExpertKernels F hiddenDim nFf) (hff : 0 < nFf) :
    RowWise (evaluateGroup f32 kernels) kernels.row hiddenDim (fun _ _ => True) where
  length_eq := fun e row _ => kernels.length_down e _
  evaluate_eq := by
    intro e n input done buffers hinput _
    have hgateUp : HoldsRows (nFf * 2) n (fun t => kernels.gateUp e (rowAt hiddenDim input t))
        ((List.range n).flatMap fun t => kernels.gateUp e (rowAt hiddenDim input t)) :=
      HoldsRows.of_flatMap (fun t _ => kernels.length_gateUp e _)
    have hgate : forall t, t < n ->
        ((kernels.gateUp e (rowAt hiddenDim input t)).take nFf).length = nFf := by
      intro t _
      rw [List.length_take, kernels.length_gateUp]
      omega
    have hup : forall t, t < n ->
        ((kernels.gateUp e (rowAt hiddenDim input t)).drop nFf).length = nFf := by
      intro t _
      rw [List.length_drop, kernels.length_gateUp]
      omega
    have hmid : forall t, t < n -> (List.zipWith kernels.gateMul
        ((kernels.gateUp e (rowAt hiddenDim input t)).take nFf)
        ((kernels.gateUp e (rowAt hiddenDim input t)).drop nFf)).length = nFf := by
      intro t ht
      rw [List.length_zipWith, hgate t ht, hup t ht, Nat.min_self]
    unfold evaluateGroup
    dsimp only
    rw [prefillRawQuantizedBatch_eq (length_resize _ _ _),
      splitGateUp_delivers hff hgateUp (length_resize _ _ _) (length_resize _ _ _), ok_bind]
    dsimp only
    rw [zipInto_of_length_eq
        (by rw [length_flatMap_range hgate, length_flatMap_range hup]),
      zipWith_flatMap_range hgate hup, prefillRawQuantizedBatch_eq (length_resize _ _ _)]
    have hrows : ((List.range n).flatMap fun t => kernels.down e (rowAt nFf
        ((List.range n).flatMap fun t => List.zipWith kernels.gateMul
          ((kernels.gateUp e (rowAt hiddenDim input t)).take nFf)
          ((kernels.gateUp e (rowAt hiddenDim input t)).drop nFf)) t)) =
        (List.range n).flatMap fun t => kernels.row e (rowAt hiddenDim input t) := by
      apply List.flatMap_congr
      intro t ht
      rw [rowAt_flatMap_range hmid (List.mem_range.mp ht)]
      rfl
    have hlength : ((List.range n).flatMap fun t =>
        kernels.row e (rowAt hiddenDim input t)).length = n * hiddenDim :=
      length_flatMap_range (fun t _ => kernels.length_down e _)
    rw [hrows, ← hlength, List.take_length]
    exact Exists.intro _ ⟨rfl, True.intro⟩

/-- An evaluation that also writes down which rows it has evaluated. -/
def recording (evaluate : GroupEvaluation F scratch) (hiddenDim : Nat) :
    GroupEvaluation F (scratch × List (Nat × List F)) :=
  fun expert groupLen groupInput buffers => do
    let (left, output) <- evaluate expert groupLen groupInput buffers.1
    return ((left, buffers.2 ++
      (List.range groupLen).map fun t => (expert, rowAt hiddenDim groupInput t)), output)

theorem RowWise.recording {evaluate : GroupEvaluation F scratch}
    {expert : Nat -> List F -> List F} {hiddenDim : Nat}
    {seen : List (Nat × List F) -> scratch -> Prop} (h : RowWise evaluate expert hiddenDim seen) :
    RowWise (Moe.recording evaluate hiddenDim) expert hiddenDim
      (fun done buffers => seen done buffers.1 ∧ buffers.2 = done) where
  length_eq := h.length_eq
  evaluate_eq := by
    intro e n input done buffers hinput hseen
    rcases h.evaluate_eq e n input done buffers.1 hinput hseen.1 with ⟨left, hcall, hleft⟩
    exists (left, buffers.2 ++ (List.range n).map fun t => (e, rowAt hiddenDim input t))
    constructor
    · unfold Moe.recording
      rw [hcall]
      rfl
    · constructor
      · exact hleft
      · rw [hseen.2]

end Moe
end RunNBurn
