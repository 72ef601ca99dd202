import RunNBurn.Moe.GemmaGroups

/-!
# The expert-major prefill computes each token's mixture
-/

namespace RunNBurn
namespace Moe

open Library

variable {F scratch : Type}

/-- What a token's row becomes: its experts' rows, weighted, in the order of their ranks. -/
def mixture (f32 : FloatOps F) (expert : Nat -> List F -> List F) (downScale : List F)
    (hiddenDim : Nat) (choice : List Nat × List F) (row : List F) : List F :=
  rankedSum f32 hiddenDim ((choice.1.zip choice.2).map fun entry =>
    weightedRow f32 expert downScale row entry.1 entry.2)

theorem scatterRows_routedSlots {f32 : FloatOps F} {expert : Nat -> List F -> List F}
    {moeInput downScale : List F} {nExpert nExpertUsed seqLen hiddenDim token rank e : Nat}
    {weight : F} {choice : Nat -> List Nat × List F} {rows : Nat -> List F}
    (hchoice : forall token, token < seqLen -> IsChoice nExpert nExpertUsed (choice token))
    (htoken : token < seqLen)
    (hget : ((choice token).1.zip (choice token).2)[rank]? = some (e, weight)) :
    scatterRows (GemmaRouteSlot.route nExpertUsed)
        (slotRow f32 expert moeInput downScale hiddenDim) (routedSlots choice seqLen) rows
        (token * nExpertUsed + rank) =
      weightedRow f32 expert downScale (rowAt hiddenDim moeInput token) e weight := by
  have hmem : { expert := e, token := token, rank := rank, weight := weight } ∈
      routedSlots choice seqLen := mem_routedSlots.mpr ⟨htoken, hget⟩
  have hnodup : ((routedSlots choice seqLen).map (GemmaRouteSlot.route nExpertUsed)).Nodup := by
    rw [map_route_routedSlots hchoice]
    exact List.nodup_range
  exact scatterRows_of_mem hnodup hmem

theorem tokenRoutes_scatterRows {f32 : FloatOps F} {expert : Nat -> List F -> List F}
    {moeInput downScale : List F} {nExpert nExpertUsed seqLen hiddenDim token : Nat}
    {choice : Nat -> List Nat × List F} {rows : Nat -> List F}
    (hchoice : forall token, token < seqLen -> IsChoice nExpert nExpertUsed (choice token))
    (htoken : token < seqLen) :
    tokenRoutes nExpertUsed
        (scatterRows (GemmaRouteSlot.route nExpertUsed)
          (slotRow f32 expert moeInput downScale hiddenDim) (routedSlots choice seqLen) rows)
        token =
      ((choice token).1.zip (choice token).2).map fun entry =>
        weightedRow f32 expert downScale (rowAt hiddenDim moeInput token) entry.1 entry.2 := by
  have hlength : ((choice token).1.zip (choice token).2).length = nExpertUsed := by
    have h := hchoice token htoken
    rw [List.length_zip, h.length_experts, h.length_weights, Nat.min_self]
  unfold tokenRoutes
  rw [← hlength]
  apply map_range_eq_map
  intro rank entry hget
  rw [hlength]
  exact scatterRows_routedSlots hchoice htoken hget

/-- Every route is evaluated once and written to its own place, and every token gets the
mixture of its own experts. -/
theorem forwardFfnGemma4MoeExpertMajor_eq_mixture (f32 : FloatOps F) (sort : PartialSort Nat)
    (evaluate : GroupEvaluation F scratch) (expert : Nat -> List F -> List F)
    (seen : List (Nat × List F) -> scratch -> Prop) (logits moeInput downScale routerInput : List F)
    (seqLen nExpert nExpertUsed hiddenDim : Nat) (start : scratch)
    (hevaluate : RowWise evaluate expert hiddenDim seen) (hstart : seen [] start)
    (hused : nExpertUsed <= nExpert) (hlogits : logits.length = seqLen * nExpert)
    (hinput : moeInput.length = seqLen * hiddenDim) (hscale : nExpert <= downScale.length)
    (hrouter : routerInput.length = seqLen * hiddenDim) :
    exists (choice : Nat -> List Nat × List F) (slots : List (GemmaRouteSlot F))
        (buffers : GroupBuffers F scratch),
      (forall token, token < seqLen ->
        selectExpertsFromLogits f32 sort (rowAt nExpert logits token) nExpertUsed =
          .ok (choice token) ∧ IsChoice nExpert nExpertUsed (choice token)) ∧
      gemmaExpertMajorSlots f32 sort logits seqLen nExpert nExpertUsed = .ok slots ∧
      slots.Perm (routedSlots choice seqLen) ∧
      (slots.map (GemmaRouteSlot.route nExpertUsed)).Perm (List.range (seqLen * nExpertUsed)) ∧
      forwardExpertGroups f32 evaluate slots moeInput downScale nExpertUsed hiddenDim start =
        .ok buffers ∧
      seen (slots.map (slotEvaluation moeInput hiddenDim)) buffers.scratch ∧
      (forall token rank e weight, token < seqLen ->
        ((choice token).1.zip (choice token).2)[rank]? = some (e, weight) ->
        rowAt hiddenDim buffers.rankedOutput (token * nExpertUsed + rank) =
          weightedRow f32 expert downScale (rowAt hiddenDim moeInput token) e weight) ∧
      forwardFfnGemma4MoeExpertMajor f32 sort evaluate logits moeInput downScale seqLen nExpert
          nExpertUsed hiddenDim start routerInput =
        .ok (buffers.scratch, (List.range seqLen).flatMap fun token =>
          mixture f32 expert downScale hiddenDim (choice token)
            (rowAt hiddenDim moeInput token)) := by
  have hselect : forall token, exists choice, token < seqLen ->
      selectExpertsFromLogits f32 sort (rowAt nExpert logits token) nExpertUsed = .ok choice ∧
        IsChoice nExpert nExpertUsed choice := by
    intro token
    by_cases htoken : token < seqLen
    · have hlength := length_rowAt hlogits htoken
      have hroom : nExpertUsed <= (rowAt nExpert logits token).length := by
        rw [hlength]
        exact hused
      have hdelivers := selectExpertsFromLogits_delivers f32 sort hroom
      rw [hlength] at hdelivers
      rcases hdelivers with ⟨choice, hcall, hchoice⟩
      exact ⟨choice, fun _ => ⟨hcall, hchoice⟩⟩
    · exact ⟨([], []), fun h => absurd h htoken⟩
  choose choice hchoice using hselect
  have hgood : forall token, token < seqLen -> IsChoice nExpert nExpertUsed (choice token) :=
    fun token htoken => (hchoice token htoken).2
  have hslots := gemmaExpertMajorSlots_eq hlogits
    (fun token htoken => (hchoice token htoken).1)
  have hperm := List.perm_insertionSort SlotLe (routedSlots choice seqLen)
  have hplaces := hperm.map (GemmaRouteSlot.route nExpertUsed)
  rw [map_route_routedSlots hgood] at hplaces
  have hcount : ((routedSlots choice seqLen).insertionSort SlotLe).length =
      seqLen * nExpertUsed := by
    have hlength := hplaces.length_eq
    rw [List.length_map, List.length_range] at hlength
    exact hlength
  have htokens : forall slot, slot ∈ (routedSlots choice seqLen).insertionSort SlotLe ->
      slot.token < seqLen :=
    fun slot hslot => (mem_routedSlots.mp (hperm.mem_iff.mp hslot)).1
  have hscales : forall slot, slot ∈ (routedSlots choice seqLen).insertionSort SlotLe ->
      slot.expert < downScale.length :=
    fun slot hslot => Nat.lt_of_lt_of_le
      (expert_lt_of_mem_routedSlots hgood (hperm.mem_iff.mp hslot)) hscale
  have hroutes : forall slot, slot ∈ (routedSlots choice seqLen).insertionSort SlotLe ->
      slot.route nExpertUsed < ((routedSlots choice seqLen).insertionSort SlotLe).length := by
    intro slot hslot
    rw [hcount]
    apply List.mem_range.mp
    exact hplaces.mem_iff.mp (List.mem_map_of_mem hslot)
  rcases forwardExpertGroups_delivers f32 hevaluate hstart hinput htokens hscales hroutes with
    ⟨buffers, hgroups, hseen, hranked⟩
  have hnodup : (((routedSlots choice seqLen).insertionSort SlotLe).map
      (GemmaRouteSlot.route nExpertUsed)).Nodup :=
    hplaces.nodup_iff.mpr List.nodup_range
  rw [scatterRows_perm hnodup hperm, hcount] at hranked
  rcases reduceRankedExpertOutputInto_delivers f32 hranked hrouter with
    ⟨reduced, hreduce, hreduced⟩
  exists choice, (routedSlots choice seqLen).insertionSort SlotLe, buffers
  constructor
  · exact hchoice
  constructor
  · exact hslots
  constructor
  · exact hperm
  constructor
  · exact hplaces
  constructor
  · exact hgroups
  constructor
  · exact hseen
  constructor
  · intro token rank e weight htoken hget
    have hrank : rank < nExpertUsed := by
      have hlt := (List.getElem?_eq_some_iff.mp hget).1
      rw [List.length_zip, (hgood token htoken).length_experts,
        (hgood token htoken).length_weights, Nat.min_self] at hlt
      exact hlt
    rw [hranked.row_eq _ (route_lt htoken hrank)]
    exact scatterRows_routedSlots hgood htoken hget
  · unfold forwardFfnGemma4MoeExpertMajor
    rw [hslots, ok_bind, hgroups, ok_bind, hreduce, ok_bind, hreduced.eq_flatMap]
    apply congrArg (fun rows => (Except.ok (buffers.scratch, rows) : Checked _))
    apply List.flatMap_congr
    intro token htoken
    rw [tokenRoutes_scatterRows hgood (List.mem_range.mp htoken)]
    rfl

def scalingKernels : ExpertKernels Int 1 1 where
  gateUp := fun expert row => [row.headD 0, expert]
  down := fun _ mid => [mid.headD 0]
  gateMul := fun gate up => gate * up
  length_gateUp := fun _ _ => rfl
  length_down := fun _ _ => rfl

/-- Two tokens with two of three experts each: four rows are evaluated. -/
theorem forwardFfnGemma4MoeExpertMajor_eq_mixture_scaling :
    exists (choice : Nat -> List Nat × List Int)
        (left : ExpertScratch Int × List (Nat × List Int)),
      forwardFfnGemma4MoeExpertMajor FloatOps.ofInt PartialSort.ofInsertionSort
          (recording (evaluateGroup FloatOps.ofInt scalingKernels) 1) [3, 1, 2, 1, 3, 2] [5, 7]
          [1, 1, 2] 2 3 2 1
          ({ gateUpOutput := [], expertMid := [], expertUp := [], expertOutput := [] }, []) [0, 0] =
        .ok (left, (List.range 2).flatMap fun token =>
          mixture FloatOps.ofInt scalingKernels.row [1, 1, 2] 1 (choice token)
            (rowAt 1 [5, 7] token)) ∧
      left.2.length = 4 := by
  rcases forwardFfnGemma4MoeExpertMajor_eq_mixture FloatOps.ofInt PartialSort.ofInsertionSort
      (recording (evaluateGroup FloatOps.ofInt scalingKernels) 1) scalingKernels.row
      (fun done buffers => True ∧ buffers.2 = done) [3, 1, 2, 1, 3, 2] [5, 7] [1, 1, 2] [0, 0]
      2 3 2 1 ({ gateUpOutput := [], expertMid := [], expertUp := [], expertOutput := [] }, [])
      (rowWise_evaluateGroup FloatOps.ofInt scalingKernels (by decide)).recording
      ⟨True.intro, rfl⟩ (by decide) (by decide) (by decide) (by decide) (by decide) with
    ⟨choice, slots, buffers, _, _, _, hroutes, _, hseen, _, hresult⟩
  exists choice, buffers.scratch
  constructor
  · exact hresult
  · have hlength := hroutes.length_eq
    rw [List.length_map, List.length_range] at hlength
    rw [hseen.2, List.length_map, hlength]

end Moe
end RunNBurn
