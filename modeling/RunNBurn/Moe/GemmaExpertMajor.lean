import RunNBurn.Library.FloatOps
import RunNBurn.Library.KeyedRuns
import RunNBurn.Library.Selection
import RunNBurn.Library.RowLoops

/-!
# The expert-major prefill of Gemma

Each token is routed to its experts.  The routes of all tokens are sorted by expert, and the
rows of one expert are gathered, evaluated together and scattered to the places of their
routes, from where each token sums up its own.
-/

namespace RunNBurn
namespace Moe

open Library

section GemmaExpertMajor

variable {F scratch : Type}

/-!
## Routing
-/

def selectedIdx (f32 : FloatOps F) (sort : PartialSort Nat) (logits : List F)
    (nExpertUsed : Nat) : Checked (List Nat) :=
  let idx := List.range logits.length
  if nExpertUsed < logits.length then do
    let parted <- selectNthUnstableBy sort nExpertUsed
      (fun a b => f32.descending (logits.getD a f32.zero) (logits.getD b f32.zero)) idx
    return parted.take nExpertUsed
  else
    .ok idx

def selectExpertsFromLogits (f32 : FloatOps F) (sort : PartialSort Nat) (logits : List F)
    (nExpertUsed : Nat) : Checked (List Nat × List F) := do
  let idx <- selectedIdx f32 sort logits nExpertUsed
  let selected <- idx.mapM (index logits)
  let maxL := selected.foldl f32.max f32.negInfinity
  let weights := selected.map fun logit => f32.exp (f32.sub logit maxL)
  let sum := f32.sum weights
  return (idx, weights.map fun weight => f32.div weight sum)

structure GemmaRouteSlot (F : Type) where
  expert : Nat
  token : Nat
  rank : Nat
  weight : F
deriving DecidableEq, Repr

def tokenSlots (token : Nat) (experts : List Nat) (weights : List F) :
    List (GemmaRouteSlot F) :=
  (experts.zip weights).zipIdx.map fun entry =>
    { expert := entry.1.1
      token := token
      rank := entry.2
      weight := entry.1.2 }

/-- The order of the keys `(slot.expert, slot.token)`. -/
def SlotLe (a b : GemmaRouteSlot F) : Prop :=
  a.expert < b.expert ∨ (a.expert = b.expert ∧ a.token <= b.token)

instance : DecidableRel (SlotLe (F := F)) := fun a b =>
  inferInstanceAs (Decidable (a.expert < b.expert ∨ (a.expert = b.expert ∧ a.token <= b.token)))

def pushTokenSlots (f32 : FloatOps F) (sort : PartialSort Nat) (logits : List F)
    (nExpert nExpertUsed token : Nat) (slots : List (GemmaRouteSlot F)) :
    Checked (List (GemmaRouteSlot F)) := do
  let tokenLogits <- slice logits (token * nExpert) ((token + 1) * nExpert)
  let (experts, weights) <- selectExpertsFromLogits f32 sort tokenLogits nExpertUsed
  return slots ++ tokenSlots token experts weights

/-- No two slots have the same key, so that there is one sorted order. -/
def gemmaExpertMajorSlots (f32 : FloatOps F) (sort : PartialSort Nat) (logits : List F)
    (seqLen nExpert nExpertUsed : Nat) : Checked (List (GemmaRouteSlot F)) := do
  let slots <- forRange (pushTokenSlots f32 sort logits nExpert nExpertUsed) seqLen []
  return slots.insertionSort SlotLe

def gemmaExpertGroupShape (slots : List (GemmaRouteSlot F)) : Checked (Nat × Nat) :=
  forRuns GemmaRouteSlot.expert slots
    (fun _ start stop shape => .ok (shape.1 + 1, max shape.2 (stop - start))) (0, 0)

/-!
## Scattering and reducing
-/

def scatterWeightedExpertGroup (f32 : FloatOps F) (slots : List (GemmaRouteSlot F))
    (expertOutput : List F) (downScale : F) (nExpertUsed hiddenDim : Nat)
    (rankedOutput : List F) : Checked (List F) :=
  forEnumerated
    (fun groupRow slot rankedOutput => do
      let source <- slice expertOutput (groupRow * hiddenDim) ((groupRow + 1) * hiddenDim)
      let route := slot.token * nExpertUsed + slot.rank
      let weight := f32.mul slot.weight downScale
      updateSlice rankedOutput (route * hiddenDim) ((route + 1) * hiddenDim) fun destination =>
        .ok (zipInto (fun _ value => f32.mul value weight) destination source))
    slots rankedOutput

def addRankedRow (f32 : FloatOps F) (rankedOutput : List F)
    (nExpertUsed hiddenDim token rank : Nat) (destination : List F) : Checked (List F) := do
  let route := token * nExpertUsed + rank
  let source <- slice rankedOutput (route * hiddenDim) ((route + 1) * hiddenDim)
  return zipInto f32.add destination source

def reduceRankedExpertOutputInto (f32 : FloatOps F) (rankedOutput : List F)
    (seqLen nExpertUsed hiddenDim : Nat) (reduced : List F) : Checked (List F) :=
  forRange
    (fun token reduced =>
      updateSlice reduced (token * hiddenDim) ((token + 1) * hiddenDim)
        (forRange (addRankedRow f32 rankedOutput nExpertUsed hiddenDim token) nExpertUsed))
    seqLen (reduced.map fun _ => f32.zero)

/-!
## The groups
-/

/-- What an expert makes of a group of rows: it is given its index, the number of rows, the
rows and the scratch buffers, and returns the buffers and the output rows. -/
abbrev GroupEvaluation (F scratch : Type) : Type :=
  Nat -> Nat -> List F -> scratch -> Checked (scratch × List F)

structure GroupBuffers (F scratch : Type) where
  expertInput : List F
  scratch : scratch
  rankedOutput : List F

def gatherExpertInput (slots : List (GemmaRouteSlot F)) (moeInput : List F) (hiddenDim : Nat)
    (expertInput : List F) : Checked (List F) :=
  forEnumerated
    (fun groupRow slot expertInput => do
      let source <- slice moeInput (slot.token * hiddenDim) ((slot.token + 1) * hiddenDim)
      updateSlice expertInput (groupRow * hiddenDim) ((groupRow + 1) * hiddenDim)
        (copyFromSlice source))
    slots expertInput

def forwardExpertGroup (f32 : FloatOps F) (evaluate : GroupEvaluation F scratch)
    (slots : List (GemmaRouteSlot F)) (moeInput downScale : List F)
    (nExpertUsed hiddenDim : Nat) (expert start stop : Nat) (buffers : GroupBuffers F scratch) :
    Checked (GroupBuffers F scratch) := do
  let groupSlots <- slice slots start stop
  let groupLen := groupSlots.length
  let expertInput <- gatherExpertInput groupSlots moeInput hiddenDim buffers.expertInput
  let groupInput <- slice expertInput 0 (groupLen * hiddenDim)
  let (scratch, expertOutput) <- evaluate expert groupLen groupInput buffers.scratch
  let scale <- index downScale expert
  let rankedOutput <- scatterWeightedExpertGroup f32 groupSlots expertOutput scale
    nExpertUsed hiddenDim buffers.rankedOutput
  return {
    expertInput := expertInput
    scratch := scratch
    rankedOutput := rankedOutput
  }

def forwardExpertGroups (f32 : FloatOps F) (evaluate : GroupEvaluation F scratch)
    (slots : List (GemmaRouteSlot F)) (moeInput downScale : List F)
    (nExpertUsed hiddenDim : Nat) (start : scratch) : Checked (GroupBuffers F scratch) := do
  let (_, maxGroup) <- gemmaExpertGroupShape slots
  forRuns GemmaRouteSlot.expert slots
    (forwardExpertGroup f32 evaluate slots moeInput downScale nExpertUsed hiddenDim)
    { expertInput := List.replicate (maxGroup * hiddenDim) f32.zero
      scratch := start
      rankedOutput := List.replicate (slots.length * hiddenDim) f32.zero }

/-- The sparse part of the layer, from the router logits and the normed input. -/
def forwardFfnGemma4MoeExpertMajor (f32 : FloatOps F) (sort : PartialSort Nat)
    (evaluate : GroupEvaluation F scratch) (logits moeInput downScale : List F)
    (seqLen nExpert nExpertUsed hiddenDim : Nat) (start : scratch) (routerInput : List F) :
    Checked (scratch × List F) := do
  let slots <- gemmaExpertMajorSlots f32 sort logits seqLen nExpert nExpertUsed
  let buffers <- forwardExpertGroups f32 evaluate slots moeInput downScale nExpertUsed
    hiddenDim start
  let reduced <- reduceRankedExpertOutputInto f32 buffers.rankedOutput seqLen nExpertUsed
    hiddenDim routerInput
  return (buffers.scratch, reduced)

/-!
## The evaluation of a group

The gate and up rows of the expert are computed together, split, multiplied, and sent through
the down rows.  The buffers are resized to the group and used again.
-/

structure ExpertKernels (F : Type) (hiddenDim nFf : Nat) where
  gateUp : Nat -> List F -> List F
  down : Nat -> List F -> List F
  gateMul : F -> F -> F
  length_gateUp : forall expert row, (gateUp expert row).length = nFf * 2
  length_down : forall expert row, (down expert row).length = hiddenDim

structure ExpertScratch (F : Type) where
  gateUpOutput : List F
  expertMid : List F
  expertUp : List F
  expertOutput : List F

/-- `Vec::resize` -/
def resize (buffer : List F) (len : Nat) (fill : F) : List F :=
  buffer.take len ++ List.replicate (len - buffer.length) fill

/-- Writes the kernel's output for each row of the input over the first rows of the output. -/
def prefillRawQuantizedBatch (kernel : List F -> List F) (input output : List F)
    (rows cols seqLen : Nat) : List F :=
  ((List.range seqLen).flatMap fun t => kernel (rowAt cols input t)) ++
    output.drop (seqLen * rows)

def splitGateUpRow (gateUpOutput : List F) (gateUpRows nFf row : Nat)
    (midUp : List F × List F) : Checked (List F × List F) := do
  let gateUpRow <- slice gateUpOutput (row * gateUpRows) ((row + 1) * gateUpRows)
  let mid <- updateSlice midUp.1 (row * nFf) ((row + 1) * nFf)
    (copyFromSlice (gateUpRow.take nFf))
  let up <- updateSlice midUp.2 (row * nFf) ((row + 1) * nFf)
    (copyFromSlice (gateUpRow.drop nFf))
  return (mid, up)

def splitGateUp (gateUpOutput : List F) (gateUpRows nFf groupLen : Nat)
    (midUp : List F × List F) : Checked (List F × List F) := do
  require (gateUpRows ≠ 0 ∧ nFf ≠ 0) "chunk size must be non-zero"
  forRange (splitGateUpRow gateUpOutput gateUpRows nFf) groupLen midUp

def evaluateGroup {hiddenDim nFf : Nat} (f32 : FloatOps F)
    (kernels : ExpertKernels F hiddenDim nFf) : GroupEvaluation F (ExpertScratch F) :=
  fun expert groupLen groupInput buffers => do
    let gateUpRows := nFf * 2
    let gateUpOutput := prefillRawQuantizedBatch (kernels.gateUp expert) groupInput
      (resize buffers.gateUpOutput (groupLen * gateUpRows) f32.zero) gateUpRows hiddenDim groupLen
    let (expertMid, expertUp) <- splitGateUp gateUpOutput gateUpRows nFf groupLen
      (resize buffers.expertMid (groupLen * nFf) f32.zero,
        resize buffers.expertUp (groupLen * nFf) f32.zero)
    let expertMid := zipInto kernels.gateMul expertMid expertUp
    let expertOutput := prefillRawQuantizedBatch (kernels.down expert) expertMid
      (resize buffers.expertOutput (groupLen * hiddenDim) f32.zero) hiddenDim nFf groupLen
    return (
      { gateUpOutput := gateUpOutput
        expertMid := expertMid
        expertUp := expertUp
        expertOutput := expertOutput },
      expertOutput.take (groupLen * hiddenDim))

end GemmaExpertMajor

/-!
# The routes of the expert-major prefill

Every token chooses its experts, and its routes are numbered by token and rank.  The slots are
the routes of all tokens in another order.
-/

section GemmaRoutes

variable {F scratch : Type}

/-!
## What a token chooses
-/

/-- As many experts as are used, none of them twice, each with a weight. -/
structure IsChoice (nExpert nExpertUsed : Nat) (choice : List Nat × List F) : Prop where
  length_experts : choice.1.length = nExpertUsed
  length_weights : choice.2.length = nExpertUsed
  nodup : choice.1.Nodup
  lt : forall expert, expert ∈ choice.1 -> expert < nExpert

variable {logits : List F}

theorem selectedIdx_delivers (f32 : FloatOps F) (sort : PartialSort Nat) {nExpertUsed : Nat}
    (hused : nExpertUsed <= logits.length) :
    Delivers (selectedIdx f32 sort logits nExpertUsed) (fun idx =>
      idx.length = nExpertUsed ∧ idx.Nodup ∧ forall expert, expert ∈ idx ->
        expert < logits.length) := by
  unfold selectedIdx
  dsimp only
  split
  · rename_i hless
    have hroom : nExpertUsed < (List.range logits.length).length := by
      rw [List.length_range]
      exact hless
    rw [selectNthUnstableBy_of_lt sort _ hroom, ok_bind]
    apply delivers_ok
    have hperm := sort.perm
      (fun a b => f32.descending (logits.getD a f32.zero) (logits.getD b f32.zero))
      nExpertUsed (List.range logits.length)
    constructor
    · rw [List.length_take, hperm.length_eq, List.length_range, Nat.min_eq_left hused]
    · constructor
      · exact (hperm.nodup_iff.mpr List.nodup_range).take
      · intro expert hexpert
        exact List.mem_range.mp (hperm.mem_iff.mp (List.mem_of_mem_take hexpert))
  · rename_i hall
    apply delivers_ok
    constructor
    · rw [List.length_range]
      omega
    · exact ⟨List.nodup_range, fun expert hexpert => List.mem_range.mp hexpert⟩

theorem selectExpertsFromLogits_delivers (f32 : FloatOps F) (sort : PartialSort Nat)
    {nExpertUsed : Nat} (hused : nExpertUsed <= logits.length) :
    Delivers (selectExpertsFromLogits f32 sort logits nExpertUsed)
      (IsChoice logits.length nExpertUsed) := by
  unfold selectExpertsFromLogits
  apply (selectedIdx_delivers f32 sort hused).bind
  intro idx hidx
  have hselected : idx.mapM (index logits) =
      .ok (idx.map fun expert => logits.getD expert f32.zero) := by
    apply mapM_eq_ok
    intro expert hexpert
    apply index_of_getElem?_eq_some
    have hlt := hidx.2.2 expert hexpert
    rw [List.getD_eq_getElem?_getD, List.getElem?_eq_getElem hlt]
    rfl
  rw [hselected, ok_bind]
  apply delivers_ok
  constructor
  · exact hidx.1
  · simp [hidx.1]
  · exact hidx.2.1
  · exact hidx.2.2

/-!
## The slots
-/

def routedSlots (choice : Nat -> List Nat × List F) (seqLen : Nat) :
    List (GemmaRouteSlot F) :=
  (List.range seqLen).flatMap fun token => tokenSlots token (choice token).1 (choice token).2

def GemmaRouteSlot.route (nExpertUsed : Nat) (slot : GemmaRouteSlot F) : Nat :=
  slot.token * nExpertUsed + slot.rank

theorem map_route_tokenSlots {nExpert nExpertUsed : Nat} {choice : List Nat × List F}
    (h : IsChoice nExpert nExpertUsed choice) (token : Nat) :
    (tokenSlots token choice.1 choice.2).map (GemmaRouteSlot.route nExpertUsed) =
      (List.range nExpertUsed).map (fun rank => token * nExpertUsed + rank) := by
  have hlength : (choice.1.zip choice.2).length = nExpertUsed := by
    rw [List.length_zip, h.length_experts, h.length_weights, Nat.min_self]
  have hranks : (choice.1.zip choice.2).zipIdx.map Prod.snd = List.range nExpertUsed := by
    rw [List.zipIdx_map_snd, hlength, List.range_eq_range']
  rw [← hranks, List.map_map]
  unfold tokenSlots
  rw [List.map_map]
  rfl

variable {choice : Nat -> List Nat × List F}

theorem map_route_routedSlots {nExpert nExpertUsed seqLen : Nat}
    (h : forall token, token < seqLen -> IsChoice nExpert nExpertUsed (choice token)) :
    (routedSlots choice seqLen).map (GemmaRouteSlot.route nExpertUsed) =
      List.range (seqLen * nExpertUsed) := by
  unfold routedSlots
  rw [List.map_flatMap, ← flatMap_range_add]
  apply List.flatMap_congr
  intro token htoken
  exact map_route_tokenSlots (h token (List.mem_range.mp htoken)) token

theorem mem_routedSlots {seqLen : Nat} {slot : GemmaRouteSlot F} :
    slot ∈ routedSlots choice seqLen ↔
      slot.token < seqLen ∧
        ((choice slot.token).1.zip (choice slot.token).2)[slot.rank]? =
          some (slot.expert, slot.weight) := by
  unfold routedSlots tokenSlots
  rw [List.mem_flatMap]
  constructor
  · intro h
    rcases h with ⟨token, htoken, hslot⟩
    rcases List.mem_map.mp hslot with ⟨entry, hentry, hsame⟩
    rw [← hsame]
    constructor
    · exact List.mem_range.mp htoken
    · exact List.mem_zipIdx_iff_getElem?.mp hentry
  · intro h
    exists slot.token
    constructor
    · exact List.mem_range.mpr h.1
    · apply List.mem_map.mpr
      exists ((slot.expert, slot.weight), slot.rank)
      exact ⟨List.mem_zipIdx_iff_getElem?.mpr h.2, rfl⟩

theorem expert_lt_of_mem_routedSlots {nExpert nExpertUsed seqLen : Nat} {slot : GemmaRouteSlot F}
    (h : forall token, token < seqLen -> IsChoice nExpert nExpertUsed (choice token))
    (hslot : slot ∈ routedSlots choice seqLen) :
    slot.expert < nExpert := by
  rcases mem_routedSlots.mp hslot with ⟨htoken, hget⟩
  exact (h slot.token htoken).lt _ (List.of_mem_zip (List.mem_of_getElem? hget)).1

theorem gemmaExpertMajorSlots_eq {f32 : FloatOps F} {sort : PartialSort Nat}
    {seqLen nExpert nExpertUsed : Nat} (hlogits : logits.length = seqLen * nExpert)
    (hchoice : forall token, token < seqLen ->
      selectExpertsFromLogits f32 sort (rowAt nExpert logits token) nExpertUsed =
        .ok (choice token)) :
    gemmaExpertMajorSlots f32 sort logits seqLen nExpert nExpertUsed =
      .ok ((routedSlots choice seqLen).insertionSort SlotLe) := by
  have hloop : Delivers
      (forRange (pushTokenSlots f32 sort logits nExpert nExpertUsed) seqLen [])
      (fun slots => slots = routedSlots choice seqLen) := by
    apply forRange_delivers (fun done slots => slots = routedSlots choice done)
    · rfl
    · intro token htoken slots hslots
      unfold pushTokenSlots
      rw [(HoldsRows.of_rowAt hlogits).slice_eq htoken, ok_bind, hchoice token htoken, ok_bind,
        hslots]
      apply delivers_ok
      unfold routedSlots
      rw [List.range_succ, List.flatMap_append, List.flatMap_singleton]
  rcases hloop with ⟨slots, hrun, hslots⟩
  unfold gemmaExpertMajorSlots
  rw [hrun, ok_bind, hslots]
  rfl

end GemmaRoutes

end Moe
end RunNBurn
