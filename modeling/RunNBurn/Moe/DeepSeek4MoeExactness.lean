import RunNBurn.Library.Buckets
import RunNBurn.Moe.DeepSeek4Routing

/-!
# Verification computes what decoding computes

The assignments are the routes of all tokens, put into buckets.  Every route has a place of
its own, where the scattered rows stand in the order in which one token adds them up.
-/

namespace RunNBurn
namespace Moe

open Library

variable {F : Type} {config : DeepSeek4Config F}

/-!
## One token
-/

section

variable (f32 : FloatOps F) (weights : DeepSeek4MoeWeights F config)

def routeRow (row : List F) (expert : Nat) (routeWeight : F) : List F :=
  (sparseRow f32 weights expert row).map fun value => f32.mul value routeWeight

theorem length_routeRow (row : List F) (expert : Nat) (routeWeight : F) :
    (routeRow f32 weights row expert routeWeight).length = config.hiddenDim := by
  unfold routeRow
  rw [List.length_map, length_sparseRow]

/-- The shared expert's row and, in the order of the slots, the rows of the routes. -/
def tokenOutput (routes : List Nat × List F) (row : List F) : List F :=
  sumRows f32.add (sharedRow f32 weights row)
    ((routes.1.zip routes.2).map fun pair => routeRow f32 weights row pair.1 pair.2)

end

variable {weights : DeepSeek4MoeWeights F config} {f32 : FloatOps F}

theorem forwardMoe_eq {sorts : Sorts} {input : List F} {tokenId : Nat}
    {routes : List Nat × List F} (hinput : input.length = config.hiddenDim)
    (hroute : route f32 sorts input tokenId weights = .ok routes)
    (hrouting : IsRouting config routes) :
    forwardMoe f32 sorts input tokenId weights = .ok (tokenOutput f32 weights routes input) := by
  have hone : input.length = 1 * config.hiddenDim := by
    rw [Nat.one_mul, hinput]
  have hsparse : ((routes.1.zip routes.2).mapM fun pair =>
        computeSparseExpert f32 input pair.1 pair.2 weights) =
      .ok ((routes.1.zip routes.2).map fun pair =>
        routeRow f32 weights input pair.1 pair.2) := by
    apply mapM_eq_ok
    intro pair hpair
    exact computeSparseExpert_eq f32 weights
      (hrouting.lt pair.1 (List.of_mem_zip hpair).1) input pair.2
  have hshared : sharedExpert f32 input weights = .ok (sharedRow f32 weights input) := by
    rw [sharedExpert_eq f32 weights hone]
    simp [rowAt_zero_of_length hinput]
  unfold forwardMoe
  rw [hroute, ok_bind]
  dsimp only
  rw [hsparse, ok_bind, hshared, ok_bind]
  apply congrArg Except.ok
  apply foldl_zipInto_eq_sumRows (length_sharedRow f32 weights hinput)
  intro row hrow
  rcases List.mem_map.mp hrow with ⟨pair, _, hsame⟩
  rw [← hsame]
  exact length_routeRow f32 weights input pair.1 pair.2

/-!
## Assignments
-/

/-- What is pushed for experts and weights in the order of the slots. -/
def slotAssignments (token : Nat) (pairs : List (Nat × F)) : List (Nat × Assignment F) :=
  pairs.zipIdx.map fun entry =>
    (entry.1.1, { token := token, slot := entry.2, routeWeight := entry.1.2 })

theorem slotAssignments_concat (token : Nat) (pairs : List (Nat × F)) (last : Nat × F) :
    slotAssignments token (pairs ++ [last]) = slotAssignments token pairs ++
      [(last.1, { token := token, slot := pairs.length, routeWeight := last.2 })] := by
  unfold slotAssignments
  rw [List.zipIdx_append, List.map_append, Nat.zero_add, List.zipIdx_singleton, List.map_singleton]

def tokenAssignments (token : Nat) (routes : List Nat × List F) :
    List (Nat × Assignment F) :=
  slotAssignments token (routes.1.zip routes.2)

def pushedAssignments (routes : List (List Nat × List F)) : List (Nat × Assignment F) :=
  routes.zipIdx.flatMap fun entry => tokenAssignments entry.2 entry.1

theorem pushedAssignments_concat (routes : List (List Nat × List F)) (last : List Nat × List F) :
    pushedAssignments (routes ++ [last]) =
      pushedAssignments routes ++ tokenAssignments routes.length last := by
  unfold pushedAssignments
  rw [List.zipIdx_append, List.flatMap_append, Nat.zero_add, List.zipIdx_singleton,
    List.flatMap_singleton]

theorem assignToken_eq {expertCount : Nat} {routes : List Nat × List F}
    (hexperts : forall expert, expert ∈ routes.1 -> expert < expertCount) (token : Nat)
    (pushed : List (Nat × Assignment F)) :
    assignToken token routes (buckets expertCount pushed) =
      .ok (buckets expertCount (pushed ++ tokenAssignments token routes)) := by
  have hloop : Delivers (assignToken token routes (buckets expertCount pushed))
      (fun assignments => assignments =
        buckets expertCount (pushed ++ slotAssignments token (routes.1.zip routes.2))) := by
    unfold assignToken
    apply forEnumerated_delivers (fun (earlier : List (Nat × F)) assignments =>
      assignments = buckets expertCount (pushed ++ slotAssignments token earlier))
    · show _ = buckets expertCount (pushed ++ [])
      rw [List.append_nil]
    · intro earlier pair later assignments hsplit hassignments
      have hmem : pair ∈ routes.1.zip routes.2 := by
        rw [hsplit]
        exact List.mem_append_right earlier List.mem_cons_self
      rw [hassignments, modifyAt_buckets (hexperts pair.1 (List.of_mem_zip hmem).1),
        slotAssignments_concat, List.append_assoc]
      exact delivers_ok rfl
  rcases hloop with ⟨assignments, hrun, hassignments⟩
  rw [hrun, hassignments]
  rfl

theorem assignRoutes_eq {routes : List (List Nat × List F)}
    (hrouting : forall r, r ∈ routes -> IsRouting config r) :
    assignRoutes routes config.expertCount =
      .ok (buckets config.expertCount (pushedAssignments routes)) := by
  have hloop : Delivers (assignRoutes routes config.expertCount)
      (fun assignments =>
        assignments = buckets config.expertCount (pushedAssignments routes)) := by
    unfold assignRoutes
    apply forEnumerated_delivers (fun (earlier : List (List Nat × List F)) assignments =>
      assignments = buckets config.expertCount (pushedAssignments earlier))
    · exact (buckets_nil config.expertCount).symm
    · intro earlier last later assignments hsplit hassignments
      have hmem : last ∈ routes := by
        rw [hsplit]
        exact List.mem_append_right earlier List.mem_cons_self
      rw [hassignments, assignToken_eq (hrouting last hmem).lt]
      apply delivers_ok
      rw [pushedAssignments_concat]
  rcases hloop with ⟨assignments, hrun, hassignments⟩
  rw [hrun, hassignments]

def Assignment.place (expertUsedCount : Nat) (assignment : Assignment F) : Nat :=
  assignment.token * expertUsedCount + assignment.slot

theorem pushedAssignments_map_range (choice : Nat -> List Nat × List F) (n : Nat) :
    pushedAssignments ((List.range n).map choice) =
      (List.range n).flatMap fun token => tokenAssignments token (choice token) := by
  induction n with
  | zero => rfl
  | succ n ih =>
    rw [List.range_succ, List.map_append, List.map_singleton, pushedAssignments_concat, ih,
      List.length_map, List.length_range, List.flatMap_append, List.flatMap_singleton]

theorem map_place_pushedAssignments {choice : Nat -> List Nat × List F} {n : Nat}
    (h : forall token, token < n -> IsRouting config (choice token)) :
    (pushedAssignments ((List.range n).map choice)).map
        (fun pair => pair.2.place config.expertUsedCount) =
      List.range (n * config.expertUsedCount) := by
  rw [pushedAssignments_map_range, List.map_flatMap, ← flatMap_range_add]
  apply List.flatMap_congr
  intro token htoken
  have hrouting := h token (List.mem_range.mp htoken)
  have hlength : ((choice token).1.zip (choice token).2).length = config.expertUsedCount := by
    rw [List.length_zip, hrouting.length_experts, hrouting.length_weights, Nat.min_self]
  have hslots : ((choice token).1.zip (choice token).2).zipIdx.map Prod.snd =
      List.range config.expertUsedCount := by
    rw [List.zipIdx_map_snd, hlength, List.range_eq_range']
  rw [← hslots, List.map_map]
  unfold tokenAssignments slotAssignments
  rw [List.map_map]
  rfl

theorem mem_pushedAssignments {choice : Nat -> List Nat × List F} {n : Nat}
    {pair : Nat × Assignment F} :
    pair ∈ pushedAssignments ((List.range n).map choice) ↔
      pair.2.token < n ∧
        ((choice pair.2.token).1.zip (choice pair.2.token).2)[pair.2.slot]? =
          some (pair.1, pair.2.routeWeight) := by
  rw [pushedAssignments_map_range, List.mem_flatMap]
  unfold tokenAssignments slotAssignments
  constructor
  · intro h
    rcases h with ⟨token, htoken, hpair⟩
    rcases List.mem_map.mp hpair with ⟨entry, hentry, hsame⟩
    rw [← hsame]
    exact ⟨List.mem_range.mp htoken, List.mem_zipIdx_iff_getElem?.mp hentry⟩
  · intro h
    exists pair.2.token
    constructor
    · exact List.mem_range.mpr h.1
    · apply List.mem_map.mpr
      exists ((pair.1, pair.2.routeWeight), pair.2.slot)
      exact ⟨List.mem_zipIdx_iff_getElem?.mpr h.2, rfl⟩

/-!
## Groups
-/

def groupOutput (f32 : FloatOps F) (weights : DeepSeek4MoeWeights F config) (inputs : List F)
    (expert : Nat) (assignments : List (Assignment F)) : List F :=
  assignments.flatMap fun assignment =>
    sparseRow f32 weights expert (rowAt config.hiddenDim inputs assignment.token)

theorem gatherInputs_eq {inputs : List F} {hiddenDim n : Nat} {assignments : List (Assignment F)}
    (hinputs : inputs.length = n * hiddenDim)
    (htokens : forall assignment, assignment ∈ assignments -> assignment.token < n) :
    gatherInputs inputs hiddenDim assignments =
      .ok (assignments.flatMap fun assignment => rowAt hiddenDim inputs assignment.token) := by
  have hloop : Delivers (gatherInputs inputs hiddenDim assignments)
      (fun gathered => gathered =
        assignments.flatMap fun assignment => rowAt hiddenDim inputs assignment.token) := by
    unfold gatherInputs
    apply foldlM_delivers (fun (earlier : List (Assignment F)) gathered =>
      gathered = earlier.flatMap fun assignment => rowAt hiddenDim inputs assignment.token)
    · rfl
    · intro earlier assignment later gathered hsplit hgathered
      have hmem : assignment ∈ assignments := by
        rw [hsplit]
        exact List.mem_append_right earlier List.mem_cons_self
      have hslice := (HoldsRows.of_rowAt hinputs).slice_eq (htokens assignment hmem)
      rw [Nat.succ_mul] at hslice
      dsimp only
      rw [hslice, ok_bind, hgathered]
      apply delivers_ok
      rw [List.flatMap_append, List.flatMap_singleton]
  rcases hloop with ⟨gathered, hrun, hgathered⟩
  rw [hrun, hgathered]

theorem computeGroup_eq {inputs : List F} {n : Nat} {group : List (Assignment F) × Nat}
    (hinputs : inputs.length = n * config.hiddenDim)
    (htokens : forall assignment, assignment ∈ group.1 -> assignment.token < n)
    (hexpert : group.2 < config.expertCount) :
    computeGroup f32 inputs weights group =
      .ok (group.1, groupOutput f32 weights inputs group.2 group.1) := by
  have hrows : UniformRows (fun assignment : Assignment F =>
      rowAt config.hiddenDim inputs assignment.token) config.hiddenDim group.1 :=
    fun assignment hmem => length_rowAt hinputs (htokens assignment hmem)
  unfold computeGroup
  rw [gatherInputs_eq hinputs htokens, ok_bind, computeSparseExpertBatch_eq f32 weights hexpert,
    ok_bind]
  have hgroup : ((List.range group.1.length).flatMap fun t =>
        sparseRow f32 weights group.2 (rowAt config.hiddenDim
          (group.1.flatMap fun assignment => rowAt config.hiddenDim inputs assignment.token) t)) =
      groupOutput f32 weights inputs group.2 group.1 := by
    apply flatMap_range_eq_flatMap
    intro t assignment hget
    rw [rowAt_flatMap hrows hget]
  rw [hgroup]
  rfl

def assignmentRow (f32 : FloatOps F) (weights : DeepSeek4MoeWeights F config) (inputs : List F)
    (pair : Nat × Assignment F) : List F :=
  routeRow f32 weights (rowAt config.hiddenDim inputs pair.2.token) pair.1 pair.2.routeWeight

theorem place_mul (token used slot hiddenDim : Nat) :
    token * (used * hiddenDim) + slot * hiddenDim = (token * used + slot) * hiddenDim := by
  rw [Nat.add_mul, Nat.mul_assoc]

theorem scatterGroup_delivers {inputs sparseBySlot : List F} {places : Nat} {rows : Nat -> List F}
    {group : List (Assignment F) × Nat} (hplaces : forall assignment, assignment ∈ group.1 ->
      assignment.place config.expertUsedCount < places)
    (hrows : HoldsRows config.hiddenDim places rows sparseBySlot) :
    Delivers
      (scatterGroup f32 config.hiddenDim (config.expertUsedCount * config.hiddenDim) sparseBySlot
        (group.1, groupOutput f32 weights inputs group.2 group.1))
      (HoldsRows config.hiddenDim places
        (scatterRows (fun pair => pair.2.place config.expertUsedCount)
          (assignmentRow f32 weights inputs) (group.1.map fun a => (group.2, a)) rows)) := by
  have hsource : HoldsRows config.hiddenDim group.1.length
      (rowAt config.hiddenDim (groupOutput f32 weights inputs group.2 group.1))
      (groupOutput f32 weights inputs group.2 group.1) := by
    apply HoldsRows.of_rowAt
    exact length_flatMap_of_uniformRows (fun assignment _ => length_sparseRow f32 weights _ _)
  unfold scatterGroup
  apply forEnumerated_delivers (fun (earlier : List (Assignment F)) =>
    HoldsRows config.hiddenDim places
      (scatterRows (fun pair => pair.2.place config.expertUsedCount)
        (assignmentRow f32 weights inputs) (earlier.map fun a => (group.2, a)) rows))
  · exact hrows
  · intro earlier assignment later sparseBySlot hsplit hholds
    have hget : group.1[earlier.length]? = some assignment := by
      rw [hsplit, List.getElem?_append_right (Nat.le_refl _), Nat.sub_self]
      rfl
    have hplace := hplaces assignment (List.mem_of_getElem? hget)
    have hrow : rowAt config.hiddenDim (groupOutput f32 weights inputs group.2 group.1)
        earlier.length =
        sparseRow f32 weights group.2 (rowAt config.hiddenDim inputs assignment.token) := by
      unfold groupOutput
      exact rowAt_flatMap (fun other _ => length_sparseRow f32 weights _ _) hget
    have hslice := hsource.slice_eq (List.getElem?_eq_some_iff.mp hget).1
    rw [Nat.succ_mul, hrow] at hslice
    dsimp only
    rw [hslice, ok_bind, place_mul, List.map_append, List.map_singleton, scatterRows_concat,
      ← Nat.succ_mul]
    apply hholds.updateSlice hplace
    · rw [zipInto_overwrite (by rw [hholds.length_row hplace, length_sparseRow])]
      rfl
    · exact length_routeRow f32 weights _ _ _

/-!
## All groups
-/

section Batch

variable {f32 : FloatOps F} {weights : DeepSeek4MoeWeights F config} {inputs : List F} {n : Nat}
  {choice : Nat -> List Nat × List F}

/-- The groups that are not empty. -/
def assignedGroups (config : DeepSeek4Config F) (pushed : List (Nat × Assignment F)) :
    List (List (Assignment F) × Nat) :=
  (buckets config.expertCount pushed).zipIdx.filter fun group => !group.1.isEmpty

theorem perm_assignedGroups
    (hrouting : forall token, token < n -> IsRouting config (choice token)) :
    ((assignedGroups config (pushedAssignments ((List.range n).map choice))).flatMap fun group =>
        group.1.map fun a => (group.2, a)).Perm
      (pushedAssignments ((List.range n).map choice)) := by
  unfold assignedGroups
  rw [flatMap_filter_nonempty _ (fun expert (a : Assignment F) => (expert, a))]
  apply perm_flatMap_buckets
  intro pair hpair
  rcases mem_pushedAssignments.mp hpair with ⟨htoken, hget⟩
  exact (hrouting pair.2.token htoken).lt pair.1 (List.of_mem_zip (List.mem_of_getElem? hget)).1

theorem mem_pushed_of_mem_group {group : List (Assignment F) × Nat} {assignment : Assignment F}
    (hrouting : forall token, token < n -> IsRouting config (choice token))
    (hgroup : group ∈ assignedGroups config (pushedAssignments ((List.range n).map choice)))
    (hassignment : assignment ∈ group.1) :
    (group.2, assignment) ∈ pushedAssignments ((List.range n).map choice) := by
  apply (perm_assignedGroups hrouting).mem_iff.mp
  apply List.mem_flatMap.mpr
  exists group
  exact ⟨hgroup, List.mem_map.mpr (Exists.intro assignment ⟨hassignment, rfl⟩)⟩

theorem sparseGroups_eq (f32 : FloatOps F) (weights : DeepSeek4MoeWeights F config)
    (hinputs : inputs.length = n * config.hiddenDim)
    (hrouting : forall token, token < n -> IsRouting config (choice token)) :
    sparseGroups f32 inputs weights
        (buckets config.expertCount (pushedAssignments ((List.range n).map choice))) =
      .ok ((assignedGroups config (pushedAssignments ((List.range n).map choice))).map
        fun group => (group.1, groupOutput f32 weights inputs group.2 group.1)) := by
  unfold sparseGroups
  apply mapM_eq_ok
  intro group hgroup
  have hmem : forall assignment, assignment ∈ group.1 -> assignment.token < n ∧
      ((choice assignment.token).1.zip (choice assignment.token).2)[assignment.slot]? =
        some (group.2, assignment.routeWeight) := fun assignment hassignment =>
    mem_pushedAssignments.mp (mem_pushed_of_mem_group hrouting hgroup hassignment)
  apply computeGroup_eq hinputs
  · intro assignment hassignment
    exact (hmem assignment hassignment).1
  · -- A group that is not empty has an assignment, and so an expert that some token chose.
    have hnonempty := (List.mem_filter.mp hgroup).2
    cases hfirst : group.1 with
    | nil =>
      rw [hfirst] at hnonempty
      cases hnonempty
    | cons assignment rest =>
      have hassignment : assignment ∈ group.1 := by
        rw [hfirst]
        exact List.mem_cons_self
      rcases hmem assignment hassignment with ⟨htoken, hget⟩
      exact (hrouting assignment.token htoken).lt group.2
        (List.of_mem_zip (List.mem_of_getElem? hget)).1

theorem place_lt_of_mem {pair : Nat × Assignment F}
    (hrouting : forall token, token < n -> IsRouting config (choice token))
    (hpair : pair ∈ pushedAssignments ((List.range n).map choice)) :
    pair.2.place config.expertUsedCount < n * config.expertUsedCount := by
  have hplaces := map_place_pushedAssignments hrouting
  have hmem : pair.2.place config.expertUsedCount ∈
      (pushedAssignments ((List.range n).map choice)).map
        (fun pair => pair.2.place config.expertUsedCount) := List.mem_map_of_mem hpair
  rw [hplaces] at hmem
  exact List.mem_range.mp hmem

theorem scatterGroups_delivers (f32 : FloatOps F) (weights : DeepSeek4MoeWeights F config)
    (inputs : List F) (hrouting : forall token, token < n -> IsRouting config (choice token)) :
    Delivers
      (((assignedGroups config (pushedAssignments ((List.range n).map choice))).map
          fun group => (group.1, groupOutput f32 weights inputs group.2 group.1)).foldlM
        (scatterGroup f32 config.hiddenDim (config.expertUsedCount * config.hiddenDim))
        (List.replicate (n * (config.expertUsedCount * config.hiddenDim)) f32.zero))
      (HoldsRows config.hiddenDim (n * config.expertUsedCount)
        (scatterRows (fun pair => pair.2.place config.expertUsedCount)
          (assignmentRow f32 weights inputs) (pushedAssignments ((List.range n).map choice))
          (fun _ => List.replicate config.hiddenDim f32.zero))) := by
  have hperm := perm_assignedGroups hrouting
  have hnodup : (((assignedGroups config
      (pushedAssignments ((List.range n).map choice))).flatMap fun group =>
        group.1.map fun a => (group.2, a)).map
        (fun pair => pair.2.place config.expertUsedCount)).Nodup := by
    rw [(hperm.map _).nodup_iff, map_place_pushedAssignments hrouting]
    exact List.nodup_range
  rw [← scatterRows_perm hnodup hperm, List.foldlM_map]
  apply foldlM_delivers (fun (earlier : List (List (Assignment F) × Nat)) =>
    HoldsRows config.hiddenDim (n * config.expertUsedCount)
      (scatterRows (fun pair => pair.2.place config.expertUsedCount)
        (assignmentRow f32 weights inputs)
        (earlier.flatMap fun group => group.1.map fun a => (group.2, a))
        (fun _ => List.replicate config.hiddenDim f32.zero)))
  · rw [← Nat.mul_assoc]
    exact HoldsRows.replicate config.hiddenDim (n * config.expertUsedCount) f32.zero
  · intro earlier group later sparseBySlot hsplit hholds
    have hgroup : group ∈ assignedGroups config
        (pushedAssignments ((List.range n).map choice)) := by
      rw [hsplit]
      exact List.mem_append_right earlier List.mem_cons_self
    rw [List.flatMap_append, List.flatMap_singleton, scatterRows_append]
    apply scatterGroup_delivers _ hholds
    intro assignment hassignment
    exact place_lt_of_mem hrouting (mem_pushed_of_mem_group hrouting hgroup hassignment)

theorem rows_of_token {token : Nat} {rows : Nat -> List F}
    (hrouting : forall token, token < n -> IsRouting config (choice token)) (htoken : token < n) :
    ((List.range config.expertUsedCount).map fun slot =>
        scatterRows (fun pair => pair.2.place config.expertUsedCount)
          (assignmentRow f32 weights inputs) (pushedAssignments ((List.range n).map choice)) rows
          (token * config.expertUsedCount + slot)) =
      ((choice token).1.zip (choice token).2).map fun pair =>
        routeRow f32 weights (rowAt config.hiddenDim inputs token) pair.1 pair.2 := by
  have hlength : ((choice token).1.zip (choice token).2).length = config.expertUsedCount := by
    have h := hrouting token htoken
    rw [List.length_zip, h.length_experts, h.length_weights, Nat.min_self]
  have hnodup : ((pushedAssignments ((List.range n).map choice)).map
      (fun pair => pair.2.place config.expertUsedCount)).Nodup := by
    rw [map_place_pushedAssignments hrouting]
    exact List.nodup_range
  rw [← hlength]
  apply map_range_eq_map
  intro slot pair hget
  rw [hlength]
  have hmem : (pair.1, { token := token, slot := slot, routeWeight := pair.2 }) ∈
      pushedAssignments ((List.range n).map choice) :=
    mem_pushedAssignments.mpr ⟨htoken, hget⟩
  exact scatterRows_of_mem hnodup hmem

theorem addSlots_eq (f32 : FloatOps F) {sparseBySlot start : List F} {rows : Nat -> List F}
    {token : Nat}
    (hrows : HoldsRows config.hiddenDim (n * config.expertUsedCount) rows sparseBySlot)
    (htoken : token < n) (hstart : start.length = config.hiddenDim) :
    forRange (addSlot f32 sparseBySlot config.hiddenDim
        (config.expertUsedCount * config.hiddenDim) token) config.expertUsedCount start =
      .ok (sumRows f32.add start ((List.range config.expertUsedCount).map fun slot =>
        rows (token * config.expertUsedCount + slot))) := by
  have hplace : forall slot, slot < config.expertUsedCount ->
      token * config.expertUsedCount + slot < n * config.expertUsedCount := by
    intro slot hslot
    have hroom : (token + 1) * config.expertUsedCount <= n * config.expertUsedCount :=
      Nat.mul_le_mul_right config.expertUsedCount htoken
    rw [Nat.succ_mul] at hroom
    omega
  apply forRange_zipInto_eq hstart
  · intro slot hslot
    exact hrows.length_row (hplace slot hslot)
  · intro slot sum hslot
    have hslice := hrows.slice_eq (hplace slot hslot)
    rw [Nat.succ_mul] at hslice
    unfold addSlot
    dsimp only
    rw [place_mul, hslice]
    rfl

theorem forwardMoeVerifyBatch_eq {sorts : Sorts} {tokenIds : List Nat}
    (hinputs : inputs.length = tokenIds.length * config.hiddenDim)
    (hroute : forall token tokenId, tokenIds[token]? = some tokenId ->
      route f32 sorts (rowAt config.hiddenDim inputs token) tokenId weights = .ok (choice token))
    (hrouting : forall token, token < tokenIds.length -> IsRouting config (choice token)) :
    forwardMoeVerifyBatch f32 sorts inputs tokenIds weights =
      .ok ((List.range tokenIds.length).flatMap fun token =>
        tokenOutput f32 weights (choice token) (rowAt config.hiddenDim inputs token)) := by
  have hroutes : ((((List.range tokenIds.length).map (rowAt config.hiddenDim inputs)).zip
        tokenIds).mapM fun pair => route f32 sorts pair.1 pair.2 weights) =
      .ok ((List.range tokenIds.length).map choice) := by
    have hzip : ((List.range tokenIds.length).map (rowAt config.hiddenDim inputs)).zip tokenIds =
        tokenIds.zipIdx.map fun entry => (rowAt config.hiddenDim inputs entry.2, entry.1) := by
      apply List.ext_getElem
      · simp
      · intro token _ _
        simp
    have hchoice : (List.range tokenIds.length).map choice =
        tokenIds.zipIdx.map fun entry => choice entry.2 := by
      rw [List.range_eq_range', ← List.zipIdx_map_snd 0 tokenIds, List.map_map]
      rfl
    rw [hzip, List.mapM_map, hchoice]
    apply mapM_eq_ok
    intro entry hentry
    exact hroute entry.2 entry.1 (List.mem_zipIdx_iff_getElem?.mp hentry)
  have hdiv : inputs.length / config.hiddenDim = tokenIds.length := by
    rw [hinputs, Nat.mul_div_cancel _ config.hiddenDim_pos]
  have hall : forall r, r ∈ (List.range tokenIds.length).map choice -> IsRouting config r := by
    intro r hr
    rcases List.mem_map.mp hr with ⟨token, htoken, hsame⟩
    rw [← hsame]
    exact hrouting token (List.mem_range.mp htoken)
  rcases scatterGroups_delivers f32 weights inputs hrouting with
    ⟨sparseBySlot, hscatter, hplaces⟩
  have hshared : HoldsRows config.hiddenDim tokenIds.length
      (fun token => sharedRow f32 weights (rowAt config.hiddenDim inputs token))
      ((List.range tokenIds.length).flatMap fun token =>
        sharedRow f32 weights (rowAt config.hiddenDim inputs token)) :=
    HoldsRows.of_flatMap fun token htoken =>
      length_sharedRow f32 weights (length_rowAt hinputs htoken)
  have hfinal : Delivers
      (forRange (fun token output =>
          updateSlice output (token * config.hiddenDim) ((token + 1) * config.hiddenDim)
            (forRange (addSlot f32 sparseBySlot config.hiddenDim
              (config.expertUsedCount * config.hiddenDim) token) config.expertUsedCount))
        tokenIds.length ((List.range tokenIds.length).flatMap fun token =>
          sharedRow f32 weights (rowAt config.hiddenDim inputs token)))
      (HoldsRows config.hiddenDim tokenIds.length fun token =>
        tokenOutput f32 weights (choice token) (rowAt config.hiddenDim inputs token)) := by
    apply forRange_updateSlice_delivers hshared
    · intro token htoken
      rw [addSlots_eq f32 hplaces htoken
          (length_sharedRow f32 weights (length_rowAt hinputs htoken)),
        rows_of_token hrouting htoken]
      rfl
    · intro token htoken
      apply length_sumRows (length_sharedRow f32 weights (length_rowAt hinputs htoken))
      intro row hrow
      rcases List.mem_map.mp hrow with ⟨pair, _, hsame⟩
      rw [← hsame]
      exact length_routeRow f32 weights _ _ _
  rcases hfinal with ⟨output, hrun, houtput⟩
  unfold forwardMoeVerifyBatch
  dsimp only
  rw [require_of_true _ hinputs, ok_bind, require_of_true _ (Nat.ne_of_gt config.hiddenDim_pos),
    ok_bind, hdiv, hroutes, ok_bind, assignRoutes_eq hall, ok_bind,
    sparseGroups_eq f32 weights hinputs hrouting, ok_bind, sharedExpert_eq f32 weights hinputs,
    ok_bind, hscatter, ok_bind, hrun, houtput.eq_flatMap]

end Batch

/-!
## Batch and decode
-/

/-- Decoding returns a row for every token, and the batch returns these rows. -/
def AgreesWithDecode (f32 : FloatOps F) (sorts : Sorts) (weights : DeepSeek4MoeWeights F config)
    (inputs : List F) (tokenIds : List Nat) : Prop :=
  exists rows : Nat -> List F,
    (forall token tokenId, tokenIds[token]? = some tokenId ->
      forwardMoe f32 sorts (rowAt config.hiddenDim inputs token) tokenId weights =
        .ok (rows token)) ∧
    forwardMoeVerifyBatch f32 sorts inputs tokenIds weights =
      .ok ((List.range tokenIds.length).flatMap rows)

/-- The batch agrees with decoding unless scores have to select all experts. -/
theorem agreesWithDecode_iff (f32 : FloatOps F) (sorts : Sorts)
    (weights : DeepSeek4MoeWeights F config) (inputs : List F) (tokenIds : List Nat)
    (hinputs : inputs.length = tokenIds.length * config.hiddenDim)
    (hcovers : forall tokenId, tokenId ∈ tokenIds -> HashCovers weights tokenId) :
    AgreesWithDecode f32 sorts weights inputs tokenIds ↔
      weights.hashRoutes ≠ none ∨ config.expertUsedCount < config.expertCount ∨
        tokenIds = [] := by
  constructor
  · intro h
    rcases h with ⟨rows, hrows, _⟩
    by_contra hnone
    rw [not_or, not_or, not_not] at hnone
    rcases hnone with ⟨hhash, hused, htokens⟩
    cases hfirst : tokenIds with
    | nil => exact htokens hfirst
    | cons tokenId rest =>
      have hdecode := hrows 0 tokenId (by rw [hfirst]; rfl)
      rcases route_of_all_used f32 sorts (rowAt config.hiddenDim inputs 0) tokenId hhash
        (Nat.not_lt.mp hused) with ⟨message, hpanic⟩
      unfold forwardMoe at hdecode
      rw [hpanic] at hdecode
      cases hdecode
  · intro h
    have hchoice : forall token, exists routes, forall tokenId,
        tokenIds[token]? = some tokenId ->
        route f32 sorts (rowAt config.hiddenDim inputs token) tokenId weights = .ok routes ∧
          IsRouting config routes := by
      intro token
      cases hget : tokenIds[token]? with
      | none => exact Exists.intro ([], []) (fun tokenId hsome => by cases hsome)
      | some tokenId =>
        have hmem : tokenId ∈ tokenIds := List.mem_of_getElem? hget
        have hroutable : weights.hashRoutes ≠ none ∨
            config.expertUsedCount < config.expertCount := by
          rcases h with hhash | hused | hnil
          · exact Or.inl hhash
          · exact Or.inr hused
          · rw [hnil] at hmem
            cases hmem
        rcases route_delivers f32 sorts (length_rowAt hinputs (List.getElem?_eq_some_iff.mp hget).1)
          (hcovers tokenId hmem) hroutable with ⟨routes, hroute, hrouting⟩
        exists routes
        intro other hother
        cases hother
        exact ⟨hroute, hrouting⟩
    choose choice hchoice using hchoice
    have hrouting : forall token, token < tokenIds.length ->
        IsRouting config (choice token) := fun token htoken =>
      (hchoice token tokenIds[token] (List.getElem?_eq_getElem htoken)).2
    exists fun token => tokenOutput f32 weights (choice token)
      (rowAt config.hiddenDim inputs token)
    constructor
    · intro token tokenId hget
      have htoken := (List.getElem?_eq_some_iff.mp hget).1
      exact forwardMoe_eq (length_rowAt hinputs htoken) (hchoice token tokenId hget).1
        (hrouting token htoken)
    · exact forwardMoeVerifyBatch_eq hinputs
        (fun token tokenId hget => (hchoice token tokenId hget).1) hrouting

def addingConfig (expertCount expertUsedCount : Nat) : DeepSeek4Config Int where
  hiddenDim := 1
  expertCount := expertCount
  expertUsedCount := expertUsedCount
  expertFfnDim := 1
  expertScale := 1
  hiddenDim_pos := by decide

def addingTensor (expertCount : Nat) : ExpertTensor Int expertCount 1 1 where
  bytes := List.replicate expertCount 2
  bytesPerRow := 1
  hostGemv := fun part input => [(part.headD 0).toNat + input.headD 0]
  length_bytes := by simp
  length_hostGemv := fun _ _ => rfl

def addingProjection (rows : Nat) : Projection Int rows 1 where
  row := fun input => List.replicate rows (input.headD 0)
  length_row := fun _ _ => List.length_replicate

def addingWeights (expertCount expertUsedCount : Nat) (hashRoutes : Option (List Int)) :
    DeepSeek4MoeWeights Int (addingConfig expertCount expertUsedCount) where
  sharedFfnDim := 1
  router := addingProjection expertCount
  routerSelectionBias := some (List.replicate expertCount 0)
  hashRoutes := hashRoutes
  gateExps := addingTensor expertCount
  upExps := addingTensor expertCount
  downExps := addingTensor expertCount
  sharedGate := addingProjection 1
  sharedUp := addingProjection 1
  sharedDown := addingProjection 1
  routedClamp := 7
  sharedClamp := 7
  sharedFfnDim_pos := by decide
  length_bias := by
    intro bias hbias
    cases hbias
    exact List.length_replicate
  bias_or_hash := fun _ => Exists.intro _ rfl

def librarySorts : Sorts where
  selectNth := PartialSort.ofInsertionSort
  sort := UnstableSort.ofInsertionSort

/-- Two tokens, the first with one expert twice. -/
theorem agreesWithDecode_iff_repeated :
    AgreesWithDecode FloatOps.ofInt librarySorts (addingWeights 2 2 (some [1, 1, 0, 1])) [3, 4]
      [0, 1] :=
  (agreesWithDecode_iff FloatOps.ofInt librarySorts (addingWeights 2 2 (some [1, 1, 0, 1])) [3, 4]
    [0, 1] (by decide) (by
      intro tokenId htoken table htable
      cases htable
      rcases List.mem_cons.mp htoken with hfirst | hrest
      · rw [hfirst]
        decide
      · rw [List.mem_singleton.mp hrest]
        decide)).mpr (Or.inl (by decide))

/-- One expert, which is used: decoding panics, and so does the batch. -/
theorem all_used_not_agreesWithDecode :
    ¬ AgreesWithDecode FloatOps.ofInt librarySorts (addingWeights 1 1 none) [3] [0] := by
  intro h
  rcases h with ⟨rows, hrows, _⟩
  have hdecode := hrows 0 0 rfl
  have hhash : (addingWeights 1 1 none).hashRoutes = none := rfl
  rcases route_of_all_used FloatOps.ofInt librarySorts [3] 0 hhash (Nat.le_refl 1) with
    ⟨message, hpanic⟩
  unfold forwardMoe at hdecode
  change (route FloatOps.ofInt librarySorts [3] 0 (addingWeights 1 1 none) >>= _) = _ at hdecode
  rw [hpanic] at hdecode
  cases hdecode

end Moe
end RunNBurn
