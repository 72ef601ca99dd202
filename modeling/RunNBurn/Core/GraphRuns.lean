import RunNBurn.Core.Graph

/-!
# What a run of a graph computes

The nodes of a graph without cycles have values that solve the equations of the graph: each
is external or computed from the values in front of it.  A run finds them, whichever order it
takes.
-/

namespace RunNBurn
namespace Core

open Library

variable {Attrs Tensor : Type}

namespace Graph

theorem arrows_within (g : Graph Attrs) : WithinNodes g.nodes.length g.arrows := by
  intro arrow harrow
  rcases List.mem_map.mp harrow with ⟨edge, hedge, rfl⟩
  exact of_decide_eq_true (List.mem_filter.mp hedge).2

theorem leads_of_edge
    {g : Graph Attrs} {edge : Edge}
    (hedge : edge ∈ g.edges) (hfrom : edge.fromNode < g.nodes.length)
    (hto : edge.toNode < g.nodes.length) :
    Leads g.arrows edge.fromNode edge.toNode :=
  List.mem_map.mpr ⟨edge, List.mem_filter.mpr ⟨hedge, decide_eq_true ⟨hfrom, hto⟩⟩, rfl⟩

theorem topologicalOrder_eq (g : Graph Attrs) :
    (Acyclic g.arrows ∧ exists order, g.topologicalOrder = .ok order ∧
        OrdersArrows g.nodes.length g.arrows order) ∨
      (¬ Acyclic g.arrows ∧
        g.topologicalOrder = .error (.invalidGraph "cycle detected in graph")) := by
  rcases topologicalOrder_spec g.arrows_within with ⟨hlength, horders⟩
  unfold topologicalOrder
  by_cases hacyclic : Acyclic g.arrows
  · refine Or.inl ⟨hacyclic, _, ?_, horders hacyclic⟩
    exact if_neg (not_not_intro (hlength.mpr hacyclic))
  · refine Or.inr ⟨hacyclic, ?_⟩
    exact if_pos (fun hall => hacyclic (hlength.mp hall))

/-- There is an order exactly when there is no cycle, and then it has every node once, behind
all nodes that an edge leads from. -/
theorem topologicalOrder_exact (g : Graph Attrs) :
    ((exists order, g.topologicalOrder = .ok order) ↔ Acyclic g.arrows) ∧
      forall order, g.topologicalOrder = .ok order ->
        OrdersArrows g.nodes.length g.arrows order := by
  rcases g.topologicalOrder_eq with ⟨hacyclic, order, horder, horders⟩ | ⟨hcyclic, herror⟩
  · rw [horder]
    refine ⟨iff_of_true ⟨order, rfl⟩ hacyclic, ?_⟩
    intro other hother
    cases hother
    exact horders
  · rw [herror]
    exact ⟨iff_of_false nofun hcyclic, nofun⟩

end Graph

namespace Scheduler

def known (values : NodeId -> List Tensor) (nodes : List NodeId) : Outputs Tensor :=
  fun id => if id ∈ nodes then some (values id) else none

def SolvesAt (s : Scheduler Attrs Tensor) (g : Graph Attrs) (externalInputs : Outputs Tensor)
    (values : NodeId -> List Tensor) (id : NodeId) : Prop :=
  match externalInputs id with
  | some tensors => values id = tensors
  | none => s.execute g (known values (List.range g.nodes.length)) id = .ok (values id)

def Solves (s : Scheduler Attrs Tensor) (g : Graph Attrs) (externalInputs : Outputs Tensor)
    (values : NodeId -> List Tensor) : Prop :=
  forall id, id < g.nodes.length -> s.SolvesAt g externalInputs values id

variable {s : Scheduler Attrs Tensor} {g : Graph Attrs} {externalInputs : Outputs Tensor}
  {values : NodeId -> List Tensor} {id : NodeId}

theorem known_update {nodes : List NodeId} {tensors : List Tensor} (hfresh : id ∉ nodes) :
    Function.update (known values nodes) id (some tensors) =
      known (Function.update values id tensors) (nodes ++ [id]) := by
  funext other
  unfold known
  by_cases hother : other = id
  · subst hother
    simp
  · by_cases hmem : other ∈ nodes
    · simp [hother, hmem]
    · simp [hother, hmem]

theorem known_congr
    {values others : NodeId -> List Tensor} {nodes : List NodeId}
    (h : forall id, id ∈ nodes -> others id = values id) :
    known others nodes = known values nodes := by
  funext id
  unfold known
  split
  · rename_i hmem
    rw [h id hmem]
  · rfl

theorem execute_congr {outputs others : Outputs Tensor}
    (h : forall edge, edge ∈ g.edges -> edge.toNode = id ->
      outputs edge.fromNode = others edge.fromNode) :
    s.execute g outputs id = s.execute g others id := by
  have hinputs : inputTensors (inputEdges g id) outputs =
      inputTensors (inputEdges g id) others := by
    apply List.filterMap_congr
    intro edge hedge
    rw [inputEdges, List.mem_mergeSort] at hedge
    rcases List.mem_filter.mp hedge with ⟨hmem, hto⟩
    rw [h edge hmem (of_decide_eq_true hto)]
  unfold execute
  dsimp only
  simp only [hinputs]

variable {order before after : List NodeId}

theorem execute_known (horders : OrdersArrows g.nodes.length g.arrows order)
    (hsplit : order = before ++ id :: after) (values : NodeId -> List Tensor) :
    s.execute g (known values before) id =
      s.execute g (known values (List.range g.nodes.length)) id := by
  apply execute_congr
  intro edge hedge hto
  have hid : id < g.nodes.length := by
    rw [← horders.mem id, hsplit]
    simp
  unfold known
  by_cases hfrom : edge.fromNode < g.nodes.length
  · have hleads := Graph.leads_of_edge hedge hfrom (hto ▸ hid)
    rw [hto] at hleads
    rw [if_pos (horders.forward before id after hsplit _ hleads), if_pos (List.mem_range.mpr hfrom)]
  · have hbefore : edge.fromNode ∉ before := by
      intro hmem
      apply hfrom
      rw [← horders.mem edge.fromNode, hsplit]
      exact List.mem_append_left _ hmem
    rw [if_neg hbefore, if_neg (fun hmem => hfrom (List.mem_range.mp hmem))]

theorem solvesAt_congr {values others : NodeId -> List Tensor}
    (horders : OrdersArrows g.nodes.length g.arrows order) (hsplit : order = before ++ id :: after)
    (h : forall node, node ∈ before ++ [id] -> others node = values node) :
    s.SolvesAt g externalInputs others id ↔ s.SolvesAt g externalInputs values id := by
  have hid := h id (by simp)
  have hbefore : known others before = known values before :=
    known_congr (fun node hmem => h node (List.mem_append_left _ hmem))
  unfold SolvesAt
  rw [← execute_known horders hsplit others, ← execute_known horders hsplit values, hid, hbefore]

variable {outputs : Outputs Tensor}

theorem runNode_eq_ok_iff (horders : OrdersArrows g.nodes.length g.arrows order)
    (hsplit : order = before ++ id :: after) :
    s.runNode g externalInputs (known values before) id = .ok outputs ↔
      exists tensors, outputs = known (Function.update values id tensors) (before ++ [id]) ∧
        s.SolvesAt g externalInputs (Function.update values id tensors) id := by
  have hnodup := horders.nodup
  rw [hsplit] at hnodup
  have hfresh : id ∉ before :=
    fun hmem => List.disjoint_of_nodup_append hnodup hmem List.mem_cons_self
  have hsolves : forall tensors,
      s.SolvesAt g externalInputs (Function.update values id tensors) id ↔
        match externalInputs id with
        | some given => tensors = given
        | none => s.execute g (known values before) id = .ok tensors := by
    intro tensors
    have hbefore : known (Function.update values id tensors) before = known values before :=
      known_congr (fun node hmem =>
        Function.update_of_ne (ne_of_mem_of_not_mem hmem hfresh) _ _)
    unfold SolvesAt
    rw [← execute_known horders hsplit, hbefore, Function.update_self]
  unfold runNode
  cases hexternal : externalInputs id with
  | some given =>
    dsimp only
    rw [known_update hfresh]
    constructor
    · intro hok
      cases hok
      exact ⟨given, rfl, (hsolves given).mpr (by rw [hexternal])⟩
    · rintro ⟨tensors, houtputs, hat⟩
      have hgiven := (hsolves tensors).mp hat
      rw [hexternal] at hgiven
      rw [houtputs, hgiven]
  | none =>
    dsimp only
    constructor
    · intro hok
      rcases bind_eq_ok hok with ⟨tensors, hexecute, houtputs⟩
      cases houtputs
      refine ⟨tensors, known_update hfresh, (hsolves tensors).mpr ?_⟩
      rw [hexternal]
      exact hexecute
    · rintro ⟨tensors, houtputs, hat⟩
      have hexecute := (hsolves tensors).mp hat
      rw [hexternal] at hexecute
      dsimp only at hexecute
      rw [hexecute, houtputs, ← known_update hfresh]
      rfl

theorem foldlM_runNode_eq_ok_iff (horders : OrdersArrows g.nodes.length g.arrows order)
    (hsplit : order = before ++ after) :
    after.foldlM (s.runNode g externalInputs) (known values before) = .ok outputs ↔
      exists final, (forall id, id ∈ before -> final id = values id) ∧
        (forall id, id ∈ after -> s.SolvesAt g externalInputs final id) ∧
        outputs = known final order := by
  induction after generalizing before values with
  | nil =>
    rw [List.append_nil] at hsplit
    subst hsplit
    constructor
    · intro hok
      cases hok
      exact ⟨values, fun _ _ => rfl, fun _ hmem => absurd hmem List.not_mem_nil, rfl⟩
    · rintro ⟨final, hagrees, _, rfl⟩
      rw [known_congr hagrees]
      rfl
  | cons id after ih =>
    have hnodup := horders.nodup
    rw [hsplit] at hnodup
    have hfresh : id ∉ before :=
      fun hmem => List.disjoint_of_nodup_append hnodup hmem List.mem_cons_self
    have hnext : order = (before ++ [id]) ++ after := by
      rw [hsplit, List.append_assoc]
      rfl
    rw [List.foldlM_cons]
    constructor
    · intro hok
      rcases bind_eq_ok hok with ⟨here, hstep, hrest⟩
      rcases (runNode_eq_ok_iff horders hsplit).mp hstep with ⟨tensors, rfl, hat⟩
      rcases (ih hnext).mp hrest with ⟨final, hagrees, hsolves, houtputs⟩
      refine ⟨final, ?_, ?_, houtputs⟩
      · intro node hmem
        rw [hagrees node (List.mem_append_left _ hmem)]
        exact Function.update_of_ne (ne_of_mem_of_not_mem hmem hfresh) _ _
      · intro node hmem
        rcases List.mem_cons.mp hmem with rfl | hlater
        · exact (solvesAt_congr horders hsplit hagrees).mpr hat
        · exact hsolves node hlater
    · rintro ⟨final, hagrees, hsolves, houtputs⟩
      have hstep : s.runNode g externalInputs (known values before) id =
          .ok (known final (before ++ [id])) := by
        rw [← known_congr hagrees]
        refine (runNode_eq_ok_iff horders hsplit).mpr ⟨final id, ?_, ?_⟩
        · rw [Function.update_eq_self]
        · rw [Function.update_eq_self]
          exact hsolves id List.mem_cons_self
      rw [hstep]
      exact (ih hnext).mpr ⟨final, fun _ _ => rfl,
        fun node hmem => hsolves node (List.mem_cons_of_mem _ hmem), houtputs⟩

theorem runAll_eq_ok_iff :
    s.runAll g externalInputs = .ok outputs ↔
      Acyclic g.arrows ∧ exists values, s.Solves g externalInputs values ∧
        outputs = known values (List.range g.nodes.length) := by
  unfold runAll
  rcases g.topologicalOrder_eq with ⟨hacyclic, order, horder, horders⟩ | ⟨hcyclic, herror⟩
  · have hknown : forall values : NodeId -> List Tensor,
        known values order = known values (List.range g.nodes.length) := by
      intro values
      funext id
      unfold known
      simp [horders.mem]
    have hstart : (fun _ => none : Outputs Tensor) = known (fun _ => []) [] := by
      funext id
      simp [known]
    rw [horder, hstart]
    refine (foldlM_runNode_eq_ok_iff horders (List.nil_append order).symm).trans ?_
    constructor
    · rintro ⟨final, _, hsolves, houtputs⟩
      exact ⟨hacyclic, final, fun id hid => hsolves id ((horders.mem id).mpr hid),
        houtputs.trans (hknown final)⟩
    · rintro ⟨_, values, hsolves, houtputs⟩
      exact ⟨values, fun _ hmem => absurd hmem List.not_mem_nil,
        fun id hmem => hsolves id ((horders.mem id).mp hmem), houtputs.trans (hknown values).symm⟩
  · rw [herror]
    constructor
    · intro hok
      cases hok
    · exact fun hboth => absurd hboth.1 hcyclic

theorem foldlM_runNode_ne_panic
    {order : List NodeId} (horder : forall id, id ∈ order -> id < g.nodes.length)
    (outputs : Outputs Tensor) :
    order.foldlM (s.runNode g externalInputs) outputs ≠ .error .panic := by
  induction order generalizing outputs with
  | nil => exact nofun
  | cons id rest ih =>
    have hid := horder id List.mem_cons_self
    have hnode : g.node id = some g.nodes[id] := List.getElem?_eq_getElem hid
    have hexecute : s.execute g outputs id ≠ .error .panic := by
      unfold execute
      rw [hnode]
      dsimp only
      split
      · exact nofun
      · cases Backend.execute _ _ _ with
        | error fault => exact nofun
        | ok tensors => exact nofun
    have hstep : s.runNode g externalInputs outputs id ≠ .error .panic := by
      unfold runNode
      cases externalInputs id with
      | some tensors => exact nofun
      | none =>
        dsimp only
        cases hcall : s.execute g outputs id with
        | error stop =>
          intro hpanic
          have hstop : stop = .panic := Except.error.inj hpanic
          exact hexecute (hcall.trans (congrArg Except.error hstop))
        | ok tensors => exact nofun
    rw [List.foldlM_cons]
    cases hcall : s.runNode g externalInputs outputs id with
    | error stop => exact fun hpanic => hstep (hcall.trans hpanic)
    | ok here => exact ih (fun other hmem => horder other (List.mem_cons_of_mem _ hmem)) here

/-- A run finds the values that solve the graph, which are the only ones, and hands out those
of the output nodes. -/
theorem run_exact (s : Scheduler Attrs Tensor) (g : Graph Attrs) (externalInputs : Outputs Tensor) :
    (forall results, s.run g externalInputs = .ok results ↔
      Acyclic g.arrows ∧ exists values, s.Solves g externalInputs values ∧
        results = known values g.outputNodes) ∧
      (Acyclic g.arrows -> forall values others, s.Solves g externalInputs values ->
        s.Solves g externalInputs others ->
          forall id, id < g.nodes.length -> values id = others id) ∧
      s.run g externalInputs ≠ .error .panic := by
  have hmasked : forall values : NodeId -> List Tensor,
      (fun id => if id ∈ g.outputNodes then known values (List.range g.nodes.length) id
        else none) = known values g.outputNodes := by
    intro values
    funext id
    unfold known
    split
    · rename_i hmem
      rw [if_pos (List.mem_filter.mp hmem).1]
    · rfl
  refine ⟨?_, ?_, ?_⟩
  · intro results
    unfold run
    constructor
    · intro hok
      rcases bind_eq_ok hok with ⟨outputs, houtputs, hresults⟩
      rcases runAll_eq_ok_iff.mp houtputs with ⟨hacyclic, values, hsolves, rfl⟩
      cases hresults
      exact ⟨hacyclic, values, hsolves, hmasked values⟩
    · rintro ⟨hacyclic, values, hsolves, rfl⟩
      rw [runAll_eq_ok_iff.mpr ⟨hacyclic, values, hsolves, rfl⟩]
      exact congrArg Except.ok (hmasked values)
  · intro hacyclic values others hvalues hothers id hid
    have hfirst := runAll_eq_ok_iff.mpr ⟨hacyclic, values, hvalues, rfl⟩
    rw [runAll_eq_ok_iff.mpr ⟨hacyclic, others, hothers, rfl⟩] at hfirst
    have hsame := congrFun (Except.ok.inj hfirst) id
    unfold known at hsame
    rw [if_pos (List.mem_range.mpr hid), if_pos (List.mem_range.mpr hid)] at hsame
    exact (Option.some.inj hsame).symm
  · unfold run runAll
    rcases g.topologicalOrder_eq with ⟨_, order, horder, horders⟩ | ⟨_, herror⟩
    · have hfold : order.foldlM (s.runNode g externalInputs) (fun _ => none) ≠ .error .panic :=
        foldlM_runNode_ne_panic (fun id hmem => (horders.mem id).mp hmem) _
      rw [horder]
      change (order.foldlM (s.runNode g externalInputs) _ >>= _) ≠ _
      cases hcall : order.foldlM (s.runNode g externalInputs) (fun _ => none) with
      | error stop => exact fun hpanic => hfold (hcall.trans hpanic)
      | ok outputs => exact nofun
    · rw [herror]
      exact nofun

end Scheduler

end Core
end RunNBurn
