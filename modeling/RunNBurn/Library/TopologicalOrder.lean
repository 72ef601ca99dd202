import Mathlib.Data.Finset.Card
import Mathlib.Data.Fintype.EquivFin
import Mathlib.Data.Fintype.Pigeonhole
import Mathlib.Logic.Relation
import Mathlib.Order.Preorder.Finite

/-!
# Orders along the arrows of a graph

The nodes of a graph are the numbers below `n`.  Taking the nodes without an incoming arrow
one after the other orders a graph without cycles along its arrows, and gets stuck on a
graph with one.
-/

namespace RunNBurn
namespace Library

structure Arrow where
  source : Nat
  target : Nat
deriving DecidableEq

def Leads (arrows : List Arrow) (source target : Nat) : Prop :=
  Arrow.mk source target ∈ arrows

def Acyclic (arrows : List Arrow) : Prop :=
  forall node, ¬ Relation.TransGen (Leads arrows) node node

def WithinNodes (n : Nat) (arrows : List Arrow) : Prop :=
  forall arrow, arrow ∈ arrows -> arrow.source < n ∧ arrow.target < n

structure OrdersArrows (n : Nat) (arrows : List Arrow) (order : List Nat) : Prop where
  nodup : order.Nodup
  mem : forall node, node ∈ order ↔ node < n
  forward : forall before node after, order = before ++ node :: after ->
    forall source, Leads arrows source node -> source ∈ before

/-!
# The algorithm
-/

def targetsOf (arrows : List Arrow) (node : Nat) : List Nat :=
  (arrows.filter fun arrow => arrow.source = node).map Arrow.target

def adjacency (n : Nat) (arrows : List Arrow) : List (List Nat) :=
  arrows.foldl (fun adj arrow => adj.modify arrow.source (fun targets => targets ++ [arrow.target]))
    (List.replicate n [])

def inDegrees (n : Nat) (arrows : List Arrow) : List Nat :=
  arrows.foldl (fun degrees arrow => degrees.modify arrow.target (fun degree => degree + 1))
    (List.replicate n 0)

structure OrderState where
  inDegree : List Nat
  queue : List Nat
  order : List Nat
deriving DecidableEq

namespace OrderState

def release (s : OrderState) (next : Nat) : OrderState :=
  let inDegree := s.inDegree.modify next (fun degree => degree - 1)
  { s with
    inDegree := inDegree
    queue := if inDegree.getD next 0 = 0 then s.queue ++ [next] else s.queue }

def take (adj : List (List Nat)) (s : OrderState) (node : Nat) (rest : List Nat) : OrderState :=
  (adj.getD node []).foldl release { s with queue := rest, order := s.order ++ [node] }

/-- `while let Some(node) = queue.pop_front()`, for so many rounds at most. -/
def drain (adj : List (List Nat)) : Nat -> OrderState -> OrderState
  | 0, s => s
  | rounds + 1, s =>
    match s.queue with
    | [] => s
    | node :: rest => drain adj rounds (take adj s node rest)

def start (n : Nat) (arrows : List Arrow) : OrderState where
  inDegree := inDegrees n arrows
  queue := (List.range n).filter fun node => (inDegrees n arrows).getD node 0 = 0
  order := []

end OrderState

def topologicalOrder (n : Nat) (arrows : List Arrow) : List Nat :=
  (OrderState.drain (adjacency n arrows) n (OrderState.start n arrows)).order

/-!
# What the loops over the arrows count
-/

theorem getD_modify {item : Type} (items : List item) (i j : Nat) (f : item -> item)
    (default : item) :
    (items.modify i f).getD j default =
      if i = j ∧ j < items.length then f (items.getD j default) else items.getD j default := by
  rw [List.getD_eq_getElem?_getD, List.getD_eq_getElem?_getD, List.getElem?_modify]
  by_cases hlt : j < items.length
  · rw [List.getElem?_eq_getElem hlt]
    by_cases hij : i = j
    · simp [hij, hlt]
    · simp [hij]
  · rw [List.getElem?_eq_none (Nat.le_of_not_lt hlt)]
    simp [hlt]

variable {arrows : List Arrow}

theorem getD_adjacency {n : Nat} (h : WithinNodes n arrows) (node : Nat) :
    (adjacency n arrows).getD node [] = targetsOf arrows node := by
  have hfold : forall adj : List (List Nat), adj.length = n ->
      (arrows.foldl (fun adj arrow =>
        adj.modify arrow.source (fun targets => targets ++ [arrow.target])) adj).getD node [] =
      adj.getD node [] ++ targetsOf arrows node := by
    induction arrows with
    | nil =>
      intro adj hadj
      exact (List.append_nil _).symm
    | cons arrow rest ih =>
      intro adj hadj
      have hsource := (h arrow List.mem_cons_self).1
      rw [List.foldl_cons, ih (fun other hmem => h other (List.mem_cons_of_mem _ hmem)) _
        (by rw [List.length_modify]; exact hadj), getD_modify, hadj]
      unfold targetsOf
      by_cases hnode : arrow.source = node
      · subst hnode
        rw [if_pos ⟨rfl, hsource⟩, List.filter_cons_of_pos (by simp), List.map_cons,
          List.append_assoc]
        rfl
      · rw [if_neg (fun hboth => hnode hboth.1), List.filter_cons_of_neg (by simpa using hnode)]
  have hstart := hfold (List.replicate n []) List.length_replicate
  unfold adjacency
  rw [hstart]
  by_cases hlt : node < n
  · simp [hlt]
  · simp [hlt]

theorem getD_inDegrees {n : Nat} (h : WithinNodes n arrows) (node : Nat) :
    (inDegrees n arrows).getD node 0 = arrows.countP (fun arrow => arrow.target = node) := by
  have hfold : forall degrees : List Nat, degrees.length = n ->
      (arrows.foldl (fun degrees arrow =>
        degrees.modify arrow.target (fun degree => degree + 1)) degrees).getD node 0 =
      degrees.getD node 0 + arrows.countP (fun arrow => arrow.target = node) := by
    induction arrows with
    | nil =>
      intro degrees hdegrees
      rfl
    | cons arrow rest ih =>
      intro degrees hdegrees
      have htarget := (h arrow List.mem_cons_self).2
      rw [List.foldl_cons, ih (fun other hmem => h other (List.mem_cons_of_mem _ hmem)) _
        (by rw [List.length_modify]; exact hdegrees), getD_modify, hdegrees, List.countP_cons]
      by_cases hnode : arrow.target = node
      · subst hnode
        rw [if_pos ⟨rfl, htarget⟩]
        simp
        omega
      · rw [if_neg (fun hboth => hnode hboth.1)]
        simp [hnode]
  have hstart := hfold (List.replicate n 0) List.length_replicate
  unfold inDegrees
  rw [hstart]
  by_cases hlt : node < n
  · simp [hlt]
  · simp [hlt]

/-!
# The invariant
-/

/-- How many arrows lead to a node from nodes that are not settled. -/
def openArrows (arrows : List Arrow) (settled : List Nat) (node : Nat) : Nat :=
  arrows.countP fun arrow => arrow.target = node ∧ arrow.source ∉ settled

theorem openArrows_append
    (arrows : List Arrow) {settled : List Nat} {taken : Nat} (node : Nat) (h : taken ∉ settled) :
    openArrows arrows settled node =
      openArrows arrows (settled ++ [taken]) node + (targetsOf arrows taken).count node := by
  unfold openArrows targetsOf
  induction arrows with
  | nil => rfl
  | cons arrow rest ih =>
    rw [List.countP_cons, List.countP_cons, ih]
    by_cases hsource : arrow.source = taken
    · rw [List.filter_cons_of_pos (by simpa using hsource), List.map_cons, List.count_cons]
      have hone : (if decide (arrow.target = node ∧ arrow.source ∉ settled) then 1 else 0) =
          (if decide (arrow.target = node ∧ arrow.source ∉ settled ++ [taken]) then 1 else 0) +
            (if arrow.target == node then 1 else 0) := by
        simp [hsource, h]
      omega
    · rw [List.filter_cons_of_neg (by simpa using hsource)]
      have hone : (if decide (arrow.target = node ∧ arrow.source ∉ settled) then 1 else 0) =
          (if decide (arrow.target = node ∧ arrow.source ∉ settled ++ [taken]) then 1 else 0) := by
        simp [hsource]
      omega

/-- The state while the arrows to `waiting` are still to be released. -/
structure OrderState.Draining (n : Nat) (arrows : List Arrow) (waiting : List Nat)
    (s : OrderState) : Prop where
  length : s.inDegree.length = n
  degree : forall node,
    s.inDegree.getD node 0 = openArrows arrows s.order node + waiting.count node
  nodup : (s.order ++ s.queue).Nodup
  mem : forall node, node ∈ s.order ++ s.queue ↔ node < n ∧ s.inDegree.getD node 0 = 0
  forward : forall before node after, s.order = before ++ node :: after ->
    forall source, Leads arrows source node -> source ∈ before

namespace OrderState

variable {n : Nat} {arrows : List Arrow} {s : OrderState}

theorem release_draining
    {next : Nat} {waiting : List Nat} (h : s.Draining n arrows (next :: waiting))
    (hnext : next < n) :
    (s.release next).Draining n arrows waiting := by
  have hdegree : forall node, (s.release next).inDegree.getD node 0 =
      openArrows arrows s.order node + waiting.count node := by
    intro node
    have hbefore := h.degree node
    unfold release
    dsimp only
    rw [getD_modify, h.length, hbefore, List.count_cons]
    by_cases hnode : next = node
    · subst hnode
      rw [if_pos ⟨rfl, hnext⟩]
      simp
    · rw [if_neg (fun hboth => hnode hboth.1)]
      simp [hnode]
  have hpositive : s.inDegree.getD next 0 ≠ 0 := by
    rw [h.degree, List.count_cons]
    simp
  have hfresh : next ∉ s.order ++ s.queue :=
    fun hmem => hpositive ((h.mem next).mp hmem).2
  have hothers : forall node, node ≠ next ->
      (s.release next).inDegree.getD node 0 = s.inDegree.getD node 0 := by
    intro node hnode
    rw [hdegree, h.degree, List.count_cons]
    simp [Ne.symm hnode]
  have hqueue : (s.release next).queue =
      if (s.release next).inDegree.getD next 0 = 0 then s.queue ++ [next] else s.queue := rfl
  constructor
  · exact (List.length_modify _ _ _).trans h.length
  · exact hdegree
  · rw [hqueue]
    split
    · rw [← List.append_assoc]
      exact h.nodup.append (List.nodup_singleton next) (by simpa using hfresh)
    · exact h.nodup
  · intro node
    have hold := h.mem node
    change node ∈ s.order ++ (s.release next).queue ↔ _
    rw [hqueue]
    by_cases hnode : node = next
    · subst hnode
      by_cases hzero : (s.release node).inDegree.getD node 0 = 0
      · rw [if_pos hzero]
        exact iff_of_true (by simp) ⟨hnext, hzero⟩
      · rw [if_neg hzero]
        exact iff_of_false hfresh (fun hboth => hzero hboth.2)
    · rw [hothers node hnode, ← hold]
      split
      · simp [hnode]
      · exact Iff.rfl
  · exact h.forward

theorem foldl_release_draining
    {waiting : List Nat} (h : s.Draining n arrows waiting)
    (hwaiting : forall next, next ∈ waiting -> next < n) :
    (waiting.foldl release s).Draining n arrows [] := by
  induction waiting generalizing s with
  | nil => exact h
  | cons next rest ih =>
    rw [List.foldl_cons]
    exact ih (release_draining h (hwaiting next List.mem_cons_self))
      (fun other hmem => hwaiting other (List.mem_cons_of_mem _ hmem))

theorem foldl_release_order (waiting : List Nat) (s : OrderState) :
    (waiting.foldl release s).order = s.order := by
  induction waiting generalizing s with
  | nil => rfl
  | cons next rest ih => exact ih (s.release next)

theorem take_draining
    {node : Nat} {rest : List Nat} (hwithin : WithinNodes n arrows) (h : s.Draining n arrows [])
    (hqueue : s.queue = node :: rest) :
    (take (adjacency n arrows) s node rest).Draining n arrows [] := by
  have hnodup := h.nodup
  have hmem := h.mem node
  rw [hqueue] at hnodup hmem
  have hzero := (hmem.mp (by simp)).2
  have hsettled : node ∉ s.order := by
    intro hboth
    exact List.disjoint_of_nodup_append hnodup hboth List.mem_cons_self
  unfold take
  rw [getD_adjacency hwithin]
  apply foldl_release_draining
  · constructor
    · exact h.length
    · intro other
      have hdegree := h.degree other
      rw [openArrows_append arrows other hsettled] at hdegree
      simpa using hdegree
    · simpa using hnodup
    · intro other
      have hother := h.mem other
      rw [hqueue] at hother
      simpa using hother
    · intro before other after hsplit source hleads
      rcases List.eq_nil_or_concat after with hnil | ⟨earlier, last, hlast⟩
      · rw [hnil] at hsplit
        have hparts := List.append_inj' hsplit rfl
        have hother : node = other := List.singleton_inj.mp hparts.2
        rw [h.degree, List.count_nil, Nat.add_zero, openArrows, List.countP_eq_zero] at hzero
        have hclosed := hzero _ hleads
        rw [← hparts.1]
        by_contra hopen
        exact hclosed (decide_eq_true ⟨hother.symm, hopen⟩)
      · rw [hlast, List.concat_eq_append, ← List.cons_append, ← List.append_assoc] at hsplit
        exact h.forward before other earlier (List.append_inj' hsplit rfl).1 source hleads
  · intro next hnext
    rcases List.mem_map.mp hnext with ⟨arrow, harrow, rfl⟩
    exact (hwithin arrow (List.mem_filter.mp harrow).1).2

theorem drain_draining
    (hwithin : WithinNodes n arrows) (rounds : Nat) (h : s.Draining n arrows []) :
    (drain (adjacency n arrows) rounds s).Draining n arrows [] ∧
      ((drain (adjacency n arrows) rounds s).queue = [] ∨
        (drain (adjacency n arrows) rounds s).order.length = s.order.length + rounds) := by
  induction rounds generalizing s with
  | zero => exact ⟨h, Or.inr rfl⟩
  | succ rounds ih =>
    unfold drain
    cases hqueue : s.queue with
    | nil => exact ⟨h, Or.inl hqueue⟩
    | cons node rest =>
      have hrest := ih (take_draining hwithin h hqueue)
      refine ⟨hrest.1, hrest.2.imp id ?_⟩
      intro hlength
      unfold take at hlength ⊢
      rw [hlength, foldl_release_order, List.length_append]
      simp
      omega

theorem start_draining (hwithin : WithinNodes n arrows) :
    (start n arrows).Draining n arrows [] := by
  constructor
  · have hfold : forall degrees : List Nat, (arrows.foldl (fun degrees arrow =>
        degrees.modify arrow.target (fun degree => degree + 1)) degrees).length =
          degrees.length := by
      clear hwithin
      induction arrows with
      | nil => exact fun _ => rfl
      | cons arrow rest ih => exact fun degrees => (ih _).trans (List.length_modify _ _ _)
    exact (hfold _).trans List.length_replicate
  · intro node
    unfold start openArrows
    rw [getD_inDegrees hwithin]
    simp
  · exact List.nodup_range.filter _
  · intro node
    unfold start
    simp
  · intro before node after hsplit
    exact absurd hsplit.symm (List.append_ne_nil_of_right_ne_nil _ (List.cons_ne_nil _ _))

end OrderState

/-!
# The order
-/

theorem OrdersArrows.acyclic {n : Nat} {order : List Nat} (hwithin : WithinNodes n arrows)
    (h : OrdersArrows n arrows order) :
    Acyclic arrows := by
  have hstep : forall source target, Leads arrows source target ->
      order.idxOf source < order.idxOf target := by
    intro source target hleads
    have hmem := (h.mem target).mpr (hwithin _ hleads).2
    rcases List.append_of_mem hmem with ⟨before, after, hsplit⟩
    have hsource := h.forward before target after hsplit source hleads
    have hnodup := h.nodup
    rw [hsplit] at hnodup ⊢
    have htarget : target ∉ before :=
      fun hboth => List.disjoint_of_nodup_append hnodup hboth List.mem_cons_self
    rw [List.idxOf_append_of_mem hsource, List.idxOf_append_of_notMem htarget, List.idxOf_cons_self]
    exact List.idxOf_lt_length_of_mem hsource
  intro node hcycle
  have hwalk : forall target, Relation.TransGen (Leads arrows) node target ->
      order.idxOf node < order.idxOf target := by
    intro target htarget
    induction htarget with
    | single hleads => exact hstep _ _ hleads
    | tail _ hleads ih => exact ih.trans (hstep _ _ hleads)
  exact Nat.lt_irrefl _ (hwalk node hcycle)

/-- The order has all nodes exactly when there is no cycle, and then the arrows lead
forward in it. -/
theorem topologicalOrder_spec {n : Nat} (hwithin : WithinNodes n arrows) :
    ((topologicalOrder n arrows).length = n ↔ Acyclic arrows) ∧
      (Acyclic arrows -> OrdersArrows n arrows (topologicalOrder n arrows)) := by
  rcases OrderState.drain_draining hwithin n (OrderState.start_draining hwithin) with
    ⟨hfinal, hend⟩
  unfold topologicalOrder
  generalize OrderState.drain (adjacency n arrows) n (OrderState.start n arrows) = final
    at hfinal hend
  have hbound : (final.order ++ final.queue).length <= n := by
    have hsubset : final.order ++ final.queue ⊆ List.range n :=
      fun node hmem => List.mem_range.mpr ((hfinal.mem node).mp hmem).1
    have hle := (List.subperm_of_subset hfinal.nodup hsubset).length_le
    rwa [List.length_range] at hle
  have hempty : final.queue = [] := by
    rcases hend with hqueue | hlength
    · exact hqueue
    · rw [List.length_append, hlength] at hbound
      apply List.eq_nil_of_length_eq_zero
      have hzero : (OrderState.start n arrows).order.length = 0 := rfl
      omega
  have hnodup := hfinal.nodup
  have hmem := hfinal.mem
  rw [hempty, List.append_nil] at hnodup hbound
  simp only [hempty, List.append_nil] at hmem
  have hall : final.order.length = n -> forall node, node ∈ final.order ↔ node < n := by
    intro hlength node
    have hsubperm : final.order.Subperm (List.range n) := List.subperm_of_subset hnodup
      (fun other hother => List.mem_range.mpr ((hmem other).mp hother).1)
    have hperm := hsubperm.perm_of_length_le (by rw [hlength, List.length_range])
    rw [hperm.mem_iff, List.mem_range]
  have horders : final.order.length = n -> OrdersArrows n arrows final.order :=
    fun hlength => ⟨hnodup, hall hlength, hfinal.forward⟩
  have hcomplete : Acyclic arrows -> final.order.length = n := by
    intro hacyclic
    by_contra hshort
    let before : Fin n -> Fin n -> Prop :=
      fun a b => Relation.TransGen (Leads arrows) a.val b.val
    have htrans : IsTrans (Fin n) before := ⟨fun _ _ _ hab hbc => hab.trans hbc⟩
    have hirrefl : Std.Irrefl before := ⟨fun node => hacyclic node.val⟩
    have hwell : WellFounded before := Finite.wellFounded_of_trans_of_irrefl before
    have hleft : exists node : Fin n, node.val ∉ final.order := by
      by_contra hnone
      push Not at hnone
      have hrange : List.range n ⊆ final.order :=
        fun node hnode => hnone ⟨node, List.mem_range.mp hnode⟩
      have hle := (List.subperm_of_subset List.nodup_range hrange).length_le
      rw [List.length_range] at hle
      exact hshort (Nat.le_antisymm hbound hle)
    rcases hwell.has_min {node | node.val ∉ final.order} hleft with ⟨least, hleast, hmin⟩
    have hdegree : final.inDegree.getD least.val 0 ≠ 0 :=
      fun hzero => hleast ((hmem least.val).mpr ⟨least.isLt, hzero⟩)
    rw [hfinal.degree, List.count_nil, Nat.add_zero, openArrows] at hdegree
    rcases List.countP_pos_iff.mp (Nat.pos_of_ne_zero hdegree) with ⟨arrow, harrow, hopen⟩
    rcases of_decide_eq_true hopen with ⟨htarget, hsource⟩
    have hleads : Leads arrows arrow.source least.val := by
      rw [← htarget]
      exact harrow
    exact hmin ⟨arrow.source, (hwithin arrow harrow).1⟩ hsource (Relation.TransGen.single hleads)
  refine ⟨⟨fun hlength => (horders hlength).acyclic hwithin, hcomplete⟩, ?_⟩
  exact fun hacyclic => horders (hcomplete hacyclic)

end Library
end RunNBurn
