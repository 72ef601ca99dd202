import Mathlib.Order.Basic

/-!
# Best paths by a table

Edges lead forward from position to position.  A table keeps the best path to every
position that the edges offered so far reach, with its last edge.  Offering one more
edge keeps that, as long as the edges are offered in the order of where they start.
-/

namespace RunNBurn
namespace Library

variable {label value : Type}

structure Cell (label value : Type) where
  value : value
  prev : Nat
  label : label

abbrev Table (label value : Type) : Type := Nat -> Option (Cell label value)

inductive PathTo (edge : Nat -> Nat -> label -> Prop) : Nat -> List label -> Prop where
  | start : PathTo edge 0 []
  | step {i j : Nat} {labels : List label} {next : label} :
      PathTo edge i labels ->
      edge i j next ->
      PathTo edge j (labels ++ [next])

/-- The labels that following the table back from a position gives. -/
inductive TracedBack (table : Table label value) : Nat -> List label -> Prop where
  | start : TracedBack table 0 []
  | step {j : Nat} {cell : Cell label value} {labels : List label} :
      0 < j ->
      table j = some cell ->
      cell.prev < j ->
      TracedBack table cell.prev labels ->
      TracedBack table j (labels ++ [cell.label])

def pathValue (extend : value -> label -> value) (origin : value) (labels : List label) : value :=
  labels.foldl extend origin

theorem pathValue_append_singleton (extend : value -> label -> value) (origin : value)
    (labels : List label) (next : label) :
    pathValue extend origin (labels ++ [next]) = extend (pathValue extend origin labels) next := by
  unfold pathValue
  rw [List.foldl_append]
  rfl

theorem PathTo.mono {edge wider : Nat -> Nat -> label -> Prop}
    (hwider : forall i j next, edge i j next -> wider i j next) {j : Nat} {labels : List label}
    (h : PathTo edge j labels) :
    PathTo wider j labels := by
  induction h with
  | start => exact PathTo.start
  | step _ hedge ih => exact PathTo.step ih (hwider _ _ _ hedge)

structure BestPaths [Preorder value] (extend : value -> label -> value) (origin : value)
    (offered : Nat -> Nat -> label -> Prop) (table : Table label value) : Prop where
  starts : exists cell, table 0 = some cell ∧ cell.value = origin
  traced : forall j cell, 0 < j -> table j = some cell ->
    exists before, table cell.prev = some before ∧ offered cell.prev j cell.label ∧
      cell.value = extend before.value cell.label
  covers : forall i j next cell, offered i j next -> table i = some cell ->
    exists reached, table j = some reached ∧ extend cell.value next <= reached.value

section Table

variable [Preorder value] {extend : value -> label -> value} {origin : value}
  {offered wider : Nat -> Nat -> label -> Prop} {table : Table label value}

theorem bestPaths_origin (cell : Cell label value) (hvalue : cell.value = origin)
    (hstart : table 0 = some cell) (hrest : forall j, 0 < j -> table j = none)
    (hnone : forall i j next, ¬ offered i j next) :
    BestPaths extend origin offered table := by
  constructor
  · exact ⟨cell, hstart, hvalue⟩
  · intro j found hj hfound
    rw [hrest j hj] at hfound
    cases hfound
  · intro i j next found hoffered
    exact absurd hoffered (hnone i j next)

theorem BestPaths.widen (h : BestPaths extend origin offered table)
    (hwider : forall i j next, offered i j next -> wider i j next)
    (hnew : forall i j next, wider i j next -> offered i j next ∨ table i = none) :
    BestPaths extend origin wider table := by
  constructor
  · exact h.starts
  · intro j cell hj hcell
    rcases h.traced j cell hj hcell with ⟨before, hbefore, hedge, hvalue⟩
    exact ⟨before, hbefore, hwider _ _ _ hedge, hvalue⟩
  · intro i j next cell hedge hcell
    rcases hnew i j next hedge with hold | hnone
    · exact h.covers i j next cell hold hcell
    · rw [hnone] at hcell
      cases hcell

theorem BestPaths.keep {i j : Nat} {next : label} {cell reached : Cell label value}
    (h : BestPaths extend origin offered table)
    (hwider : forall i j next, offered i j next -> wider i j next)
    (hnew : forall i' j' next', wider i' j' next' ->
      offered i' j' next' ∨ i' = i ∧ j' = j ∧ next' = next)
    (hcell : table i = some cell) (hreached : table j = some reached)
    (hle : extend cell.value next <= reached.value) :
    BestPaths extend origin wider table := by
  constructor
  · exact h.starts
  · intro j cell hj hcell
    rcases h.traced j cell hj hcell with ⟨before, hbefore, hedge, hvalue⟩
    exact ⟨before, hbefore, hwider _ _ _ hedge, hvalue⟩
  · intro i' j' next' found hedge hfound
    rcases hnew i' j' next' hedge with hold | ⟨rfl, rfl, rfl⟩
    · exact h.covers i' j' next' found hold hfound
    · rw [hcell] at hfound
      cases hfound
      exact ⟨reached, hreached, hle⟩

theorem BestPaths.put {i j : Nat} {next : label} {cell : Cell label value}
    (h : BestPaths extend origin offered table)
    (hwider : forall i j next, offered i j next -> wider i j next)
    (hnew : forall i' j' next', wider i' j' next' ->
      offered i' j' next' ∨ i' = i ∧ j' = j ∧ next' = next)
    (hedge : wider i j next) (hsource : forall i' j' next', wider i' j' next' -> i' < j)
    (hcell : table i = some cell) (hbetter : forall reached, table j = some reached ->
      reached.value <= extend cell.value next) :
    BestPaths extend origin wider
      (Function.update table j (some ⟨extend cell.value next, i, next⟩)) := by
  have hother : forall k, k < j ->
      Function.update table j (some ⟨extend cell.value next, i, next⟩) k = table k :=
    fun k hk => Function.update_of_ne (Nat.ne_of_lt hk) _ _
  have hi := hsource i j next hedge
  constructor
  · rw [hother 0 (Nat.zero_lt_of_lt hi)]
    exact h.starts
  · intro k found hk hfound
    by_cases hkj : k = j
    · subst hkj
      rw [Function.update_self] at hfound
      cases hfound
      exact ⟨cell, (hother i hi).trans hcell, hedge, rfl⟩
    · rw [Function.update_of_ne hkj] at hfound
      rcases h.traced k found hk hfound with ⟨before, hbefore, hold, hvalue⟩
      have hwide := hwider _ _ _ hold
      exact ⟨before, (hother _ (hsource _ _ _ hwide)).trans hbefore, hwide, hvalue⟩
  · intro i' j' next' found hwide hfound
    rw [hother i' (hsource i' j' next' hwide)] at hfound
    by_cases hj : j' = j
    · subst hj
      rw [Function.update_self]
      refine ⟨_, rfl, ?_⟩
      rcases hnew i' j' next' hwide with hold | ⟨rfl, _, rfl⟩
      · rcases h.covers i' j' next' found hold hfound with ⟨reached, hreached, hle⟩
        exact le_trans hle (hbetter reached hreached)
      · rw [hcell] at hfound
        cases hfound
        exact le_refl _
    · rw [Function.update_of_ne hj]
      rcases hnew i' j' next' hwide with hold | ⟨_, heq, _⟩
      · exact h.covers i' j' next' found hold hfound
      · exact absurd heq hj

theorem BestPaths.path (h : BestPaths extend origin offered table)
    (hforward : forall i j next, offered i j next -> i < j) {j : Nat} {cell : Cell label value}
    (hcell : table j = some cell) :
    exists labels, PathTo offered j labels ∧ TracedBack table j labels ∧
      cell.value = pathValue extend origin labels := by
  induction j using Nat.strongRecOn generalizing cell with
  | ind j ih =>
    by_cases hj : 0 < j
    · rcases h.traced j cell hj hcell with ⟨before, hbefore, hedge, hvalue⟩
      have hlt := hforward _ _ _ hedge
      rcases ih cell.prev hlt hbefore with ⟨labels, hpath, hback, hlabels⟩
      refine ⟨labels ++ [cell.label], PathTo.step hpath hedge,
        TracedBack.step hj hcell hlt hback, ?_⟩
      rw [pathValue_append_singleton, ← hlabels]
      exact hvalue
    · cases Nat.eq_zero_of_not_pos hj
      rcases h.starts with ⟨first, hfirst, horigin⟩
      rw [hcell] at hfirst
      cases hfirst
      exact ⟨[], PathTo.start, TracedBack.start, horigin⟩

theorem BestPaths.best (h : BestPaths extend origin offered table)
    (hmono : forall left right next, left <= right -> extend left next <= extend right next)
    {j : Nat} {labels : List label} (hpath : PathTo offered j labels) :
    exists cell, table j = some cell ∧ pathValue extend origin labels <= cell.value := by
  induction hpath with
  | start =>
    rcases h.starts with ⟨cell, hcell, hvalue⟩
    exact ⟨cell, hcell, le_of_eq hvalue.symm⟩
  | step _ hedge ih =>
    rcases ih with ⟨before, hbefore, hle⟩
    rcases h.covers _ _ _ before hedge hbefore with ⟨cell, hcell, hreached⟩
    refine ⟨cell, hcell, ?_⟩
    rw [pathValue_append_singleton]
    exact le_trans (hmono _ _ _ hle) hreached

theorem BestPaths.reaches (h : BestPaths extend origin offered table) (last : Nat)
    (hforward : forall i j next, offered i j next -> i < j)
    (hedges : forall i, i < last -> exists j next, j <= last ∧ offered i j next) :
    exists cell, table last = some cell := by
  have hfrom : forall rest i cell, i + rest = last -> table i = some cell ->
      exists cell, table last = some cell := by
    intro rest
    induction rest using Nat.strongRecOn with
    | ind rest ih =>
      intro i cell hrest hcell
      by_cases hzero : rest = 0
      · rw [hzero, Nat.add_zero] at hrest
        rw [← hrest]
        exact ⟨cell, hcell⟩
      · rcases hedges i (by omega) with ⟨j, next, hj, hedge⟩
        have hlt := hforward i j next hedge
        rcases h.covers i j next cell hedge hcell with ⟨reached, hreached, _⟩
        exact ih (last - j) (by omega) j reached (by omega) hreached
  rcases h.starts with ⟨cell, hcell, _⟩
  exact hfrom last 0 cell (Nat.zero_add last) hcell

end Table

end Library
end RunNBurn
