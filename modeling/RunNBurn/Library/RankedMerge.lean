import Mathlib.Data.List.Basic
import Mathlib.Logic.Function.Basic

/-!
# Merging neighbours by rank

Two neighbours of a list may have a rank and may be joined.  The pair of the least
rank goes first, and of several such pairs the leftmost one.  A queue of candidate
pairs that is never cleaned up finds the same pairs, as long as it covers every pair
that has a rank and what has gone stale is passed over.
-/

namespace RunNBurn
namespace Library

variable {alpha beta : Type}

def Neighbours (xs : List alpha) (x y : alpha) : Prop :=
  exists before after, xs = before ++ x :: y :: after

theorem not_neighbours_nil (x y : alpha) : ¬ Neighbours [] x y := by
  rintro ⟨before, after, h⟩
  exact List.append_ne_nil_of_right_ne_nil before (List.cons_ne_nil _ _) h.symm

variable {xs : List alpha}

theorem neighbours_cons_iff {head x y : alpha} :
    Neighbours (head :: xs) x y ↔
      (head = x ∧ xs.head? = some y) ∨ Neighbours xs x y := by
  constructor
  · rintro ⟨before, after, h⟩
    cases before with
    | nil =>
      cases h
      exact Or.inl ⟨rfl, rfl⟩
    | cons first before =>
      cases h
      exact Or.inr ⟨before, after, rfl⟩
  · rintro (⟨rfl, hy⟩ | ⟨before, after, rfl⟩)
    · cases xs with
      | nil => cases hy
      | cons second xs =>
        cases hy
        exact ⟨[], xs, rfl⟩
    · exact ⟨head :: before, after, rfl⟩

theorem neighbours_append_cons_iff {before after : List alpha} {middle x y : alpha} :
    Neighbours (before ++ middle :: after) x y ↔
      Neighbours before x y ∨ (before.getLast? = some x ∧ middle = y) ∨
        (middle = x ∧ after.head? = some y) ∨ Neighbours after x y := by
  induction before with
  | nil =>
    rw [List.nil_append, neighbours_cons_iff]
    constructor
    · intro h
      exact Or.inr (Or.inr h)
    · rintro (h | ⟨h, _⟩ | h)
      · exact absurd h (not_neighbours_nil x y)
      · cases h
      · exact h
  | cons head before ih =>
    rw [List.cons_append, neighbours_cons_iff, ih, neighbours_cons_iff]
    cases before with
    | nil => simp [not_neighbours_nil]
    | cons second before =>
      simp
      tauto

theorem Neighbours.mem_left {x y : alpha} (h : Neighbours xs x y) : x ∈ xs := by
  rcases h with ⟨before, after, rfl⟩
  simp

theorem Neighbours.mem_right {x y : alpha} (h : Neighbours xs x y) : y ∈ xs := by
  rcases h with ⟨before, after, rfl⟩
  simp

theorem neighbours_map {f : alpha -> beta} {u v : beta} (h : Neighbours (xs.map f) u v) :
    exists x y, Neighbours xs x y ∧ f x = u ∧ f y = v := by
  rcases h with ⟨before, after, h⟩
  rcases List.map_eq_append_iff.mp h with ⟨front, back, rfl, _, hback⟩
  rcases List.map_eq_cons_iff.mp hback with ⟨x, rest, rfl, hx, hrest⟩
  rcases List.map_eq_cons_iff.mp hrest with ⟨y, last, rfl, hy, _⟩
  exact ⟨x, y, ⟨front, last, rfl⟩, hx, hy⟩

/-!
# The merging
-/

section Merging

variable (rank : alpha -> alpha -> Option Nat) (join : alpha -> alpha -> Option alpha)

/-- The pair between `before` and `after` has the least rank, and none in front of it
has the same. -/
structure BestPair (before : List alpha) (x y : alpha) (after : List alpha) (least : Nat) :
    Prop where
  rank_eq : rank x y = some least
  before_lt : forall u v other, Neighbours (before ++ [x]) u v -> rank u v = some other ->
    least < other
  after_le : forall u v other, Neighbours (y :: after) u v -> rank u v = some other ->
    least <= other

/-- The best pair is joined again and again, up to a list without a ranked pair or
a best pair that does not join. -/
inductive Merges : List alpha -> List alpha -> Prop where
  | rest {xs : List alpha} :
      (forall x y, Neighbours xs x y -> rank x y = none) ->
      Merges xs xs
  | stuck {before after : List alpha} {x y : alpha} {least : Nat} :
      BestPair rank before x y after least ->
      join x y = none ->
      Merges (before ++ x :: y :: after) (before ++ x :: y :: after)
  | merge {before after : List alpha} {x y z : alpha} {least : Nat} {ys : List alpha} :
      BestPair rank before x y after least ->
      join x y = some z ->
      Merges (before ++ z :: after) ys ->
      Merges (before ++ x :: y :: after) ys

variable {rank join} {xs ys : List alpha}

theorem Merges.spelling {spell : alpha -> List beta}
    (hjoin : forall x y z, join x y = some z -> spell z = spell x ++ spell y)
    (h : Merges rank join xs ys) :
    ys.flatMap spell = xs.flatMap spell := by
  induction h with
  | rest _ => rfl
  | stuck _ _ => rfl
  | merge _ hz _ ih =>
    rw [ih, List.flatMap_append, List.flatMap_append, List.flatMap_cons, List.flatMap_cons,
      List.flatMap_cons, hjoin _ _ _ hz, List.append_assoc]

theorem Merges.forall_mem {good : alpha -> Prop}
    (hjoin : forall x y z, rank x y ≠ none -> join x y = some z -> good z)
    (h : Merges rank join xs ys) (hxs : forall x, x ∈ xs -> good x) :
    forall y, y ∈ ys -> good y := by
  induction h with
  | rest _ => exact hxs
  | stuck _ _ => exact hxs
  | @merge before after x y z least ys hbest hz _ ih =>
    apply ih
    intro w hw
    have hranked : rank x y ≠ none := by
      rw [hbest.rank_eq]
      exact Option.some_ne_none least
    rcases List.mem_append.mp hw with hw | hw
    · exact hxs w (List.mem_append_left _ hw)
    · cases hw with
      | head => exact hjoin x y z hranked hz
      | tail _ hw =>
        exact hxs w (List.mem_append_right _ (List.mem_cons_of_mem _ (List.mem_cons_of_mem _ hw)))

theorem Merges.mem_of_unranked {w : alpha} (hleft : forall y, rank w y = none)
    (hright : forall x, rank x w = none) (h : Merges rank join xs ys) (hw : w ∈ xs) :
    w ∈ ys := by
  induction h with
  | rest _ => exact hw
  | stuck _ _ => exact hw
  | @merge before after x y z least ys hbest hz _ ih =>
    have hx : w ≠ x := by
      rintro rfl
      cases (hleft y).symm.trans hbest.rank_eq
    have hy : w ≠ y := by
      rintro rfl
      cases (hright x).symm.trans hbest.rank_eq
    apply ih
    simp [hx, hy] at hw ⊢
    tauto

theorem BestPair.not_behind
    {before between after after' : List alpha} {x y x' y' : alpha} {least least' : Nat}
    (h : BestPair rank before x y after least)
    (h' : BestPair rank (before ++ x :: between) x' y' after' least')
    (hsame : y :: after = between ++ x' :: y' :: after') :
    False := by
  have hbehind : Neighbours (y :: after) x' y' := ⟨between, after', hsame⟩
  have hfront : Neighbours (before ++ x :: between ++ [x']) x y := by
    cases between with
    | nil =>
      cases hsame
      exact ⟨before, [], by simp⟩
    | cons second between =>
      cases hsame
      exact ⟨before, between ++ [x'], by simp⟩
  exact Nat.lt_irrefl least (Nat.lt_of_le_of_lt (h.after_le x' y' least' hbehind h'.rank_eq)
    (h'.before_lt x y least hfront h.rank_eq))

theorem BestPair.unique
    {before before' after after' : List alpha} {x y x' y' : alpha} {least least' : Nat}
    (h : BestPair rank before x y after least) (h' : BestPair rank before' x' y' after' least')
    (hsame : before ++ x :: y :: after = before' ++ x' :: y' :: after') :
    before = before' ∧ x = x' ∧ y = y' ∧ after = after' := by
  rcases List.append_eq_append_iff.mp hsame with
    ⟨between, hbefore, hrest⟩ | ⟨between, hbefore, hrest⟩
  · cases between with
    | nil =>
      cases hrest
      rw [List.append_nil] at hbefore
      exact ⟨hbefore.symm, rfl, rfl, rfl⟩
    | cons second between =>
      rcases List.cons.inj hrest with ⟨rfl, hafter⟩
      subst hbefore
      exact (h.not_behind h' hafter).elim
  · cases between with
    | nil =>
      cases hrest
      rw [List.append_nil] at hbefore
      exact ⟨hbefore, rfl, rfl, rfl⟩
    | cons second between =>
      rcases List.cons.inj hrest with ⟨rfl, hafter⟩
      subst hbefore
      exact (h'.not_behind h hafter).elim

theorem neighbours_split (before after : List alpha) (x y : alpha) :
    Neighbours (before ++ x :: y :: after) x y :=
  ⟨before, after, rfl⟩

theorem Merges.unique {xs ys zs : List alpha} (h : Merges rank join xs ys)
    (h' : Merges rank join xs zs) :
    ys = zs := by
  induction h with
  | @rest xs hnone =>
    cases h' with
    | rest _ => rfl
    | stuck _ _ => rfl
    | merge hbest _ _ =>
      have h := hnone _ _ (neighbours_split _ _ _ _)
      rw [hbest.rank_eq] at h
      cases h
  | @stuck before after x y least hbest hjoin =>
    generalize hxs : before ++ x :: y :: after = xs at h'
    cases h' with
    | rest _ => rfl
    | stuck _ _ => rfl
    | merge hbest' hz _ =>
      rcases hbest.unique hbest' hxs with ⟨_, rfl, rfl, _⟩
      rw [hjoin] at hz
      cases hz
  | @merge before after x y z least ys hbest hz _ ih =>
    generalize hxs : before ++ x :: y :: after = xs at h'
    cases h' with
    | rest hnone =>
      have h := hnone x y (hxs ▸ neighbours_split before after x y)
      rw [hbest.rank_eq] at h
      cases h
    | stuck hbest' hjoin =>
      rcases hbest.unique hbest' hxs with ⟨_, rfl, rfl, _⟩
      rw [hjoin] at hz
      cases hz
    | merge hbest' hz' hrest' =>
      rcases hbest.unique hbest' hxs with ⟨rfl, rfl, rfl, rfl⟩
      rw [hz] at hz'
      cases hz'
      exact ih hrest'

end Merging

/-!
# Positions

The symbols stand at positions that never move; a merge writes the joined symbol at
the left position and drops the right one.
-/

/-- The positions in use, in order, each linked to its neighbours. -/
structure Row (used : Nat -> Prop) (prev next : Nat -> Option Nat) (row : List Nat) : Prop where
  ascending : row.Pairwise (· < ·)
  used_iff : forall i, used i ↔ i ∈ row
  next_iff : forall i j, i ∈ row -> (next i = some j ↔ Neighbours row i j)
  prev_iff : forall i j, j ∈ row -> (prev j = some i ↔ Neighbours row i j)

section Rows

variable {used used' : Nat -> Prop} {prev next prev' next' : Nat -> Option Nat}
  {before after row : List Nat} {left right : Nat}

theorem neighbours_lt (hascending : row.Pairwise (· < ·)) {i j : Nat}
    (h : Neighbours row i j) : i < j := by
  rcases h with ⟨front, back, rfl⟩
  have h := (List.pairwise_append.mp hascending).2.1
  exact List.rel_of_pairwise_cons h List.mem_cons_self

section

variable (hascending : (before ++ left :: after).Pairwise (· < ·))
include hascending

theorem before_lt_of_ascending {i : Nat} (h : i ∈ before) : i < left :=
  (List.pairwise_append.mp hascending).2.2 i h left List.mem_cons_self

theorem after_gt_of_ascending {i : Nat} (h : i ∈ after) : left < i :=
  List.rel_of_pairwise_cons (List.pairwise_append.mp hascending).2.1 h

theorem neighbours_successor_iff {j : Nat} :
    Neighbours (before ++ left :: after) left j ↔ after.head? = some j := by
  rw [neighbours_append_cons_iff]
  constructor
  · rintro (h | ⟨h, _⟩ | ⟨_, h⟩ | h)
    · exact absurd (before_lt_of_ascending hascending h.mem_left) (Nat.lt_irrefl left)
    · exact absurd (before_lt_of_ascending hascending (List.mem_of_getLast? h)) (Nat.lt_irrefl left)
    · exact h
    · exact absurd (after_gt_of_ascending hascending h.mem_left) (Nat.lt_irrefl left)
  · intro h
    exact Or.inr (Or.inr (Or.inl ⟨rfl, h⟩))

theorem neighbours_predecessor_iff {i : Nat} :
    Neighbours (before ++ left :: after) i left ↔ before.getLast? = some i := by
  rw [neighbours_append_cons_iff]
  constructor
  · rintro (h | ⟨h, _⟩ | ⟨_, h⟩ | h)
    · exact absurd (before_lt_of_ascending hascending h.mem_right) (Nat.lt_irrefl left)
    · exact h
    · exact absurd (after_gt_of_ascending hascending (List.mem_of_head? h)) (Nat.lt_irrefl left)
    · exact absurd (after_gt_of_ascending hascending h.mem_right) (Nat.lt_irrefl left)
  · intro h
    exact Or.inr (Or.inl ⟨h, rfl⟩)

end

theorem neighbours_drop_iff {i j : Nat} (hleft : i ≠ left) (hright : i ≠ right) :
    Neighbours (before ++ left :: right :: after) i j ↔
      Neighbours (before ++ left :: after) i j := by
  rw [neighbours_append_cons_iff, neighbours_append_cons_iff, neighbours_cons_iff]
  have hl : left ≠ i := hleft.symm
  have hr : right ≠ i := hright.symm
  simp [hl, hr]

theorem ascending_drop (h : (before ++ left :: right :: after).Pairwise (· < ·)) :
    (before ++ left :: after).Pairwise (· < ·) := by
  apply List.Pairwise.sublist ?_ h
  exact List.Sublist.append_left (List.Sublist.cons_cons left (List.sublist_cons_self right after))
    before

theorem not_mem_drop (h : (before ++ left :: right :: after).Pairwise (· < ·)) :
    right ∉ before ++ left :: after := by
  have hshift : (before ++ [left]) ++ right :: after = before ++ left :: right :: after := by
    simp
  rw [← hshift] at h
  intro hmem
  have hmem : right ∈ before ++ [left] ∨ right ∈ after := by
    simpa [or_assoc] using hmem
  rcases hmem with hmem | hmem
  · exact Nat.lt_irrefl right (before_lt_of_ascending h hmem)
  · exact Nat.lt_irrefl right (after_gt_of_ascending h hmem)

theorem Row.next_eq (h : Row used prev next (before ++ left :: after)) :
    next left = after.head? := by
  apply Option.ext
  intro j
  rw [h.next_iff left j (by simp), neighbours_successor_iff h.ascending]

theorem Row.prev_eq (h : Row used prev next (before ++ left :: after)) :
    prev left = before.getLast? := by
  apply Option.ext
  intro i
  rw [h.prev_iff i left (by simp), neighbours_predecessor_iff h.ascending]

theorem Row.next_right_eq (h : Row used prev next (before ++ left :: right :: after)) :
    next right = after.head? := by
  have hshift : (before ++ [left]) ++ right :: after = before ++ left :: right :: after := by
    simp
  exact Row.next_eq (hshift ▸ h)

theorem neighbours_range_iff {n i j : Nat} :
    Neighbours (List.range n) i j ↔ j = i + 1 ∧ i + 1 < n := by
  constructor
  · rintro ⟨front, back, h⟩
    have hi : (List.range n)[front.length]? = some i := by
      rw [h]
      simp
    have hj : (List.range n)[front.length + 1]? = some j := by
      rw [h]
      simp
    rcases List.getElem?_eq_some_iff.mp hi with ⟨_, hi⟩
    rcases List.getElem?_eq_some_iff.mp hj with ⟨hlt, hj⟩
    rw [List.getElem_range] at hi hj
    rw [List.length_range] at hlt
    omega
  · rintro ⟨rfl, hlt⟩
    have hlast : i + 1 < (List.range n).length := by
      rwa [List.length_range]
    refine ⟨(List.range n).take i, (List.range n).drop (i + 2), ?_⟩
    conv_lhs =>
      rw [← List.take_append_drop i (List.range n),
        List.drop_eq_getElem_cons (Nat.lt_of_succ_lt hlast), List.drop_eq_getElem_cons hlast]
    rw [List.getElem_range, List.getElem_range]

theorem row_range {n : Nat} (hused : forall i, used i ↔ i < n)
    (hprev : forall i, i < n -> prev i = if i = 0 then none else some (i - 1))
    (hnext : forall i, i < n -> next i = if i + 1 < n then some (i + 1) else none) :
    Row used prev next (List.range n) := by
  constructor
  · exact List.pairwise_lt_range
  · intro i
    rw [hused, List.mem_range]
  · intro i j hi
    rw [hnext i (List.mem_range.mp hi), neighbours_range_iff]
    split
    · rename_i hlt
      constructor
      · intro heq
        cases heq
        exact ⟨rfl, hlt⟩
      · rintro ⟨rfl, _⟩
        rfl
    · rename_i hge
      constructor
      · intro heq
        cases heq
      · rintro ⟨_, hlt⟩
        exact absurd hlt hge
  · intro i j hj
    have hlt := List.mem_range.mp hj
    rw [hprev j hlt, neighbours_range_iff]
    split
    · rename_i hzero
      constructor
      · intro heq
        cases heq
      · rintro ⟨heq, _⟩
        omega
    · rename_i hpos
      constructor
      · intro heq
        cases heq
        omega
      · rintro ⟨rfl, _⟩
        rfl

theorem Row.drop
    (h : Row used prev next (before ++ left :: right :: after))
    (hused : forall i, used' i ↔ used i ∧ i ≠ right)
    (hnext : forall i, i ∈ before ++ left :: after ->
      next' i = if i = left then next right else next i)
    (hprev : forall j, j ∈ before ++ left :: after ->
      prev' j = if next right = some j then some left else prev j) :
    Row used' prev' next' (before ++ left :: after) := by
  have hascending := ascending_drop h.ascending
  have habsent := not_mem_drop h.ascending
  have hright : right ∈ before ++ left :: right :: after := by simp
  have hkept : forall i, i ∈ before ++ left :: after -> i ∈ before ++ left :: right :: after := by
    intro i hi
    simp at hi ⊢
    tauto
  have hbehind : forall j, next right = some j ↔ after.head? = some j := by
    intro j
    have hshift : (before ++ [left]) ++ right :: after = before ++ left :: right :: after := by
      simp
    have hrow := h.ascending
    rw [h.next_iff right j hright, ← hshift]
    rw [← hshift] at hrow
    exact neighbours_successor_iff hrow
  constructor
  · exact hascending
  · intro i
    rw [hused, h.used_iff]
    constructor
    · rintro ⟨hi, hne⟩
      simp at hi ⊢
      tauto
    · intro hi
      exact ⟨hkept i hi, fun heq => habsent (heq ▸ hi)⟩
  · intro i j hi
    rw [hnext i hi]
    by_cases hleft : i = left
    · rw [if_pos hleft, hleft, hbehind, neighbours_successor_iff hascending]
    · rw [if_neg hleft, h.next_iff i j (hkept i hi)]
      exact neighbours_drop_iff hleft (fun heq => habsent (heq ▸ hi))
  · intro i j hj
    rw [hprev j hj]
    by_cases hbelow : next right = some j
    · rw [if_pos hbelow]
      cases after with
      | nil => cases (hbehind j).mp hbelow
      | cons head after =>
        cases (hbehind j).mp hbelow
        have hshift : (before ++ [left]) ++ j :: after = before ++ left :: j :: after := by
          simp
        rw [← hshift] at hascending ⊢
        rw [neighbours_predecessor_iff hascending, List.getLast?_concat]
    · rw [if_neg hbelow, h.prev_iff i j (hkept j hj)]
      by_cases hleft : i = left
      · rw [hleft, neighbours_successor_iff h.ascending, neighbours_successor_iff hascending,
          ← hbehind]
        constructor
        · intro heq
          cases heq
          exact absurd hj habsent
        · intro heq
          exact absurd heq hbelow
      · by_cases hdropped : i = right
        · rw [hdropped, ← h.next_iff right j hright]
          exact Iff.intro (fun heq => absurd heq hbelow) (fun hn => absurd hn.mem_left habsent)
        · exact neighbours_drop_iff hleft hdropped

end Rows

/-!
# The queue of candidates
-/

structure Candidate where
  rank : Nat
  left : Nat
  right : Nat
deriving DecidableEq, Repr

section Queue

variable (rank : alpha -> alpha -> Option Nat) (body : Nat -> alpha)

def Candidate.Current (row : List Nat) (candidate : Candidate) : Prop :=
  Neighbours row candidate.left candidate.right ∧
    rank (body candidate.left) (body candidate.right) = some candidate.rank

def Covers (row : List Nat) (queued : Candidate -> Prop) : Prop :=
  forall i j least, Neighbours row i j -> rank (body i) (body j) = some least ->
    queued ⟨least, i, j⟩

def Candidate.Before (first second : Candidate) : Prop :=
  first.rank < second.rank ∨ first.rank = second.rank ∧ first.left <= second.left

variable {rank body} {join : alpha -> alpha -> Option alpha}
  {queued queued' : Candidate -> Prop} {best : Candidate} {before after row : List Nat}

theorem bestPair_of_current
    (hascending : (before ++ best.left :: best.right :: after).Pairwise (· < ·))
    (hcovers : Covers rank body (before ++ best.left :: best.right :: after) queued)
    (hleast : forall other, queued other -> best.Before other)
    (hrank : rank (body best.left) (body best.right) = some best.rank) :
    BestPair rank (before.map body) (body best.left) (body best.right) (after.map body)
      best.rank := by
  have hentry : forall i j least,
      Neighbours (before ++ best.left :: best.right :: after) i j ->
      rank (body i) (body j) = some least -> best.Before ⟨least, i, j⟩ :=
    fun i j least hpair hranked => hleast _ (hcovers i j least hpair hranked)
  constructor
  · exact hrank
  · intro u v other hpair hranked
    have hpair : Neighbours ((before ++ [best.left]).map body) u v := by
      simpa using hpair
    rcases neighbours_map hpair with ⟨i, j, ⟨front, back, hij⟩, rfl, rfl⟩
    have hwhole : Neighbours (before ++ best.left :: best.right :: after) i j := by
      refine ⟨front, back ++ best.right :: after, ?_⟩
      have h := congrArg (· ++ best.right :: after) hij
      simpa using h
    have hi : i < best.left := by
      have hj : j ∈ before ++ [best.left] := by
        simp [hij]
      have hlt := neighbours_lt hascending hwhole
      rcases List.mem_append.mp hj with hj | hj
      · exact Nat.lt_trans hlt (before_lt_of_ascending hascending hj)
      · cases List.mem_singleton.mp hj
        exact hlt
    rcases hentry i j other hwhole hranked with hlt | ⟨_, hle⟩
    · exact hlt
    · exact absurd hi (Nat.not_lt.mpr hle)
  · intro u v other hpair hranked
    have hpair : Neighbours ((best.right :: after).map body) u v := hpair
    rcases neighbours_map hpair with ⟨i, j, ⟨front, back, hij⟩, rfl, rfl⟩
    have hwhole : Neighbours (before ++ best.left :: best.right :: after) i j := by
      refine ⟨before ++ best.left :: front, back, ?_⟩
      rw [hij]
      simp
    rcases hentry i j other hwhole hranked with hlt | ⟨heq, _⟩
    · exact Nat.le_of_lt hlt
    · exact Nat.le_of_eq heq

theorem rest_of_covers
    (hcovers : Covers rank body row queued) (hempty : forall candidate, ¬ queued candidate) :
    Merges rank join (row.map body) (row.map body) := by
  apply Merges.rest
  intro x y hpair
  rcases neighbours_map hpair with ⟨i, j, hij, rfl, rfl⟩
  cases hrank : rank (body i) (body j) with
  | none => rfl
  | some least => exact absurd (hcovers i j least hij hrank) (hempty _)

theorem Covers.congr {body' : Nat -> alpha} (hcovers : Covers rank body row queued)
    (hbody : forall i, i ∈ row -> body' i = body i) :
    Covers rank body' row queued := by
  intro i j least hpair hrank
  rw [hbody i hpair.mem_left, hbody j hpair.mem_right] at hrank
  exact hcovers i j least hpair hrank

theorem map_update_row {left : Nat} {z : alpha}
    (hascending : (before ++ left :: after).Pairwise (· < ·)) :
    (before ++ left :: after).map (Function.update body left z) =
      before.map body ++ z :: after.map body := by
  rw [List.map_append, List.map_cons, Function.update_self]
  congr 1
  · apply List.map_congr_left
    intro i hi
    exact Function.update_of_ne (Nat.ne_of_lt (before_lt_of_ascending hascending hi)) z body
  · congr 1
    apply List.map_congr_left
    intro i hi
    exact Function.update_of_ne (Nat.ne_of_gt (after_gt_of_ascending hascending hi)) z body

theorem Covers.pass
    (hcovers : Covers rank body row queued) (hstale : ¬ best.Current rank body row)
    (hqueued : forall candidate, queued candidate -> candidate ≠ best -> queued' candidate) :
    Covers rank body row queued' := by
  intro i j least hpair hrank
  apply hqueued _ (hcovers i j least hpair hrank)
  intro heq
  exact hstale (heq ▸ ⟨hpair, hrank⟩)

theorem Covers.merge {z : alpha}
    (hcovers : Covers rank body (before ++ best.left :: best.right :: after) queued)
    (hascending : (before ++ best.left :: best.right :: after).Pairwise (· < ·))
    (hqueued : forall candidate, queued candidate -> candidate.left ≠ best.left ->
      candidate.left ≠ best.right -> candidate.right ≠ best.left ->
      candidate.right ≠ best.right -> queued' candidate)
    (hprev : forall i least, before.getLast? = some i ->
      rank (body i) z = some least -> queued' ⟨least, i, best.left⟩)
    (hnext : forall j least, after.head? = some j ->
      rank z (body j) = some least -> queued' ⟨least, best.left, j⟩) :
    Covers rank (Function.update body best.left z) (before ++ best.left :: after) queued' := by
  intro i j least hpair hrank
  have hdropped := ascending_drop hascending
  have hlt := neighbours_lt hdropped hpair
  by_cases hleft : i = best.left
  · subst hleft
    rw [Function.update_self, Function.update_of_ne (Nat.ne_of_gt hlt)] at hrank
    exact hnext j least ((neighbours_successor_iff hdropped).mp hpair) hrank
  · rw [Function.update_of_ne hleft] at hrank
    by_cases hright : j = best.left
    · subst hright
      rw [Function.update_self] at hrank
      exact hprev i least ((neighbours_predecessor_iff hdropped).mp hpair) hrank
    · rw [Function.update_of_ne hright] at hrank
      have habsent : i ≠ best.right :=
        fun heq => not_mem_drop hascending (heq ▸ hpair.mem_left)
      have hwhole := (neighbours_drop_iff hleft habsent).mpr hpair
      have hdroppedRight : j ≠ best.right :=
        fun heq => not_mem_drop hascending (heq ▸ hpair.mem_right)
      exact hqueued _ (hcovers i j least hwhole hrank) hleft habsent hright hdroppedRight

end Queue

end Library
end RunNBurn
