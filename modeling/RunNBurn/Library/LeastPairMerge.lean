import RunNBurn.Library.RankedMerge

/-!
# The plain merge

The list is searched for the leftmost pair of the least rank, the pair is joined,
and the search starts again.  This is what merging by rank means; every other
algorithm for it leaves the same list.
-/

namespace RunNBurn
namespace Library

variable {alpha : Type}

structure PlacedPair (alpha : Type) where
  before : List alpha
  left : alpha
  right : alpha
  after : List alpha
  least : Nat

def PlacedPair.behind (head : alpha) (pair : PlacedPair alpha) : PlacedPair alpha :=
  { pair with before := head :: pair.before }

def leastPair (rank : alpha -> alpha -> Option Nat) : List alpha -> Option (PlacedPair alpha)
  | [] => none
  | [_] => none
  | x :: y :: rest =>
    match rank x y, leastPair rank (y :: rest) with
    | none, later => later.map (PlacedPair.behind x)
    | some least, none => some ⟨[], x, y, rest, least⟩
    | some least, some later =>
      if least <= later.least then some ⟨[], x, y, rest, least⟩
      else some (later.behind x)

def mergeLeast (rank : alpha -> alpha -> Option Nat) (join : alpha -> alpha -> Option alpha) :
    Nat -> List alpha -> List alpha
  | 0, xs => xs
  | rounds + 1, xs =>
    match leastPair rank xs with
    | none => xs
    | some pair =>
      match join pair.left pair.right with
      | none => xs
      | some joined => mergeLeast rank join rounds (pair.before ++ joined :: pair.after)

/-- Every merge shortens the list, so its length bounds the rounds. -/
def naiveMerge (rank : alpha -> alpha -> Option Nat) (join : alpha -> alpha -> Option alpha)
    (xs : List alpha) : List alpha :=
  mergeLeast rank join xs.length xs

section Plain

variable {rank : alpha -> alpha -> Option Nat} {join : alpha -> alpha -> Option alpha}

theorem BestPair.le {before after : List alpha} {x y u v : alpha} {least other : Nat}
    (h : BestPair rank before x y after least) (hpair : Neighbours (before ++ x :: y :: after) u v)
    (hrank : rank u v = some other) :
    least <= other := by
  rcases neighbours_append_cons_iff.mp hpair with hfront | hlast | hself | hbehind
  · apply Nat.le_of_lt
    apply h.before_lt u v other _ hrank
    exact neighbours_append_cons_iff.mpr (Or.inl hfront)
  · apply Nat.le_of_lt
    apply h.before_lt u v other _ hrank
    exact neighbours_append_cons_iff.mpr (Or.inr (Or.inl hlast))
  · have hy : y = v := Option.some.inj hself.2
    rw [← hself.1, ← hy, h.rank_eq] at hrank
    cases hrank
    exact Nat.le_refl least
  · exact h.after_le u v other hbehind hrank

def Placed (rank : alpha -> alpha -> Option Nat) (xs : List alpha) (pair : PlacedPair alpha) :
    Prop :=
  xs = pair.before ++ pair.left :: pair.right :: pair.after ∧
    BestPair rank pair.before pair.left pair.right pair.after pair.least

theorem Placed.first {x y : alpha} {rest : List alpha} {least : Nat} (hrank : rank x y = some least)
    (hlater : forall u v other, Neighbours (y :: rest) u v -> rank u v = some other ->
      least <= other) :
    Placed rank (x :: y :: rest) ⟨[], x, y, rest, least⟩ := by
  constructor
  · rfl
  · constructor
    · exact hrank
    · intro u v other hpair _
      rcases neighbours_cons_iff.mp hpair with ⟨_, hnone⟩ | hnone
      · cases hnone
      · exact absurd hnone (not_neighbours_nil u v)
    · exact hlater

theorem Placed.behind {x y : alpha} {rest : List alpha} {pair : PlacedPair alpha}
    (h : Placed rank (y :: rest) pair)
    (hrank : forall other, rank x y = some other -> pair.least < other) :
    Placed rank (x :: y :: rest) (pair.behind x) := by
  rcases h with ⟨hsplit, hbest⟩
  constructor
  · rw [hsplit]
    rfl
  · constructor
    · exact hbest.rank_eq
    · intro u v other hpair hother
      have hpair : Neighbours (x :: (pair.before ++ [pair.left])) u v := hpair
      rcases neighbours_cons_iff.mp hpair with ⟨hx, hhead⟩ | hfront
      · have hy : some y = some v := by
          rw [← hhead]
          have hfirst := congrArg List.head? hsplit
          cases hbefore : pair.before with
          | nil =>
            rw [hbefore] at hfirst
            exact hfirst
          | cons first before =>
            rw [hbefore] at hfirst
            exact hfirst
        rw [← hx, ← Option.some.inj hy] at hother
        exact hrank other hother
      · exact hbest.before_lt u v other hfront hother
    · exact hbest.after_le

theorem leastPair_spec (xs : List alpha) :
    match leastPair rank xs with
    | none => forall x y, Neighbours xs x y -> rank x y = none
    | some pair => Placed rank xs pair := by
  induction xs with
  | nil =>
    intro x y hpair
    exact absurd hpair (not_neighbours_nil x y)
  | cons x rest ih =>
    cases rest with
    | nil =>
      intro u v hpair
      rcases neighbours_cons_iff.mp hpair with ⟨_, hnone⟩ | hnone
      · cases hnone
      · exact absurd hnone (not_neighbours_nil u v)
    | cons y rest =>
      unfold leastPair
      cases hrank : rank x y with
      | none =>
        cases hlater : leastPair rank (y :: rest) with
        | none =>
          rw [hlater] at ih
          intro u v hpair
          rcases neighbours_cons_iff.mp hpair with ⟨hx, hhead⟩ | hbehind
          · rw [← hx, ← Option.some.inj hhead]
            exact hrank
          · exact ih u v hbehind
        | some later =>
          rw [hlater] at ih
          apply ih.behind
          intro other hother
          rw [hrank] at hother
          cases hother
      | some least =>
        cases hlater : leastPair rank (y :: rest) with
        | none =>
          rw [hlater] at ih
          apply Placed.first hrank
          intro u v other hpair hother
          rw [ih u v hpair] at hother
          cases hother
        | some later =>
          rw [hlater] at ih
          dsimp only
          by_cases hle : least <= later.least
          · rw [if_pos hle]
            apply Placed.first hrank
            intro u v other hpair hother
            rw [ih.1] at hpair
            exact Nat.le_trans hle (ih.2.le hpair hother)
          · rw [if_neg hle]
            apply ih.behind
            intro other hother
            rw [hrank] at hother
            cases hother
            exact Nat.lt_of_not_le hle

theorem merges_mergeLeast {rounds : Nat} {xs : List alpha} (h : xs.length <= rounds + 1) :
    Merges rank join xs (mergeLeast rank join rounds xs) := by
  induction rounds generalizing xs with
  | zero =>
    apply Merges.rest
    intro x y hpair
    rcases hpair with ⟨before, after, hsplit⟩
    rw [hsplit, List.length_append, List.length_cons, List.length_cons] at h
    omega
  | succ rounds ih =>
    have hspec :
        match leastPair rank xs with
        | none => forall x y, Neighbours xs x y -> rank x y = none
        | some pair => Placed rank xs pair :=
      leastPair_spec xs
    unfold mergeLeast
    cases hpair : leastPair rank xs with
    | none =>
      rw [hpair] at hspec
      exact Merges.rest hspec
    | some pair =>
      rw [hpair] at hspec
      rcases hspec with ⟨hsplit, hbest⟩
      dsimp only
      cases hjoin : join pair.left pair.right with
      | none =>
        rw [hsplit]
        exact Merges.stuck hbest hjoin
      | some joined =>
        rw [hsplit]
        apply Merges.merge hbest hjoin
        apply ih
        rw [hsplit, List.length_append, List.length_cons, List.length_cons] at h
        rw [List.length_append, List.length_cons]
        omega

theorem Merges.eq_naiveMerge {xs ys : List alpha} (h : Merges rank join xs ys) :
    ys = naiveMerge rank join xs :=
  h.unique (merges_mergeLeast (Nat.le_succ _))

theorem Merges.unranked {xs ys : List alpha}
    (hjoins : forall x y least, rank x y = some least -> join x y ≠ none)
    (h : Merges rank join xs ys) :
    forall x y, Neighbours ys x y -> rank x y = none := by
  induction h with
  | rest hnone => exact hnone
  | stuck hbest hjoin => exact absurd hjoin (hjoins _ _ _ hbest.rank_eq)
  | merge _ _ _ ih => exact ih

end Plain

end Library
end RunNBurn
