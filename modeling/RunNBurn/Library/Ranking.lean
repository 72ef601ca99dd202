import RunNBurn.Library.TopSelection

/-!
# Rankings

Items in descending order of a score, and in ascending order of a number where scores are
equal.  Sorting gives the ranking, and so does putting one item after the other into a list that
keeps the first few.
-/

namespace RunNBurn
namespace Library

variable {item K : Type} [LinearOrder K]

def RanksBefore (score : item -> K) (id : item -> Nat) (x y : item) : Prop :=
  score y < score x ∨ (score x = score y ∧ id x < id y)

instance (score : item -> K) (id : item -> Nat) : DecidableRel (RanksBefore score id) :=
  fun x y => inferInstanceAs (Decidable (score y < score x ∨ (score x = score y ∧ id x < id y)))

/-- `y.score.cmp(x.score).then_with(|| x.id.cmp(y.id))` -/
def byScoreThenId (score : item -> K) (id : item -> Nat) (x y : item) : Ordering :=
  (compare (score y) (score x)).then (compare (id x) (id y))

variable {score : item -> K} {id : item -> Nat} {x y z : item}

namespace RanksBefore

theorem score_le (h : RanksBefore score id x y) : score y <= score x := by
  rcases h with hscore | ⟨hscore, _⟩
  · exact le_of_lt hscore
  · exact le_of_eq hscore.symm

theorem trans (hxy : RanksBefore score id x y) (hyz : RanksBefore score id y z) :
    RanksBefore score id x z := by
  rcases hxy with hxyScore | ⟨hxyScore, hxyId⟩
  · exact Or.inl (lt_of_le_of_lt hyz.score_le hxyScore)
  · rcases hyz with hyzScore | ⟨hyzScore, hyzId⟩
    · rw [← hxyScore] at hyzScore
      exact Or.inl hyzScore
    · exact Or.inr ⟨hxyScore.trans hyzScore, Nat.lt_trans hxyId hyzId⟩

theorem irrefl : ¬ RanksBefore score id x x := by
  intro h
  rcases h with hscore | ⟨_, hid⟩
  · exact lt_irrefl _ hscore
  · exact Nat.lt_irrefl _ hid

theorem total (h : id x ≠ id y) : RanksBefore score id x y ∨ RanksBefore score id y x := by
  rcases lt_trichotomy (score x) (score y) with hless | hsame | hgreater
  · exact Or.inr (Or.inl hless)
  · rcases Nat.lt_or_gt_of_ne h with hid | hid
    · exact Or.inl (Or.inr ⟨hsame, hid⟩)
    · exact Or.inr (Or.inr ⟨hsame.symm, hid⟩)
  · exact Or.inl (Or.inl hgreater)

theorem eq_of_perm {left right : List item} (hperm : left.Perm right)
    (hleft : left.Pairwise (RanksBefore score id))
    (hright : right.Pairwise (RanksBefore score id)) : left = right := by
  apply hperm.eq_of_pairwise _ hleft hright
  intro x y _ _ hxy hyx
  exact absurd (hxy.trans hyx) irrefl

end RanksBefore

theorem byScoreThenId_isLE :
    (byScoreThenId score id x y).isLE = true ↔
      score y < score x ∨ (score x = score y ∧ id x <= id y) := by
  unfold byScoreThenId
  rcases lt_trichotomy (score y) (score x) with hless | hsame | hgreater
  · rw [compare_lt_iff_lt.mpr hless]
    constructor
    · intro _
      exact Or.inl hless
    · intro _
      rfl
  · rw [compare_eq_iff_eq.mpr hsame]
    show (compare (id x) (id y)).isLE = true ↔ _
    rw [Nat.isLE_compare, hsame]
    constructor
    · intro hid
      exact Or.inr ⟨rfl, hid⟩
    · intro h
      rcases h with hlt | ⟨_, hid⟩
      · exact absurd hlt (lt_irrefl _)
      · exact hid
  · rw [compare_gt_iff_gt.mpr hgreater]
    constructor
    · intro h
      cases h
    · intro h
      rcases h with hlt | ⟨heq, _⟩
      · exact absurd hgreater (lt_asymm hlt)
      · rw [heq] at hgreater
        exact absurd hgreater (lt_irrefl _)

/-!
## Sorting
-/

/-- `items.sort_by(..)` -/
def ranked (score : item -> K) (id : item -> Nat) (items : List item) : List item :=
  items.mergeSort fun x y => (byScoreThenId score id x y).isLE

theorem ranked_perm (score : item -> K) (id : item -> Nat) (items : List item) :
    (ranked score id items).Perm items :=
  List.mergeSort_perm items _

variable {items : List item}

theorem pairwise_ranked (hids : (items.map id).Nodup) :
    (ranked score id items).Pairwise (RanksBefore score id) := by
  have hsorted : (ranked score id items).Pairwise
      fun x y => (byScoreThenId score id x y).isLE = true := by
    apply List.pairwise_mergeSort
    · intro x y z hxy hyz
      rw [byScoreThenId_isLE] at hxy hyz ⊢
      rcases hxy with hxy | ⟨hxy, hidxy⟩
      · rcases hyz with hyz | ⟨hyz, _⟩
        · exact Or.inl (lt_trans hyz hxy)
        · rw [hyz] at hxy
          exact Or.inl hxy
      · rcases hyz with hyz | ⟨hyz, hidyz⟩
        · rw [← hxy] at hyz
          exact Or.inl hyz
        · exact Or.inr ⟨hxy.trans hyz, Nat.le_trans hidxy hidyz⟩
    · intro x y
      rw [Bool.or_eq_true, byScoreThenId_isLE, byScoreThenId_isLE]
      rcases lt_trichotomy (score y) (score x) with hless | hsame | hgreater
      · exact Or.inl (Or.inl hless)
      · rcases Nat.le_total (id x) (id y) with hid | hid
        · exact Or.inl (Or.inr ⟨hsame.symm, hid⟩)
        · exact Or.inr (Or.inr ⟨hsame, hid⟩)
      · exact Or.inr (Or.inl hgreater)
  have hdistinct : (ranked score id items).Pairwise fun x y => id x ≠ id y := by
    have hmap := ((ranked_perm score id items).map id).nodup_iff.mpr hids
    exact List.pairwise_map.mp hmap
  apply (hsorted.and hdistinct).imp
  intro x y h
  rcases byScoreThenId_isLE.mp h.1 with hscore | ⟨hscore, hid⟩
  · exact Or.inl hscore
  · exact Or.inr ⟨hscore, Nat.lt_of_le_of_ne hid h.2⟩

theorem eq_ranked {items sorted : List item} (hids : (items.map id).Nodup)
    (hperm : sorted.Perm items) (hsorted : sorted.Pairwise (RanksBefore score id)) :
    sorted = ranked score id items :=
  RanksBefore.eq_of_perm (hperm.trans (ranked_perm score id items).symm) hsorted
    (pairwise_ranked hids)

theorem map_ranked {record : Type} {of : record -> item} {scoreOf : record -> K}
    {idOf : record -> Nat} {items : List record}
    (hscore : forall r, r ∈ items -> scoreOf r = score (of r))
    (hid : forall r, r ∈ items -> idOf r = id (of r)) (hids : ((items.map of).map id).Nodup) :
    (ranked scoreOf idOf items).map of = ranked score id (items.map of) := by
  have hsame : items.map idOf = (items.map of).map id := by
    rw [List.map_map]
    exact List.map_congr_left hid
  have hperm := ranked_perm scoreOf idOf items
  apply eq_ranked hids (hperm.map of)
  rw [List.pairwise_map]
  apply (pairwise_ranked (by rw [hsame]; exact hids)).imp_of_mem
  intro x y hx hy h
  unfold RanksBefore at h
  rw [hscore x (hperm.mem_iff.mp hx), hscore y (hperm.mem_iff.mp hy),
    hid x (hperm.mem_iff.mp hx), hid y (hperm.mem_iff.mp hy)] at h
  exact h

theorem tops_take_ranked (hids : (items.map id).Nodup) (k : Nat) :
    Tops score items ((ranked score id items).take k) := by
  apply tops_take (ranked_perm score id items)
  exact (pairwise_ranked hids).imp RanksBefore.score_le

theorem ranked_eq_take {items chosen : List item} (hids : (items.map id).Nodup)
    (htops : Tops score items chosen) (hcut : CutsCleanly chosen.length (items.map score)) :
    ranked score id chosen = (ranked score id items).take chosen.length := by
  have hfront : Tops score items ((ranked score id items).take chosen.length) :=
    tops_take_ranked hids chosen.length
  have hlength : chosen.length = ((ranked score id items).take chosen.length).length := by
    rw [List.length_take, (ranked_perm score id items).length_eq, Nat.min_eq_left htops.length_le]
  have hperm := htops.perm_of_cutsCleanly hfront hlength hcut
  have hchosen : (chosen.map id).Nodup := by
    rcases htops with ⟨rest, hsplit, _⟩
    have hmap := (hsplit.map id).nodup_iff.mp hids
    rw [List.map_append] at hmap
    exact (List.nodup_append.mp hmap).1
  apply RanksBefore.eq_of_perm ((ranked_perm score id chosen).trans hperm) (pairwise_ranked hchosen)
  exact (pairwise_ranked hids).sublist (List.take_sublist _ _)

/-!
## Inserting
-/

section Insertion

variable {before : item -> item -> Prop} [DecidableRel before]

omit [LinearOrder K] in
/-- What has been cut off does not come back. -/
theorem take_orderedInsert_take (k : Nat) (x : item) (items : List item) :
    ((items.take k).orderedInsert before x).take k = (items.orderedInsert before x).take k := by
  induction items generalizing k with
  | nil => rw [List.take_nil]
  | cons y rest ih =>
    cases k with
    | zero => rfl
    | succ k =>
      rw [List.take_succ_cons, List.orderedInsert_cons, List.orderedInsert_cons]
      split
      · cases k with
        | zero => rfl
        | succ k =>
          rw [List.take_succ_cons, List.take_succ_cons, List.take_succ_cons,
            List.take_succ_cons, List.take_take, Nat.min_eq_left (Nat.le_succ k)]
      · rw [List.take_succ_cons, List.take_succ_cons, ih]

omit [LinearOrder K] in
/-- Nothing goes behind items that it comes before. -/
theorem orderedInsert_append {x : item} {pads : List item}
    (h : forall pad, pad ∈ pads -> before x pad) (items : List item) :
    (items ++ pads).orderedInsert before x = items.orderedInsert before x ++ pads := by
  induction items with
  | nil =>
    cases pads with
    | nil => rfl
    | cons pad rest =>
      rw [List.nil_append, List.orderedInsert_cons_of_le before rest (h pad List.mem_cons_self)]
      rfl
  | cons y rest ih =>
    rw [List.cons_append, List.orderedInsert_cons, List.orderedInsert_cons, ih]
    split <;> rfl

omit [LinearOrder K] in
/-- A list that keeps the first `k`, filled with pads at the start. -/
theorem foldl_insert_take {k : Nat} {pads : List item} {items : List item}
    (hpads : forall x, x ∈ items -> forall pad, pad ∈ pads -> before x pad) (start : List item) :
    items.foldl (fun best x => (best.orderedInsert before x).take k) ((start ++ pads).take k) =
      (items.foldl (fun best x => best.orderedInsert before x) start ++ pads).take k := by
  induction items generalizing start with
  | nil => rfl
  | cons x rest ih =>
    rw [List.foldl_cons, List.foldl_cons, take_orderedInsert_take,
      orderedInsert_append (hpads x List.mem_cons_self),
      ih (fun y hy => hpads y (List.mem_cons_of_mem x hy))]

end Insertion

theorem pairwise_orderedInsert (hsorted : items.Pairwise (RanksBefore score id))
    (hid : forall y, y ∈ items -> id x ≠ id y) :
    (items.orderedInsert (RanksBefore score id) x).Pairwise (RanksBefore score id) := by
  induction items with
  | nil => exact List.pairwise_singleton _ x
  | cons y rest ih =>
    rcases List.pairwise_cons.mp hsorted with ⟨hbefore, hrest⟩
    rw [List.orderedInsert_cons]
    split
    next h =>
      rw [List.pairwise_cons]
      constructor
      · intro z hz
        rcases List.mem_cons.mp hz with hhead | htail
        · rw [hhead]
          exact h
        · exact h.trans (hbefore z htail)
      · exact hsorted
    next h =>
      rw [List.pairwise_cons]
      constructor
      · intro z hz
        rcases (List.mem_orderedInsert _).mp hz with hnew | hold
        · rw [hnew]
          exact (RanksBefore.total (hid y List.mem_cons_self)).resolve_left h
        · exact hbefore z hold
      · exact ih hrest (fun z hz => hid z (List.mem_cons_of_mem y hz))

theorem foldl_orderedInsert_eq_ranked (hids : (items.map id).Nodup) :
    items.foldl (fun best x => best.orderedInsert (RanksBefore score id) x) [] =
      ranked score id items := by
  have hrun : forall rest done : List item, items = done ++ rest ->
      forall best : List item, best.Perm done -> best.Pairwise (RanksBefore score id) ->
      (rest.foldl (fun best x => best.orderedInsert (RanksBefore score id) x) best).Perm items ∧
        (rest.foldl (fun best x => best.orderedInsert (RanksBefore score id) x) best).Pairwise
          (RanksBefore score id) := by
    intro rest
    induction rest with
    | nil =>
      intro done hitems best hperm hsorted
      rw [List.append_nil] at hitems
      rw [hitems]
      exact ⟨hperm, hsorted⟩
    | cons x rest ih =>
      intro done hitems best hperm hsorted
      rw [List.foldl_cons]
      apply ih (done ++ [x])
      · rw [hitems, List.append_assoc]
        rfl
      · exact (List.perm_orderedInsert _ x best).trans
          ((hperm.cons x).trans (List.perm_append_singleton x done).symm)
      · apply pairwise_orderedInsert hsorted
        intro y hy hsame
        have hdone : y ∈ done := hperm.mem_iff.mp hy
        rw [hitems, List.map_append, List.nodup_append] at hids
        exact hids.2.2 (id y) (List.mem_map_of_mem hdone) (id x)
          (List.mem_map_of_mem List.mem_cons_self) hsame.symm
  have h := hrun items [] rfl [] (List.Perm.refl _) List.Pairwise.nil
  exact eq_ranked hids h.1 h.2

end Library
end RunNBurn
