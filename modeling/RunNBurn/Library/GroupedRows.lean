import Mathlib.Data.List.Basic

/-!
# Rows compacted group by group

A row list that grows at its end and is shortened from its end.  Behind a fixed
number of sink rows, complete groups may be replaced by their image under a
group map, and the structure remembers how many leading groups were replaced.
It says what a compressing row cache is for, without any storage layout.
-/

namespace RunNBurn
namespace Library

structure GroupMap (group : Nat) (row : Type) where
  apply : List row -> List row
  length_apply : forall rows, rows.length = group -> (apply rows).length = group

namespace GroupMap

variable {group : Nat} {row : Type}

/-- Apply the map to the first `n` groups and leave the remainder alone. -/
def onGroups (q : GroupMap group row) : Nat -> List row -> List row
  | 0, rows => rows
  | n + 1, rows => q.apply (rows.take group) ++ q.onGroups n (rows.drop group)

def groupAt (group : Nat) (rows : List row) (b : Nat) : List row :=
  (rows.drop (b * group)).take group

theorem groupAt_drop_group (rows : List row) (b : Nat) :
    groupAt group (rows.drop group) b = groupAt group rows (b + 1) := by
  rw [groupAt, groupAt, List.drop_drop, Nat.succ_mul, Nat.add_comm group]

variable (q : GroupMap group row)

theorem length_onGroups {n : Nat} {rows : List row} (h : n * group <= rows.length) :
    (q.onGroups n rows).length = rows.length := by
  induction n generalizing rows with
  | zero => rfl
  | succ n ih =>
    rw [Nat.succ_mul] at h
    have htake : (rows.take group).length = group := by
      rw [List.length_take]
      omega
    have hrest : n * group <= (rows.drop group).length := by
      rw [List.length_drop]
      omega
    rw [onGroups, List.length_append, q.length_apply _ htake, ih hrest, List.length_drop]
    omega

theorem onGroups_eq_flatMap (n : Nat) (rows : List row) :
    q.onGroups n rows =
      (List.range n).flatMap (fun b => q.apply (groupAt group rows b)) ++
        rows.drop (n * group) := by
  induction n generalizing rows with
  | zero => simp [onGroups]
  | succ n ih =>
    have hshift : (fun b => q.apply (groupAt group (rows.drop group) b)) =
        (fun b => q.apply (groupAt group rows (b + 1))) := by
      funext b
      rw [groupAt_drop_group]
    have hzero : groupAt group rows 0 = rows.take group := by
      simp [groupAt]
    rw [onGroups, ih, hshift, List.range_succ_eq_map, List.flatMap_cons,
      List.flatMap_map, hzero, List.drop_drop, Nat.succ_mul,
      Nat.add_comm (n * group), List.append_assoc]

/-- The first `p` rows survive exactly when each image agrees with its group
on the rows of the group that lie among them. -/
theorem take_onGroups_eq_iff {n p : Nat} {rows : List row} (h : n * group <= rows.length) :
    (q.onGroups n rows).take p = rows.take p ↔
      forall b, b < n ->
        (q.apply (groupAt group rows b)).take (p - b * group) =
          (groupAt group rows b).take (p - b * group) := by
  induction n generalizing rows p with
  | zero => simp [onGroups]
  | succ n ih =>
    rw [Nat.succ_mul] at h
    have htake : (rows.take group).length = group := by
      rw [List.length_take]
      omega
    have hrest : n * group <= (rows.drop group).length := by
      rw [List.length_drop]
      omega
    have himage : (q.apply (rows.take group)).length = group :=
      q.length_apply _ htake
    have hsplit : rows.take p =
        (rows.take group).take p ++ (rows.drop group).take (p - group) := by
      conv_lhs => rw [← List.take_append_drop group rows]
      rw [List.take_append, htake]
    have hheads : ((q.apply (rows.take group)).take p).length =
        ((rows.take group).take p).length := by
      rw [List.length_take, List.length_take, himage, htake]
    rw [onGroups, List.take_append, himage, hsplit]
    constructor
    · intro heq b hb
      have hparts := List.append_inj heq hheads
      cases b with
      | zero => simpa [groupAt] using hparts.left
      | succ b =>
        have htail := (ih hrest).mp hparts.right b (Nat.lt_of_succ_lt_succ hb)
        rw [groupAt_drop_group] at htail
        rw [Nat.succ_mul, Nat.add_comm, Nat.sub_add_eq]
        exact htail
    · intro hall
      have hhead := hall 0 (Nat.succ_pos n)
      have htail : (q.onGroups n (rows.drop group)).take (p - group) =
          (rows.drop group).take (p - group) := by
        apply (ih hrest).mpr
        intro b hb
        have hnext := hall (b + 1) (Nat.succ_lt_succ hb)
        rw [Nat.succ_mul, Nat.add_comm, Nat.sub_add_eq] at hnext
        rw [groupAt_drop_group]
        exact hnext
      rw [htail]
      simpa [groupAt] using hhead

end GroupMap

/-!
# The grouped row list
-/

structure GroupedRows (sink group : Nat) (row : Type) where
  rows : List row
  groups : Nat
  fits : groups * group <= rows.length - sink

namespace GroupedRows

variable {sink group : Nat} {row : Type}

def empty : GroupedRows sink group row where
  rows := []
  groups := 0
  fits := by simp

section

variable (s : GroupedRows sink group row)

def frontier : Nat :=
  sink + s.groups * group

def fullGroups : Nat :=
  (s.rows.length - s.frontier) / group

theorem fullGroups_mul_le :
    s.fullGroups * group <= s.rows.length - s.frontier :=
  Nat.div_mul_le_self _ _

def truncate (len : Nat) :
    GroupedRows sink group row where
  rows := s.rows.take len
  groups := min s.groups ((len - sink) / group)
  fits := by
    have hfits := s.fits
    have hold : min s.groups ((len - sink) / group) * group <= s.groups * group :=
      Nat.mul_le_mul_right group (Nat.min_le_left _ _)
    have hnew : min s.groups ((len - sink) / group) * group <= len - sink :=
      Nat.le_trans (Nat.mul_le_mul_right group (Nat.min_le_right _ _))
        (Nat.div_mul_le_self _ _)
    rw [List.length_take]
    omega

def append (more : List row) :
    GroupedRows sink group row where
  rows := s.rows ++ more
  groups := s.groups
  fits := by
    have hfits := s.fits
    rw [List.length_append]
    omega

/-- Overwrite from `pos` on: later rows are dropped and a gap is padded. -/
def writeAt (padding : row) (pos : Nat) (more : List row) : GroupedRows sink group row :=
  let kept := if pos < s.rows.length then s.truncate pos else s
  (kept.append (List.replicate (pos - kept.rows.length) padding)).append more

def compact (q : GroupMap group row) :
    GroupedRows sink group row where
  rows := s.rows.take s.frontier ++ q.onGroups s.fullGroups (s.rows.drop s.frontier)
  groups := s.groups + s.fullGroups
  fits := by
    have hfull := s.fullGroups_mul_le
    have hlength : s.fullGroups * group <= (s.rows.drop s.frontier).length := by
      rw [List.length_drop]
      exact hfull
    rw [List.length_append, q.length_onGroups hlength, List.length_take,
      List.length_drop, Nat.add_mul]
    have hfits := s.fits
    rw [frontier] at *
    omega

end

@[simp] theorem rows_truncate (s : GroupedRows sink group row) (len : Nat) :
    (s.truncate len).rows = s.rows.take len := rfl

@[simp] theorem groups_truncate (s : GroupedRows sink group row) (len : Nat) :
    (s.truncate len).groups = min s.groups ((len - sink) / group) := rfl

@[simp] theorem rows_append (s : GroupedRows sink group row) (more : List row) :
    (s.append more).rows = s.rows ++ more := rfl

@[simp] theorem groups_append (s : GroupedRows sink group row) (more : List row) :
    (s.append more).groups = s.groups := rfl

theorem append_nil (s : GroupedRows sink group row) : s.append [] = s := by
  simp [append]

theorem append_append (s : GroupedRows sink group row) (left right : List row) :
    (s.append left).append right = s.append (left ++ right) := by
  simp [append]

theorem length_rows_compact
    (s : GroupedRows sink group row) (q : GroupMap group row) :
    (s.compact q).rows.length = s.rows.length := by
  have hlength : s.fullGroups * group <= (s.rows.drop s.frontier).length := by
    rw [List.length_drop]
    exact s.fullGroups_mul_le
  rw [compact, List.length_append, q.length_onGroups hlength,
    ← List.length_append, List.take_append_drop]

variable {s : GroupedRows sink group row}

theorem compact_of_fullGroups_eq_zero (q : GroupMap group row) (h : s.fullGroups = 0) :
    s.compact q = s := by
  unfold compact
  simp [h, GroupMap.onGroups]

/-!
## What writes and cuts keep
-/

theorem take_rows_truncate
    {p len : Nat} (s : GroupedRows sink group row) (h : p <= len) :
    (s.truncate len).rows.take p = s.rows.take p := by
  rw [rows_truncate, List.take_take, Nat.min_eq_left h]

theorem le_length_rows_truncate {p len : Nat} (hlen : p <= len) (hrows : p <= s.rows.length) :
    p <= (s.truncate len).rows.length := by
  rw [rows_truncate, List.length_take]
  exact Nat.le_min.mpr ⟨hlen, hrows⟩

theorem take_rows_writeAt {p pos : Nat} (padding : row) (more : List row) (hpos : p <= pos)
    (hrows : p <= s.rows.length) :
    (s.writeAt padding pos more).rows.take p = s.rows.take p := by
  unfold writeAt
  dsimp only
  rw [rows_append, rows_append, List.append_assoc]
  by_cases hback : pos < s.rows.length
  · rw [if_pos hback, List.take_append_of_le_length (le_length_rows_truncate hpos hrows),
      take_rows_truncate s hpos]
  · rw [if_neg hback, List.take_append_of_le_length hrows]

theorem le_length_rows_writeAt {p pos : Nat} (padding : row) (more : List row) (hpos : p <= pos)
    (hrows : p <= s.rows.length) :
    p <= (s.writeAt padding pos more).rows.length := by
  unfold writeAt
  dsimp only
  rw [rows_append, rows_append, List.append_assoc, List.length_append]
  by_cases hback : pos < s.rows.length
  · rw [if_pos hback]
    exact Nat.le_trans (le_length_rows_truncate hpos hrows) (Nat.le_add_right _ _)
  · rw [if_neg hback]
    exact Nat.le_trans hrows (Nat.le_add_right _ _)

/-!
## What compaction keeps

Compaction may only change rows of the groups it completes.  `CompactKeeps`
says that those changes stay at or above row `p`.
-/

def CompactKeeps (s : GroupedRows sink group row) (q : GroupMap group row) (p : Nat) : Prop :=
  forall b, b < s.fullGroups ->
    let target := GroupMap.groupAt group (s.rows.drop s.frontier) b
    (q.apply target).take (p - (s.frontier + b * group)) =
      target.take (p - (s.frontier + b * group))

theorem take_rows_compact_eq_iff
    (s : GroupedRows sink group row) (q : GroupMap group row) (p : Nat) :
    (s.compact q).rows.take p = s.rows.take p ↔ s.CompactKeeps q p := by
  have hlength : s.fullGroups * group <= (s.rows.drop s.frontier).length := by
    rw [List.length_drop]
    exact s.fullGroups_mul_le
  have hsplit : s.rows.take p =
      (s.rows.take s.frontier).take p ++
        (s.rows.drop s.frontier).take (p - (s.rows.take s.frontier).length) := by
    conv_lhs => rw [← List.take_append_drop s.frontier s.rows]
    rw [List.take_append]
  rw [compact, List.take_append, hsplit, List.append_right_inj, q.take_onGroups_eq_iff hlength]
  unfold CompactKeeps
  -- A list shorter than the frontier completes no group, so both sides are empty.
  apply forall_congr'
  intro b
  apply imp_congr_right
  intro hb
  have hlong : s.frontier <= s.rows.length := by
    by_contra hshort
    have hzero : s.fullGroups = 0 := by
      rw [fullGroups, Nat.sub_eq_zero_of_le (by omega), Nat.zero_div]
    omega
  rw [List.length_take, Nat.min_eq_left hlong, Nat.sub_add_eq]

end GroupedRows

end Library
end RunNBurn
