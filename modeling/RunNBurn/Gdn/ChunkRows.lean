import RunNBurn.Gdn.Chunkwise
import RunNBurn.Gdn.KernelRows
import RunNBurn.Library.DeltaRule

/-!
# One chunk of one head

Read entry by entry, the buffers of a chunk hold the log decays, the corrections
and the states of the gated delta rule.
-/

namespace RunNBurn
namespace Gdn

open Library

variable {F : Type} [Field F]

/-!
# Loops as sums
-/

theorem foldl_add_eq_sum (n : Nat) (start : F) (term : Nat -> F) :
    (List.range n).foldl (fun sum i => sum + term i) start =
      start + ∑ i ∈ Finset.range n, term i := by
  induction n with
  | zero => simp
  | succ n ih =>
    rw [List.range_succ, List.foldl_append, ih, Finset.sum_range_succ, ← add_assoc]
    rfl

theorem foldl_sub_eq_sum (n : Nat) (start : F) (term : Nat -> F) :
    (List.range n).foldl (fun sum i => sum - term i) start =
      start - ∑ i ∈ Finset.range n, term i := by
  induction n with
  | zero => simp
  | succ n ih =>
    rw [List.range_succ, List.foldl_append, ih, Finset.sum_range_succ, ← sub_sub]
    rfl

/-!
# Entries of the buffers
-/

theorem entry_map_range {n i : Nat} (make : Nat -> F) (h : i < n) :
    entry ((List.range n).map make) i = make i := by
  simp [entry, h]

theorem entry_append_left {left right : List F} {i : Nat} (h : i < left.length) :
    entry (left ++ right) i = entry left i := by
  simp [entry, List.getElem?_append_left h]

theorem entry_append_right {left right : List F} (i : Nat) :
    entry (left ++ right) (left.length + i) = entry right i := by
  simp [entry, List.getElem?_append_right]

theorem entry_flatMap_range {n width t i : Nat} {make : Nat -> List F}
    (hmake : forall t, t < n -> (make t).length = width) (ht : t < n) (hi : i < width) :
    entry ((List.range n).flatMap make) (t * width + i) = entry (make t) i := by
  rw [← rowAt_flatMap_range hmake ht, ← part_eq_rowAt, entry_part hi]

namespace ScanInput

variable (input : ScanInput F) (e : Elementary F)

/-- What the tokens bring to row `vi` of the state of a head. -/
def rowTokens (head vi : Nat) : DeltaTokens F where
  key t i := entry input.k ((t * input.numHeads + head) * input.headKDim + i)
  value t := entry input.v ((t * input.numHeads + head) * input.headVDim + vi)
  gate t := entry input.gate (t * input.numHeads + head)
  beta t := entry input.beta (t * input.numHeads + head)

/-- Row `vi` of the state of a head. -/
def stateRow (state : List F) (head vi : Nat) : Nat -> F :=
  fun ki => entry state (head * input.stateSize + (vi * input.headKDim + ki))

def chunkTokens (chunk : ChunkAt) (vi : Nat) : DeltaTokens F :=
  (input.rowTokens chunk.head vi).shift chunk.start

theorem gCum_foldl (chunk : ChunkAt) (vi n : Nat) :
    (List.range n).foldl
        (fun sums r =>
          let accG := sums.1 + entry input.gate (input.gb chunk r)
          (accG, sums.2 ++ [accG]))
        ((0 : F), []) =
      ((input.chunkTokens chunk vi).logDecay n,
        (List.range n).map fun r => (input.chunkTokens chunk vi).logDecay (r + 1)) := by
  induction n with
  | zero => simp [DeltaTokens.logDecay]
  | succ n ih =>
    rw [List.range_succ, List.foldl_append, ih, List.map_append, DeltaTokens.logDecay_succ]
    simp only [List.foldl_cons, List.foldl_nil, List.map_cons, List.map_nil,
      DeltaTokens.logDecay_succ]
    rfl

theorem entry_gCum (chunk : ChunkAt) (vi : Nat) {r : Nat} (h : r < chunk.len) :
    entry (input.gCum chunk) r = (input.chunkTokens chunk vi).logDecay (r + 1) := by
  unfold gCum
  rw [input.gCum_foldl chunk vi]
  exact entry_map_range _ h

variable {e} (hadd : forall a b, e.exp (a + b) = e.exp a * e.exp b) (hzero : e.exp 0 = 1)

theorem length_uCorrRow (chunk : ChunkAt) (state gCum uCorr : List F) (r : Nat) :
    (input.uCorrRow chunk e state gCum uCorr r).length = input.headVDim := by
  simp [uCorrRow]

include hadd hzero in
theorem entry_uCorrRow (chunk : ChunkAt) (state uCorr : List F) {r vi : Nat}
    (hr : r < chunk.len) (hvi : vi < input.headVDim)
    (hbefore : forall i, i < r -> entry uCorr (i * input.headVDim + vi) =
      (input.chunkTokens chunk vi).correction e.exp input.headKDim
        (input.stateRow state chunk.head vi) i) :
    entry (input.uCorrRow chunk e state (input.gCum chunk) uCorr r) vi =
      (input.chunkTokens chunk vi).correction e.exp input.headKDim
        (input.stateRow state chunk.head vi) r := by
  have hkk : forall i, i < r -> entry (input.sKk chunk e (input.gCum chunk) r) i =
      (∑ d ∈ Finset.range input.headKDim,
        (input.chunkTokens chunk vi).key i d * (input.chunkTokens chunk vi).key r d) *
          (input.chunkTokens chunk vi).decaySince e.exp (r + 1) i := by
    intro i hi
    unfold sKk
    rw [entry_map_range _ hi, foldl_add_eq_sum, zero_add,
      input.entry_gCum chunk vi hr, input.entry_gCum chunk vi (Nat.lt_trans hi hr)]
    rfl
  unfold uCorrRow
  dsimp only
  rw [entry_map_range _ hvi, foldl_sub_eq_sum, foldl_add_eq_sum, zero_add,
    input.entry_gCum chunk vi hr,
    (input.chunkTokens chunk vi).correction_eq input.headKDim hadd hzero]
  have hsum : (∑ i ∈ Finset.range r, entry (input.sKk chunk e (input.gCum chunk) r) i *
        entry uCorr (i * input.headVDim + vi)) =
      ∑ i ∈ Finset.range r, (∑ d ∈ Finset.range input.headKDim,
        (input.chunkTokens chunk vi).key i d * (input.chunkTokens chunk vi).key r d) *
          (input.chunkTokens chunk vi).decaySince e.exp (r + 1) i *
            (input.chunkTokens chunk vi).correction e.exp input.headKDim
              (input.stateRow state chunk.head vi) i := by
    apply Finset.sum_congr rfl
    intro i hi
    have hlow := Finset.mem_range.mp hi
    rw [hkk i hlow, hbefore i hlow]
  rw [hsum]
  rfl

include hadd hzero in
theorem entry_uCorr (chunk : ChunkAt) (state : List F) {r vi : Nat}
    (hr : r < chunk.len) (hvi : vi < input.headVDim) :
    entry (input.uCorr chunk e state (input.gCum chunk)) (r * input.headVDim + vi) =
      (input.chunkTokens chunk vi).correction e.exp input.headKDim
        (input.stateRow state chunk.head vi) r := by
  have hsolved : forall n, n <= chunk.len ->
      ((List.range n).foldl
        (fun uCorr r => uCorr ++ input.uCorrRow chunk e state (input.gCum chunk) uCorr r)
        []).length = n * input.headVDim ∧
      forall i vi, i < n -> vi < input.headVDim ->
        entry ((List.range n).foldl
            (fun uCorr r => uCorr ++ input.uCorrRow chunk e state (input.gCum chunk) uCorr r)
            []) (i * input.headVDim + vi) =
          (input.chunkTokens chunk vi).correction e.exp input.headKDim
            (input.stateRow state chunk.head vi) i := by
    intro n
    induction n with
    | zero =>
      intro _
      constructor
      · simp
      · intro i vi hi
        cases hi
    | succ n ih =>
      intro hn
      rcases ih (Nat.le_of_succ_le hn) with ⟨hlength, hentries⟩
      rw [List.range_succ, List.foldl_append]
      simp only [List.foldl_cons, List.foldl_nil]
      constructor
      · rw [List.length_append, hlength, length_uCorrRow, Nat.succ_mul]
      · intro i vi hi hvi
        rcases Nat.lt_succ_iff_lt_or_eq.mp hi with hlt | heq
        · have hroom := Nat.mul_le_mul_right input.headVDim hlt
          rw [Nat.succ_mul] at hroom
          rw [entry_append_left (by rw [hlength]; omega)]
          exact hentries i vi hlt hvi
        · rw [heq, ← hlength, entry_append_right]
          exact input.entry_uCorrRow hadd hzero chunk state _ hn hvi
            (fun i hi => hentries i vi hi hvi)
  exact (hsolved chunk.len (Nat.le_refl _)).right r vi hr hvi

include hadd hzero in
theorem outputRow_eq (chunk : ChunkAt) (state : List F) {r : Nat} (hr : r < chunk.len) :
    input.outputRow chunk e state (input.gCum chunk)
        (input.uCorr chunk e state (input.gCum chunk)) r =
      (List.range input.headVDim).map fun vi =>
        ∑ ki ∈ Finset.range input.headKDim,
          (input.chunkTokens chunk vi).run e.exp input.headKDim
            (input.stateRow state chunk.head vi) (r + 1) ki *
              entry input.q (input.qkIdx chunk r ki) := by
  unfold outputRow
  dsimp only
  apply List.map_congr_left
  intro vi hmem
  have hvi := List.mem_range.mp hmem
  rw [foldl_add_eq_sum, foldl_add_eq_sum, zero_add, input.entry_gCum chunk vi hr,
    (input.chunkTokens chunk vi).sum_run_mul input.headKDim hadd hzero, mul_comm]
  congr 1
  apply Finset.sum_congr rfl
  intro j hj
  have hjr : j < r + 1 := Finset.mem_range.mp hj
  have hjlen : j < chunk.len := Nat.lt_of_lt_of_le hjr hr
  rw [foldl_add_eq_sum, zero_add, input.entry_gCum chunk vi hjlen,
    input.entry_uCorr hadd hzero chunk state hjlen hvi]
  rfl

include hadd hzero in
theorem handOff_eq (chunk : ChunkAt) (state : List F) (hlen : 0 < chunk.len) :
    input.handOff chunk e state (input.gCum chunk)
        (input.uCorr chunk e state (input.gCum chunk)) =
      (List.range input.headVDim).flatMap fun vi =>
        (List.range input.headKDim).map fun ki =>
          (input.chunkTokens chunk vi).run e.exp input.headKDim
            (input.stateRow state chunk.head vi) chunk.len ki := by
  have hlast : chunk.len - 1 < chunk.len := Nat.sub_lt hlen Nat.one_pos
  unfold handOff
  dsimp only
  apply List.flatMap_congr
  intro vi hmem
  have hvi := List.mem_range.mp hmem
  apply List.map_congr_left
  intro ki _
  rw [foldl_add_eq_sum, input.entry_gCum chunk vi hlast, Nat.sub_add_cancel hlen,
    (input.chunkTokens chunk vi).run_eq input.headKDim hadd hzero]
  congr 1
  apply Finset.sum_congr rfl
  intro j hj
  have hjlen := Finset.mem_range.mp hj
  rw [input.entry_gCum chunk vi hjlen, input.entry_uCorr hadd hzero chunk state hjlen hvi]
  rfl

/-!
# States and outputs by their tokens
-/

variable (e) (state : List F)

/-- Row `vi` of a head after so many tokens. -/
def rowAfter (head vi t : Nat) : Nat -> F :=
  (input.rowTokens head vi).run e.exp input.headKDim (input.stateRow state head vi) t

def headAfter (head t : Nat) : List F :=
  (List.range input.headVDim).flatMap fun vi =>
    (List.range input.headKDim).map (input.rowAfter e state head vi t)

def stateAfter (seen : Nat -> Nat) : List F :=
  (List.range input.numHeads).flatMap (fun head => input.headAfter e state head (seen head)) ++
    state.drop (input.numHeads * input.stateSize)

def answerRow (head t : Nat) : List F :=
  (List.range input.headVDim).map fun vi =>
    ∑ ki ∈ Finset.range input.headKDim, input.rowAfter e state head vi (t + 1) ki *
      entry input.q ((t * input.numHeads + head) * input.headKDim + ki)

/-- The output buffer with the answers of the tokens that the heads have seen. -/
def outputAfter (seqLen : Nat) (seen : Nat -> Nat) : List F :=
  (List.range (seqLen * input.numHeads)).flatMap fun i =>
    let head := i % input.numHeads
    let t := i / input.numHeads
    if t < seen head then input.answerRow e state head t
    else List.replicate input.headVDim 0

theorem length_headAfter (head t : Nat) :
    (input.headAfter e state head t).length = input.stateSize := by
  have hrows : forall vi, vi < input.headVDim ->
      ((List.range input.headKDim).map (input.rowAfter e state head vi t)).length =
        input.headKDim := by
    intro vi _
    simp
  exact length_flatMap_range hrows

theorem length_answerRow (head t : Nat) :
    (input.answerRow e state head t).length = input.headVDim := by
  simp [answerRow]

theorem entry_stateAfter (seen : Nat -> Nat) {head vi ki : Nat} (hhead : head < input.numHeads)
    (hvi : vi < input.headVDim) (hki : ki < input.headKDim) :
    entry (input.stateAfter e state seen)
        (head * input.stateSize + (vi * input.headKDim + ki)) =
      input.rowAfter e state head vi (seen head) ki := by
  have hrow : vi * input.headKDim + ki < input.stateSize := by
    have hroom := Nat.mul_le_mul_right input.headKDim hvi
    rw [Nat.succ_mul] at hroom
    unfold stateSize
    omega
  have hheads : ((List.range input.numHeads).flatMap
      (fun head => input.headAfter e state head (seen head))).length =
        input.numHeads * input.stateSize :=
    length_flatMap_range (fun head _ => input.length_headAfter e state head (seen head))
  have hindex : head * input.stateSize + (vi * input.headKDim + ki) <
      ((List.range input.numHeads).flatMap
        (fun head => input.headAfter e state head (seen head))).length := by
    have hroom := Nat.mul_le_mul_right input.stateSize hhead
    rw [Nat.succ_mul] at hroom
    rw [hheads]
    omega
  unfold stateAfter
  rw [entry_append_left hindex,
    entry_flatMap_range (fun head _ => input.length_headAfter e state head (seen head)) hhead
      hrow]
  unfold headAfter
  rw [entry_flatMap_range (fun vi _ => by simp) hvi hki, entry_map_range _ hki]

theorem stateRow_stateAfter (seen : Nat -> Nat) {head vi : Nat}
    (hhead : head < input.numHeads) (hvi : vi < input.headVDim) {ki : Nat}
    (hki : ki < input.headKDim) :
    input.stateRow (input.stateAfter e state seen) head vi ki =
      input.rowAfter e state head vi (seen head) ki :=
  input.entry_stateAfter e state seen hhead hvi hki

end ScanInput

end Gdn
end RunNBurn
