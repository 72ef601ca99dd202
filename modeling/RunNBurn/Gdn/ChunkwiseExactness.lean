import Mathlib.Algebra.Field.Rat
import RunNBurn.Gdn.ChunkRows

/-!
# The chunkwise scan is the scan

Chunk by chunk a head catches up with its own tokens, and once every head has
seen all of them the buffers are those of the token-by-token scan.
-/

namespace RunNBurn
namespace Gdn

open Library

variable {F : Type} [Field F]

/-!
# Writing one row
-/

omit [Field F] in
theorem putPart_append (before old after row : List F) (h : row.length = old.length) :
    putPart (before ++ (old ++ after)) before.length row = before ++ (row ++ after) := by
  unfold putPart
  rw [List.take_left, h, ← List.drop_drop, List.drop_left, List.drop_left, List.append_assoc]

omit [Field F] in
/-- Putting a row over one of the rows of a buffer replaces that row. -/
theorem putPart_flatMap_range {n width i : Nat} {make : Nat -> List F} {row : List F}
    (hmake : forall t, t < n -> (make t).length = width) (hrow : row.length = width)
    (hi : i < n) (rest : List F) :
    putPart ((List.range n).flatMap make ++ rest) (i * width) row =
      (List.range n).flatMap (fun t => if t = i then row else make t) ++ rest := by
  have hsplit : List.range n = List.range i ++ i :: List.range' (i + 1) (n - i - 1) := by
    have hstart : List.range' i (n - i) = List.range' (0 + i) (n - i) := by
      rw [Nat.zero_add]
    rw [List.range_eq_range', List.range_eq_range', ← List.range'_succ,
      Nat.sub_add_cancel (Nat.sub_pos_of_lt hi), hstart, List.range'_append_1,
      Nat.add_sub_of_le (Nat.le_of_lt hi)]
  have hbefore : ((List.range i).flatMap make).length = i * width :=
    length_flatMap_range (fun t ht => hmake t (Nat.lt_trans ht hi))
  have hkeepLeft : (List.range i).flatMap (fun t => if t = i then row else make t) =
      (List.range i).flatMap make := by
    apply List.flatMap_congr
    intro t ht
    rw [if_neg (Nat.ne_of_lt (List.mem_range.mp ht))]
  have hkeepRight : (List.range' (i + 1) (n - i - 1)).flatMap
        (fun t => if t = i then row else make t) =
      (List.range' (i + 1) (n - i - 1)).flatMap make := by
    apply List.flatMap_congr
    intro t ht
    rw [if_neg (Nat.ne_of_gt (List.mem_range'_1.mp ht).left)]
  rw [hsplit, List.flatMap_append, List.flatMap_append, List.flatMap_cons, List.flatMap_cons,
    hkeepLeft, hkeepRight, if_pos rfl, ← hbefore, List.append_assoc, List.append_assoc,
    List.append_assoc, List.append_assoc]
  exact putPart_append _ _ _ _ (hrow.trans (hmake i hi).symm)

namespace ScanInput

variable (input : ScanInput F) (e : Elementary F) (state : List F)

def sawUpTo (seen : Nat -> Nat) (head t : Nat) : Nat -> Nat :=
  fun other => if other = head then t else seen other

variable (seen : Nat -> Nat)

theorem putPart_stateAfter {head : Nat} (t : Nat) (hhead : head < input.numHeads) :
    putPart (input.stateAfter e state seen) (head * input.stateSize)
        (input.headAfter e state head t) =
      input.stateAfter e state (sawUpTo seen head t) := by
  unfold stateAfter
  rw [putPart_flatMap_range
    (fun other _ => input.length_headAfter e state other (seen other))
    (input.length_headAfter e state head t) hhead]
  congr 1
  apply List.flatMap_congr
  intro other _
  unfold sawUpTo
  split
  · rename_i heq
    rw [heq]
  · rfl

theorem putPart_outputAfter (seqLen : Nat) (seen : Nat -> Nat) {head t : Nat}
    (hhead : head < input.numHeads) (ht : t < seqLen) :
    putPart (input.outputAfter e state seqLen (sawUpTo seen head t))
        ((t * input.numHeads + head) * input.headVDim)
        (input.answerRow e state head t) =
      input.outputAfter e state seqLen (sawUpTo seen head (t + 1)) := by
  have hindex : t * input.numHeads + head < seqLen * input.numHeads := by
    have hroom := Nat.mul_le_mul_right input.numHeads ht
    rw [Nat.succ_mul] at hroom
    omega
  have hrows : forall i, i < seqLen * input.numHeads ->
      (if i / input.numHeads < sawUpTo seen head t (i % input.numHeads) then
        input.answerRow e state (i % input.numHeads) (i / input.numHeads)
      else List.replicate input.headVDim 0).length = input.headVDim := by
    intro i _
    split
    · exact input.length_answerRow e state _ _
    · exact List.length_replicate
  have hput := putPart_flatMap_range hrows
    (input.length_answerRow e state head t) hindex
  specialize hput []
  rw [List.append_nil, List.append_nil] at hput
  unfold outputAfter
  refine hput.trans ?_
  apply List.flatMap_congr
  intro i _
  have hpos : 0 < input.numHeads := Nat.lt_of_le_of_lt (Nat.zero_le head) hhead
  by_cases hi : i = t * input.numHeads + head
  · have hmod : i % input.numHeads = head := by
      rw [hi, Nat.mul_add_mod_of_lt hhead]
    have hdiv : i / input.numHeads = t := by
      rw [hi, Nat.mul_comm, Nat.mul_add_div hpos, Nat.div_eq_of_lt hhead, Nat.add_zero]
    rw [if_pos hi]
    dsimp only
    rw [hmod, hdiv]
    unfold sawUpTo
    rw [if_pos rfl, if_pos (Nat.lt_succ_self t)]
  · rw [if_neg hi]
    dsimp only
    unfold sawUpTo
    by_cases hmod : i % input.numHeads = head
    · have hdiv : i / input.numHeads ≠ t := by
        intro hdiv
        apply hi
        have hparts := Nat.div_add_mod i input.numHeads
        rw [hdiv, hmod, Nat.mul_comm] at hparts
        exact hparts.symm
      rw [if_pos hmod, if_pos hmod]
      by_cases hlt : i / input.numHeads < t
      · rw [if_pos hlt, if_pos (Nat.lt_succ_of_lt hlt)]
      · rw [if_neg hlt, if_neg (by omega)]
    · rw [if_neg hmod, if_neg hmod]

/-!
# One chunk
-/

def buffersAfter (seqLen : Nat) (seen : Nat -> Nat) : ScanBuffers F where
  output := input.outputAfter e state seqLen seen
  state := input.stateAfter e state seen

theorem chunk_run_eq {head vi r : Nat} (hhead : head < input.numHeads) (hvi : vi < input.headVDim)
    {chunk : ChunkAt} (hat : chunk.head = head) (hstart : chunk.start = seen head) {ki : Nat}
    (hki : ki < input.headKDim) :
    (input.chunkTokens chunk vi).run e.exp input.headKDim
        (input.stateRow (input.stateAfter e state seen) chunk.head vi) r ki =
      input.rowAfter e state head vi (seen head + r) ki := by
  have hsame : DeltaTokens.SameUpTo input.headKDim r (input.chunkTokens chunk vi)
      ((input.rowTokens head vi).shift (seen head)) := by
    unfold chunkTokens
    rw [hat, hstart]
    exact {
      key := fun _ _ _ _ => rfl
      value := fun _ _ => rfl
      gate := fun _ _ => rfl
      beta := fun _ _ => rfl }
  unfold rowAfter
  rw [DeltaTokens.run_add]
  refine DeltaTokens.run_congr e.exp input.headKDim hsame ?_ (Nat.le_refl r) hki
  intro i hi
  rw [hat]
  exact input.stateRow_stateAfter e state seen hhead hvi hi

section Exp

variable {e} (hadd : forall a b, e.exp (a + b) = e.exp a * e.exp b) (hzero : e.exp 0 = 1)
include hadd hzero

variable (seen : Nat -> Nat)

theorem outputRow_stateAfter {chunk : ChunkAt} {r : Nat} (hhead : chunk.head < input.numHeads)
    (hstart : chunk.start = seen chunk.head) (hr : r < chunk.len) :
    input.outputRow chunk e (input.stateAfter e state seen) (input.gCum chunk)
        (input.uCorr chunk e (input.stateAfter e state seen) (input.gCum chunk)) r =
      input.answerRow e state chunk.head (chunk.start + r) := by
  rw [input.outputRow_eq hadd hzero chunk _ hr]
  unfold answerRow
  apply List.map_congr_left
  intro vi hmem
  apply Finset.sum_congr rfl
  intro ki hki
  rw [input.chunk_run_eq e state seen hhead (List.mem_range.mp hmem) rfl hstart
    (Finset.mem_range.mp hki), ← hstart, Nat.add_assoc]
  rfl

theorem handOff_stateAfter {chunk : ChunkAt} (hhead : chunk.head < input.numHeads)
    (hstart : chunk.start = seen chunk.head) (hlen : 0 < chunk.len) :
    input.handOff chunk e (input.stateAfter e state seen) (input.gCum chunk)
        (input.uCorr chunk e (input.stateAfter e state seen) (input.gCum chunk)) =
      input.headAfter e state chunk.head (chunk.start + chunk.len) := by
  rw [input.handOff_eq hadd hzero chunk _ hlen]
  unfold headAfter
  apply List.flatMap_congr
  intro vi hvi
  apply List.map_congr_left
  intro ki hki
  rw [input.chunk_run_eq e state seen hhead (List.mem_range.mp hvi) rfl hstart
    (List.mem_range.mp hki), hstart]

theorem runChunk_eq {seqLen : Nat} (chunk : ChunkAt) (hhead : chunk.head < input.numHeads)
    (hstart : chunk.start = seen chunk.head) (hlen : 0 < chunk.len)
    (hend : chunk.start + chunk.len <= seqLen) :
    input.runChunk chunk e (input.buffersAfter e state seqLen seen) =
      input.buffersAfter e state seqLen
        (sawUpTo seen chunk.head (chunk.start + chunk.len)) := by
  have hself : sawUpTo seen chunk.head chunk.start = seen := by
    funext other
    unfold sawUpTo
    split
    · rename_i heq
      rw [heq, hstart]
    · rfl
  have houtput : forall n, n <= chunk.len ->
      (List.range n).foldl
          (fun output r => putPart output (input.vIdx chunk r 0)
            (input.outputRow chunk e (input.stateAfter e state seen) (input.gCum chunk)
              (input.uCorr chunk e (input.stateAfter e state seen) (input.gCum chunk)) r))
          (input.outputAfter e state seqLen seen) =
        input.outputAfter e state seqLen (sawUpTo seen chunk.head (chunk.start + n)) := by
    intro n
    induction n with
    | zero =>
      intro _
      rw [Nat.add_zero, hself]
      rfl
    | succ n ih =>
      intro hn
      rw [List.range_succ, List.foldl_append, ih (Nat.le_of_succ_le hn), List.foldl_cons,
        List.foldl_nil, input.outputRow_stateAfter state hadd hzero seen hhead hstart hn]
      exact input.putPart_outputAfter e state seqLen seen hhead (by omega)
  unfold runChunk buffersAfter
  dsimp only
  rw [houtput chunk.len (Nat.le_refl _),
    input.handOff_stateAfter state hadd hzero seen hhead hstart hlen,
    input.putPart_stateAfter e state seen _ hhead]

/-!
# The loop over the chunks
-/

theorem iterate_chunkRound {seqLen chunkSize head : Nat} (hhead : head < input.numHeads)
    (hchunk : 0 < chunkSize) (fuel : Nat) {t0 : Nat} (ht0 : t0 <= seqLen)
    (hfuel : seqLen - t0 < fuel) :
    iterate (chunkRound e input seqLen chunkSize head) fuel
        { buffers := input.buffersAfter e state seqLen (sawUpTo seen head t0)
          t0 := t0 } =
      { buffers := input.buffersAfter e state seqLen (sawUpTo seen head seqLen)
        t0 := seqLen } := by
  induction fuel generalizing t0 with
  | zero => cases hfuel
  | succ fuel ih =>
    unfold iterate chunkRound
    by_cases hlt : t0 < seqLen
    · have hlen : 0 < min chunkSize (seqLen - t0) := by
        omega
      have hend : t0 + min chunkSize (seqLen - t0) <= seqLen := by
        omega
      have hstart : t0 = sawUpTo seen head t0 head := by
        unfold sawUpTo
        rw [if_pos rfl]
      have hmoved : sawUpTo (sawUpTo seen head t0) head (t0 + min chunkSize (seqLen - t0)) =
          sawUpTo seen head (t0 + min chunkSize (seqLen - t0)) := by
        funext other
        unfold sawUpTo
        split
        · rfl
        · rfl
      have hchunkRun := input.runChunk_eq state hadd hzero (sawUpTo seen head t0)
        { head := head, start := t0, len := min chunkSize (seqLen - t0) }
        hhead hstart hlen hend
      rw [if_pos hlt]
      dsimp only
      rw [hchunkRun, hmoved]
      exact ih hend (by omega)
    · have hdone : t0 = seqLen := Nat.le_antisymm ht0 (Nat.le_of_not_lt hlt)
      rw [if_neg hlt, hdone]

theorem foldl_scanHeadChunks {seqLen chunkSize : Nat} (hchunk : 0 < chunkSize)
    {heads : Nat} (hheads : heads <= input.numHeads) :
    (List.range heads).foldl (scanHeadChunks e input seqLen chunkSize)
        (input.buffersAfter e state seqLen (fun _ => 0)) =
      input.buffersAfter e state seqLen (fun head => if head < heads then seqLen else 0) := by
  induction heads with
  | zero => rfl
  | succ heads ih =>
    have hself : sawUpTo (fun head => if head < heads then seqLen else 0) heads 0 =
        fun head => if head < heads then seqLen else 0 := by
      funext other
      unfold sawUpTo
      split
      · rename_i heq
        rw [heq, if_neg (Nat.lt_irrefl heads)]
      · rfl
    have hnext : sawUpTo (fun head => if head < heads then seqLen else 0) heads seqLen =
        fun head => if head < heads + 1 then seqLen else 0 := by
      funext other
      unfold sawUpTo
      by_cases heq : other = heads
      · rw [if_pos heq, if_pos (by omega)]
      · rw [if_neg heq]
        dsimp only
        by_cases hlt : other < heads
        · rw [if_pos hlt, if_pos (by omega)]
        · rw [if_neg hlt, if_neg (by omega)]
    have hloop := input.iterate_chunkRound state hadd hzero
      (fun head => if head < heads then seqLen else 0) (Nat.lt_of_succ_le hheads) hchunk
      (seqLen + 1) (Nat.zero_le seqLen) (by omega)
    rw [hself, hnext] at hloop
    rw [List.range_succ, List.foldl_append, ih (Nat.le_of_succ_le hheads), List.foldl_cons,
      List.foldl_nil]
    unfold scanHeadChunks
    rw [hloop]

end Exp

/-!
# Before the first token and after the last
-/

omit [Field F] in
theorem flatMap_range_mul (n m : Nat) (make : Nat -> Nat -> List F) :
    (List.range (n * m)).flatMap (fun i => make (i % m) (i / m)) =
      (List.range n).flatMap fun t => (List.range m).flatMap fun head => make head t := by
  induction n with
  | zero => simp
  | succ n ih =>
    have hlast : ((List.range m).map (n * m + ·)).flatMap
          (fun i => make (i % m) (i / m)) =
        (List.range m).flatMap fun head => make head n := by
      rw [List.flatMap_map]
      apply List.flatMap_congr
      intro head hmem
      have hhead := List.mem_range.mp hmem
      have hpos : 0 < m := Nat.lt_of_le_of_lt (Nat.zero_le head) hhead
      have hmod : (n * m + head) % m = head := Nat.mul_add_mod_of_lt hhead
      have hdiv : (n * m + head) / m = n := by
        rw [Nat.mul_comm, Nat.mul_add_div hpos, Nat.div_eq_of_lt hhead, Nat.add_zero]
      rw [hmod, hdiv]
    rw [Nat.succ_mul, List.range_add, List.flatMap_append, ih, hlast, List.range_succ,
      List.flatMap_append]
    simp

theorem map_entry_range (xs : List F) (start n : Nat) (h : start + n <= xs.length) :
    (List.range n).map (fun i => entry xs (start + i)) = part xs start n := by
  apply List.ext_getElem
  · rw [length_part h]
    simp
  · intro i hi hpart
    rw [List.length_map, List.length_range] at hi
    have hindex : start + i < xs.length := by
      omega
    simp [entry, part, List.getElem?_eq_getElem hindex]

theorem headAfter_zero {head : Nat} (hhead : head < input.numHeads)
    (hstate : input.numHeads * input.stateSize <= state.length) :
    input.headAfter e state head 0 = rowAt input.stateSize state head := by
  have hroom := Nat.mul_le_mul_right input.stateSize hhead
  rw [Nat.succ_mul] at hroom
  have hrow : (rowAt input.stateSize state head).length = input.stateSize := by
    unfold rowAt
    rw [List.length_take, List.length_drop]
    omega
  have hrows : input.headAfter e state head 0 =
      (List.range input.headVDim).flatMap
        (rowAt input.headKDim (rowAt input.stateSize state head)) := by
    unfold headAfter
    apply List.flatMap_congr
    intro vi hmem
    have hvi := Nat.mul_le_mul_right input.headKDim (List.mem_range.mp hmem)
    rw [Nat.succ_mul] at hvi
    have hinner : vi * input.headKDim + input.headKDim <= input.stateSize := hvi
    have hpart := map_entry_range state (head * input.stateSize + vi * input.headKDim)
      input.headKDim (by omega)
    simp only [Nat.add_assoc] at hpart
    refine hpart.trans ?_
    unfold part rowAt
    rw [take_drop_take_drop state _ hinner]
  rw [hrows, flatMap_rowAt]
  change (rowAt input.stateSize state head).take input.stateSize = _
  exact List.take_of_length_le (Nat.le_of_eq hrow)

theorem stateAfter_zero (hstate : input.numHeads * input.stateSize <= state.length) :
    input.stateAfter e state (fun _ => 0) = state := by
  unfold stateAfter
  have hheads : (List.range input.numHeads).flatMap
        (fun head => input.headAfter e state head 0) =
      (List.range input.numHeads).flatMap (rowAt input.stateSize state) := by
    apply List.flatMap_congr
    intro head hmem
    exact input.headAfter_zero e state (List.mem_range.mp hmem) hstate
  rw [hheads, flatMap_rowAt, List.take_append_drop]

theorem outputAfter_zero (seqLen : Nat) :
    input.outputAfter e state seqLen (fun _ => 0) =
      List.replicate (seqLen * input.numHeads * input.headVDim) 0 := by
  have hrows : forall n, (List.range n).flatMap
      (fun _ => List.replicate input.headVDim (0 : F)) =
        List.replicate (n * input.headVDim) 0 := by
    intro n
    induction n with
    | zero => simp
    | succ n ih =>
      rw [List.range_succ, List.flatMap_append, ih, Nat.succ_mul, List.replicate_add]
      simp
  exact hrows (seqLen * input.numHeads)

theorem outputAfter_all (seqLen : Nat) {seen : Nat -> Nat}
    (hseen : forall head, head < input.numHeads -> seen head = seqLen) :
    input.outputAfter e state seqLen seen =
      (List.range seqLen).flatMap fun t => (List.range input.numHeads).flatMap fun head =>
        input.answerRow e state head t := by
  rw [← flatMap_range_mul seqLen input.numHeads (input.answerRow e state)]
  unfold outputAfter
  apply List.flatMap_congr
  intro i hmem
  have hi := List.mem_range.mp hmem
  have hpos : 0 < input.numHeads := by
    rcases Nat.eq_zero_or_pos input.numHeads with hzero | hpos
    · rw [hzero, Nat.mul_zero] at hi
      cases hi
    · exact hpos
  dsimp only
  rw [hseen _ (Nat.mod_lt i hpos), if_pos (Nat.div_lt_of_lt_mul (by
    rw [Nat.mul_comm]
    exact hi))]

theorem stateAfter_congr {seen other : Nat -> Nat}
    (h : forall head, head < input.numHeads -> seen head = other head) :
    input.stateAfter e state seen = input.stateAfter e state other := by
  unfold stateAfter
  congr 1
  apply List.flatMap_congr
  intro head hmem
  rw [h head (List.mem_range.mp hmem)]

/-!
# The token-by-token scan
-/

theorem rowAt_stateAfter {head : Nat} (hhead : head < input.numHeads) :
    rowAt input.stateSize (input.stateAfter e state seen) head =
      input.headAfter e state head (seen head) := by
  have hlengths : forall head, head < input.numHeads ->
      (input.headAfter e state head (seen head)).length = input.stateSize :=
    fun head _ => input.length_headAfter e state head (seen head)
  have hroom := Nat.mul_le_mul_right input.stateSize hhead
  rw [Nat.succ_mul] at hroom
  have hlength := length_flatMap_range hlengths
  rw [← rowAt_flatMap_range hlengths hhead]
  unfold stateAfter rowAt
  rw [List.drop_append_of_le_length (by omega), List.take_append_of_le_length]
  rw [List.length_drop]
  omega

theorem drop_stateAfter :
    (input.stateAfter e state seen).drop (input.numHeads * input.stateSize) =
      state.drop (input.numHeads * input.stateSize) := by
  have hlength : ((List.range input.numHeads).flatMap
      (fun head => input.headAfter e state head (seen head))).length =
        input.numHeads * input.stateSize :=
    length_flatMap_range (fun head _ => input.length_headAfter e state head (seen head))
  unfold stateAfter
  rw [← hlength, List.drop_left, hlength]

theorem entry_headAfter {head vi ki t : Nat} (hvi : vi < input.headVDim)
    (hki : ki < input.headKDim) :
    entry (input.headAfter e state head t) (vi * input.headKDim + ki) =
      input.rowAfter e state head vi t ki := by
  unfold headAfter
  rw [entry_flatMap_range (fun vi _ => by simp) hvi hki, entry_map_range _ hki]

theorem deltaNetStepScalarHead_headAfter (head t : Nat) :
    deltaNetStepScalarHead
        (part input.k ((t * input.numHeads + head) * input.headKDim) input.headKDim)
        (part input.v ((t * input.numHeads + head) * input.headVDim) input.headVDim)
        (e.exp (entry input.gate (t * input.numHeads + head)))
        (entry input.beta (t * input.numHeads + head))
        (input.headAfter e state head t) input.headKDim input.headVDim =
      input.headAfter e state head (t + 1) := by
  unfold deltaNetStepScalarHead
  dsimp only
  have hstep : input.headAfter e state head (t + 1) =
      (List.range input.headVDim).flatMap fun vi =>
        (List.range input.headKDim).map ((input.rowTokens head vi).step e.exp input.headKDim t
          (input.rowAfter e state head vi t)) := rfl
  rw [hstep]
  apply List.flatMap_congr
  intro vi hmem
  have hvi := List.mem_range.mp hmem
  have hread : (List.range input.headKDim).foldl
        (fun sk ki => sk + e.exp (entry input.gate (t * input.numHeads + head)) *
          entry (input.headAfter e state head t) (vi * input.headKDim + ki) *
            entry (part input.k ((t * input.numHeads + head) * input.headKDim) input.headKDim)
              ki) 0 =
      ∑ ki ∈ Finset.range input.headKDim, e.exp ((input.rowTokens head vi).gate t) *
        input.rowAfter e state head vi t ki * (input.rowTokens head vi).key t ki := by
    rw [foldl_add_eq_sum, zero_add]
    apply Finset.sum_congr rfl
    intro ki hmem
    have hki := Finset.mem_range.mp hmem
    rw [input.entry_headAfter e state hvi hki, entry_part hki]
    rfl
  rw [hread]
  apply List.map_congr_left
  intro ki hmem
  have hki := List.mem_range.mp hmem
  rw [input.entry_headAfter e state hvi hki, entry_part hki, entry_part hvi]
  rfl

theorem stepHeads_stateAfter (t : Nat) :
    stepHeads
        (fun h => fun stateH =>
          deltaNetStepScalarHead
            (part input.k ((t * input.numHeads + h) * input.headKDim) input.headKDim)
            (part input.v ((t * input.numHeads + h) * input.headVDim) input.headVDim)
            (e.exp (entry input.gate (t * input.numHeads + h)))
            (entry input.beta (t * input.numHeads + h)) stateH input.headKDim input.headVDim)
        input.numHeads (input.headVDim * input.headKDim)
        (input.stateAfter e state (fun _ => t)) =
      .ok (input.stateAfter e state (fun _ => t + 1)) := by
  have hlength : input.numHeads * (input.headVDim * input.headKDim) <=
      (input.stateAfter e state (fun _ => t)).length := by
    have hheads : ((List.range input.numHeads).flatMap
        (fun head => input.headAfter e state head t)).length =
          input.numHeads * input.stateSize :=
      length_flatMap_range (fun head _ => input.length_headAfter e state head t)
    unfold stateAfter
    rw [List.length_append, hheads]
    exact Nat.le_add_right _ _
  have hheads : (List.range input.numHeads).flatMap (fun h =>
        deltaNetStepScalarHead
          (part input.k ((t * input.numHeads + h) * input.headKDim) input.headKDim)
          (part input.v ((t * input.numHeads + h) * input.headVDim) input.headVDim)
          (e.exp (entry input.gate (t * input.numHeads + h)))
          (entry input.beta (t * input.numHeads + h))
          (part (input.stateAfter e state (fun _ => t))
            (h * (input.headVDim * input.headKDim)) (input.headVDim * input.headKDim))
          input.headKDim input.headVDim) =
      (List.range input.numHeads).flatMap fun h => input.headAfter e state h (t + 1) := by
    apply List.flatMap_congr
    intro head hmem
    have hrow : part (input.stateAfter e state (fun _ => t))
          (head * (input.headVDim * input.headKDim)) (input.headVDim * input.headKDim) =
        input.headAfter e state head t :=
      input.rowAt_stateAfter e state (fun _ => t) (List.mem_range.mp hmem)
    rw [hrow, input.deltaNetStepScalarHead_headAfter e state head t]
  unfold stepHeads
  rw [require_of_true _ hlength, ok_bind, hheads]
  change Except.ok (_ ++ (input.stateAfter e state (fun _ => t)).drop
    (input.numHeads * input.stateSize)) = _
  rw [drop_stateAfter]
  rfl

theorem scanOutput_stateAfter (t : Nat) :
    scanOutput input.q (input.stateAfter e state (fun _ => t + 1)) t input.numHeads
        input.headKDim input.headVDim =
      (List.range input.numHeads).flatMap fun head => input.answerRow e state head t := by
  unfold scanOutput
  apply List.flatMap_congr
  intro head hmem
  have hrow : part (input.stateAfter e state (fun _ => t + 1))
        (head * (input.headVDim * input.headKDim)) (input.headVDim * input.headKDim) =
      input.headAfter e state head (t + 1) :=
    input.rowAt_stateAfter e state (fun _ => t + 1) (List.mem_range.mp hmem)
  dsimp only
  rw [hrow]
  unfold answerRow
  apply List.map_congr_left
  intro vi hmem
  have hvi := List.mem_range.mp hmem
  rw [foldl_add_eq_sum, zero_add]
  apply Finset.sum_congr rfl
  intro ki hmem
  have hki := Finset.mem_range.mp hmem
  rw [input.entry_headAfter e state hvi hki, entry_part hki]

theorem deltaNetScan_eq (seqLen : Nat) (hstate : input.numHeads * input.stateSize <= state.length) :
    deltaNetScan e input.q input.k input.v input.gate input.beta state seqLen
        input.numHeads input.headKDim input.headVDim =
      .ok ((List.range seqLen).flatMap fun t => (List.range input.numHeads).flatMap fun head =>
          input.answerRow e state head t,
        input.stateAfter e state (fun _ => seqLen)) := by
  unfold deltaNetScan
  induction seqLen with
  | zero =>
    rw [input.stateAfter_zero e state hstate]
    rfl
  | succ t ih =>
    rw [List.range_succ, List.foldlM_append, ih, ok_bind, List.foldlM_cons]
    dsimp only
    rw [input.stepHeads_stateAfter e state t, ok_bind,
      input.scanOutput_stateAfter e state t, List.flatMap_append]
    simp
    rfl

theorem deltaNetScanChunkwise_eq (hadd : forall a b, e.exp (a + b) = e.exp a * e.exp b)
    (hzero : e.exp 0 = 1) (seqLen chunkSize : Nat)
    (hstate : input.numHeads * input.stateSize <= state.length) :
    deltaNetScanChunkwise e input state seqLen chunkSize =
      .ok ((List.range seqLen).flatMap fun t => (List.range input.numHeads).flatMap fun head =>
          input.answerRow e state head t,
        input.stateAfter e state (fun _ => seqLen)) := by
  have hchunk : 0 < max chunkSize 1 := Nat.lt_of_lt_of_le Nat.one_pos (Nat.le_max_right _ _)
  have hstart : ({
      output := List.replicate (seqLen * input.numHeads * input.headVDim) 0
      state := state } : ScanBuffers F) =
        input.buffersAfter e state seqLen (fun _ => 0) := by
    unfold buffersAfter
    rw [input.outputAfter_zero, input.stateAfter_zero e state hstate]
  have hall : forall head, head < input.numHeads ->
      (if head < input.numHeads then seqLen else 0) = seqLen :=
    fun head hhead => if_pos hhead
  unfold deltaNetScanChunkwise
  rw [require_of_true _ (Or.inr hstate), ok_bind]
  dsimp only
  rw [hstart, input.foldl_scanHeadChunks state hadd hzero hchunk (Nat.le_refl _)]
  unfold buffersAfter
  dsimp only
  rw [input.outputAfter_all e state seqLen hall, input.stateAfter_congr e state hall]
  rfl

/-!
# Consecutive calls
-/

theorem rowTokens_window (start len : Nat) {head vi : Nat} (hhead : head < input.numHeads)
    (hvi : vi < input.headVDim) :
    DeltaTokens.SameUpTo input.headKDim len ((input.window start len).rowTokens head vi)
      ((input.rowTokens head vi).shift start) := by
  have hindex : forall t, t < len -> t * input.numHeads + head < len * input.numHeads := by
    intro t ht
    have hroom := Nat.mul_le_mul_right input.numHeads ht
    rw [Nat.succ_mul] at hroom
    omega
  have hflat : forall width t i, t < len -> i < width ->
      (t * input.numHeads + head) * width + i < len * (input.numHeads * width) := by
    intro width t i ht hi
    have hroom := Nat.mul_le_mul_right width (hindex t ht)
    rw [Nat.succ_mul, Nat.mul_assoc len] at hroom
    omega
  have hshift : forall width t i,
      start * (input.numHeads * width) + ((t * input.numHeads + head) * width + i) =
        ((start + t) * input.numHeads + head) * width + i := by
    intro width t i
    rw [← Nat.mul_assoc, ← Nat.add_assoc, ← Nat.add_mul, ← Nat.add_assoc, ← Nat.add_mul]
  have hgates : forall t, start * input.numHeads + (t * input.numHeads + head) =
      (start + t) * input.numHeads + head := by
    intro t
    rw [← Nat.add_assoc, ← Nat.add_mul]
  constructor
  · intro t ht i hi
    exact (entry_part (hflat input.headKDim t i ht hi)).trans
      (congrArg (entry input.k) (hshift input.headKDim t i))
  · intro t ht
    exact (entry_part (hflat input.headVDim t vi ht hvi)).trans
      (congrArg (entry input.v) (hshift input.headVDim t vi))
  · intro t ht
    exact (entry_part (hindex t ht)).trans (congrArg (entry input.gate) (hgates t))
  · intro t ht
    exact (entry_part (hindex t ht)).trans (congrArg (entry input.beta) (hgates t))

theorem rowAfter_window (start len : Nat) {head vi ki t : Nat}
    (hhead : head < input.numHeads) (hvi : vi < input.headVDim) (hki : ki < input.headKDim)
    (ht : t <= len) :
    (input.window start len).rowAfter e (input.stateAfter e state (fun _ => start)) head vi t
        ki =
      input.rowAfter e state head vi (start + t) ki := by
  unfold rowAfter
  rw [DeltaTokens.run_add]
  refine DeltaTokens.run_congr e.exp input.headKDim
    (input.rowTokens_window start len hhead hvi) ?_ ht hki
  intro i hi
  exact input.stateRow_stateAfter e state (fun _ => start) hhead hvi hi

theorem stateAfter_window (start len : Nat) :
    (input.window start len).stateAfter e (input.stateAfter e state (fun _ => start))
        (fun _ => len) =
      input.stateAfter e state (fun _ => start + len) := by
  have hheads : (List.range input.numHeads).flatMap (fun head =>
        (input.window start len).headAfter e (input.stateAfter e state (fun _ => start)) head
          len) =
      (List.range input.numHeads).flatMap
        (fun head => input.headAfter e state head (start + len)) := by
    apply List.flatMap_congr
    intro head hhead
    apply List.flatMap_congr
    intro vi hvi
    apply List.map_congr_left
    intro ki hki
    exact input.rowAfter_window e state start len (List.mem_range.mp hhead)
      (List.mem_range.mp hvi) (List.mem_range.mp hki) (Nat.le_refl len)
  have hrest := input.drop_stateAfter e state (fun _ => start)
  change _ ++ (input.stateAfter e state (fun _ => start)).drop
    (input.numHeads * input.stateSize) = _
  rw [hrest]
  exact congrArg (· ++ state.drop (input.numHeads * input.stateSize)) hheads

theorem answerRow_window (start len : Nat) {head t : Nat} (hhead : head < input.numHeads)
    (ht : t < len) :
    (input.window start len).answerRow e (input.stateAfter e state (fun _ => start)) head t =
      input.answerRow e state head (start + t) := by
  have hindex : t * input.numHeads + head < len * input.numHeads := by
    have hroom := Nat.mul_le_mul_right input.numHeads ht
    rw [Nat.succ_mul] at hroom
    omega
  unfold answerRow
  apply List.map_congr_left
  intro vi hvi
  apply Finset.sum_congr rfl
  intro ki hki
  have hlow : ki < input.headKDim := Finset.mem_range.mp hki
  have hquery : entry (input.window start len).q
        ((t * input.numHeads + head) * input.headKDim + ki) =
      entry input.q (((start + t) * input.numHeads + head) * input.headKDim + ki) := by
    have hflat : (t * input.numHeads + head) * input.headKDim + ki <
        len * (input.numHeads * input.headKDim) := by
      have hroom := Nat.mul_le_mul_right input.headKDim hindex
      rw [Nat.succ_mul, Nat.mul_assoc len] at hroom
      omega
    have hshift : start * (input.numHeads * input.headKDim) +
        ((t * input.numHeads + head) * input.headKDim + ki) =
          ((start + t) * input.numHeads + head) * input.headKDim + ki := by
      rw [← Nat.mul_assoc, ← Nat.add_assoc, ← Nat.add_mul, ← Nat.add_assoc, ← Nat.add_mul]
    exact (entry_part hflat).trans (congrArg (entry input.q) hshift)
  have hrow := input.rowAfter_window e state start len hhead (List.mem_range.mp hvi) hlow
    (Nat.succ_le_of_lt ht)
  exact congr (congrArg HMul.hMul hrow) hquery

theorem length_stateAfter_le :
    input.numHeads * input.stateSize <= (input.stateAfter e state seen).length := by
  have hheads : ((List.range input.numHeads).flatMap
      (fun head => input.headAfter e state head (seen head))).length =
        input.numHeads * input.stateSize :=
    length_flatMap_range (fun head _ => input.length_headAfter e state head (seen head))
  unfold stateAfter
  rw [List.length_append, hheads]
  exact Nat.le_add_right _ _

theorem scanCalls_eq (hadd : forall a b, e.exp (a + b) = e.exp a * e.exp b)
    (hzero : e.exp 0 = 1) (start : Nat) (calls : List ChunkCall) :
    scanCalls e input start calls (input.stateAfter e state (fun _ => start)) =
      .ok ((List.range' start (calls.map ChunkCall.len).sum).flatMap fun t =>
          (List.range input.numHeads).flatMap fun head => input.answerRow e state head t,
        input.stateAfter e state (fun _ => start + (calls.map ChunkCall.len).sum)) := by
  induction calls generalizing start with
  | nil => rfl
  | cons call rest ih =>
    have hcall := (input.window start call.len).deltaNetScanChunkwise_eq e
      (input.stateAfter e state (fun _ => start)) hadd hzero call.len call.chunkSize
      (input.length_stateAfter_le e state (fun _ => start))
    rw [input.stateAfter_window e state start call.len] at hcall
    have hanswers : (List.range call.len).flatMap (fun t =>
          (List.range input.numHeads).flatMap fun head =>
            (input.window start call.len).answerRow e
              (input.stateAfter e state (fun _ => start)) head t) =
        (List.range' start call.len).flatMap fun t =>
          (List.range input.numHeads).flatMap fun head => input.answerRow e state head t := by
      rw [List.range'_eq_map_range, List.flatMap_map]
      apply List.flatMap_congr
      intro t ht
      apply List.flatMap_congr
      intro head hhead
      exact input.answerRow_window e state start call.len (List.mem_range.mp hhead)
        (List.mem_range.mp ht)
    unfold scanCalls
    rw [hcall, ok_bind]
    dsimp only
    rw [ih (start + call.len), ok_bind, List.map_cons, List.sum_cons, ← Nat.add_assoc,
      ← List.range'_append_1, List.flatMap_append]
    exact congrArg (fun answers => Except.ok (answers ++ _, _)) hanswers

end ScanInput

/-- The scan by chunks of any size, and by consecutive calls with chunks of any
sizes, is the token-by-token scan. -/
theorem chunkwise_eq_scalar (input : ScanInput F) (e : Elementary F) (state : List F) (seqLen : Nat)
    (hadd : forall a b, e.exp (a + b) = e.exp a * e.exp b) (hzero : e.exp 0 = 1)
    (hdim : input.headVDim <= 256) (hstate : input.numHeads * input.stateSize <= state.length) :
    exists output final,
      deltaNetScanScalarInto e input state seqLen = .ok (output, final) ∧
        (forall chunkSize,
          deltaNetScanChunkwise e input state seqLen chunkSize = .ok (output, final)) ∧
        forall calls : List ChunkCall, (calls.map ChunkCall.len).sum = seqLen ->
          scanCalls e input 0 calls state = .ok (output, final) := by
  have hscalar := input.deltaNetScan_eq e state seqLen hstate
  refine ⟨_, _, ?_,
    fun chunkSize => input.deltaNetScanChunkwise_eq e state hadd hzero seqLen chunkSize hstate,
    ?_⟩
  · unfold deltaNetScanScalarInto
    rw [require_of_true _ (Or.inr (Or.inr hdim)), ok_bind]
    exact hscalar
  · intro calls hsum
    have hcalls := input.scanCalls_eq e state hadd hzero 0 calls
    rw [input.stateAfter_zero e state hstate, hsum, Nat.zero_add, ← List.range_eq_range'] at hcalls
    exact hcalls

def pairInput : ScanInput Rat where
  q := [1, 2]
  k := [1, 1]
  v := [3, 5]
  gate := [0, 0]
  beta := [1, 1]
  numHeads := 1
  headKDim := 1
  headVDim := 1

def undecayed : Elementary Rat where
  exp _ := 1
  ln x := x
  sqrt x := x

theorem chunkwise_eq_scalar_pair :
    deltaNetScanScalarInto undecayed pairInput [0] 2 = .ok ([3, 10], [5]) ∧
      deltaNetScanChunkwise undecayed pairInput [0] 2 5 = .ok ([3, 10], [5]) ∧
        scanCalls undecayed pairInput 0
          [{ len := 1, chunkSize := 3 }, { len := 1, chunkSize := 0 }] [0] =
            .ok ([3, 10], [5]) := by
  have hscalar : deltaNetScanScalarInto undecayed pairInput [0] 2 = .ok ([3, 10], [5]) := by
    decide +kernel
  obtain ⟨output, final, hrun, hchunks, hcalls⟩ :=
    chunkwise_eq_scalar pairInput undecayed [0] 2 (fun _ _ => (mul_one 1).symm) rfl
      (by decide) (by decide)
  have hsame : (Except.ok (output, final) : Checked (List Rat × List Rat)) =
      .ok ([3, 10], [5]) :=
    hrun.symm.trans hscalar
  constructor
  · exact hscalar
  constructor
  · exact (hchunks 5).trans hsame
  · exact (hcalls _ rfl).trans hsame

end Gdn
end RunNBurn
