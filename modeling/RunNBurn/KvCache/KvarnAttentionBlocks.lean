import RunNBurn.KvCache.KvarnAttentionStates

/-!
# Quantized blocks in the rotated domain

The scores of a block are accumulated channel by channel over the tokens in the
window; together they are the products of the rotated query with the rotated rows that
the block decodes to.
-/

namespace RunNBurn
namespace KvCache

open Library
open scoped Matrix

variable {F : Type} [Field F]

theorem getD_take_drop {alpha : Type} (xs : List alpha) (start : Nat) {count i : Nat}
    (fallback : alpha) (h : i < count) :
    ((xs.drop start).take count).getD i fallback = xs.getD (start + i) fallback := by
  rw [List.getD_eq_getElem?_getD, List.getD_eq_getElem?_getD, List.getElem?_take_of_lt h,
    List.getElem?_drop]

/-!
# The scores
-/

theorem floatAt_foldl_modify (amount : Nat -> F) {places : List Nat} (hnodup : places.Nodup)
    (xs : List F) :
    (places.foldl (fun xs place => xs.modify place (fun x => x + amount place)) xs).length =
        xs.length ∧
      forall i, i < xs.length ->
        floatAt (places.foldl (fun xs place => xs.modify place (fun x => x + amount place)) xs)
            i =
          if i ∈ places then floatAt xs i + amount i else floatAt xs i := by
  induction places generalizing xs with
  | nil => exact ⟨rfl, fun i _ => (if_neg List.not_mem_nil).symm⟩
  | cons place rest ih =>
    rcases List.nodup_cons.mp hnodup with ⟨hnotMem, hrest⟩
    rcases ih hrest (xs.modify place (fun x => x + amount place)) with ⟨hlength, hentry⟩
    rw [List.length_modify] at hlength hentry
    constructor
    · exact hlength
    · intro i hi
      have hmodify : floatAt (xs.modify place (fun x => x + amount place)) i =
          if place = i then floatAt xs i + amount place else floatAt xs i := by
        unfold floatAt
        rw [List.getD_eq_getElem?_getD, List.getD_eq_getElem?_getD, List.getElem?_modify,
          List.getElem?_eq_getElem hi]
        split
        · rfl
        · rfl
      rw [List.foldl_cons, hentry i hi, hmodify]
      by_cases hplace : place = i
      · subst hplace
        rw [if_neg hnotMem, if_pos rfl, if_pos List.mem_cons_self]
      · have hmem : i ∈ place :: rest ↔ i ∈ rest := by
          rw [List.mem_cons]
          constructor
          · intro h
            rcases h with heq | htail
            · exact absurd heq.symm hplace
            · exact htail
          · exact Or.inr
        rw [if_neg hplace]
        simp only [hmem]

theorem accumulateQ4Scores_eq (scores : List F) (packed : List UInt8) (start stop : Nat)
    (scale : F) :
    (accumulateQ4Scores scores packed start stop scale).length = scores.length ∧
      forall token, start <= token -> token < stop -> token < scores.length ->
        floatAt (accumulateQ4Scores scores packed start stop scale) token =
          floatAt scores token + scale * ((q4At packed token).toNat : F) := by
  rcases floatAt_foldl_modify (fun token => scale * ((q4At packed token).toNat : F))
    (List.nodup_range' (s := start) (n := stop - start)) scores with ⟨hlength, hentry⟩
  constructor
  · exact hlength
  · intro token hstart hstop htoken
    have hmem : token ∈ List.range' start (stop - start) := by
      rw [List.mem_range'_1]
      omega
    unfold accumulateQ4Scores
    rw [hentry token htoken, if_pos hmem]

namespace KvarnBuffers

variable (math : KvarnMath F) (config : KvarnConfig) (headDim : Nat) (block : KvarnBuffers)
  (kvHead : Nat)

def keyCode (dim token : Nat) : F :=
  let packedRow := config.group / 2
  ((q4At ((block.keyPacked.drop
    (kvHead * (headDim * packedRow) + dim * packedRow)).take packedRow) token).toNat : F)

def keyScaleAt (dim : Nat) : F :=
  math.ofF16 (block.keyScale.getD (kvHead * headDim + dim) 0)

def keyZeroAt (dim : Nat) : F :=
  math.ofF16 (block.keyZero.getD (kvHead * headDim + dim) 0)

def keyTokenScaleAt (token : Nat) : F :=
  math.ofF16 (block.keyTokenScale.getD (kvHead * config.group + token) 0)

theorem blockScores_prefix (rotatedQuery : List F) (localStart : Nat) {localEnd : Nat}
    (hend : localEnd <= config.group) (count : Nat) :
    let sums := (List.range count).foldl
      (block.accumulateChannel math config headDim kvHead rotatedQuery localStart localEnd)
      { scores := List.replicate config.group 0, zeroDot := 0 }
    sums.scores.length = config.group ∧
      sums.zeroDot = ∑ dim ∈ Finset.range count,
        floatAt rotatedQuery dim * block.keyZeroAt math headDim kvHead dim ∧
      forall token, localStart <= token -> token < localEnd ->
        floatAt sums.scores token = ∑ dim ∈ Finset.range count,
          floatAt rotatedQuery dim * block.keyScaleAt math headDim kvHead dim *
            block.keyCode config headDim kvHead dim token := by
  induction count with
  | zero =>
    constructor
    · exact List.length_replicate
    constructor
    · rfl
    · intro token _ htoken
      show floatAt (List.replicate config.group (0 : F)) token = _
      unfold floatAt
      rw [List.getD_eq_getElem?_getD, List.getElem?_replicate,
        if_pos (Nat.lt_of_lt_of_le htoken hend)]
      rfl
  | succ count ih =>
    rcases ih with ⟨hlength, hzero, hscores⟩
    dsimp only at hlength hzero hscores ⊢
    rw [List.range_succ, List.foldl_append]
    generalize (List.range count).foldl
      (block.accumulateChannel math config headDim kvHead rotatedQuery localStart localEnd)
      { scores := List.replicate config.group 0, zeroDot := 0 } = sums
      at hlength hzero hscores ⊢
    rw [List.foldl_cons, List.foldl_nil]
    unfold accumulateChannel
    dsimp only
    have hchannel := accumulateQ4Scores_eq sums.scores
      ((block.keyPacked.drop (kvHead * (headDim * (config.group / 2)) +
        count * (config.group / 2))).take (config.group / 2)) localStart localEnd
      (floatAt rotatedQuery count * block.keyScaleAt math headDim kvHead count)
    constructor
    · exact hchannel.1.trans hlength
    constructor
    · rw [Finset.sum_range_succ, ← hzero]
      rfl
    · intro token hstart htoken
      rw [Finset.sum_range_succ, ← hscores token hstart htoken]
      exact hchannel.2 token hstart htoken (by rw [hlength]; exact Nat.lt_of_lt_of_le htoken hend)

theorem dequantizeKeyRotatedRow_eq {token : Nat} (heven : config.group % 2 = 0)
    (htoken : token < config.group) :
    block.dequantizeKeyRotatedRow math config headDim kvHead token =
      (List.range headDim).map fun dim =>
        (block.keyCode config headDim kvHead dim token * block.keyScaleAt math headDim kvHead dim +
          block.keyZeroAt math headDim kvHead dim) *
          block.keyTokenScaleAt math config kvHead token := by
  have hhalf : token / 2 < config.group / 2 := by
    omega
  unfold dequantizeKeyRotatedRow
  dsimp only
  apply List.map_congr_left
  intro dim _
  have hbyte := getD_take_drop block.keyPacked
    (kvHead * (headDim * (config.group / 2)) + dim * (config.group / 2)) 0 hhalf
  unfold keyCode q4At
  dsimp only
  rw [hbyte]
  rfl

theorem score_eq (rotatedQuery : List F) {localStart localEnd token : Nat}
    (heven : config.group % 2 = 0) (hend : localEnd <= config.group)
    (hstart : localStart <= token) (htoken : token < localEnd) :
    let sums := block.blockScores math config headDim kvHead rotatedQuery localStart localEnd
    (floatAt sums.scores token + sums.zeroDot) * block.keyTokenScaleAt math config kvHead token =
      vecOf headDim rotatedQuery ⬝ᵥ
        vecOf headDim (block.dequantizeKeyRotatedRow math config headDim kvHead token) := by
  rcases block.blockScores_prefix math config headDim kvHead rotatedQuery localStart
    hend headDim with ⟨_, hzero, hscores⟩
  have hscore := hscores token hstart htoken
  rw [block.dequantizeKeyRotatedRow_eq math config headDim kvHead heven
    (Nat.lt_of_lt_of_le htoken hend), vecOf_map_range]
  unfold blockScores
  dsimp only at hzero hscore ⊢
  rw [hscore, hzero, ← Finset.sum_add_distrib, Finset.sum_mul]
  show _ = ∑ dim : Fin headDim, floatAt rotatedQuery dim * _
  rw [← Fin.sum_univ_eq_sum_range (fun dim =>
    (floatAt rotatedQuery dim * block.keyScaleAt math headDim kvHead dim *
        block.keyCode config headDim kvHead dim token +
      floatAt rotatedQuery dim * block.keyZeroAt math headDim kvHead dim) *
        block.keyTokenScaleAt math config kvHead token) headDim]
  apply Finset.sum_congr rfl
  intro dim _
  ring

/-!
# The values
-/

theorem accumulateQuantizedValue_eq {output : List F} {token : Nat} (weight : F)
    (hbits : headDim % (8 / config.valueBits) = 0) (hpack : 0 < 8 / config.valueBits)
    (hlength : output.length = headDim) :
    let packedRow := headDim / (8 / config.valueBits)
    let next := accumulateQuantizedValue math output
      ((block.valuePacked.drop (kvHead * (config.group * packedRow) + token * packedRow)).take
        packedRow) config.valueBits
      (bitsAt block.valueChannelScale (kvHead * headDim) headDim)
      (math.ofF16 (block.valueTokenScale.getD (kvHead * config.group + token) 0))
      (math.ofF16 (block.valueZero.getD (kvHead * config.group + token) 0)) weight
    next.length = headDim ∧
      vecOf headDim next = vecOf headDim output +
        weight • vecOf headDim
          (block.dequantizeValueRotatedRow math config headDim kvHead token) := by
  dsimp only
  unfold accumulateQuantizedValue
  dsimp only
  constructor
  · rw [List.length_map, List.length_range, hlength]
  · unfold dequantizeValueRotatedRow
    dsimp only
    rw [hlength, vecOf_map_range, vecOf_map_range]
    funext dim
    have hchannel : (dim : Nat) < headDim := dim.isLt
    have hrow : (dim : Nat) / (8 / config.valueBits) < headDim / (8 / config.valueBits) := by
      rw [Nat.div_lt_iff_lt_mul hpack, Nat.div_mul_cancel (Nat.dvd_of_mod_eq_zero hbits)]
      exact hchannel
    unfold bitsAt
    rw [getD_take_drop _ _ 0 hrow, getD_take_drop _ _ 0 hchannel, mul_assoc]
    rfl

/-!
# Whole blocks
-/

variable [LinearOrder F] (window : AttentionWindow F) (rotatedQuery : List F)

def rotatedItem (token : Nat) : F × (Fin headDim -> F) :=
  window.scored math (vecOf headDim rotatedQuery)
    (vecOf headDim (block.dequantizeKeyRotatedRow math config headDim kvHead token))
    (vecOf headDim (block.dequantizeValueRotatedRow math config headDim kvHead token))

theorem processQuantizedToken_tracks {items : List (F × (Fin headDim -> F))}
    {state : SoftmaxState F} {localStart localEnd token : Nat}
    (hexp : Exponential math.exp) (hvalid : config.validate headDim = .ok ())
    (hend : localEnd <= config.group) (hstart : localStart <= token) (htoken : token < localEnd)
    (h : state.Tracks math headDim items) :
    (block.processQuantizedToken math config headDim kvHead window
        (block.blockScores math config headDim kvHead rotatedQuery localStart localEnd)
        state token).Tracks math headDim
      (items ++ [block.rotatedItem math config headDim kvHead window rotatedQuery token]) := by
  rcases (KvarnConfig.validate_eq_ok_iff config headDim).mp hvalid with
    ⟨_, hvalueBits, hgroup, _, hdim, _⟩
  have heven : config.group % 2 = 0 := by
    rcases hgroup with hsmall | hlarge
    · rw [hsmall]
    · rw [hlarge]
  have hpack : headDim % (8 / config.valueBits) = 0 ∧ 0 < 8 / config.valueBits := by
    rcases hvalueBits with htwo | hfour
    · rw [htwo]
      exact ⟨hdim, (by decide)⟩
    · rw [hfour]
      exact ⟨(by omega), (by decide)⟩
  have hscore := block.score_eq math config headDim kvHead rotatedQuery heven hend hstart htoken
  unfold keyTokenScaleAt at hscore
  unfold processQuantizedToken
  dsimp only at hscore ⊢
  rw [hscore]
  apply h.push hexp
  intro hlength
  exact block.accumulateQuantizedValue_eq math config headDim kvHead _ hpack.1 hpack.2 hlength

theorem processQuantizedBlock_tracks {items : List (F × (Fin headDim -> F))}
    {state : SoftmaxState F} (hexp : Exponential math.exp)
    (hvalid : config.validate headDim = .ok ()) (blockStart : Nat)
    (h : state.Tracks math headDim items) :
    (block.processQuantizedBlock math config headDim kvHead window rotatedQuery blockStart
        state).Tracks math headDim
      (items ++ (Library.window window.windowStart window.kvLen blockStart
        (List.range config.group)).map
          (block.rotatedItem math config headDim kvHead window rotatedQuery)) := by
  rw [window_range]
  unfold processQuantizedBlock
  dsimp only
  generalize hstart : min (window.windowStart - blockStart) config.group = localStart
  generalize hstop : min (window.kvLen - blockStart) config.group = localEnd
  have hend : localEnd <= config.group := by
    rw [← hstop]
    exact Nat.min_le_right _ _
  split
  · rename_i hempty
    rw [Nat.sub_eq_zero_of_le hempty]
    show state.Tracks math headDim (items ++ [])
    rw [List.append_nil]
    exact h
  · have hprefix : forall count, count <= localEnd - localStart ->
        ((List.range' localStart count).foldl
          (block.processQuantizedToken math config headDim kvHead window
            (block.blockScores math config headDim kvHead rotatedQuery localStart localEnd))
          state).Tracks math headDim
          (items ++ (List.range' localStart count).map
            (block.rotatedItem math config headDim kvHead window rotatedQuery)) := by
      intro count
      induction count with
      | zero =>
        intro _
        show state.Tracks math headDim (items ++ [])
        rw [List.append_nil]
        exact h
      | succ count ih =>
        intro hle
        rw [List.range'_1_concat, List.foldl_append, List.map_append, ← List.append_assoc]
        exact block.processQuantizedToken_tracks math config headDim kvHead window rotatedQuery
          hexp hvalid hend (Nat.le_add_right _ _) (by omega) (ih (Nat.le_of_succ_le hle))
    exact hprefix _ (Nat.le_refl _)

end KvarnBuffers

/-!
# The rows that a block decodes to
-/

/-- The transform of the rows is orthonormal, and its own inverse. -/
structure Rotates (math : KvarnMath F) (n : Nat)
    (rotation : (Fin n -> F) →ₗ[F] (Fin n -> F)) : Prop where
  apply_eq : forall xs, xs.length = n ->
    math.normalizedHadamard xs = List.ofFn (rotation (vecOf n xs))
  orthonormal : forall v w, rotation v ⬝ᵥ rotation w = v ⬝ᵥ w
  involutive : forall v, rotation (rotation v) = v

namespace Rotates

variable {math : KvarnMath F} {n : Nat} {rotation : (Fin n -> F) →ₗ[F] (Fin n -> F)}

theorem vecOf_normalizedHadamard (h : Rotates math n rotation) {xs : List F}
    (hlength : xs.length = n) :
    vecOf n (math.normalizedHadamard xs) = rotation (vecOf n xs) := by
  rw [h.apply_eq xs hlength, vecOf_ofFn]

theorem dot_comm (h : Rotates math n rotation) (v w : Fin n -> F) :
    rotation v ⬝ᵥ w = v ⬝ᵥ rotation w := by
  rw [← h.orthonormal v (rotation w), h.involutive]

end Rotates

theorem rowsOf_eq_map (width n : Nat) (key value : List UInt16) :
    rowsOf width n key value =
      (List.range n).map fun i =>
        { key := (key.drop (i * width)).take width
          value := (value.drop (i * width)).take width } := by
  induction n with
  | zero => rfl
  | succ n ih =>
    rw [rowsOf_succ_last, ih, List.range_succ, List.map_append]
    rfl

/-- What `dequantizeEntry` rounds. -/
def KvarnBuffers.exactEntry (math : KvarnMath F) (numKvHeads headDim : Nat)
    (rotated : Nat -> Nat -> List F) (i : Nat) : F :=
  let rowWidth := numKvHeads * headDim
  floatAt (math.normalizedHadamard (rotated (i % rowWidth / headDim) (i / rowWidth)))
    (i % rowWidth % headDim)

/-- The row of one token before it is rounded. -/
def KvarnBlock.exactRow [LinearOrder F] {math : KvarnMath F} (block : KvarnBlock (packedCodec math))
    (token : Nat) : ExactRow F :=
  let rowWidth := block.numKvHeads * block.headDim
  { key := (List.range rowWidth).map fun i =>
      KvarnBuffers.exactEntry math block.numKvHeads block.headDim
        (block.buffers.dequantizeKeyRotatedRow math block.config block.headDim)
        (token * rowWidth + i)
    value := (List.range rowWidth).map fun i =>
      KvarnBuffers.exactEntry math block.numKvHeads block.headDim
        (block.buffers.dequantizeValueRotatedRow math block.config block.headDim)
        (token * rowWidth + i) }

def KvarnBlock.exactRows [LinearOrder F] {math : KvarnMath F}
    (block : KvarnBlock (packedCodec math)) : List (ExactRow F) :=
  (List.range block.config.group).map block.exactRow

section Decoded

variable {math : KvarnMath F} {headDim kvHead : Nat}
  {rotation : (Fin headDim -> F) →ₗ[F] (Fin headDim -> F)}

theorem take_drop_map_range {entry : Type} (f : Nat -> entry) (width : Nat) {count token : Nat}
    (htoken : token < count) :
    (((List.range (count * width)).map f).drop (token * width)).take width =
      (List.range width).map fun i => f (token * width + i) := by
  have hrows := Nat.mul_le_mul_right width (Nat.succ_le_of_lt htoken)
  rw [Nat.succ_mul] at hrows
  apply List.ext_getElem
  · rw [List.length_take, List.length_drop, List.length_map, List.length_map, List.length_range,
      List.length_range]
    omega
  · intro i hleft hright
    rw [List.getElem_take, List.getElem_drop, List.getElem_map, List.getElem_map,
      List.getElem_range, List.getElem_range]

/-- The rows of a block are its exact rows, rounded. -/
theorem rows_eq_rounded [LinearOrder F] (block : KvarnBlock (packedCodec math)) :
    block.rows = block.exactRows.map (ExactRow.rounded math) := by
  unfold KvarnBlock.rows KvarnBlock.exactRows KvarnBlock.dequantizeF16
  rw [rowsOf_eq_map, List.map_map]
  apply List.map_congr_left
  intro token htoken
  dsimp only
  rw [take_drop_map_range _ _ (List.mem_range.mp htoken),
    take_drop_map_range _ _ (List.mem_range.mp htoken)]
  unfold Function.comp ExactRow.rounded KvarnBlock.exactRow
  dsimp only
  rw [List.map_map, List.map_map]
  rfl

theorem headVec_exactEntry (h : Rotates math headDim rotation)
    (numKvHeads token : Nat) (rotated : Nat -> Nat -> List F)
    (hlength : (rotated kvHead token).length = headDim) (hkv : kvHead < numKvHeads) :
    headVec headDim kvHead
        ((List.range (numKvHeads * headDim)).map fun i =>
          KvarnBuffers.exactEntry math numKvHeads headDim rotated
            (token * (numKvHeads * headDim) + i)) =
      rotation (vecOf headDim (rotated kvHead token)) := by
  rw [← h.vecOf_normalizedHadamard hlength]
  funext dim
  have hdim : (dim : Nat) < headDim := dim.isLt
  have hpos : 0 < headDim := Nat.lt_of_le_of_lt (Nat.zero_le _) hdim
  have hhead := Nat.mul_le_mul_right headDim (Nat.succ_le_of_lt hkv)
  rw [Nat.succ_mul] at hhead
  have hwithin : kvHead * headDim + dim < numKvHeads * headDim :=
    Nat.lt_of_lt_of_le (Nat.add_lt_add_left hdim _) hhead
  have hdiv : (token * (numKvHeads * headDim) + (kvHead * headDim + dim)) /
      (numKvHeads * headDim) = token := by
    rw [Nat.mul_comm token, Nat.mul_add_div (Nat.lt_of_le_of_lt (Nat.zero_le _) hwithin),
      Nat.div_eq_of_lt hwithin, Nat.add_zero]
  have hmod : (token * (numKvHeads * headDim) + (kvHead * headDim + dim)) %
      (numKvHeads * headDim) = kvHead * headDim + dim := by
    rw [Nat.mul_comm token, Nat.mul_add_mod, Nat.mod_eq_of_lt hwithin]
  have hheadDiv : (kvHead * headDim + dim) / headDim = kvHead := by
    rw [Nat.mul_comm, Nat.mul_add_div hpos, Nat.div_eq_of_lt hdim, Nat.add_zero]
  have hheadMod : (kvHead * headDim + dim) % headDim = dim := by
    rw [Nat.mul_comm, Nat.mul_add_mod, Nat.mod_eq_of_lt hdim]
  unfold headVec
  rw [floatAt_map_range _ hwithin]
  unfold KvarnBuffers.exactEntry vecOf
  dsimp only
  rw [hdiv, hmod, hheadDiv, hheadMod]

theorem scoredRow_exactRows [LinearOrder F] (window : AttentionWindow F) {query : List F}
    {shape : KvarnShape} {block : KvarnBlock (packedCodec math)}
    {rotation : (Fin shape.headDim -> F) →ₗ[F] (Fin shape.headDim -> F)}
    (h : Rotates math shape.headDim rotation) (hshape : block.HasShape shape)
    (hquery : query.length = shape.headDim) (hkv : kvHead < shape.numKvHeads) :
    block.exactRows.map (window.scoredRow math shape.headDim kvHead query) =
      (List.range shape.group).map fun token =>
        let item := block.buffers.rotatedItem math shape.config shape.headDim kvHead window
          (math.normalizedHadamard query) token
        (item.1, rotation item.2) := by
  unfold KvarnBlock.exactRows
  rw [List.map_map, hshape.config]
  apply List.map_congr_left
  intro token _
  have hkey := headVec_exactEntry h shape.numKvHeads token
    (block.buffers.dequantizeKeyRotatedRow math shape.config shape.headDim)
    (by unfold KvarnBuffers.dequantizeKeyRotatedRow; simp) hkv
  have hvalue := headVec_exactEntry h shape.numKvHeads token
    (block.buffers.dequantizeValueRotatedRow math shape.config shape.headDim)
    (by unfold KvarnBuffers.dequantizeValueRotatedRow; simp) hkv
  unfold Function.comp KvarnBlock.exactRow
  rw [hshape.config, hshape.numKvHeads, hshape.headDim]
  show window.scored math _ (headVec shape.headDim kvHead _)
    (headVec shape.headDim kvHead _) = _
  unfold KvarnBuffers.rotatedItem AttentionWindow.scored
  dsimp only
  rw [h.vecOf_normalizedHadamard hquery, h.dot_comm]
  exact congr (congrArg (fun key value => (window.capped math
    (vecOf shape.headDim query ⬝ᵥ key * window.scale), value)) hkey) hvalue

end Decoded

end KvCache
end RunNBurn
