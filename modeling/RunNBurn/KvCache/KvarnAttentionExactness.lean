import RunNBurn.KvCache.DeviceRecords
import RunNBurn.KvCache.RealBlocks

/-!
# Exactness of the decode attention

The three regions of a view are the rows of the cache, each once, and the merged state
is the softmax of the rows that a range read of the window returns, as they are before
they are rounded to 16 bits.
-/

namespace RunNBurn
namespace KvCache

open Library
open scoped Matrix

variable {F : Type} [Field F]

/-!
# Softmax attention
-/

/-- Attention of one query over rows: the values weighed with the exponentials of their
scores.  Over no rows it is zero, as is a quotient by zero. -/
def softmaxAttention (math : KvarnMath F) (window : AttentionWindow F) (headDim kvHead : Nat)
    (query : List F) (rows : List (ExactRow F)) : List F :=
  let score (row : ExactRow F) : F :=
    window.capped math
      (vecOf headDim query ⬝ᵥ headVec headDim kvHead row.key * window.scale)
  List.ofFn fun dim : Fin headDim =>
    (rows.map fun row =>
        math.exp (score row) * headVec headDim kvHead row.value dim).sum /
      (rows.map fun row => math.exp (score row)).sum

section Softmax

variable (math : KvarnMath F) (window : AttentionWindow F) (headDim kvHead : Nat)
  (query : List F) (rows : List (ExactRow F))

theorem weightSum_scoredRow :
    weightSum math.exp 0 (rows.map (window.scoredRow math headDim kvHead query)) =
      (rows.map fun row => math.exp (window.scoredRow math headDim kvHead query row).1).sum := by
  rw [weightSum_zero, List.map_map]
  rfl

theorem weightedSum_scoredRow (dim : Fin headDim) :
    weightedSum math.exp 0 (rows.map (window.scoredRow math headDim kvHead query)) dim =
      (rows.map fun row => math.exp (window.scoredRow math headDim kvHead query row).1 *
        (window.scoredRow math headDim kvHead query row).2 dim).sum := by
  rw [weightedSum_zero_apply, List.map_map]
  rfl

theorem softmaxAttention_eq :
    softmaxAttention math window headDim kvHead query rows =
      List.ofFn ((weightSum math.exp 0 (rows.map (window.scoredRow math headDim kvHead query)))⁻¹ •
        weightedSum math.exp 0
          (rows.map (window.scoredRow math headDim kvHead query))) := by
  unfold softmaxAttention
  dsimp only
  apply congrArg
  funext dim
  rw [Pi.smul_apply, smul_eq_mul, weightSum_scoredRow, weightedSum_scoredRow, div_eq_mul_inv,
    mul_comm]
  rfl

end Softmax

variable [LinearOrder F] {math : KvarnMath F} {shape : KvarnShape}
  {cache : KvarnLayerCache (packedCodec math)} {sinkRows tailRows : List KvRow}

/-!
# The rows of a cache
-/

/-- The rows in exact arithmetic: stored rows as they are, and what the blocks decode to. -/
def KvarnLayerCache.exactRows (cache : KvarnLayerCache (packedCodec math)) :
    List (ExactRow F) :=
  let width := cache.rowWidth
  (rowsOf width (cache.sinkKey.length / width) cache.sinkKey cache.sinkValue).map
      (KvRow.exact math) ++
    cache.blocks.flatMap KvarnBlock.exactRows ++
    (rowsOf width (cache.tailKey.length / width) cache.tailKey cache.tailValue).map
      (KvRow.exact math)

omit [LinearOrder F] in
theorem length_key_div_width {rows : List KvRow} (h : UniformKv shape.width rows) :
    (kvBits rows).1.length / shape.width = rows.length := by
  rw [h.length_key]
  exact Nat.mul_div_cancel _ shape.width_pos

theorem exactRows_of_regions (h : cache.Regions shape sinkRows tailRows) :
    cache.exactRows = sinkRows.map (KvRow.exact math) ++
      cache.blocks.flatMap KvarnBlock.exactRows ++ tailRows.map (KvRow.exact math) := by
  unfold KvarnLayerCache.exactRows
  dsimp only
  rw [h.rowWidth, h.sinkKey, h.sinkValue, h.tailKey, h.tailValue,
    length_key_div_width h.sinkUniform, length_key_div_width h.tailUniform,
    rowsOf_kvBits h.sinkUniform (Nat.le_refl _), rowsOf_kvBits h.tailUniform (Nat.le_refl _),
    List.take_length, List.take_length]

theorem length_flatMap_exactRows (cache : KvarnLayerCache (packedCodec math)) :
    (cache.blocks.flatMap KvarnBlock.exactRows).length = cache.blockRows.length := by
  unfold KvarnLayerCache.blockRows
  rw [List.length_flatMap, List.length_flatMap]
  apply congrArg
  apply List.map_congr_left
  intro block _
  rw [rows_eq_rounded, List.length_map]

/-- What a read returns are the exact rows, rounded where a block was decoded. -/
theorem exactRows_roundsTo (h : cache.Regions shape sinkRows tailRows) :
    List.Forall₂ (ExactRow.RoundsTo math) cache.exactRows
      (sinkRows ++ cache.blockRows ++ tailRows) := by
  have hstored : forall rows : List KvRow,
      List.Forall₂ (ExactRow.RoundsTo math) (rows.map (KvRow.exact math)) rows := by
    intro rows
    rw [List.forall₂_map_left_iff, List.forall₂_same]
    exact fun row _ => .stored row
  have hdecoded : forall blocks : List (KvarnBlock (packedCodec math)),
      List.Forall₂ (ExactRow.RoundsTo math) (blocks.flatMap KvarnBlock.exactRows)
        (blocks.flatMap KvarnBlock.rows) := by
    intro blocks
    induction blocks with
    | nil => exact .nil
    | cons block rest ih =>
      rw [List.flatMap_cons, List.flatMap_cons, rows_eq_rounded]
      apply List.rel_append _ ih
      rw [List.forall₂_map_right_iff, List.forall₂_same]
      exact fun row _ => .decoded row
  rw [exactRows_of_regions h]
  exact List.rel_append (List.rel_append (hstored sinkRows) (hdecoded cache.blocks))
    (hstored tailRows)

/-!
# The view of a cache
-/

/-- What the view of the first `len` rows lends. -/
def regionView (shape : KvarnShape) (cache : KvarnLayerCache (packedCodec math))
    (sinkRows tailRows : List KvRow) (len : Nat) : KvarnKvView (packedCodec math) :=
  let tailStart := shape.sink + cache.blocks.length * shape.group
  { config := shape.config
    numKvHeads := shape.numKvHeads
    headDim := shape.headDim
    sinkKey := (kvBits (sinkRows.take len)).1
    sinkValue := (kvBits (sinkRows.take len)).2
    blocks := cache.blocks
    deviceLayout := shape.layout
    deviceBlocks := cache.deviceBlocks
    tailStart := tailStart
    tailKey := (kvBits (tailRows.take (len - tailStart))).1
    tailValue := (kvBits (tailRows.take (len - tailStart))).2
    len := len }

theorem view_of_regions {len : Nat} (h : cache.Regions shape sinkRows tailRows)
    (hlen : len <= cache.storedLen) :
    cache.view len = .ok (regionView shape cache sinkRows tailRows len) := by
  have hstored := h.storedLen
  have hbound := h.sinkBound
  have hsinkRows : min len shape.sink <= sinkRows.length := by
    rcases h.sink_full_or with hfull | ⟨_, hnil, htail⟩
    · rw [hfull]
      exact Nat.min_le_right _ _
    · rw [hnil, htail] at hstored
      simp at hstored
      omega
  have hsinkTake : sinkRows.take (min len shape.sink) = sinkRows.take len := by
    rw [List.take_eq_take_iff]
    omega
  have htailRows : len - (shape.sink + cache.blocks.length * shape.group) <=
      tailRows.length := by
    omega
  unfold KvarnLayerCache.view
  rw [require_of_true _ hlen]
  simp only [ok_bind]
  rw [h.rowWidth, h.sink, h.group, h.sinkKey, h.sinkValue, h.tailKey, h.tailValue,
    h.sinkUniform.slice_key_zero hsinkRows, h.sinkUniform.slice_value_zero hsinkRows,
    h.tailUniform.slice_key_zero htailRows, h.tailUniform.slice_value_zero htailRows,
    hsinkTake, h.config, h.numKvHeads, h.headDim, h.deviceLayout]
  rfl

/-!
# The quantized region
-/

variable {rotation : (Fin shape.headDim -> F) →ₗ[F] (Fin shape.headDim -> F)}
  {window : AttentionWindow F} {query : List F} {kvHead : Nat}

theorem foldl_processQuantizedBlock_tracks
    (hexp : Exponential math.exp) (hrot : Rotates math shape.headDim rotation)
    (hquery : query.length = shape.headDim) (hkv : kvHead < shape.numKvHeads)
    (blocks : List (KvarnBlock (packedCodec math)))
    (hshape : forall block, block ∈ blocks -> block.HasShape shape)
    (blockIndex : Nat) {items : List (F × (Fin shape.headDim -> F))} {state : SoftmaxState F}
    (h : state.Tracks math shape.headDim items) :
    exists more : List (F × (Fin shape.headDim -> F)),
      ((blocks.zipIdx blockIndex).foldl (fun state entry =>
          let blockStart := shape.config.sinkTokens + entry.2 * shape.config.group
          entry.1.buffers.processQuantizedBlock math entry.1.config entry.1.headDim kvHead
            window (math.normalizedHadamard query) blockStart state)
        state).Tracks math shape.headDim (items ++ more) ∧
      more.map (fun item => (item.1, rotation item.2)) =
        (Library.window window.windowStart window.kvLen (shape.sink + blockIndex * shape.group)
          (blocks.flatMap KvarnBlock.exactRows)).map
            (window.scoredRow math shape.headDim kvHead query) := by
  induction blocks generalizing blockIndex items state with
  | nil =>
    exists []
    constructor
    · rw [List.append_nil]
      exact h
    · simp [Library.window]
  | cons block rest ih =>
    have hblock := hshape block List.mem_cons_self
    have hstep := KvarnBuffers.processQuantizedBlock_tracks math shape.config shape.headDim
      block.buffers kvHead window (math.normalizedHadamard query) hexp shape.validated
      (shape.sink + blockIndex * shape.group) h
    have hrows := scoredRow_exactRows window hrot hblock hquery hkv
    rcases ih (fun other hother => hshape other (List.mem_cons_of_mem block hother))
        (blockIndex + 1) hstep with ⟨more, htracks, hmore⟩
    have hnext : shape.sink + (blockIndex + 1) * shape.group =
        shape.sink + blockIndex * shape.group + block.exactRows.length := by
      unfold KvarnBlock.exactRows
      rw [List.length_map, List.length_range, hblock.config, Nat.succ_mul, Nat.add_assoc]
      rfl
    exists (Library.window window.windowStart window.kvLen
      (shape.sink + blockIndex * shape.group) (List.range shape.group)).map
        (block.buffers.rotatedItem math shape.config shape.headDim kvHead window
          (math.normalizedHadamard query)) ++ more
    constructor
    · rw [List.zipIdx_cons, List.foldl_cons, ← List.append_assoc, hblock.config, hblock.headDim]
      exact htracks
    · rw [List.map_append, hmore, hnext, List.flatMap_cons, window_append, List.map_append,
        ← window_map _ _ _ _ block.exactRows, hrows, window_map, List.map_map]
      rfl

theorem quantizedState_tracks (window : AttentionWindow F) (len : Nat)
    (hexp : Exponential math.exp) (hrot : Rotates math shape.headDim rotation)
    (hquery : query.length = shape.headDim) (hkv : kvHead < shape.numKvHeads)
    (h : cache.Regions shape sinkRows tailRows) :
    ((regionView shape cache sinkRows tailRows len).quantizedState math window query
        kvHead).Tracks math shape.headDim
      ((Library.window window.windowStart window.kvLen (shape.sink + 0 * shape.group)
        (cache.blocks.flatMap KvarnBlock.exactRows)).map
          (window.scoredRow math shape.headDim kvHead query)) := by
  rcases foldl_processQuantizedBlock_tracks hexp hrot hquery hkv cache.blocks h.blockShape
      0 (SoftmaxState.tracks_new math shape.headDim) with ⟨more, htracks, hmore⟩
  rw [List.nil_append] at htracks
  rw [← hmore]
  unfold KvarnKvView.quantizedState regionView
  dsimp only
  split
  · rw [hrot.apply_eq _ htracks.length]
    exact htracks.map rotation
  · rename_i hinvalid
    rw [Bool.not_eq_true, htracks.valid] at hinvalid
    rw [hinvalid] at htracks ⊢
    exact htracks

/-!
# One head
-/

theorem SoftmaxState.Tracks.quotient_eq [IsStrictOrderedRing F] {n : Nat}
    {items : List (F × (Fin n -> F))} {state : SoftmaxState F}
    (h : state.Tracks math n items) (hexp : Exponential math.exp) :
    (if 0 < state.sum then
        (List.range n).map fun dim => floatAt state.numerator dim * (1 / state.sum)
      else List.replicate n 0) =
      List.ofFn ((weightSum math.exp 0 items)⁻¹ • weightedSum math.exp 0 items) := by
  rw [← h.sums.quotient hexp]
  split
  · have hlength : ((List.range n).map fun dim =>
        floatAt state.numerator dim * (1 / state.sum)).length = n := by
      rw [List.length_map, List.length_range]
    rw [← ofFn_vecOf hlength, vecOf_map_range]
    apply congrArg
    funext dim
    rw [one_div, mul_comm]
    rfl
  · rename_i hnone
    rw [h.sums.sum_pos hexp, not_not] at hnone
    have hsums := h.sums.quotient hexp
    rw [hnone, weightedSum_nil, smul_zero] at hsums
    rw [hsums, ← ofFn_vecOf (List.length_replicate), vecOf_replicate]

theorem attentionHead_eq [IsStrictOrderedRing F]
    (hexp : Exponential math.exp) (hrot : Rotates math shape.headDim rotation)
    (hquery : query.length = shape.headDim) (hkv : kvHead < shape.numKvHeads)
    (h : cache.Regions shape sinkRows tailRows) :
    (regionView shape cache sinkRows tailRows window.kvLen).attentionHead math window query
        kvHead =
      softmaxAttention math window shape.headDim kvHead query
        ((cache.exactRows.take window.kvLen).drop window.windowStart) := by
  have hsink := processF16Region_tracks window hexp hquery
    (h.sinkUniform.take window.kvLen) hkv 0
  have hblocks := quantizedState_tracks window window.kvLen hexp hrot hquery hkv h
  have htail := processF16Region_tracks window hexp hquery
    (h.tailUniform.take (window.kvLen - (shape.sink + cache.blocks.length * shape.group))) hkv
    (shape.sink + cache.blocks.length * shape.group)
  have hmerged := (hsink.merge hblocks hexp).merge htail hexp
  have hsinkWindow : Library.window window.windowStart window.kvLen 0
        ((sinkRows.map (KvRow.exact math)).take window.kvLen) =
      Library.window window.windowStart window.kvLen 0 (sinkRows.map (KvRow.exact math)) :=
    window_take window.windowStart window.kvLen 0 _
  rw [List.map_take, List.map_take, hsinkWindow, window_take, ← List.map_append,
    ← List.map_append, ← h.window_parts (List.length_map _) (length_flatMap_exactRows cache)
      (List.length_map _), ← exactRows_of_regions h] at hmerged
  rw [softmaxAttention_eq, ← hmerged.quotient_eq hexp]
  unfold KvarnKvView.attentionHead regionView
  dsimp only
  rw [show shape.numKvHeads * shape.headDim = shape.width from rfl,
    length_key_div_width (h.sinkUniform.take window.kvLen),
    length_key_div_width (h.tailUniform.take _)]

theorem KvarnKvView.attentionDecode_eq (view : KvarnKvView (packedCodec math))
    {numHeads : Nat} (hquery : query.length = numHeads * view.headDim)
    (hpos : 0 < view.numKvHeads) (hheads : numHeads % view.numKvHeads = 0)
    (scale : F) (slidingWindow : Option Nat) (softcap : Option F) :
    view.attentionDecode math query (numHeads * view.headDim) numHeads scale slidingWindow
        softcap =
      .ok ((List.range numHeads).flatMap fun head =>
        view.attentionHead math
          { kvLen := view.len
            windowStart := match slidingWindow with
              | some window => view.len - window
              | none => 0
            scale := scale
            softcap := softcap }
          ((query.drop (head * view.headDim)).take view.headDim)
          (head / (numHeads / view.numKvHeads))) := by
  unfold attentionDecode
  rw [require_of_true _ hquery, require_of_true _ (Eq.refl (numHeads * view.headDim)),
    require_of_true _ ⟨hpos, hheads⟩]
  rfl

/-!
# Whole runs
-/

namespace KvarnOp

/-- Whatever calls were made of a cache, attention over a view of it is the softmax
attention of every head over the rows that a range read of the window returns before it
rounds them. -/
theorem attentionDecode_of_callAll [IsStrictOrderedRing F]
    {config : KvarnConfig} {maxSeqLen numKvHeads headDim : Nat}
    {cache final : KvarnLayerCache (packedCodec math)} {ops : List KvarnOp}
    (hnew : KvarnLayerCache.new (packedCodec math) config maxSeqLen numKvHeads headDim = .ok cache)
    (hrun : callAll cache ops = .ok final) (hexp : Exponential math.exp)
    (hhadamard : math.normalizedHadamard = normalizedHadamardInPlace math.sqrt)
    (hsqrt : forall m, m ∈ hadamardBlockLengths headDim headDim ->
      math.sqrt (m : F) * math.sqrt (m : F) = (m : F))
    {len numHeads : Nat} {query : List F} (hlen : len <= final.storedLen)
    (hquery : query.length = numHeads * headDim) (hheads : numHeads % numKvHeads = 0)
    (scale : F) (slidingWindow : Option Nat) (softcap : Option F) :
    let windowStart := match slidingWindow with
      | some window => len - window
      | none => 0
    let window : AttentionWindow F := {
      kvLen := len
      windowStart := windowStart
      scale := scale
      softcap := softcap }
    exists view key value,
      final.view len = .ok view ∧
      final.materializeRange windowStart len = .ok (key, value) ∧
      List.Forall₂ (ExactRow.RoundsTo math) ((final.exactRows.take len).drop windowStart)
        (rowsOf (numKvHeads * headDim) (len - windowStart) key value) ∧
      view.attentionDecode math query (numHeads * headDim) numHeads scale slidingWindow
          softcap =
        .ok ((List.range numHeads).flatMap fun head =>
          softmaxAttention math window headDim (head / (numHeads / numKvHeads))
            ((query.drop (head * headDim)).take headDim)
            ((final.exactRows.take len).drop windowStart)) := by
  intro windowStart window
  rcases exists_rotates math hhadamard headDim hsqrt with ⟨rotation, hrot⟩
  have hrep := callAll_represents_of_ok (KvarnLayerCache.new_represents hnew) hrun
  have hstart : windowStart <= len := by
    show (match slidingWindow with
      | some window => len - window
      | none => 0) <= len
    cases slidingWindow with
    | none => exact Nat.zero_le _
    | some size => exact Nat.sub_le _ _
  have hread := hrep.materializeRange hstart (hrep.storedLen ▸ hlen)
  have huniform := (hrep.uniform.take len).drop windowStart
  have hstored := hrep.storedLen
  rcases hrep with ⟨sinkRows, tailRows, hregions, hrows, _⟩
  have hpos : 0 < numKvHeads :=
    (KvarnDeviceRecordLayout.facts_of_new_eq_ok
      (KvarnLayerCache.shapeOfNew hnew).accepted).right.left
  have hcount : len - windowStart =
      (((ops.foldl (onStore (packedCodec math) (KvarnLayerCache.shapeOfNew hnew))
        GroupedRows.empty).rows.take len).drop windowStart).length := by
    rw [List.length_drop, List.length_take, ← hstored, Nat.min_eq_left hlen]
  have hmaterialized := rowsOf_kvBits huniform (Nat.le_of_eq hcount)
  rw [hcount, List.take_length, hrows] at hmaterialized
  rw [hrows] at hread
  have hrounds := List.forall₂_drop windowStart
    (List.forall₂_take len (exactRows_roundsTo hregions))
  refine Exists.intro _ (Exists.intro _ (Exists.intro _
    ⟨view_of_regions hregions hlen, hread, ?_, ?_⟩))
  · change rowsOf (numKvHeads * headDim) _ (List.flatMap KvRow.key _)
      (List.flatMap KvRow.value _) = _ at hmaterialized
    rw [hcount, hrows, hmaterialized]
    exact hrounds
  apply (KvarnKvView.attentionDecode_eq _ hquery hpos hheads scale slidingWindow softcap).trans
  apply congrArg Except.ok
  apply List.flatMap_congr
  intro head hhead
  have hlt : head < numHeads := List.mem_range.mp hhead
  have hpart : ((query.drop (head * headDim)).take headDim).length = headDim := by
    have hend := Nat.mul_le_mul_right headDim (Nat.succ_le_of_lt hlt)
    rw [Nat.succ_mul, ← hquery] at hend
    rw [List.length_take, List.length_drop]
    omega
  have hkv : head / (numHeads / numKvHeads) < numKvHeads := by
    apply Nat.div_lt_of_lt_mul
    rw [Nat.div_mul_cancel (Nat.dvd_of_mod_eq_zero hheads)]
    exact hlt
  exact attentionHead_eq hexp hrot hpart hkv hregions

/-!
## Over the reals
-/

section Reals

def realConfig : KvarnConfig :=
  { KvarnConfig.k4V2G64 with sinkTokens := 1 }

noncomputable def realCache : KvarnLayerCache (packedCodec realMath) where
  config := realConfig
  numKvHeads := 1
  headDim := 4
  maxSeqLen := 66
  sinkKey := []
  sinkValue := []
  blocks := []
  tailKey := []
  tailValue := []
  deviceLayout := freshCache.deviceLayout
  deviceBlocks := []
  storedLen := 0

theorem new_eq_realCache :
    KvarnLayerCache.new (packedCodec realMath) realConfig 66 1 4 = .ok realCache := by
  have hlayout : KvarnDeviceRecordLayout.new realConfig 1 4 = .ok realCache.deviceLayout := by
    decide
  have hvalid : realConfig.validate 4 = .ok () := by
    decide
  unfold KvarnLayerCache.new
  rw [hvalid, hlayout]
  rfl

/-- Rows whose entries differ from each other and from row to row. -/
def realRows : List KvRow :=
  (List.range 66).map fun i =>
    { key := [0x3C00 + UInt16.ofNat i, 0xC000, 0x4200 - UInt16.ofNat (2 * i), 0x3800]
      value := [0x4400 - UInt16.ofNat i, 0x3C00, 0xB800 + UInt16.ofNat (3 * i), 0xC200] }

theorem callAll_realCache :
    exists final, callAll realCache
        [writeBitsRange 0 66 (kvBits realRows).1 (kvBits realRows).2, compact] = .ok final ∧
      final.storedLen = 66 ∧ final.blocks.length = 1 := by
  have hwrite : RespectsMaxSeqLen (1 * 4) 66
      (writeBitsRange 0 66 (kvBits realRows).1 (kvBits realRows).2) := by
    exact ⟨Nat.le_refl 66, ⟨(by decide +kernel), (by decide +kernel)⟩⟩
  rcases call_represents (KvarnLayerCache.new_represents new_eq_realCache) hwrite with
    ⟨filled, hfilled, hrep⟩
  have hstored : filled.storedLen = 66 := by
    rw [hrep.storedLen]
    decide
  rcases hrep with ⟨sinkRows, tailRows, hregions, hrows, hgroups⟩
  have hblocks : filled.blocks = [] := by
    apply List.eq_nil_of_length_eq_zero
    rw [← hgroups]
    decide
  have hwritten : (onStore (packedCodec realMath) (KvarnLayerCache.shapeOfNew new_eq_realCache)
      GroupedRows.empty
      (writeBitsRange 0 66 (kvBits realRows).1 (kvBits realRows).2)).rows = realRows := by
    decide
  have hsink : sinkRows.length = 1 := by
    apply hregions.sink_full_of_lt
    rw [hstored]
    decide
  have htail : tailRows = realRows.drop 1 := by
    rw [hwritten] at hrows
    unfold KvarnLayerCache.blockRows at hrows
    rw [hblocks] at hrows
    rw [hrows, ← hsink, List.flatMap_nil, List.append_nil, List.drop_left]
  have hlength : tailRows.length = 65 := by
    rw [htail]
    rfl
  have hcompact := KvarnLayerCache.compact_eq hregions
    (by rw [hstored]; decide) (by rw [hlength]; decide)
  rw [hlength] at hcompact
  have hrun : callAll realCache
      [writeBitsRange 0 66 (kvBits realRows).1 (kvBits realRows).2, compact] =
        filled.compact := by
    show (do
      let next <- call realCache _
      callAll next [compact]) = _
    rw [hfilled]
    show (call filled compact >>= pure) = _
    rw [bind_pure]
    rfl
  rw [hcompact] at hrun
  refine Exists.intro _ ⟨hrun, hstored, ?_⟩
  show (filled.blocks ++ _).length = 1
  rw [hblocks]
  rfl

/-- A head weighs the last rows of the block with the row behind it. -/
theorem attentionDecode_of_callAll_group :
    exists final view key value, callAll realCache
        [writeBitsRange 0 66 (kvBits realRows).1 (kvBits realRows).2, compact] = .ok final ∧
      final.blocks.length = 1 ∧ final.view 66 = .ok view ∧
      final.materializeRange 63 66 = .ok (key, value) ∧
      List.Forall₂ (ExactRow.RoundsTo realMath) ((final.exactRows.take 66).drop 63)
        (rowsOf 4 3 key value) ∧
      view.attentionDecode realMath [1, 2, 3, 4] 4 1 (1 / 2) (some 3) none =
        .ok (softmaxAttention realMath
          { kvLen := 66
            windowStart := 63
            scale := 1 / 2
            softcap := none } 4 0 [1, 2, 3, 4] ((final.exactRows.take 66).drop 63)) := by
  rcases callAll_realCache with ⟨final, hrun, hstored, hblocks⟩
  have hlen : 66 <= final.storedLen := Nat.le_of_eq hstored.symm
  have hquery : ([1, 2, 3, 4] : List ℝ).length = 1 * 4 := rfl
  rcases attentionDecode_of_callAll new_eq_realCache hrun exponential_exp rfl
      (fun m _ => sqrt_mul_self m) hlen hquery rfl (1 / 2) (some 3) none with
    ⟨view, key, value, hview, hread, hrounds, hattention⟩
  refine ⟨final, view, key, value, hrun, hblocks, hview, hread, hrounds, ?_⟩
  have hone : List.range 1 = [0] := rfl
  rw [hone, List.flatMap_singleton] at hattention
  exact hattention

end Reals

end KvarnOp

end KvCache
end RunNBurn
