import Mathlib.Data.Rat.Floor
import RunNBurn.KvCache.KvarnQuantize
import RunNBurn.KvCache.KvarnRefinement

/-!
# Device records

The flat buffer of device records follows the blocks of the cache: every call
that changes the blocks changes the buffer with them.
-/

namespace RunNBurn
namespace KvCache

open Library

/-!
# Sizes of the buffers of a block
-/

section Sizes

variable {F : Type} [Zero F] [One F] [NatCast F] [Add F] [Neg F] [Sub F] [Mul F] [Div F]
  [Min F] [Max F] [LE F] [DecidableLE F]

/-- A tile whose scales have one entry for each row and each column. -/
structure BalancedTile.HasSize (rows columns : Nat) (tile : BalancedTile F) : Prop where
  rowCount : tile.rows = rows
  columnCount : tile.columns = columns
  columnScale : tile.columnScale.length = columns

variable (math : KvarnMath F)

theorem balanceRound_columnScale (tile : List F) {rows columns : Nat} {state : BalanceState F}
    (h : state.bestColumnScale.length = columns) :
    (balanceRound math tile rows columns state).bestColumnScale.length = columns := by
  unfold balanceRound
  dsimp only
  split
  · simp [stepLogScale]
  · exact h

theorem varianceNormalize_hasSize (tile : List F) (rows columns iterations : Nat) :
    (varianceNormalize math tile rows columns iterations).HasSize rows columns where
  rowCount := rfl
  columnCount := rfl
  columnScale := by
    have hrounds : forall (rounds : List Nat) (state : BalanceState F),
        state.bestColumnScale.length = columns ->
        (rounds.foldl (fun state _ => balanceRound math tile rows columns state)
          state).bestColumnScale.length = columns := by
      intro rounds
      induction rounds with
      | nil =>
        intro state hstate
        exact hstate
      | cons round rest ih =>
        intro state hstate
        exact ih _ (balanceRound_columnScale math tile hstate)
    exact hrounds _ _ (by simp)

structure KvarnBuffers.HasSizes (config : KvarnConfig) (numKvHeads headDim : Nat)
    (block : KvarnBuffers) : Prop where
  keyPacked : block.keyPacked.length =
    numKvHeads * (headDim * (config.group / (8 / config.keyBits)))
  keyScale : block.keyScale.length = numKvHeads * headDim
  keyZero : block.keyZero.length = numKvHeads * headDim
  keyTokenScale : block.keyTokenScale.length = numKvHeads * config.group
  valuePacked : block.valuePacked.length =
    numKvHeads * (config.group * (headDim / (8 / config.valueBits)))
  valueChannelScale : block.valueChannelScale.length = numKvHeads * headDim
  valueTokenScale : block.valueTokenScale.length = numKvHeads * config.group
  valueZero : block.valueZero.length = numKvHeads * config.group

omit [Add F] [Neg F] [LE F] [DecidableLE F] in
theorem length_packedRows {tile : BalancedTile F} {rows columns : Nat} (bits : Nat)
    (h : tile.HasSize rows columns) :
    (packedRows math tile bits).length = rows * (columns / (8 / bits)) := by
  have huniform : UniformRows
      (fun row => packRow math (rowValues tile row) (rowScales math tile bits row).minimum
        (rowScales math tile bits row).scale bits)
      (columns / (8 / bits)) (List.range tile.rows) := by
    intro row _
    simp [packRow, rowValues, h.columnCount]
  rw [← h.rowCount, ← List.length_range (n := tile.rows)]
  exact length_flatMap_of_uniformRows huniform

theorem quantizeHead_hasSizes {config : KvarnConfig} (numKvHeads : Nat) {headDim heads : Nat}
    (keyF16 valueF16 : List UInt16) (head : Nat) {block : KvarnBuffers}
    (h : block.HasSizes config heads headDim) :
    (quantizeHead math config numKvHeads headDim keyF16 valueF16 block head).HasSizes
      config (heads + 1) headDim := by
  have hkey := varianceNormalize_hasSize math
    (keyRotated math keyF16 config.group (numKvHeads * headDim) headDim head)
    headDim config.group config.sinkhornIterations
  have hvalue := varianceNormalize_hasSize math
    (valueRotated math valueF16 config.group (numKvHeads * headDim) headDim head)
    config.group headDim config.sinkhornIterations
  simp only [quantizeHead, quantizeValueHead, quantizeKeyHead]
  constructor
  · rw [List.length_append, h.keyPacked, length_packedRows math _ hkey, Nat.succ_mul]
  · simp [absorbedScales, h.keyScale, hkey.rowCount, Nat.succ_mul]
  · simp [absorbedZeros, h.keyZero, hkey.rowCount, Nat.succ_mul]
  · rw [List.length_append, h.keyTokenScale, List.length_map, hkey.columnScale, Nat.succ_mul]
  · rw [List.length_append, h.valuePacked, length_packedRows math _ hvalue, Nat.succ_mul]
  · rw [List.length_append, h.valueChannelScale, List.length_map, hvalue.columnScale, Nat.succ_mul]
  · simp [absorbedScales, h.valueTokenScale, hvalue.rowCount, Nat.succ_mul]
  · simp [absorbedZeros, h.valueZero, hvalue.rowCount, Nat.succ_mul]

theorem quantize_hasSizes (config : KvarnConfig) (numKvHeads headDim : Nat)
    (keyF16 valueF16 : List UInt16) :
    (KvarnBuffers.quantize math config numKvHeads headDim keyF16 valueF16).HasSizes
      config numKvHeads headDim := by
  have hheads : forall heads,
      ((List.range heads).foldl (quantizeHead math config numKvHeads headDim keyF16 valueF16)
        KvarnBuffers.empty).HasSizes config heads headDim := by
    intro heads
    induction heads with
    | zero => constructor <;> simp [KvarnBuffers.empty]
    | succ heads ih =>
      rw [List.range_succ, List.foldl_append]
      exact quantizeHead_hasSizes math numKvHeads keyF16 valueF16 heads ih
  exact hheads numKvHeads

end Sizes

/-!
# The layout and the writer
-/

namespace KvarnDeviceRecordLayout

variable {alpha : Type}

def spans (layout : KvarnDeviceRecordLayout) : List (Nat × Nat) :=
  [(layout.keyPackedOffset, layout.keyScaleOffset), (layout.keyScaleOffset, layout.keyZeroOffset),
    (layout.keyZeroOffset, layout.keyTokenScaleOffset),
    (layout.keyTokenScaleOffset, layout.valuePackedOffset),
    (layout.valuePackedOffset, layout.valueChannelScaleOffset),
    (layout.valueChannelScaleOffset, layout.valueTokenScaleOffset),
    (layout.valueTokenScaleOffset, layout.valueZeroOffset),
    (layout.valueZeroOffset, layout.blockBytes)]

def fieldSizes (config : KvarnConfig) (numKvHeads headDim : Nat) : List Nat :=
  [numKvHeads * headDim * config.group / (8 / config.keyBits), numKvHeads * headDim * 2,
    numKvHeads * headDim * 2, numKvHeads * config.group * 2,
    numKvHeads * config.group * headDim / (8 / config.valueBits), numKvHeads * headDim * 2,
    numKvHeads * config.group * 2, numKvHeads * config.group * 2]

theorem takeDeviceRecordField_bind_eq_ok
    {cursor bytes : Nat} {next : Nat × Nat -> Checked alpha} {result : alpha}
    (h : (takeDeviceRecordField cursor bytes >>= next) = .ok result) :
    next (cursor, cursor + bytes) = .ok result := by
  rcases bind_eq_ok h with ⟨taken, htaken, hrest⟩
  rcases bind_eq_ok htaken with ⟨moved, hmoved, hpair⟩
  unfold checkedAdd at hmoved
  split at hmoved
  · cases hmoved
    cases hpair
    exact hrest
  · cases hmoved

theorem spans_of_new_eq_ok
    {config : KvarnConfig} {numKvHeads headDim : Nat} {layout : KvarnDeviceRecordLayout}
    (h : new config numKvHeads headDim = .ok layout) :
    layout.spans = spansFrom 0 (fieldSizes config numKvHeads headDim) ∧
      layout.blockBytes = (fieldSizes config numKvHeads headDim).sum := by
  rcases bind_eq_ok h with ⟨valid, _, hheads⟩
  split at hheads
  · cases hheads
  · have hchannels := (checkedMul_bind_eq_ok hheads).right
    have htokenRows := (checkedMul_bind_eq_ok hchannels).right
    have hkey := (checkedMul_bind_eq_ok htokenRows).right
    have hvalue := (checkedMul_bind_eq_ok hkey).right
    have hchannelScale := (checkedMul_bind_eq_ok hvalue).right
    have htokenScale := (checkedMul_bind_eq_ok hchannelScale).right
    have hfields := takeDeviceRecordField_bind_eq_ok
      (takeDeviceRecordField_bind_eq_ok (takeDeviceRecordField_bind_eq_ok
        (takeDeviceRecordField_bind_eq_ok (takeDeviceRecordField_bind_eq_ok
          (takeDeviceRecordField_bind_eq_ok (takeDeviceRecordField_bind_eq_ok
            (takeDeviceRecordField_bind_eq_ok htokenScale)))))))
    cases hfields
    constructor
    · rfl
    · simp [fieldSizes, Nat.add_assoc]

end KvarnDeviceRecordLayout

namespace KvarnBuffers

def fields (block : KvarnBuffers) : List (List UInt8) :=
  [block.keyPacked, appendU16Le [] block.keyScale, appendU16Le [] block.keyZero,
    appendU16Le [] block.keyTokenScale, block.valuePacked, appendU16Le [] block.valueChannelScale,
    appendU16Le [] block.valueTokenScale, appendU16Le [] block.valueZero]

theorem appendDeviceRecord_eq (block : KvarnBuffers) (output : List UInt8) :
    block.appendDeviceRecord output = output ++ block.fields.flatten := by
  simp [appendDeviceRecord, fields, appendU16Le]

theorem record_eq (block : KvarnBuffers) : block.record = block.fields.flatten := by
  rw [record, appendDeviceRecord_eq, List.nil_append]

theorem length_appendU16Le (values : List UInt16) :
    (appendU16Le [] values).length = values.length * 2 := by
  have huniform : UniformRows (fun value : UInt16 => leBytes 2 value.toNat) 2 values := by
    intro value _
    exact leBytes_length 2 value.toNat
  rw [appendU16Le, List.nil_append, length_flatMap_of_uniformRows huniform]

theorem HasSizes.fields
    {config : KvarnConfig} {numKvHeads headDim : Nat} {block : KvarnBuffers}
    (h : block.HasSizes config numKvHeads headDim) (hvalid : config.validate headDim = .ok ()) :
    block.fields.map List.length =
      KvarnDeviceRecordLayout.fieldSizes config numKvHeads headDim := by
  rcases (KvarnConfig.validate_eq_ok_iff config headDim).mp hvalid with
    ⟨hkeyBits, hvalueBits, hgroup, _, hheadDim, _⟩
  -- Packing divides a row of codes, the layout divides the whole tile.
  have hkeyPack : 8 / config.keyBits ∣ config.group := by
    rw [hkeyBits]
    omega
  have hvaluePack : 8 / config.valueBits ∣ headDim := by
    rcases hvalueBits with hbits | hbits
    · rw [hbits]
      omega
    · rw [hbits]
      omega
  have hkeyPacked : block.keyPacked.length =
      numKvHeads * headDim * config.group / (8 / config.keyBits) := by
    rw [h.keyPacked, Nat.mul_div_assoc _ hkeyPack, Nat.mul_assoc]
  have hvaluePacked : block.valuePacked.length =
      numKvHeads * config.group * headDim / (8 / config.valueBits) := by
    rw [h.valuePacked, Nat.mul_div_assoc _ hvaluePack, Nat.mul_assoc]
  simp only [KvarnBuffers.fields, KvarnDeviceRecordLayout.fieldSizes, List.map_cons,
    List.map_nil, length_appendU16Le, hkeyPacked, h.keyScale, h.keyZero, h.keyTokenScale,
    hvaluePacked, h.valueChannelScale, h.valueTokenScale, h.valueZero]

end KvarnBuffers

/-!
# The buffer and the blocks
-/

namespace KvarnLayerCache

variable {codec : KvarnCodec} {shape : KvarnShape} {cache : KvarnLayerCache codec}

def FromQuantizer (shape : KvarnShape) (block : KvarnBlock codec) : Prop :=
  block.HasShape shape ∧ exists key value, block.payload =
    codec.encode shape.config shape.numKvHeads shape.headDim key value

/-- The cache has the shape, its blocks come from the quantizer, and the device
records are theirs. -/
structure HoldsRecords (shape : KvarnShape) (cache : KvarnLayerCache codec) : Prop where
  config : cache.config = shape.config
  numKvHeads : cache.numKvHeads = shape.numKvHeads
  headDim : cache.headDim = shape.headDim
  deviceLayout : cache.deviceLayout = shape.layout
  blocks : forall block, block ∈ cache.blocks -> FromQuantizer shape block
  deviceBlocks : cache.deviceBlocks =
    cache.blocks.flatMap (fun block => block.deviceRecord shape.layout.blockBytes)

namespace HoldsRecords

theorem of_same_blocks {next : KvarnLayerCache codec} (h : cache.HoldsRecords shape)
    (hconfig : next.config = cache.config) (hheads : next.numKvHeads = cache.numKvHeads)
    (hheadDim : next.headDim = cache.headDim) (hlayout : next.deviceLayout = cache.deviceLayout)
    (hblocks : next.blocks = cache.blocks) (hdevice : next.deviceBlocks = cache.deviceBlocks) :
    next.HoldsRecords shape where
  config := hconfig.trans h.config
  numKvHeads := hheads.trans h.numKvHeads
  headDim := hheadDim.trans h.headDim
  deviceLayout := hlayout.trans h.deviceLayout
  blocks := by
    rw [hblocks]
    exact h.blocks
  deviceBlocks := by
    rw [hdevice, hblocks]
    exact h.deviceBlocks

theorem take_blocks {next : KvarnLayerCache codec} (h : cache.HoldsRecords shape) (n : Nat)
    (hconfig : next.config = cache.config) (hheads : next.numKvHeads = cache.numKvHeads)
    (hheadDim : next.headDim = cache.headDim) (hlayout : next.deviceLayout = cache.deviceLayout)
    (hblocks : next.blocks = cache.blocks.take n) (hdevice : next.deviceBlocks =
      cache.deviceBlocks.take (n * cache.deviceLayout.blockBytes)) :
    next.HoldsRecords shape where
  config := hconfig.trans h.config
  numKvHeads := hheads.trans h.numKvHeads
  headDim := hheadDim.trans h.headDim
  deviceLayout := hlayout.trans h.deviceLayout
  blocks := by
    intro block hblock
    rw [hblocks] at hblock
    exact h.blocks block (List.mem_of_mem_take hblock)
  deviceBlocks := by
    have huniform : UniformRows
        (fun block : KvarnBlock codec => block.deviceRecord shape.layout.blockBytes)
        shape.layout.blockBytes cache.blocks := by
      intro block _
      exact KvarnBlock.length_deviceRecord block _
    rw [hdevice, hblocks, h.deviceLayout, h.deviceBlocks]
    exact take_flatMap_of_uniformRows huniform n

end HoldsRecords

theorem appendRow_holds_records (key value : List UInt16) (h : cache.HoldsRecords shape) :
    Returns (cache.appendRow key value) (HoldsRecords shape) := by
  intro next hnext
  rcases bind_eq_ok hnext with ⟨_, _, hrest⟩
  split at hrest
  · cases hrest
    exact h.of_same_blocks rfl rfl rfl rfl rfl rfl
  · cases hrest
    exact h.of_same_blocks rfl rfl rfl rfl rfl rfl

theorem truncateIntoBlocks_holds_records (len : Nat) (h : cache.HoldsRecords shape) :
    Returns (cache.truncateIntoBlocks len) (HoldsRecords shape) := by
  intro next hnext
  unfold truncateIntoBlocks at hnext
  dsimp only at hnext
  split at hnext
  · rcases bind_eq_ok hnext with ⟨block, _, hnext⟩
    rcases bind_eq_ok hnext with ⟨key, _, hnext⟩
    rcases bind_eq_ok hnext with ⟨value, _, hnext⟩
    cases hnext
    exact h.take_blocks _ rfl rfl rfl rfl rfl rfl
  · cases hnext
    exact h.take_blocks _ rfl rfl rfl rfl rfl rfl

theorem truncateTo_holds_records (requested : Nat) (h : cache.HoldsRecords shape) :
    Returns (cache.truncateTo requested) (HoldsRecords shape) := by
  unfold truncateTo
  dsimp only
  split
  · apply returns_ok
    exact h.take_blocks 0 rfl rfl rfl rfl rfl (by simp)
  · split
    · exact truncateIntoBlocks_holds_records _ h
    · apply returns_ok
      exact h.of_same_blocks rfl rfl rfl rfl rfl rfl

theorem writeBitsRange_holds_records (posStart len : Nat) (key value : List UInt16)
    (h : cache.HoldsRecords shape) :
    Returns (cache.writeBitsRange posStart len key value) (HoldsRecords shape) := by
  have hfill : forall cut : KvarnLayerCache codec, cut.HoldsRecords shape ->
      Returns (do
        let zero := List.replicate cache.rowWidth (0 : UInt16)
        let padded <-
          forRange (fun _ (current : KvarnLayerCache codec) =>
            current.appendRow zero zero) (posStart - cut.storedLen) cut
        forRange (fun row (current : KvarnLayerCache codec) => do
          let offset := row * cache.rowWidth
          let keyRow <- slice key offset (offset + cache.rowWidth)
          let valueRow <- slice value offset (offset + cache.rowWidth)
          current.appendRow keyRow valueRow) len padded)
        (HoldsRecords shape) := by
    intro cut hcut
    have hpad := forRange_returns (fun _ => HoldsRecords shape) hcut
      (fun i (_ : i < posStart - cut.storedLen) _ hcurrent =>
        appendRow_holds_records (List.replicate cache.rowWidth 0)
          (List.replicate cache.rowWidth 0) hcurrent)
    refine hpad.bind ?_
    intro padded hpadded
    refine forRange_returns (fun _ => HoldsRecords shape) hpadded ?_
    intro row _ current hcurrent next hnext
    rcases bind_eq_ok hnext with ⟨keyRow, _, hnext⟩
    rcases bind_eq_ok hnext with ⟨valueRow, _, hnext⟩
    exact appendRow_holds_records keyRow valueRow hcurrent next hnext
  intro next hnext
  rcases bind_eq_ok hnext with ⟨_, _, hnext⟩
  rcases bind_eq_ok hnext with ⟨_, _, hnext⟩
  split at hnext
  · exact (truncateTo_holds_records posStart h).bind hfill next hnext
  · exact hfill cache h next hnext

theorem writeBitsUpTo_holds_records (len : Nat) (key value : List UInt16)
    (h : cache.HoldsRecords shape) :
    Returns (cache.writeBitsUpTo len key value) (HoldsRecords shape) :=
  (truncateTo_holds_records 0 h).bind
    (fun _ hcleared => writeBitsRange_holds_records 0 len key value hcleared)

/-!
## Compaction
-/

theorem quantizeGroup_fromQuantizer (start stop : Nat) (h : cache.HoldsRecords shape) :
    Returns (cache.quantizeGroup start stop) (FromQuantizer shape) := by
  intro block hblock
  rcases bind_eq_ok hblock with ⟨key, _, hblock⟩
  rcases bind_eq_ok hblock with ⟨value, _, hblock⟩
  rcases bind_eq_ok hblock with ⟨_, _, hblock⟩
  rcases bind_eq_ok hblock with ⟨_, _, hblock⟩
  rcases bind_eq_ok hblock with ⟨_, _, hblock⟩
  split at hblock
  · cases hblock
  · cases hblock
    rw [h.config, h.numKvHeads, h.headDim]
    exact ⟨KvarnBlock.HasShape.mk rfl rfl rfl, ⟨key, value, rfl⟩⟩

theorem pushBlock_holds_records {block : KvarnBlock codec}
    (hblock : FromQuantizer shape block) (h : cache.HoldsRecords shape) :
    Returns (cache.pushBlock block) (HoldsRecords shape) := by
  have hshape := hblock.left
  have hlayout : KvarnDeviceRecordLayout.new block.config block.numKvHeads block.headDim =
      .ok shape.layout := by
    rw [hshape.config, hshape.numKvHeads, hshape.headDim]
    exact shape.accepted
  have hpush : cache.pushBlock block = .ok { cache with
      deviceBlocks := cache.deviceBlocks ++ block.deviceRecord shape.layout.blockBytes
      blocks := cache.blocks ++ [block] } := by
    unfold pushBlock KvarnBlock.appendDeviceRecord
    rw [hlayout]
    rfl
  rw [hpush]
  apply returns_ok
  constructor
  · exact h.config
  · exact h.numKvHeads
  · exact h.headDim
  · exact h.deviceLayout
  · intro other hother
    rcases List.mem_append.mp hother with hheld | hnew
    · exact h.blocks other hheld
    · rw [List.mem_singleton.mp hnew]
      exact hblock
  · simp [h.deviceBlocks]

theorem compact_holds_records (h : cache.HoldsRecords shape) :
    Returns cache.compact (HoldsRecords shape) := by
  have hfinish : forall (pushed : KvarnLayerCache codec) (consumed : Nat),
      pushed.HoldsRecords shape ->
      Returns (do
        let tailKey <- splitOff pushed.tailKey consumed
        let tailValue <- splitOff pushed.tailValue consumed
        return { pushed with tailKey := tailKey, tailValue := tailValue })
        (HoldsRecords shape) := by
    intro pushed consumed hpushed next hnext
    rcases bind_eq_ok hnext with ⟨tailKey, _, hnext⟩
    rcases bind_eq_ok hnext with ⟨tailValue, _, hnext⟩
    cases hnext
    exact hpushed.of_same_blocks rfl rfl rfl rfl rfl rfl
  intro next hnext
  unfold compact at hnext
  dsimp only at hnext
  split at hnext
  · cases hnext
    exact h
  · rcases bind_eq_ok hnext with ⟨fullBlocks, _, hnext⟩
    split at hnext
    · cases hnext
      exact h
    · split at hnext
      · rcases bind_eq_ok hnext with ⟨block, hblock, hnext⟩
        rcases bind_eq_ok hnext with ⟨pushed, hpushed, hnext⟩
        have hmade := quantizeGroup_fromQuantizer _ _ h block hblock
        exact hfinish pushed _ (pushBlock_holds_records hmade h pushed hpushed) next hnext
      · rcases bind_eq_ok hnext with ⟨blocks, hblocks, hnext⟩
        rcases bind_eq_ok hnext with ⟨pushed, hpushed, hnext⟩
        have hmade : forall block, block ∈ blocks -> FromQuantizer shape block := by
          intro block hblock
          have hgroups := (mapM_returns _ _ blocks hblocks).flip
          rcases exists_of_mem_of_forall₂ hgroups hblock with ⟨i, _, hgroup⟩
          exact quantizeGroup_fromQuantizer _ _ h block hgroup
        have hholds : pushed.HoldsRecords shape :=
          foldlM_returns (HoldsRecords shape) h
            (fun block hblock _ hcurrent =>
              pushBlock_holds_records (hmade block hblock) hcurrent) pushed hpushed
        exact hfinish pushed _ hholds next hnext

theorem new_holds_records
    {config : KvarnConfig} {maxSeqLen numKvHeads headDim : Nat}
    (h : new codec config maxSeqLen numKvHeads headDim = .ok cache) :
    cache.HoldsRecords (shapeOfNew h) := by
  have hcache := h
  rcases bind_eq_ok hcache with ⟨valid, _, hrest⟩
  rcases bind_eq_ok hrest with ⟨layout, _, hnew⟩
  cases hnew
  exact {
    config := rfl
    numKvHeads := rfl
    headDim := rfl
    deviceLayout := rfl
    blocks := by
      intro block hblock
      cases hblock
    deviceBlocks := rfl }

end KvarnLayerCache

/-!
# Runs
-/

namespace KvarnOp

variable {codec : KvarnCodec} {shape : KvarnShape} {cache : KvarnLayerCache codec}

theorem call_holds_records (op : KvarnOp) (h : cache.HoldsRecords shape) :
    Returns (op.call cache) (KvarnLayerCache.HoldsRecords shape) := by
  cases op with
  | writeBitsRange posStart len key value =>
    exact KvarnLayerCache.writeBitsRange_holds_records posStart len key value h
  | writeBitsUpTo len key value => exact KvarnLayerCache.writeBitsUpTo_holds_records len key value h
  | compact => exact KvarnLayerCache.compact_holds_records h
  | truncateTo len => exact KvarnLayerCache.truncateTo_holds_records len h

theorem callAll_holds_records (ops : List KvarnOp) (h : cache.HoldsRecords shape) :
    Returns (callAll cache ops) (KvarnLayerCache.HoldsRecords shape) :=
  foldlM_returns (KvarnLayerCache.HoldsRecords shape) h
    (fun op _ _ hcurrent => call_holds_records op hcurrent)

section Packed

variable {F : Type} [Zero F] [One F] [NatCast F] [Add F] [Neg F] [Sub F] [Mul F] [Div F]
  [Min F] [Max F] [LE F] [DecidableLE F] {math : KvarnMath F}
  {block : KvarnBlock (packedCodec math)}

theorem fieldSizes_of_fromQuantizer (h : KvarnLayerCache.FromQuantizer shape block) :
    block.buffers.fields.map List.length =
      KvarnDeviceRecordLayout.fieldSizes shape.config shape.numKvHeads shape.headDim := by
  rcases h.right with ⟨key, value, hpayload⟩
  have hsizes := quantize_hasSizes math shape.config shape.numKvHeads shape.headDim key value
  have hbuffers : block.buffers = KvarnBuffers.quantize math shape.config shape.numKvHeads
      shape.headDim key value := hpayload
  rw [hbuffers]
  exact hsizes.fields shape.validated

theorem deviceRecord_eq (h : KvarnLayerCache.FromQuantizer shape block) :
    block.deviceRecord shape.layout.blockBytes = block.buffers.record := by
  have hlength : block.buffers.record.length = shape.layout.blockBytes := by
    rw [KvarnBuffers.record_eq, List.length_flatten, fieldSizes_of_fromQuantizer h,
      (KvarnDeviceRecordLayout.spans_of_new_eq_ok shape.accepted).right]
  have hrecord : block.deviceRecord shape.layout.blockBytes =
      (List.range block.buffers.record.length).map
        (fun i => block.buffers.record.getD i 0) := by
    rw [hlength]
    rfl
  rw [hrecord]
  apply List.ext_getElem
  · simp
  · intro i hi hbyte
    simp [List.getElem?_eq_getElem hbyte]

theorem deviceBlocks_eq {cache : KvarnLayerCache (packedCodec math)}
    (h : cache.HoldsRecords shape) :
    cache.deviceBlocks = cache.blocks.flatMap fun block => block.buffers.fields.flatten := by
  rw [h.deviceBlocks]
  apply List.flatMap_congr
  intro block hblock
  rw [deviceRecord_eq (h.blocks block hblock), KvarnBuffers.record_eq]

theorem foldl_appendDeviceRecord (blocks : List (KvarnBlock (packedCodec math)))
    (output : List UInt8) :
    blocks.foldl (fun output block => block.buffers.appendDeviceRecord output) output =
      output ++ blocks.flatMap fun block => block.buffers.fields.flatten := by
  induction blocks generalizing output with
  | nil => simp
  | cons block rest ih =>
    rw [List.foldl_cons, ih, KvarnBuffers.appendDeviceRecord_eq, List.flatMap_cons,
      List.append_assoc]

theorem foldlM_appendDeviceRecord {blocks : List (KvarnBlock codec)}
    (hblocks : forall block, block ∈ blocks -> block.HasShape shape) (output : List UInt8) :
    blocks.foldlM (fun output block => block.appendDeviceRecord output) output =
      .ok (output ++ blocks.flatMap
        (fun block => block.deviceRecord shape.layout.blockBytes)) := by
  induction blocks generalizing output with
  | nil =>
    simp
    rfl
  | cons block rest ih =>
    have hshape := hblocks block List.mem_cons_self
    have hlayout : KvarnDeviceRecordLayout.new block.config block.numKvHeads
        block.headDim = .ok shape.layout := by
      rw [hshape.config, hshape.numKvHeads, hshape.headDim]
      exact shape.accepted
    have happend : block.appendDeviceRecord output =
        .ok (output ++ block.deviceRecord shape.layout.blockBytes) := by
      rw [KvarnBlock.appendDeviceRecord, hlayout]
    rw [List.foldlM_cons, happend, ok_bind,
      ih (fun other hother => hblocks other (List.mem_cons_of_mem block hother)),
      List.flatMap_cons, List.append_assoc]

theorem fields_of_deviceBlocks {cache : KvarnLayerCache (packedCodec math)}
    (h : cache.HoldsRecords shape) {k : Nat} (hblock : cache.blocks[k]? = some block) :
    shape.layout.spans.map (fun span => slice cache.deviceBlocks
        (k * shape.layout.blockBytes + span.1) (k * shape.layout.blockBytes + span.2)) =
      block.buffers.fields.map .ok := by
  rcases KvarnDeviceRecordLayout.spans_of_new_eq_ok shape.accepted with ⟨hspans, hbytes⟩
  have hsizes : forall other, other ∈ cache.blocks ->
      other.buffers.fields.map List.length =
        KvarnDeviceRecordLayout.fieldSizes shape.config shape.numKvHeads shape.headDim :=
    fun other hother => fieldSizes_of_fromQuantizer (h.blocks other hother)
  have hcount : shape.layout.spans.length = block.buffers.fields.length := by
    rw [hspans, length_spansFrom, ← hsizes block (List.mem_of_getElem? hblock), List.length_map]
  rw [deviceBlocks_eq h, hbytes, hspans]
  rw [hspans] at hcount
  apply List.ext_getElem
  · rw [List.length_map, List.length_map, hcount]
  · intro i hi hfield
    rw [List.length_map] at hi hfield
    rw [List.getElem_map, List.getElem_map]
    exact slice_record_span hsizes hblock (List.getElem?_eq_getElem hi)
      (List.getElem?_eq_getElem hfield)

/-- After every run the device buffer is what writing the records of the held
blocks one after another gives, and each field stands where the layout says. -/
theorem deviceBlocks_of_callAll
    {config : KvarnConfig} {maxSeqLen numKvHeads headDim : Nat}
    {cache final : KvarnLayerCache (packedCodec math)} {ops : List KvarnOp}
    (hnew : KvarnLayerCache.new (packedCodec math) config maxSeqLen numKvHeads headDim = .ok cache)
    (hrun : callAll cache ops = .ok final) :
    let layout := final.deviceLayout
    let sizes := KvarnDeviceRecordLayout.fieldSizes config numKvHeads headDim
    KvarnDeviceRecordLayout.new config numKvHeads headDim = .ok layout ∧
      final.blocks.foldlM (fun output block => block.appendDeviceRecord output) [] =
        .ok final.deviceBlocks ∧
      final.blocks.foldl
        (fun output block => block.buffers.appendDeviceRecord output) [] =
          final.deviceBlocks ∧
      final.deviceBlocks.length = final.blocks.length * layout.blockBytes ∧
      layout.spans = spansFrom 0 sizes ∧ layout.blockBytes = sizes.sum ∧
      forall k block, final.blocks[k]? = some block ->
        layout.spans.map (fun span => slice final.deviceBlocks
            (k * layout.blockBytes + span.1) (k * layout.blockBytes + span.2)) =
          (block.buffers.fields).map .ok := by
  have hholds := callAll_holds_records ops (KvarnLayerCache.new_holds_records hnew)
    final hrun
  have haccepted := (KvarnLayerCache.shapeOfNew hnew).accepted
  rw [← hholds.deviceLayout] at haccepted
  rcases KvarnDeviceRecordLayout.spans_of_new_eq_ok haccepted with ⟨hspans, hbytes⟩
  constructor
  · exact haccepted
  constructor
  · rw [foldlM_appendDeviceRecord (fun block hblock => (hholds.blocks block hblock).left),
      List.nil_append, hholds.deviceBlocks]
  constructor
  · rw [foldl_appendDeviceRecord, List.nil_append, deviceBlocks_eq hholds]
  constructor
  · have huniform : UniformRows
        (fun block : KvarnBlock (packedCodec math) =>
          block.deviceRecord final.deviceLayout.blockBytes)
        final.deviceLayout.blockBytes final.blocks := by
      intro block _
      exact KvarnBlock.length_deviceRecord block _
    rw [hholds.deviceBlocks, ← hholds.deviceLayout, length_flatMap_of_uniformRows huniform]
  constructor
  · exact hspans
  constructor
  · exact hbytes
  · intro k block hblock
    rw [hholds.deviceLayout]
    exact fields_of_deviceBlocks hholds hblock

end Packed

theorem groups_of_represents {store : KvStore shape} (h : cache.Represents shape store) :
    store.groups = cache.blocks.length := by
  rcases h with ⟨_, _, _, _, hgroups⟩
  exact hgroups

def linearMath : KvarnMath Rat where
  ofF16 bits := bits.toNat
  toF16 x := UInt16.ofNat x.floor.toNat
  toU8 x := UInt8.ofNat x.floor.toNat
  roundTiesEven x := x.floor
  exp x := 1 + x
  ln x := x - 1
  sqrt x := x
  tanh x := x
  infinity := 65504
  negInfinity := -65504
  normalizedHadamard row := row

def packedCache : KvarnLayerCache (packedCodec linearMath) where
  config := { KvarnConfig.k4V2G64 with sinkTokens := 0 }
  numKvHeads := 1
  headDim := 4
  maxSeqLen := 64
  sinkKey := []
  sinkValue := []
  blocks := []
  tailKey := []
  tailValue := []
  deviceLayout := freshCache.deviceLayout
  deviceBlocks := []
  storedLen := 0

theorem new_eq_packedCache :
    KvarnLayerCache.new (packedCodec linearMath)
      { KvarnConfig.k4V2G64 with sinkTokens := 0 } 64 1 4 = .ok packedCache := by
  have hlayout : KvarnDeviceRecordLayout.new { KvarnConfig.k4V2G64 with sinkTokens := 0 }
      1 4 = .ok packedCache.deviceLayout := by
    decide
  have hvalid : KvarnConfig.validate { KvarnConfig.k4V2G64 with sinkTokens := 0 } 4 =
      .ok () := by
    decide
  unfold KvarnLayerCache.new
  rw [hvalid, hlayout]
  rfl

/-- One compacted group gives one record of 600 bytes. -/
theorem deviceBlocks_of_callAll_group :
    exists final, callAll packedCache
        [writeBitsRange 0 64 (List.replicate 256 7) (List.replicate 256 9), compact] =
        .ok final ∧
      final.blocks.length = 1 ∧ final.deviceBlocks.length = 600 := by
  have hops : forall op, op ∈
      [writeBitsRange 0 64 (List.replicate 256 7) (List.replicate 256 9), compact] ->
      op.RespectsMaxSeqLen (1 * 4) 64 := by
    intro op hop
    rcases List.mem_cons.mp hop with hwrite | hcompact
    · rw [hwrite]
      exact ⟨(by decide), ⟨(by decide +kernel), (by decide +kernel)⟩⟩
    · rw [List.mem_singleton.mp hcompact]
      trivial
  rcases callAll_represents (KvarnLayerCache.new_represents new_eq_packedCache) hops with
    ⟨final, hfinal, hrep⟩
  rcases deviceBlocks_of_callAll new_eq_packedCache hfinal with
    ⟨_, _, _, hlength, _, hbytes, _⟩
  have hblocks : final.blocks.length = 1 := by
    rw [← groups_of_represents hrep]
    decide
  refine Exists.intro final ⟨hfinal, hblocks, ?_⟩
  rw [hlength, hbytes, hblocks]
  decide

end KvarnOp

end KvCache
end RunNBurn
