import RunNBurn.Library.FlatRows
import RunNBurn.Library.GroupedRows
import RunNBurn.KvCache.Kvarn

/-!
# Regions of the compressed layer cache

The three storage regions as lists of key/value rows, and the two readers
against them.
-/

namespace RunNBurn
namespace KvCache

open Library

structure KvRow where
  key : List UInt16
  value : List UInt16
deriving DecidableEq, Repr

def kvBits (rows : List KvRow) : List UInt16 × List UInt16 :=
  (rows.flatMap KvRow.key, rows.flatMap KvRow.value)

theorem kvBits_append (left right : List KvRow) :
    kvBits (left ++ right) =
      ((kvBits left).1 ++ (kvBits right).1, (kvBits left).2 ++ (kvBits right).2) := by
  simp [kvBits]

structure UniformKv (width : Nat) (rows : List KvRow) : Prop where
  key : UniformRows KvRow.key width rows
  value : UniformRows KvRow.value width rows

namespace UniformKv

variable {width : Nat} {rows left right : List KvRow}

theorem nil (width : Nat) : UniformKv width [] where
  key := uniformRows_nil KvRow.key width
  value := uniformRows_nil KvRow.value width

theorem append (hleft : UniformKv width left) (hright : UniformKv width right) :
    UniformKv width (left ++ right) where
  key := uniformRows_append hleft.key hright.key
  value := uniformRows_append hleft.value hright.value

theorem of_subset (h : UniformKv width right) (hsub : left ⊆ right) :
    UniformKv width left where
  key := uniformRows_of_subset hsub h.key
  value := uniformRows_of_subset hsub h.value

theorem take (h : UniformKv width rows) (n : Nat) :
    UniformKv width (rows.take n) :=
  of_subset h (List.take_subset n rows)

theorem drop (h : UniformKv width rows) (n : Nat) :
    UniformKv width (rows.drop n) :=
  of_subset h (List.drop_subset n rows)

theorem singleton {key value : List UInt16}
    (hkey : key.length = width) (hvalue : value.length = width) :
    UniformKv width [⟨key, value⟩] where
  key := by
    intro r hr
    rw [List.mem_singleton.mp hr]
    exact hkey
  value := by
    intro r hr
    rw [List.mem_singleton.mp hr]
    exact hvalue

theorem length_key (h : UniformKv width rows) :
    (kvBits rows).1.length = rows.length * width :=
  length_flatMap_of_uniformRows h.key

theorem length_value (h : UniformKv width rows) :
    (kvBits rows).2.length = rows.length * width :=
  length_flatMap_of_uniformRows h.value

theorem slice_key {lo hi : Nat} (h : UniformKv width rows)
    (hlo : lo <= hi) (hhi : hi <= rows.length) :
    slice (kvBits rows).1 (lo * width) (hi * width) =
      .ok (kvBits ((rows.drop lo).take (hi - lo))).1 :=
  slice_flatMap_of_uniformRows h.key hlo hhi

theorem slice_value {lo hi : Nat} (h : UniformKv width rows)
    (hlo : lo <= hi) (hhi : hi <= rows.length) :
    slice (kvBits rows).2 (lo * width) (hi * width) =
      .ok (kvBits ((rows.drop lo).take (hi - lo))).2 :=
  slice_flatMap_of_uniformRows h.value hlo hhi

theorem slice_key_zero {n : Nat} (h : UniformKv width rows) (hn : n <= rows.length) :
    slice (kvBits rows).1 0 (n * width) = .ok (kvBits (rows.take n)).1 := by
  simpa using h.slice_key (Nat.zero_le n) hn

theorem slice_value_zero {n : Nat} (h : UniformKv width rows) (hn : n <= rows.length) :
    slice (kvBits rows).2 0 (n * width) = .ok (kvBits (rows.take n)).2 := by
  simpa using h.slice_value (Nat.zero_le n) hn

theorem take_key (h : UniformKv width rows) (n : Nat) :
    (kvBits rows).1.take (n * width) = (kvBits (rows.take n)).1 :=
  take_flatMap_of_uniformRows h.key n

theorem take_value (h : UniformKv width rows) (n : Nat) :
    (kvBits rows).2.take (n * width) = (kvBits (rows.take n)).2 :=
  take_flatMap_of_uniformRows h.value n

theorem drop_key (h : UniformKv width rows) (n : Nat) :
    (kvBits rows).1.drop (n * width) = (kvBits (rows.drop n)).1 :=
  drop_flatMap_of_uniformRows h.key n

theorem drop_value (h : UniformKv width rows) (n : Nat) :
    (kvBits rows).2.drop (n * width) = (kvBits (rows.drop n)).2 :=
  drop_flatMap_of_uniformRows h.value n

end UniformKv

/-!
## Rows read off flat buffers
-/

def rowsOf (width n : Nat) (key value : List UInt16) : List KvRow :=
  List.zipWith KvRow.mk (chunks width n key) (chunks width n value)

@[simp] theorem length_rowsOf (width n : Nat) (key value : List UInt16) :
    (rowsOf width n key value).length = n := by
  simp [rowsOf]

theorem rowsOf_succ_last (width n : Nat) (key value : List UInt16) :
    rowsOf width (n + 1) key value =
      rowsOf width n key value ++
        [⟨(key.drop (n * width)).take width, (value.drop (n * width)).take width⟩] := by
  unfold rowsOf
  rw [chunks_succ_last, chunks_succ_last, List.zipWith_append (by simp)]
  rfl

theorem uniformKv_rowsOf
    {width n : Nat} {key value : List UInt16} (hkey : n * width <= key.length)
    (hvalue : n * width <= value.length) :
    UniformKv width (rowsOf width n key value) := by
  constructor
  · intro r hr
    rcases List.getElem_of_mem hr with ⟨i, hi, hget⟩
    simp only [rowsOf, List.getElem_zipWith] at hget
    rw [← hget]
    exact length_of_mem_chunks hkey (List.getElem_mem _)
  · intro r hr
    rcases List.getElem_of_mem hr with ⟨i, hi, hget⟩
    simp only [rowsOf, List.getElem_zipWith] at hget
    rw [← hget]
    exact length_of_mem_chunks hvalue (List.getElem_mem _)

theorem flatMap_key_zipWith {keys values : List (List UInt16)} (h : keys.length = values.length) :
    (List.zipWith KvRow.mk keys values).flatMap KvRow.key = keys.flatten := by
  induction keys generalizing values with
  | nil => simp
  | cons k rest ih =>
    cases values with
    | nil => cases h
    | cons v values => simp [ih (Nat.succ.inj h)]

theorem flatMap_value_zipWith {keys values : List (List UInt16)} (h : keys.length = values.length) :
    (List.zipWith KvRow.mk keys values).flatMap KvRow.value = values.flatten := by
  induction keys generalizing values with
  | nil =>
    cases values with
    | nil => rfl
    | cons v values => cases h
  | cons k rest ih =>
    cases values with
    | nil => cases h
    | cons v values => simp [ih (Nat.succ.inj h)]

theorem kvBits_rowsOf (width n : Nat) (key value : List UInt16) :
    kvBits (rowsOf width n key value) =
      (key.take (n * width), value.take (n * width)) := by
  unfold kvBits rowsOf
  rw [flatMap_key_zipWith (by simp), flatMap_value_zipWith (by simp),
    flatten_chunks, flatten_chunks]

theorem rowsOf_kvBits
    {width n : Nat} {rows : List KvRow} (h : UniformKv width rows) (hn : n <= rows.length) :
    rowsOf width n (kvBits rows).1 (kvBits rows).2 = rows.take n := by
  induction rows generalizing n with
  | nil =>
    have hzero : n = 0 := Nat.eq_zero_of_le_zero hn
    rw [hzero]
    rfl
  | cons r rest ih =>
    cases n with
    | zero => rfl
    | succ n =>
      have hkey : r.key.length = width := h.key r List.mem_cons_self
      have hvalue : r.value.length = width := h.value r List.mem_cons_self
      have hrest := ih (h.of_subset (List.subset_cons_self r rest))
        (Nat.le_of_succ_le_succ hn)
      have hbits : kvBits (r :: rest) =
          (r.key ++ (kvBits rest).1, r.value ++ (kvBits rest).2) := rfl
      unfold rowsOf at hrest ⊢
      rw [hbits, chunks, chunks, ← hkey, List.take_left, List.drop_left, hkey,
        ← hvalue, List.take_left, List.drop_left, hvalue, List.zipWith_cons_cons,
        hrest, List.take_succ_cons]

theorem kvBits_inj
    {width : Nat} {left right : List KvRow} (hleft : UniformKv width left)
    (hright : UniformKv width right) (hlength : left.length = right.length)
    (hbits : kvBits left = kvBits right) :
    left = right := by
  have hleftRows := rowsOf_kvBits hleft (Nat.le_refl _)
  have hrightRows := rowsOf_kvBits hright (Nat.le_refl _)
  rw [List.take_length] at hleftRows hrightRows
  rw [← hleftRows, ← hrightRows, hbits, hlength]

/-!
# Accepted shapes

The parameters of a cache together with the proof that the constructor accepts
them.
-/

structure KvarnShape where
  config : KvarnConfig
  numKvHeads : Nat
  headDim : Nat
  maxSeqLen : Nat
  layout : KvarnDeviceRecordLayout
  accepted : KvarnDeviceRecordLayout.new config numKvHeads headDim = .ok layout

namespace KvarnShape

def width (shape : KvarnShape) : Nat :=
  shape.numKvHeads * shape.headDim

def sink (shape : KvarnShape) : Nat :=
  shape.config.sinkTokens

def group (shape : KvarnShape) : Nat :=
  shape.config.group

variable (shape : KvarnShape)

theorem validated :
    shape.config.validate shape.headDim = .ok () :=
  (KvarnDeviceRecordLayout.facts_of_new_eq_ok shape.accepted).left

theorem group_pos : 0 < shape.group :=
  KvarnConfig.group_pos_of_validate shape.validated

theorem width_pos : 0 < shape.width :=
  Nat.mul_pos (KvarnDeviceRecordLayout.facts_of_new_eq_ok shape.accepted).right.left
    (KvarnConfig.headDim_pos_of_validate shape.validated)

theorem group_width_pos : 0 < shape.group * shape.width :=
  Nat.mul_pos shape.group_pos shape.width_pos

end KvarnShape

namespace KvarnBlock

variable {codec : KvarnCodec}

def rows (block : KvarnBlock codec) : List KvRow :=
  rowsOf (block.numKvHeads * block.headDim) block.config.group
    block.dequantizeF16.1 block.dequantizeF16.2

structure HasShape (shape : KvarnShape) (block : KvarnBlock codec) : Prop where
  config : block.config = shape.config
  numKvHeads : block.numKvHeads = shape.numKvHeads
  headDim : block.headDim = shape.headDim

theorem kvBits_rows (block : KvarnBlock codec) :
    kvBits block.rows = block.dequantizeF16 := by
  rw [rows, kvBits_rowsOf]
  simp [List.take_of_length_le]

theorem HasShape.length_rows
    {shape : KvarnShape} {block : KvarnBlock codec} (h : block.HasShape shape) :
    block.rows.length = shape.group := by
  rw [rows, length_rowsOf, h.config]
  rfl

theorem HasShape.uniformKv_rows
    {shape : KvarnShape} {block : KvarnBlock codec} (h : block.HasShape shape) :
    UniformKv shape.width block.rows := by
  have hwidth : shape.width = block.numKvHeads * block.headDim := by
    rw [h.numKvHeads, h.headDim]
    rfl
  rw [hwidth]
  exact uniformKv_rowsOf (by simp) (by simp)

def ofRows (codec : KvarnCodec) (shape : KvarnShape) (group : List KvRow) :
    KvarnBlock codec where
  config := shape.config
  numKvHeads := shape.numKvHeads
  headDim := shape.headDim
  payload := codec.encode shape.config shape.numKvHeads shape.headDim
    (kvBits group).1 (kvBits group).2

theorem hasShape_ofRows (codec : KvarnCodec) (shape : KvarnShape)
    (group : List KvRow) : (ofRows codec shape group).HasShape shape where
  config := rfl
  numKvHeads := rfl
  headDim := rfl

end KvarnBlock

namespace KvarnShape

/-- Quantize a group of rows and read it back: the map `q` of the cache. -/
def requantize (codec : KvarnCodec) (shape : KvarnShape) :
    GroupMap shape.group KvRow where
  apply group := (KvarnBlock.ofRows codec shape group).rows
  length_apply := fun group _ =>
    (KvarnBlock.hasShape_ofRows codec shape group).length_rows

end KvarnShape

/-!
# The representation invariant
-/

namespace KvarnLayerCache

variable {codec : KvarnCodec}

def blockRows (cache : KvarnLayerCache codec) : List KvRow :=
  cache.blocks.flatMap KvarnBlock.rows

/-- The stored buffers are exactly the given sink rows, the blocks, and the
given tail rows; blocks and tail only start once the sink is full. -/
structure Regions (shape : KvarnShape) (cache : KvarnLayerCache codec)
    (sinkRows tailRows : List KvRow) : Prop where
  config : cache.config = shape.config
  numKvHeads : cache.numKvHeads = shape.numKvHeads
  headDim : cache.headDim = shape.headDim
  maxSeqLen : cache.maxSeqLen = shape.maxSeqLen
  deviceLayout : cache.deviceLayout = shape.layout
  sinkKey : cache.sinkKey = (kvBits sinkRows).1
  sinkValue : cache.sinkValue = (kvBits sinkRows).2
  tailKey : cache.tailKey = (kvBits tailRows).1
  tailValue : cache.tailValue = (kvBits tailRows).2
  sinkUniform : UniformKv shape.width sinkRows
  tailUniform : UniformKv shape.width tailRows
  blockShape : forall block, block ∈ cache.blocks -> block.HasShape shape
  deviceBlocks : cache.deviceBlocks =
    cache.blocks.flatMap (fun block => block.deviceRecord shape.layout.blockBytes)
  sinkBound : sinkRows.length <= shape.sink
  sinkFirst : sinkRows.length < shape.sink -> cache.blocks = [] ∧ tailRows = []
  storedLen : cache.storedLen =
    sinkRows.length + cache.blocks.length * shape.group + tailRows.length
  bounded : cache.storedLen <= shape.maxSeqLen

namespace Regions

variable {shape : KvarnShape} {cache : KvarnLayerCache codec}
  {sinkRows tailRows : List KvRow}

section

variable (h : cache.Regions shape sinkRows tailRows)
include h

theorem rowWidth :
    cache.rowWidth = shape.width := by
  rw [KvarnLayerCache.rowWidth, h.numKvHeads, h.headDim]
  rfl

theorem group :
    cache.config.group = shape.group := by
  rw [h.config]
  rfl

theorem sink :
    cache.config.sinkTokens = shape.sink := by
  rw [h.config]
  rfl

theorem blocksUniform :
    UniformRows KvarnBlock.rows shape.group cache.blocks :=
  fun block hblock => (h.blockShape block hblock).length_rows

theorem length_blockRows :
    cache.blockRows.length = cache.blocks.length * shape.group :=
  length_flatMap_of_uniformRows h.blocksUniform

theorem uniformKv_blockRows :
    UniformKv shape.width cache.blockRows := by
  constructor
  · intro r hr
    rcases List.mem_flatMap.mp hr with ⟨block, hblock, hmem⟩
    exact (h.blockShape block hblock).uniformKv_rows.key r hmem
  · intro r hr
    rcases List.mem_flatMap.mp hr with ⟨block, hblock, hmem⟩
    exact (h.blockShape block hblock).uniformKv_rows.value r hmem

theorem sink_full_or :
    sinkRows.length = shape.sink ∨
      (sinkRows.length < shape.sink ∧ cache.blocks = [] ∧ tailRows = []) := by
  rcases Nat.lt_or_eq_of_le h.sinkBound with hlt | heq
  · exact Or.inr ⟨hlt, h.sinkFirst hlt⟩
  · exact Or.inl heq

theorem sink_full_of_lt (hlong : shape.sink < cache.storedLen) :
    sinkRows.length = shape.sink := by
  rcases h.sink_full_or with hfull | ⟨hshort, hblocks, htail⟩
  · exact hfull
  · have hstored := h.storedLen
    rw [hblocks, htail] at hstored
    simp at hstored
    omega

end

end Regions

/-!
# Readers
-/

variable {sinkRows tailRows : List KvRow} {cache : KvarnLayerCache codec} {shape : KvarnShape}

theorem materializeBlocks_eq (h : cache.Regions shape sinkRows tailRows) (len blockIndex : Nat)
    (rest : List (KvarnBlock codec)) (hrest : forall block, block ∈ rest -> block.HasShape shape)
    (key value : List UInt16) :
    cache.materializeBlocks len blockIndex rest (key, value) =
      .ok (key ++ (kvBits ((rest.flatMap KvarnBlock.rows).take
            (len - (shape.sink + blockIndex * shape.group)))).1,
          value ++ (kvBits ((rest.flatMap KvarnBlock.rows).take
            (len - (shape.sink + blockIndex * shape.group)))).2) := by
  induction rest generalizing blockIndex key value with
  | nil => simp [materializeBlocks, kvBits]
  | cons block rest ih =>
    have hshape : block.HasShape shape := hrest block List.mem_cons_self
    have hlength : block.rows.length = shape.group := hshape.length_rows
    have huniform := hshape.uniformKv_rows
    have hdecoded := block.kvBits_rows
    rw [materializeBlocks, h.sink, h.group, h.rowWidth]
    by_cases hstop : shape.sink + blockIndex * shape.group >= len
    · rw [if_pos hstop, Nat.sub_eq_zero_of_le hstop]
      simp [kvBits, pure, Except.pure]
    · rw [if_neg hstop]
      have hrows : min (len - (shape.sink + blockIndex * shape.group)) shape.group <=
          block.rows.length := by
        rw [hlength]
        exact Nat.min_le_right _ _
      have htake : block.rows.take
            (min (len - (shape.sink + blockIndex * shape.group)) shape.group) =
          block.rows.take (len - (shape.sink + blockIndex * shape.group)) := by
        rw [List.take_eq_take_iff, hlength]
        omega
      have hnext : len - (shape.sink + (blockIndex + 1) * shape.group) =
          len - (shape.sink + blockIndex * shape.group) - block.rows.length := by
        rw [hlength, Nat.succ_mul]
        omega
      dsimp only
      rw [← hdecoded, huniform.slice_key_zero hrows, huniform.slice_value_zero hrows, htake]
      change cache.materializeBlocks len (blockIndex + 1) rest _ = _
      rw [ih (blockIndex + 1) (fun b hb => hrest b (List.mem_cons_of_mem block hb)), hnext,
        List.flatMap_cons, List.take_append, kvBits_append]
      simp [List.append_assoc]

/-- A window of three lists as long as the sink, the rows of the blocks and the tail. -/
theorem Regions.window_parts {entry : Type} {front middle back : List entry}
    (h : cache.Regions shape sinkRows tailRows) (hfront : front.length = sinkRows.length)
    (hmiddle : middle.length = cache.blockRows.length)
    (hback : back.length = tailRows.length) (start stop : Nat) :
    ((front ++ middle ++ back).take stop).drop start =
      window start stop 0 front ++
        window start stop (shape.sink + 0 * shape.group) middle ++
        window start stop (shape.sink + cache.blocks.length * shape.group) back := by
  have hmiddleWindow : window start stop front.length middle =
      window start stop (shape.sink + 0 * shape.group) middle := by
    rcases h.sink_full_or with hfull | ⟨hshort, hnil, htail⟩
    · rw [hfront, hfull, Nat.zero_mul, Nat.add_zero]
    · have hempty : middle = [] := by
        apply List.eq_nil_of_length_eq_zero
        rw [hmiddle, h.length_blockRows, hnil, List.length_nil, Nat.zero_mul]
      simp [hempty, window]
  have hbackWindow : window start stop (front.length + cache.blocks.length * shape.group) back =
      window start stop (shape.sink + cache.blocks.length * shape.group) back := by
    rcases h.sink_full_or with hfull | ⟨hshort, hnil, htail⟩
    · rw [hfront, hfull]
    · have hempty : back = [] := by
        apply List.eq_nil_of_length_eq_zero
        rw [hback, htail, List.length_nil]
      simp [hempty, window]
  rw [← window_zero_base, window_append, window_append, Nat.zero_add, Nat.zero_add,
    List.length_append, hmiddle, h.length_blockRows, hmiddleWindow, hbackWindow]

/-- `materialize` returns a prefix of the represented rows. -/
theorem materialize_of_regions {len : Nat} (h : cache.Regions shape sinkRows tailRows)
    (hlen : len <= cache.storedLen) :
    cache.materialize len =
      .ok (kvBits ((sinkRows ++ cache.blockRows ++ tailRows).take len)) := by
  have hstored := h.storedLen
  have hblocks := h.length_blockRows
  have hsinkRows : min len shape.sink <= sinkRows.length := by
    rcases h.sink_full_or with hfull | ⟨hshort, hnil, htail⟩
    · rw [hfull]
      exact Nat.min_le_right _ _
    · rw [hnil, htail] at hstored
      simp at hstored
      omega
  have hsinkTake : sinkRows.take (min len shape.sink) = sinkRows.take len := by
    have hbound := h.sinkBound
    rw [List.take_eq_take_iff]
    omega
  have hlength : len <= (sinkRows ++ cache.blockRows ++ tailRows).length := by
    rw [List.length_append, List.length_append, hblocks]
    omega
  have huniform : UniformKv shape.width (sinkRows ++ cache.blockRows ++ tailRows) :=
    (h.sinkUniform.append h.uniformKv_blockRows).append h.tailUniform
  have hcount := (huniform.take len).length_key
  have hcountValue := (huniform.take len).length_value
  rw [List.length_take, Nat.min_eq_left hlength] at hcount hcountValue
  have hparts := @Regions.window_parts _ _ _ _ _ _ sinkRows cache.blockRows tailRows h rfl rfl rfl
    0 len
  simp only [window, Nat.zero_sub, List.drop_zero, Nat.sub_zero] at hparts
  have hsplit : (sinkRows ++ cache.blockRows ++ tailRows).take len =
      sinkRows.take len ++
        (cache.blocks.flatMap KvarnBlock.rows).take
          (len - (shape.sink + 0 * shape.group)) ++
        tailRows.take (len - (shape.sink + cache.blocks.length * shape.group)) := hparts
  have hchecks : forall out, out = kvBits
        ((sinkRows ++ cache.blockRows ++ tailRows).take len) ->
      (do
        require (out.1.length = len * shape.width) "debug assertion: key length"
        require (out.2.length = len * shape.width) "debug assertion: value length"
        return out) =
        (.ok out : Checked (List UInt16 × List UInt16)) := by
    intro out hout
    rw [require_of_true _ (by rw [hout]; exact hcount),
      require_of_true _ (by rw [hout]; exact hcountValue)]
    rfl
  unfold materialize
  rw [require_of_true _ hlen]
  simp only [ok_bind]
  rw [h.rowWidth, h.sink, h.group, h.sinkKey, h.sinkValue,
    h.sinkUniform.slice_key_zero hsinkRows, h.sinkUniform.slice_value_zero hsinkRows, hsinkTake]
  simp only [ok_bind]
  rw [materializeBlocks_eq h len 0 cache.blocks h.blockShape]
  simp only [ok_bind]
  by_cases htail : len > shape.sink + cache.blocks.length * shape.group
  · have hrows : len - (shape.sink + cache.blocks.length * shape.group) <=
        tailRows.length := by
      have hbound := h.sinkBound
      omega
    rw [if_pos htail, h.tailKey, h.tailValue, h.tailUniform.slice_key_zero hrows,
      h.tailUniform.slice_value_zero hrows]
    simp only [ok_bind, pure_bind]
    rw [hchecks (_, _) (by rw [hsplit, kvBits_append, kvBits_append]), hsplit,
      kvBits_append, kvBits_append]
  · have hnone : len - (shape.sink + cache.blocks.length * shape.group) = 0 := by
      omega
    rw [if_neg htail]
    simp only [pure_bind]
    rw [hsplit, hnone, List.take_zero, List.append_nil, kvBits_append] at hchecks
    rw [hchecks (_, _) rfl, hsplit, hnone, List.take_zero, List.append_nil, kvBits_append]

/-!
## Range reads
-/

theorem appendOverlap_eq
    {width : Nat} {rows : List KvRow} (start stop base : Nat) (out : List UInt16 × List UInt16)
    (huniform : UniformKv width rows) :
    appendOverlap width start stop base rows.length (kvBits rows).1 (kvBits rows).2 out =
      .ok (out.1 ++ (kvBits (window start stop base rows)).1,
        out.2 ++ (kvBits (window start stop base rows)).2) := by
  unfold appendOverlap
  dsimp only
  by_cases hempty : max start base >= min stop (base + rows.length)
  · have hnil : window start stop base rows = [] := by
      apply List.drop_eq_nil_of_le
      rw [List.length_take]
      omega
    rw [if_pos hempty, hnil]
    simp [kvBits]
  · have hlo : max start base - base = start - base := by
      omega
    have hle : max start base - base <= min stop (base + rows.length) - base := by
      omega
    have hhi : min stop (base + rows.length) - base <= rows.length := by
      omega
    have hwindow : (rows.drop (max start base - base)).take
          (min stop (base + rows.length) - base - (max start base - base)) =
        window start stop base rows := by
      rw [window, List.drop_take, hlo, List.take_eq_take_iff, List.length_drop]
      omega
    rw [if_neg hempty, huniform.slice_key hle hhi, huniform.slice_value hle hhi, hwindow]
    rfl

theorem materializeRangeBlocks_eq (h : cache.Regions shape sinkRows tailRows)
    (start stop blockIndex : Nat) (rest : List (KvarnBlock codec))
    (hrest : forall block, block ∈ rest -> block.HasShape shape) (out : List UInt16 × List UInt16) :
    cache.materializeRangeBlocks start stop blockIndex rest out =
      .ok (out.1 ++ (kvBits (window start stop (shape.sink + blockIndex * shape.group)
            (rest.flatMap KvarnBlock.rows))).1,
          out.2 ++ (kvBits (window start stop (shape.sink + blockIndex * shape.group)
            (rest.flatMap KvarnBlock.rows))).2) := by
  induction rest generalizing blockIndex out with
  | nil => simp [materializeRangeBlocks, kvBits, window]
  | cons block rest ih =>
    have hshape : block.HasShape shape := hrest block List.mem_cons_self
    have hlength : block.rows.length = shape.group := hshape.length_rows
    have hih := ih (blockIndex + 1)
      (fun b hb => hrest b (List.mem_cons_of_mem block hb))
    have hnext : shape.sink + (blockIndex + 1) * shape.group =
        shape.sink + blockIndex * shape.group + block.rows.length := by
      rw [hlength, Nat.succ_mul, Nat.add_assoc]
    rw [materializeRangeBlocks, h.sink, h.group, h.rowWidth, List.flatMap_cons]
    by_cases hstop : shape.sink + blockIndex * shape.group >= stop
    · rw [if_pos hstop, window_eq_nil_of_stop_le _ hstop]
      simp [kvBits]
    · rw [if_neg hstop, window_append, ← hnext]
      by_cases hskip : shape.sink + blockIndex * shape.group + shape.group <= start
      · have hnil : window start stop (shape.sink + blockIndex * shape.group)
            block.rows = [] := by
          apply window_eq_nil_of_le_start
          rw [hlength]
          exact hskip
        rw [if_pos hskip, hih, hnil, List.nil_append]
      · have hoverlap := appendOverlap_eq start stop
          (shape.sink + blockIndex * shape.group) out hshape.uniformKv_rows
        rw [hlength, block.kvBits_rows] at hoverlap
        rw [if_neg hskip, hoverlap]
        simp only [ok_bind]
        rw [hih, kvBits_append]
        simp [List.append_assoc]

/-- `materialize_range` returns a slice of the represented rows. -/
theorem materializeRange_of_regions {start stop : Nat} (h : cache.Regions shape sinkRows tailRows)
    (hstart : start <= stop) (hstop : stop <= cache.storedLen) :
    cache.materializeRange start stop =
      .ok (kvBits
        (((sinkRows ++ cache.blockRows ++ tailRows).take stop).drop start)) := by
  have hstored := h.storedLen
  have hblocks := h.length_blockRows
  have hsinkBound := h.sinkBound
  have hlength : (sinkRows ++ cache.blockRows ++ tailRows).length =
      cache.storedLen := by
    rw [List.length_append, List.length_append, hblocks, hstored]
  have huniform : UniformKv shape.width
      (((sinkRows ++ cache.blockRows ++ tailRows).take stop).drop start) :=
    (((h.sinkUniform.append h.uniformKv_blockRows).append h.tailUniform).take stop).drop start
  have hcount := huniform.length_key
  have hcountValue := huniform.length_value
  rw [List.length_drop, List.length_take, hlength, Nat.min_eq_left hstop]
    at hcount hcountValue
  have hsinkRows : min cache.storedLen shape.sink = sinkRows.length := by
    rcases h.sink_full_or with hfull | ⟨hshort, hnil, htail⟩
    · omega
    · rw [hnil, htail] at hstored
      simp at hstored
      omega
  have htailRows : cache.storedLen - (shape.sink + cache.blocks.length * shape.group) =
      tailRows.length := by
    rcases h.sink_full_or with hfull | ⟨hshort, hnil, htail⟩
    · omega
    · rw [hnil, htail] at hstored
      rw [hnil, htail]
      simp at hstored
      simp
      omega
  have hsplit : ((sinkRows ++ cache.blockRows ++ tailRows).take stop).drop start =
      window start stop 0 sinkRows ++
        window start stop (shape.sink + 0 * shape.group)
          (cache.blocks.flatMap KvarnBlock.rows) ++
        window start stop (shape.sink + cache.blocks.length * shape.group) tailRows :=
    h.window_parts rfl rfl rfl start stop
  rw [hsplit, kvBits_append, kvBits_append] at hcount hcountValue ⊢
  have hsinkOverlap := appendOverlap_eq start stop 0 ([], []) h.sinkUniform
  have htailOverlap := fun out => appendOverlap_eq start stop
    (shape.sink + cache.blocks.length * shape.group) out h.tailUniform
  unfold materializeRange
  rw [require_of_true _ ⟨hstart, hstop⟩]
  simp only [ok_bind]
  rw [h.rowWidth, h.sink, h.group, hsinkRows, htailRows, h.sinkKey, h.sinkValue,
    h.tailKey, h.tailValue, hsinkOverlap]
  simp only [ok_bind, List.nil_append]
  rw [materializeRangeBlocks_eq h start stop 0 cache.blocks h.blockShape]
  simp only [ok_bind]
  rw [htailOverlap]
  simp only [ok_bind]
  rw [require_of_true _ hcount, require_of_true _ hcountValue]
  rfl

end KvarnLayerCache

end KvCache
end RunNBurn
