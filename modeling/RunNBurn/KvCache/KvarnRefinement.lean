import RunNBurn.KvCache.KvarnRegions

/-!
# Refinement of the compressed layer cache

Every cache operation is matched with an operation on grouped rows, and the
match is carried over whole operation sequences.
-/

namespace RunNBurn
namespace KvCache

open Library
open GroupedRows

abbrev KvStore (shape : KvarnShape) : Type :=
  GroupedRows shape.sink shape.group KvRow

namespace KvarnLayerCache

variable {codec : KvarnCodec}

/-- The cache holds the rows of the store, with one block a compacted group. -/
def Represents (shape : KvarnShape) (cache : KvarnLayerCache codec)
    (store : KvStore shape) : Prop :=
  exists sinkRows tailRows, cache.Regions shape sinkRows tailRows ∧
    store.rows = sinkRows ++ cache.blockRows ++ tailRows ∧
    store.groups = cache.blocks.length

namespace Represents

variable {shape : KvarnShape} {cache : KvarnLayerCache codec}
  {store : KvStore shape}

section

variable (h : cache.Represents shape store)
include h

theorem storedLen :
    cache.storedLen = store.rows.length := by
  rcases h with ⟨sinkRows, tailRows, hregions, hrows, _⟩
  rw [hrows, List.length_append, List.length_append, hregions.length_blockRows, hregions.storedLen]

theorem length_le :
    store.rows.length <= shape.maxSeqLen := by
  rw [← h.storedLen]
  rcases h with ⟨sinkRows, tailRows, hregions, _, _⟩
  exact hregions.bounded

theorem uniform :
    UniformKv shape.width store.rows := by
  rcases h with ⟨sinkRows, tailRows, hregions, hrows, _⟩
  rw [hrows]
  exact (hregions.sinkUniform.append hregions.uniformKv_blockRows).append hregions.tailUniform

theorem maxSeqLen :
    cache.maxSeqLen = shape.maxSeqLen := by
  rcases h with ⟨sinkRows, tailRows, hregions, _, _⟩
  exact hregions.maxSeqLen

theorem rowWidth :
    cache.rowWidth = shape.width := by
  rcases h with ⟨sinkRows, tailRows, hregions, _, _⟩
  exact hregions.rowWidth

end

theorem materialize {len : Nat} (h : cache.Represents shape store)
    (hlen : len <= store.rows.length) :
    cache.materialize len = .ok (kvBits (store.rows.take len)) := by
  rw [← h.storedLen] at hlen
  rcases h with ⟨sinkRows, tailRows, hregions, hrows, _⟩
  rw [hrows]
  exact materialize_of_regions hregions hlen

theorem materializeRange {start stop : Nat} (h : cache.Represents shape store)
    (hstart : start <= stop) (hstop : stop <= store.rows.length) :
    cache.materializeRange start stop =
      .ok (kvBits ((store.rows.take stop).drop start)) := by
  rw [← h.storedLen] at hstop
  rcases h with ⟨sinkRows, tailRows, hregions, hrows, _⟩
  rw [hrows]
  exact materializeRange_of_regions hregions hstart hstop

end Represents

/-!
# Truncation
-/

section Truncation

variable {shape : KvarnShape} {cache : KvarnLayerCache codec}
  {sinkRows tailRows : List KvRow} {len : Nat}

theorem regions_truncate_sink
    (h : cache.Regions shape sinkRows tailRows) (hlen : len <= cache.storedLen)
    (hsink : len <= shape.sink) :
    ({ cache with
        sinkKey := cache.sinkKey.take (len * cache.rowWidth)
        sinkValue := cache.sinkValue.take (len * cache.rowWidth)
        blocks := []
        deviceBlocks := []
        tailKey := []
        tailValue := []
        storedLen := len } : KvarnLayerCache codec).Regions shape
      (sinkRows.take len) [] := by
  have hlength : (sinkRows.take len).length = len := by
    rw [List.length_take]
    rcases h.sink_full_or with hfull | ⟨hshort, hnil, htail⟩
    · omega
    · have hstored := h.storedLen
      rw [hnil, htail] at hstored
      simp at hstored
      omega
  exact {
    config := h.config
    numKvHeads := h.numKvHeads
    headDim := h.headDim
    maxSeqLen := h.maxSeqLen
    deviceLayout := h.deviceLayout
    sinkKey := by
      change cache.sinkKey.take (len * cache.rowWidth) = _
      rw [h.sinkKey, h.rowWidth, h.sinkUniform.take_key]
    sinkValue := by
      change cache.sinkValue.take (len * cache.rowWidth) = _
      rw [h.sinkValue, h.rowWidth, h.sinkUniform.take_value]
    tailKey := rfl
    tailValue := rfl
    sinkUniform := h.sinkUniform.take len
    tailUniform := UniformKv.nil shape.width
    blockShape := by
      intro block hblock
      cases hblock
    deviceBlocks := rfl
    sinkBound := by
      rw [hlength]
      exact hsink
    sinkFirst := fun _ => ⟨rfl, rfl⟩
    storedLen := by
      simp [hlength]
    bounded := Nat.le_trans hlen h.bounded }

theorem regions_truncate_tail
    (h : cache.Regions shape sinkRows tailRows) (hlen : len <= cache.storedLen)
    (hfull : sinkRows.length = shape.sink)
    (hblocks : cache.blocks.length * shape.group <= len - shape.sink) (hsink : shape.sink < len) :
    ({ cache with
        tailKey := cache.tailKey.take
          ((len - shape.sink - cache.blocks.length * shape.group) * cache.rowWidth)
        tailValue := cache.tailValue.take
          ((len - shape.sink - cache.blocks.length * shape.group) * cache.rowWidth)
        storedLen := len } : KvarnLayerCache codec).Regions shape
      sinkRows
      (tailRows.take (len - shape.sink - cache.blocks.length * shape.group)) := by
  have hstored := h.storedLen
  exact {
    config := h.config
    numKvHeads := h.numKvHeads
    headDim := h.headDim
    maxSeqLen := h.maxSeqLen
    deviceLayout := h.deviceLayout
    sinkKey := h.sinkKey
    sinkValue := h.sinkValue
    tailKey := by
      change cache.tailKey.take (_ * cache.rowWidth) = _
      rw [h.tailKey, h.rowWidth, h.tailUniform.take_key]
    tailValue := by
      change cache.tailValue.take (_ * cache.rowWidth) = _
      rw [h.tailValue, h.rowWidth, h.tailUniform.take_value]
    sinkUniform := h.sinkUniform
    tailUniform := h.tailUniform.take _
    blockShape := h.blockShape
    deviceBlocks := h.deviceBlocks
    sinkBound := h.sinkBound
    sinkFirst := by
      intro hshort
      omega
    storedLen := by
      change len = sinkRows.length + cache.blocks.length * shape.group +
        (tailRows.take _).length
      rw [List.length_take]
      omega
    bounded := Nat.le_trans hlen h.bounded }

/-- Reopening block `retained` keeps the blocks before it and turns its first
`extra` rows into the new tail. -/
theorem regions_truncate_block
    {retained extra : Nat} {key value : List UInt16} {newTail : List KvRow}
    (h : cache.Regions shape sinkRows tailRows) (hlen : len <= cache.storedLen)
    (hfull : sinkRows.length = shape.sink) (hretained : retained < cache.blocks.length)
    (hlength : newTail.length = extra) (huniform : UniformKv shape.width newTail)
    (hkey : key = (kvBits newTail).1) (hvalue : value = (kvBits newTail).2)
    (hcut : len = shape.sink + retained * shape.group + extra) :
    ({ cache with
        tailKey := key
        tailValue := value
        blocks := cache.blocks.take retained
        deviceBlocks :=
          cache.deviceBlocks.take (retained * cache.deviceLayout.blockBytes)
        storedLen := len } : KvarnLayerCache codec).Regions shape
      sinkRows newTail := by
  exact {
    config := h.config
    numKvHeads := h.numKvHeads
    headDim := h.headDim
    maxSeqLen := h.maxSeqLen
    deviceLayout := h.deviceLayout
    sinkKey := h.sinkKey
    sinkValue := h.sinkValue
    tailKey := hkey
    tailValue := hvalue
    sinkUniform := h.sinkUniform
    tailUniform := huniform
    blockShape := fun block hblock =>
      h.blockShape block (List.take_subset retained cache.blocks hblock)
    deviceBlocks := by
      change cache.deviceBlocks.take (retained * cache.deviceLayout.blockBytes) = _
      rw [h.deviceBlocks, h.deviceLayout]
      apply take_flatMap_of_uniformRows
      intro block _
      exact block.length_deviceRecord _
    sinkBound := h.sinkBound
    sinkFirst := by
      intro hshort
      omega
    storedLen := by
      change len = _
      rw [List.length_take, Nat.min_eq_left (Nat.le_of_lt hretained), hfull, hlength, hcut]
    bounded := Nat.le_trans hlen h.bounded }

theorem truncateIntoBlocks_represents
    (h : cache.Regions shape sinkRows tailRows) (hlen : len <= cache.storedLen)
    (hfull : sinkRows.length = shape.sink)
    (hretained : (len - shape.sink) / shape.group < cache.blocks.length)
    (hsink : shape.sink < len) :
    Delivers (cache.truncateIntoBlocks len) (fun next =>
      exists newTail, next.Regions shape sinkRows newTail ∧
        next.blocks = cache.blocks.take ((len - shape.sink) / shape.group) ∧
        cache.blockRows.take (len - shape.sink) = next.blockRows ++ newTail) := by
  have hgroup := shape.group_pos
  have hmod := Nat.mod_lt (len - shape.sink) hgroup
  have hcut := Nat.div_add_mod (len - shape.sink) shape.group
  rw [Nat.mul_comm] at hcut
  have htotal : len = shape.sink +
      (len - shape.sink) / shape.group * shape.group +
        (len - shape.sink) % shape.group := by
    omega
  unfold truncateIntoBlocks
  dsimp only
  rw [h.sink, h.group, h.rowWidth]
  by_cases hpartial : (len - shape.sink) % shape.group > 0
  · let block := cache.blocks[(len - shape.sink) / shape.group]
    have hget : cache.blocks[(len - shape.sink) / shape.group]? = some block :=
      List.getElem?_eq_getElem hretained
    have hshape : block.HasShape shape := h.blockShape block (List.getElem_mem hretained)
    have hrows := hshape.length_rows
    have huniform := hshape.uniformKv_rows
    have hextra : (len - shape.sink) % shape.group <= block.rows.length := by
      omega
    rw [if_pos hpartial, index_of_getElem?_eq_some hget]
    simp only [ok_bind]
    rw [← block.kvBits_rows, huniform.slice_key_zero hextra, huniform.slice_value_zero hextra]
    apply delivers_ok
    exists block.rows.take ((len - shape.sink) % shape.group)
    refine ⟨?_, rfl, ?_⟩
    · exact regions_truncate_block h hlen hfull hretained
        (by rw [List.length_take]; omega) (huniform.take _) rfl rfl htotal
    · have htake := take_flatMap_add h.blocksUniform hget (Nat.le_of_lt hmod)
      rw [hcut] at htake
      exact htake
  · have hzero : (len - shape.sink) % shape.group = 0 := by
      omega
    rw [if_neg hpartial]
    apply delivers_ok
    exists []
    refine ⟨?_, rfl, ?_⟩
    · exact regions_truncate_block h hlen hfull hretained hzero.symm
        (UniformKv.nil shape.width) rfl rfl htotal
    · have htake := take_flatMap_of_uniformRows h.blocksUniform
        ((len - shape.sink) / shape.group)
      rw [hzero, Nat.add_zero] at hcut
      rw [hcut] at htake
      rw [List.append_nil]
      exact htake

end Truncation

variable {cache : KvarnLayerCache codec} {shape : KvarnShape} {store : KvStore shape}

theorem truncateTo_represents (h : cache.Represents shape store) (requested : Nat) :
    Delivers (cache.truncateTo requested)
      (fun next => next.Represents shape (store.truncate requested)) := by
  have hlength := h.storedLen
  rcases h with ⟨sinkRows, tailRows, hregions, hrows, hgroups⟩
  have hstored := hregions.storedLen
  have hgroup := shape.group_pos
  have hblockRows := hregions.length_blockRows
  have hle : min requested cache.storedLen <= cache.storedLen := Nat.min_le_right _ _
  have htake : store.rows.take requested =
      store.rows.take (min requested cache.storedLen) := by
    rw [hlength, List.take_eq_take_iff]
    omega
  unfold truncateTo
  dsimp only
  rw [hregions.sink, hregions.group]
  by_cases hsink : min requested cache.storedLen <= shape.sink
  · rw [if_pos hsink]
    apply delivers_ok
    exists sinkRows.take (min requested cache.storedLen)
    exists []
    refine ⟨regions_truncate_sink hregions hle hsink, ?_, ?_⟩
    · have hstarts : min requested cache.storedLen <= sinkRows.length := by
        rcases hregions.sink_full_or with hfull | ⟨hshort, hnil, htail⟩
        · omega
        · rw [hnil, htail] at hstored
          simp at hstored
          omega
      rw [rows_truncate, htake, hrows, List.append_assoc, List.take_append_of_le_length hstarts]
      simp [blockRows]
    · have hzero : min cache.blocks.length ((requested - shape.sink) / shape.group) =
          0 := by
        rcases Nat.lt_or_ge shape.sink requested with hreq | hreq
        · have hnone : cache.blocks.length * shape.group = 0 := by
            rcases hregions.sink_full_or with hfull | ⟨hshort, hnil, htail⟩
            · omega
            · simp [hnil]
          have hlen : cache.blocks.length = 0 := by
            rcases Nat.mul_eq_zero.mp hnone with hlen | hgroupZero
            · exact hlen
            · omega
          rw [hlen, Nat.zero_min]
        · rw [Nat.sub_eq_zero_of_le hreq, Nat.zero_div, Nat.min_zero]
      rw [groups_truncate, hgroups, hzero]
      rfl
  · rw [if_neg hsink]
    have hlong : shape.sink < min requested cache.storedLen := Nat.lt_of_not_le hsink
    have hfull : sinkRows.length = shape.sink :=
      hregions.sink_full_of_lt (Nat.lt_of_lt_of_le hlong hle)
    by_cases hblocks : min requested cache.storedLen - shape.sink <
        cache.blocks.length * shape.group
    · rw [if_pos hblocks]
      have hrequested : min requested cache.storedLen = requested := by
        omega
      rw [hrequested] at hle hlong hblocks htake ⊢
      have hretained : (requested - shape.sink) / shape.group < cache.blocks.length :=
        (Nat.div_lt_iff_lt_mul hgroup).mpr hblocks
      have hcut := Nat.div_add_mod (requested - shape.sink) shape.group
      rw [Nat.mul_comm] at hcut
      refine (truncateIntoBlocks_represents hregions hle hfull hretained
        (by omega)).mono ?_
      intro next hnext
      rcases hnext with ⟨newTail, hnewRegions, hnewBlocks, hnewRows⟩
      exists sinkRows
      exists newTail
      refine ⟨hnewRegions, ?_, ?_⟩
      · have hstarts : requested - shape.sink <= cache.blockRows.length := by
          rw [hblockRows]
          exact Nat.le_of_lt hblocks
        rw [rows_truncate, hrows, List.append_assoc, List.take_append, hfull,
          List.take_append_of_le_length hstarts, hnewRows,
          List.take_of_length_le (by omega), List.append_assoc]
      · rw [groups_truncate, hgroups, hnewBlocks, List.length_take]
        omega
    · rw [if_neg hblocks]
      apply delivers_ok
      exists sinkRows
      exists tailRows.take (min requested cache.storedLen - shape.sink -
        cache.blocks.length * shape.group)
      refine ⟨regions_truncate_tail hregions hle hfull (Nat.le_of_not_lt hblocks) hlong, ?_, ?_⟩
      · have hcut : min requested cache.storedLen -
              (sinkRows ++ cache.blockRows).length =
            min requested cache.storedLen - shape.sink -
              cache.blocks.length * shape.group := by
          rw [List.length_append, hblockRows, hfull, Nat.sub_add_eq]
        have hwhole : (sinkRows ++ cache.blockRows).length <=
            min requested cache.storedLen := by
          rw [List.length_append, hblockRows]
          omega
        rw [rows_truncate, htake, hrows, List.take_append, hcut, List.take_of_length_le hwhole]
        rfl
      · have hkeep : cache.blocks.length <= (requested - shape.sink) / shape.group := by
          rw [Nat.le_div_iff_mul_le hgroup]
          omega
        rw [groups_truncate, hgroups, Nat.min_eq_left hkeep]

/-!
# Writes
-/

variable {key value : List UInt16}

theorem appendRow_represents (h : cache.Represents shape store)
    (hroom : store.rows.length < shape.maxSeqLen) (hkey : key.length = shape.width)
    (hvalue : value.length = shape.width) :
    Delivers (cache.appendRow key value)
      (fun next => next.Represents shape (store.append [⟨key, value⟩])) := by
  have hlength := h.storedLen
  rcases h with ⟨sinkRows, tailRows, hregions, hrows, hgroups⟩
  have hstored := hregions.storedLen
  have hsingle := UniformKv.singleton hkey hvalue
  have hspace : cache.storedLen < cache.maxSeqLen := by
    rw [hregions.maxSeqLen, hlength]
    exact hroom
  unfold appendRow
  rw [require_of_true _ hspace]
  simp only [ok_bind]
  rw [hregions.sink]
  by_cases hsink : cache.storedLen < shape.sink
  · have hempty : sinkRows.length < shape.sink ∧ cache.blocks = [] ∧ tailRows = [] := by
      rcases hregions.sink_full_or with hfull | hshort
      · omega
      · exact hshort
    rcases hempty with ⟨hshort, hnil, htail⟩
    rw [if_pos hsink]
    apply delivers_ok
    exists sinkRows ++ [⟨key, value⟩]
    exists []
    refine ⟨?_, ?_, ?_⟩
    · exact {
        config := hregions.config
        numKvHeads := hregions.numKvHeads
        headDim := hregions.headDim
        maxSeqLen := hregions.maxSeqLen
        deviceLayout := hregions.deviceLayout
        sinkKey := by
          rw [kvBits_append]
          simp [hregions.sinkKey, kvBits]
        sinkValue := by
          rw [kvBits_append]
          simp [hregions.sinkValue, kvBits]
        tailKey := by
          rw [← htail]
          exact hregions.tailKey
        tailValue := by
          rw [← htail]
          exact hregions.tailValue
        sinkUniform := hregions.sinkUniform.append hsingle
        tailUniform := UniformKv.nil shape.width
        blockShape := hregions.blockShape
        deviceBlocks := hregions.deviceBlocks
        sinkBound := by
          rw [List.length_append, List.length_singleton]
          exact hshort
        sinkFirst := fun _ => ⟨hnil, rfl⟩
        storedLen := by
          change cache.storedLen + 1 = _ + cache.blocks.length * shape.group + _
          rw [hstored, htail, hnil]
          simp
        bounded := by
          change cache.storedLen + 1 <= shape.maxSeqLen
          rw [hlength]
          exact hroom }
    · rw [rows_append, hrows, htail]
      simp [blockRows, hnil]
    · rw [groups_append, hgroups]
  · have hfull : sinkRows.length = shape.sink := by
      rcases hregions.sink_full_or with hfull | ⟨hshort, hnil, htail⟩
      · exact hfull
      · rw [hnil, htail] at hstored
        simp at hstored
        omega
    rw [if_neg hsink]
    apply delivers_ok
    exists sinkRows
    exists tailRows ++ [⟨key, value⟩]
    refine ⟨?_, ?_, ?_⟩
    · exact {
        config := hregions.config
        numKvHeads := hregions.numKvHeads
        headDim := hregions.headDim
        maxSeqLen := hregions.maxSeqLen
        deviceLayout := hregions.deviceLayout
        sinkKey := hregions.sinkKey
        sinkValue := hregions.sinkValue
        tailKey := by
          rw [kvBits_append]
          simp [hregions.tailKey, kvBits]
        tailValue := by
          rw [kvBits_append]
          simp [hregions.tailValue, kvBits]
        sinkUniform := hregions.sinkUniform
        tailUniform := hregions.tailUniform.append hsingle
        blockShape := hregions.blockShape
        deviceBlocks := hregions.deviceBlocks
        sinkBound := hregions.sinkBound
        sinkFirst := by
          intro hshort
          omega
        storedLen := by
          change cache.storedLen + 1 = _ + cache.blocks.length * shape.group + _
          rw [hstored, List.length_append, List.length_singleton]
          omega
        bounded := by
          change cache.storedLen + 1 <= shape.maxSeqLen
          rw [hlength]
          exact hroom }
    · rw [rows_append, hrows, List.append_assoc]
      rfl
    · rw [groups_append, hgroups]

def zeroRow (shape : KvarnShape) : KvRow where
  key := List.replicate shape.width 0
  value := List.replicate shape.width 0

theorem padLoop_represents {count : Nat} (h : cache.Represents shape store)
    (hroom : store.rows.length + count <= shape.maxSeqLen) :
    Delivers
      (forRange (fun _ (current : KvarnLayerCache codec) =>
        current.appendRow (zeroRow shape).key (zeroRow shape).value) count cache)
      (fun next => next.Represents shape
        (store.append (List.replicate count (zeroRow shape)))) := by
  refine forRange_delivers (fun i (current : KvarnLayerCache codec) =>
      current.Represents shape (store.append (List.replicate i (zeroRow shape))))
    ?_ ?_
  · rw [List.replicate_zero, append_nil]
    exact h
  · intro i hi current hcurrent
    have hroomHere : (store.append (List.replicate i (zeroRow shape))).rows.length <
        shape.maxSeqLen := by
      rw [rows_append, List.length_append, List.length_replicate]
      omega
    refine (appendRow_represents hcurrent hroomHere (by simp [zeroRow])
      (by simp [zeroRow])).mono ?_
    intro next hnext
    rw [append_append, ← List.replicate_succ'] at hnext
    exact hnext

theorem copyLoop_represents {len : Nat} (h : cache.Represents shape store)
    (hroom : store.rows.length + len <= shape.maxSeqLen) (hkey : len * shape.width <= key.length)
    (hvalue : len * shape.width <= value.length) :
    Delivers
      (forRange (fun row (current : KvarnLayerCache codec) => do
        let offset := row * shape.width
        let keyRow <- slice key offset (offset + shape.width)
        let valueRow <- slice value offset (offset + shape.width)
        current.appendRow keyRow valueRow) len cache)
      (fun next => next.Represents shape
        (store.append (rowsOf shape.width len key value))) := by
  refine forRange_delivers (fun i (current : KvarnLayerCache codec) =>
      current.Represents shape (store.append (rowsOf shape.width i key value)))
    ?_ ?_
  · exact (append_nil store).symm ▸ h
  · intro i hi current hcurrent
    have hend : i * shape.width + shape.width <= len * shape.width := by
      rw [← Nat.succ_mul]
      exact Nat.mul_le_mul_right shape.width hi
    have hroomHere : (store.append (rowsOf shape.width i key value)).rows.length <
        shape.maxSeqLen := by
      rw [rows_append, List.length_append, length_rowsOf]
      omega
    dsimp only
    rw [slice_of_le (Nat.le_add_right _ _) (Nat.le_trans hend hkey),
      slice_of_le (Nat.le_add_right _ _) (Nat.le_trans hend hvalue), Nat.add_sub_cancel_left]
    refine (appendRow_represents hcurrent hroomHere ?_ ?_).mono ?_
    · rw [List.length_take, List.length_drop]
      omega
    · rw [List.length_take, List.length_drop]
      omega
    · intro next hnext
      rw [append_append, ← rowsOf_succ_last] at hnext
      exact hnext

theorem writeBitsRange_represents {posStart len : Nat} (h : cache.Represents shape store)
    (hroom : posStart + len <= shape.maxSeqLen) (hkey : len * shape.width <= key.length)
    (hvalue : len * shape.width <= value.length) :
    Delivers (cache.writeBitsRange posStart len key value)
      (fun next => next.Represents shape
        (store.writeAt (zeroRow shape) posStart
          (rowsOf shape.width len key value))) := by
  let kept := if posStart < store.rows.length then store.truncate posStart else store
  have hkept : kept.rows.length <= posStart := by
    change (if posStart < store.rows.length then store.truncate posStart
      else store).rows.length <= posStart
    split
    · rw [rows_truncate, List.length_take]
      exact Nat.min_le_left _ _
    · omega
  have hfill : forall cut : KvarnLayerCache codec, cut.Represents shape kept ->
      Delivers (do
        let zero := List.replicate shape.width (0 : UInt16)
        let padded <-
          forRange (fun _ (current : KvarnLayerCache codec) =>
            current.appendRow zero zero) (posStart - cut.storedLen) cut
        forRange (fun row (current : KvarnLayerCache codec) => do
          let offset := row * shape.width
          let keyRow <- slice key offset (offset + shape.width)
          let valueRow <- slice value offset (offset + shape.width)
          current.appendRow keyRow valueRow) len padded)
        (fun next => next.Represents shape
          (store.writeAt (zeroRow shape) posStart
            (rowsOf shape.width len key value))) := by
    intro cut hcut
    rw [hcut.storedLen]
    refine (padLoop_represents hcut (by omega)).bind ?_
    intro padded hpadded
    refine copyLoop_represents hpadded ?_ hkey hvalue
    rw [rows_append, List.length_append, List.length_replicate]
    change kept.rows.length + (posStart - kept.rows.length) + len <= shape.maxSeqLen
    omega
  unfold writeBitsRange
  rw [h.maxSeqLen, h.rowWidth, require_of_true _ (saturatingAdd_le hroom)]
  simp only [ok_bind]
  rw [require_of_true _ ⟨hkey, hvalue⟩]
  simp only [ok_bind]
  rw [h.storedLen]
  by_cases hback : posStart < store.rows.length
  · have hkeptEq : kept = store.truncate posStart := if_pos hback
    rw [if_pos hback]
    refine (truncateTo_represents h posStart).bind ?_
    rw [← hkeptEq]
    exact hfill
  · have hkeptEq : kept = store := if_neg hback
    rw [if_neg hback]
    exact hfill cache (hkeptEq.symm ▸ h)

theorem writeBitsUpTo_represents {len : Nat} (h : cache.Represents shape store)
    (hroom : len <= shape.maxSeqLen) (hkey : len * shape.width <= key.length)
    (hvalue : len * shape.width <= value.length) :
    Delivers (cache.writeBitsUpTo len key value)
      (fun next => next.Represents shape
        ((store.truncate 0).writeAt (zeroRow shape) 0
          (rowsOf shape.width len key value))) := by
  refine (truncateTo_represents h 0).bind ?_
  intro cleared hcleared
  exact writeBitsRange_represents hcleared (by omega) hkey hvalue

/-!
# Writes that return
-/

section Room

variable {cache next : KvarnLayerCache codec} {bound : Nat}

/-- The cache holds `count` rows of at most `bound`. -/
def HoldsCount (bound count : Nat) (cache : KvarnLayerCache codec) : Prop :=
  cache.storedLen = count ∧ cache.maxSeqLen = bound ∧ count <= bound

theorem appendRow_holdsCount {count : Nat} (key value : List UInt16)
    (h : cache.HoldsCount bound count) :
    Returns (cache.appendRow key value) (HoldsCount bound (count + 1)) := by
  rcases h with ⟨hstored, hbound, _⟩
  intro next hnext
  rcases bind_eq_ok hnext with ⟨_, hroom, hrest⟩
  have hlt := require_eq_ok hroom
  rw [hstored, hbound] at hlt
  split at hrest
  · cases hrest
    exact ⟨congrArg (· + 1) hstored, hbound, hlt⟩
  · cases hrest
    exact ⟨congrArg (· + 1) hstored, hbound, hlt⟩

theorem Represents.holdsCount {shape : KvarnShape} {store : KvStore shape}
    (h : cache.Represents shape store) :
    cache.HoldsCount shape.maxSeqLen cache.storedLen := by
  have hle := h.length_le
  rw [← h.storedLen] at hle
  exact ⟨rfl, h.maxSeqLen, hle⟩

theorem fill_holdsCount {posStart len width : Nat} {key value zero : List UInt16}
    (h : cache.HoldsCount bound cache.storedLen) (hpos : cache.storedLen <= posStart) :
    Returns (do
      let padded <-
        forRange (fun _ (current : KvarnLayerCache codec) =>
          current.appendRow zero zero) (posStart - cache.storedLen) cache
      forRange (fun row (current : KvarnLayerCache codec) => do
        let offset := row * width
        let keyRow <- slice key offset (offset + width)
        let valueRow <- slice value offset (offset + width)
        current.appendRow keyRow valueRow) len padded)
      (HoldsCount bound (posStart + len)) := by
  have hpad : Returns (forRange (fun _ (current : KvarnLayerCache codec) =>
        current.appendRow zero zero) (posStart - cache.storedLen) cache)
      (HoldsCount bound posStart) := by
    have hloop := forRange_returns
      (fun i (current : KvarnLayerCache codec) =>
        current.HoldsCount bound (cache.storedLen + i)) h
      (fun i (_ : i < posStart - cache.storedLen) current hcurrent =>
        appendRow_holdsCount zero zero hcurrent)
    rw [Nat.add_sub_cancel' hpos] at hloop
    exact hloop
  refine hpad.bind ?_
  intro padded hpadded
  refine forRange_returns
    (fun i (current : KvarnLayerCache codec) => current.HoldsCount bound (posStart + i))
    hpadded ?_
  intro i _ current hcurrent next hnext
  rcases bind_eq_ok hnext with ⟨keyRow, _, hrest⟩
  rcases bind_eq_ok hrest with ⟨valueRow, _, happend⟩
  exact appendRow_holdsCount keyRow valueRow hcurrent next happend

theorem writeBitsRange_room
    {shape : KvarnShape} {store : KvStore shape} {posStart len : Nat} {key value : List UInt16}
    (h : cache.Represents shape store)
    (hcall : cache.writeBitsRange posStart len key value = .ok next) :
    posStart + len <= shape.maxSeqLen ∧ len * shape.width <= key.length ∧
      len * shape.width <= value.length := by
  unfold writeBitsRange at hcall
  rcases bind_eq_ok hcall with ⟨_, _, hchecked⟩
  rcases bind_eq_ok hchecked with ⟨_, hbits, hcutting⟩
  have hlong := require_eq_ok hbits
  dsimp only at hcutting
  rw [h.rowWidth] at hlong hcutting
  constructor
  · by_cases hback : posStart < cache.storedLen
    · rw [if_pos hback] at hcutting
      rcases bind_eq_ok hcutting with ⟨cut, hcut, hfill⟩
      have hrep := (truncateTo_represents h posStart).returns cut hcut
      have hkept : cut.storedLen <= posStart := by
        rw [hrep.storedLen, rows_truncate, List.length_take]
        exact Nat.min_le_left _ _
      exact (fill_holdsCount hrep.holdsCount hkept next hfill).right.right
    · rw [if_neg hback] at hcutting
      exact (fill_holdsCount h.holdsCount (Nat.le_of_not_lt hback) next hcutting).right.right
  · exact hlong

theorem writeBitsUpTo_room
    {shape : KvarnShape} {store : KvStore shape} {len : Nat} {key value : List UInt16}
    (h : cache.Represents shape store) (hcall : cache.writeBitsUpTo len key value = .ok next) :
    len <= shape.maxSeqLen ∧ len * shape.width <= key.length ∧
      len * shape.width <= value.length := by
  rcases bind_eq_ok hcall with ⟨cleared, hcleared, hwrite⟩
  have hrep := (truncateTo_represents h 0).returns cleared hcleared
  have hroom := writeBitsRange_room hrep hwrite
  rw [Nat.zero_add] at hroom
  exact hroom

end Room

/-!
# Compaction
-/

section Compaction

variable {shape : KvarnShape} {cache : KvarnLayerCache codec}
  {sinkRows tailRows : List KvRow}

theorem quantize_group_eq
    {group : List KvRow} (huniform : UniformKv shape.width group)
    (hlength : group.length = shape.group) :
    KvarnBlock.quantize codec shape.config shape.numKvHeads shape.headDim
        (kvBits group).1 (kvBits group).2 =
      .ok (KvarnBlock.ofRows codec shape group) := by
  have hfacts := KvarnDeviceRecordLayout.facts_of_new_eq_ok shape.accepted
  have hwidth : shape.numKvHeads * shape.headDim < usizeLimit := hfacts.right.right.left
  have htile : shape.config.group * (shape.numKvHeads * shape.headDim) < usizeLimit := by
    rw [Nat.mul_comm]
    exact hfacts.right.right.right
  have hkey := huniform.length_key
  have hvalue := huniform.length_value
  rw [hlength] at hkey hvalue
  have hmatch : ¬ ((kvBits group).1.length ≠
        shape.config.group * (shape.numKvHeads * shape.headDim) ∨
      (kvBits group).2.length ≠
        shape.config.group * (shape.numKvHeads * shape.headDim)) := by
    rw [hkey, hvalue]
    simp [KvarnShape.group, KvarnShape.width]
  unfold KvarnBlock.quantize checkedMul
  rw [shape.validated, if_pos hwidth]
  simp only [ok_bind]
  rw [if_pos htile]
  simp only [ok_bind]
  rw [if_neg hmatch]
  rfl

theorem quantizeGroup_eq
    {b : Nat} (h : cache.Regions shape sinkRows tailRows)
    (hb : b * shape.group + shape.group <= tailRows.length) :
    cache.quantizeGroup (b * (shape.group * shape.width))
        (b * (shape.group * shape.width) + shape.group * shape.width) =
      .ok (KvarnBlock.ofRows codec shape
        (GroupMap.groupAt shape.group tailRows b)) := by
  have hlo : b * (shape.group * shape.width) = b * shape.group * shape.width := by
    rw [Nat.mul_assoc]
  have hhi : b * (shape.group * shape.width) + shape.group * shape.width =
      (b * shape.group + shape.group) * shape.width := by
    rw [hlo, Nat.add_mul]
  have hle : b * shape.group <= b * shape.group + shape.group := Nat.le_add_right _ _
  unfold quantizeGroup
  rw [hhi, hlo, h.tailKey, h.tailValue, h.tailUniform.slice_key hle hb,
    h.tailUniform.slice_value hle hb, Nat.add_sub_cancel_left, h.config, h.numKvHeads, h.headDim]
  simp only [ok_bind]
  refine quantize_group_eq ((h.tailUniform.drop _).take _) ?_
  rw [List.length_take, List.length_drop]
  omega

def withBlocks (shape : KvarnShape) (cache : KvarnLayerCache codec)
    (more : List (KvarnBlock codec)) : KvarnLayerCache codec :=
  { cache with
    deviceBlocks := cache.deviceBlocks ++
      more.flatMap (fun block => block.deviceRecord shape.layout.blockBytes)
    blocks := cache.blocks ++ more }

theorem pushBlock_eq
    {block : KvarnBlock codec} (cache : KvarnLayerCache codec) (hblock : block.HasShape shape) :
    cache.pushBlock block = .ok (cache.withBlocks shape [block]) := by
  unfold pushBlock KvarnBlock.appendDeviceRecord withBlocks
  rw [hblock.config, hblock.numKvHeads, hblock.headDim, shape.accepted]
  simp [ok_bind, pure, Except.pure]

theorem foldlM_pushBlock_eq
    {more : List (KvarnBlock codec)} (cache : KvarnLayerCache codec)
    (hmore : forall block, block ∈ more -> block.HasShape shape) :
    more.foldlM pushBlock cache = .ok (cache.withBlocks shape more) := by
  induction more generalizing cache with
  | nil => simp [withBlocks, pure, Except.pure]
  | cons block rest ih =>
    rw [List.foldlM_cons, pushBlock_eq cache (hmore block List.mem_cons_self)]
    simp only [ok_bind]
    rw [ih _ (fun b hb => hmore b (List.mem_cons_of_mem block hb))]
    simp [withBlocks, List.append_assoc]

def newBlocks (codec : KvarnCodec) (shape : KvarnShape) (tailRows : List KvRow)
    (full : Nat) : List (KvarnBlock codec) :=
  (List.range full).map fun b =>
    KvarnBlock.ofRows codec shape (GroupMap.groupAt shape.group tailRows b)

theorem hasShape_of_mem_newBlocks
    {full : Nat} {block : KvarnBlock codec} (h : block ∈ newBlocks codec shape tailRows full) :
    block.HasShape shape := by
  rcases List.mem_map.mp h with ⟨b, _, hb⟩
  rw [← hb]
  exact KvarnBlock.hasShape_ofRows codec shape _

theorem compact_eq_self
    (h : cache.Regions shape sinkRows tailRows) (hnone : tailRows.length / shape.group = 0) :
    cache.compact = .ok cache := by
  have hcount : tailRows.length * shape.width / (shape.group * shape.width) = 0 := by
    rw [Nat.mul_div_mul_right _ _ shape.width_pos]
    exact hnone
  unfold compact
  dsimp only
  rw [h.sink, h.group, h.rowWidth]
  by_cases hsink : cache.storedLen <= shape.sink
  · rw [if_pos hsink]
  · rw [if_neg hsink, divide_of_pos shape.group_width_pos, h.tailKey,
      h.tailUniform.length_key, hcount]
    rfl

theorem compact_eq
    (h : cache.Regions shape sinkRows tailRows) (hlong : shape.sink < cache.storedLen)
    (hfull : tailRows.length / shape.group ≠ 0) :
    cache.compact =
      let full := tailRows.length / shape.group
      .ok { cache.withBlocks shape (newBlocks codec shape tailRows full) with
        tailKey := (kvBits (tailRows.drop (full * shape.group))).1
        tailValue := (kvBits (tailRows.drop (full * shape.group))).2 } := by
  have hgroups : forall b, b < tailRows.length / shape.group ->
      b * shape.group + shape.group <= tailRows.length := by
    intro b hb
    rw [← Nat.succ_mul]
    exact Nat.le_trans (Nat.mul_le_mul_right shape.group hb) (Nat.div_mul_le_self _ _)
  have hcount : tailRows.length * shape.width / (shape.group * shape.width) =
      tailRows.length / shape.group :=
    Nat.mul_div_mul_right _ _ shape.width_pos
  have hconsumed : tailRows.length / shape.group * (shape.group * shape.width) =
      tailRows.length / shape.group * shape.group * shape.width := by
    rw [Nat.mul_assoc]
  have hdropKey := h.tailUniform.drop_key (tailRows.length / shape.group * shape.group)
  have hdropValue :=
    h.tailUniform.drop_value (tailRows.length / shape.group * shape.group)
  have hroom : tailRows.length / shape.group * shape.group * shape.width <=
      tailRows.length * shape.width :=
    Nat.mul_le_mul_right shape.width (Nat.div_mul_le_self _ _)
  have hfinish : forall pushed : KvarnLayerCache codec,
      pushed = cache.withBlocks shape
        (newBlocks codec shape tailRows (tailRows.length / shape.group)) ->
      (do
        let tailKey <- splitOff pushed.tailKey
          (tailRows.length / shape.group * (shape.group * shape.width))
        let tailValue <- splitOff pushed.tailValue
          (tailRows.length / shape.group * (shape.group * shape.width))
        return { pushed with tailKey := tailKey, tailValue := tailValue }) =
      (.ok { cache.withBlocks shape
          (newBlocks codec shape tailRows (tailRows.length / shape.group)) with
        tailKey := (kvBits (tailRows.drop (tailRows.length / shape.group * shape.group))).1
        tailValue := (kvBits (tailRows.drop
          (tailRows.length / shape.group * shape.group))).2 } :
        Checked (KvarnLayerCache codec)) := by
    intro pushed hpushed
    have hkey : pushed.tailKey = (kvBits tailRows).1 := by
      rw [hpushed]
      exact h.tailKey
    have hvalue : pushed.tailValue = (kvBits tailRows).2 := by
      rw [hpushed]
      exact h.tailValue
    rw [hkey, hvalue, hconsumed, splitOff_of_le (by rw [h.tailUniform.length_key]; exact hroom),
      splitOff_of_le (by rw [h.tailUniform.length_value]; exact hroom),
      hdropKey, hdropValue, hpushed]
    rfl
  unfold compact
  dsimp only
  rw [h.sink, h.group, h.rowWidth, if_neg (Nat.not_le_of_lt hlong),
    divide_of_pos shape.group_width_pos, h.tailKey, h.tailUniform.length_key, hcount]
  simp only [ok_bind]
  rw [if_neg hfull]
  by_cases hone : tailRows.length / shape.group = 1
  · have hquantize := quantizeGroup_eq h (hgroups 0 (by omega))
    rw [Nat.zero_mul, Nat.zero_add] at hquantize
    rw [if_pos hone, hquantize]
    simp only [ok_bind]
    rw [pushBlock_eq cache (KvarnBlock.hasShape_ofRows codec shape _)]
    simp only [ok_bind]
    apply hfinish
    rw [hone]
    rfl
  · have hquantize : (List.range (tailRows.length / shape.group)).mapM
          (fun blockIndex => cache.quantizeGroup
            (blockIndex * (shape.group * shape.width))
            (blockIndex * (shape.group * shape.width) + shape.group * shape.width)) =
        .ok (newBlocks codec shape tailRows (tailRows.length / shape.group)) := by
      apply mapM_eq_ok
      intro b hb
      exact quantizeGroup_eq h (hgroups b (List.mem_range.mp hb))
    rw [if_neg hone, hquantize]
    simp only [ok_bind]
    rw [foldlM_pushBlock_eq cache (fun block hblock => hasShape_of_mem_newBlocks hblock)]
    simp only [ok_bind]
    exact hfinish _ rfl

end Compaction

/-!
## The frontier of the represented store
-/

section Frontier

variable {shape : KvarnShape} {cache : KvarnLayerCache codec} {store : KvStore shape}
  {sinkRows tailRows : List KvRow}

theorem frontier_eq (hgroups : store.groups = cache.blocks.length) :
    store.frontier = shape.sink + cache.blocks.length * shape.group := by
  rw [GroupedRows.frontier, hgroups]

section

variable (h : cache.Regions shape sinkRows tailRows)
include h

theorem fullGroups_eq (hrows : store.rows = sinkRows ++ cache.blockRows ++ tailRows)
    (hgroups : store.groups = cache.blocks.length) :
    store.fullGroups = tailRows.length / shape.group := by
  have hsinkBound := h.sinkBound
  rw [fullGroups, frontier_eq hgroups, hrows, List.length_append, List.length_append,
    h.length_blockRows]
  rcases h.sink_full_or with hfull | ⟨hshort, hnil, htail⟩
  · rw [hfull, Nat.add_sub_cancel_left]
  · rw [hnil, htail]
    simp [Nat.sub_eq_zero_of_le hsinkBound]

theorem sink_full_of_group (hsome : tailRows.length / shape.group ≠ 0) :
    sinkRows.length = shape.sink := by
  rcases h.sink_full_or with hfull | ⟨hshort, hnil, htail⟩
  · exact hfull
  · rw [htail] at hsome
    simp at hsome

theorem length_heads_eq (hgroups : store.groups = cache.blocks.length)
    (hsome : tailRows.length / shape.group ≠ 0) :
    (sinkRows ++ cache.blockRows).length = store.frontier := by
  rw [List.length_append, h.length_blockRows, sink_full_of_group h hsome, frontier_eq hgroups]

section

variable (hrows : store.rows = sinkRows ++ cache.blockRows ++ tailRows)
  (hgroups : store.groups = cache.blocks.length) (hsome : tailRows.length / shape.group ≠ 0)
include hrows hgroups hsome

theorem take_frontier_eq :
    store.rows.take store.frontier = sinkRows ++ cache.blockRows := by
  rw [hrows, ← length_heads_eq h hgroups hsome, List.take_left]

theorem drop_frontier_eq :
    store.rows.drop store.frontier = tailRows := by
  rw [hrows, ← length_heads_eq h hgroups hsome, List.drop_left]

end

end

end Frontier

theorem compact_represents (h : cache.Represents shape store) :
    Delivers cache.compact
      (fun next => next.Represents shape (store.compact (shape.requantize codec))) := by
  rcases h with ⟨sinkRows, tailRows, hregions, hrows, hgroups⟩
  have hstored := hregions.storedLen
  have hfullGroups := fullGroups_eq hregions hrows hgroups
  by_cases hnone : tailRows.length / shape.group = 0
  · rw [compact_of_fullGroups_eq_zero _ (hfullGroups.trans hnone), compact_eq_self hregions hnone]
    apply delivers_ok
    exists sinkRows
    exists tailRows
  · have hfull := sink_full_of_group hregions hnone
    have hheads := take_frontier_eq hregions hrows hgroups hnone
    have htails := drop_frontier_eq hregions hrows hgroups hnone
    have hkept : tailRows.length / shape.group * shape.group <= tailRows.length :=
      Nat.div_mul_le_self _ _
    have hlong : shape.sink < cache.storedLen := by
      have hpos : 0 < tailRows.length := by
        by_contra hzero
        rw [Nat.eq_zero_of_not_pos hzero, Nat.zero_div] at hnone
        exact hnone rfl
      omega
    rw [compact_eq hregions hlong hnone]
    apply delivers_ok
    exists sinkRows
    exists tailRows.drop (tailRows.length / shape.group * shape.group)
    refine ⟨?_, ?_, ?_⟩
    · exact {
        config := hregions.config
        numKvHeads := hregions.numKvHeads
        headDim := hregions.headDim
        maxSeqLen := hregions.maxSeqLen
        deviceLayout := hregions.deviceLayout
        sinkKey := hregions.sinkKey
        sinkValue := hregions.sinkValue
        tailKey := rfl
        tailValue := rfl
        sinkUniform := hregions.sinkUniform
        tailUniform := hregions.tailUniform.drop _
        blockShape := by
          intro block hblock
          rcases List.mem_append.mp hblock with hold | hnew
          · exact hregions.blockShape block hold
          · exact hasShape_of_mem_newBlocks hnew
        deviceBlocks := by
          change cache.deviceBlocks ++ _ = (cache.blocks ++ _).flatMap _
          rw [hregions.deviceBlocks, List.flatMap_append]
        sinkBound := hregions.sinkBound
        sinkFirst := by
          intro hshort
          omega
        storedLen := by
          change cache.storedLen = sinkRows.length +
            (cache.blocks ++ newBlocks codec shape tailRows _).length * shape.group +
              (tailRows.drop _).length
          rw [List.length_append, newBlocks, List.length_map, List.length_range,
            List.length_drop, Nat.add_mul]
          omega
        bounded := hregions.bounded }
    · have hgroupsRows : (newBlocks codec shape tailRows
            (tailRows.length / shape.group)).flatMap KvarnBlock.rows =
          (List.range (tailRows.length / shape.group)).flatMap (fun b =>
            (shape.requantize codec).apply
              (GroupMap.groupAt shape.group tailRows b)) := by
        rw [newBlocks, List.flatMap_map]
        rfl
      change store.rows.take store.frontier ++
          (shape.requantize codec).onGroups store.fullGroups
            (store.rows.drop store.frontier) =
        sinkRows ++ (cache.blocks ++ newBlocks codec shape tailRows _).flatMap
          KvarnBlock.rows ++ _
      rw [hheads, htails, hfullGroups, GroupMap.onGroups_eq_flatMap,
        List.flatMap_append, hgroupsRows]
      simp [blockRows, List.append_assoc]
    · change store.groups + store.fullGroups =
        (cache.blocks ++ newBlocks codec shape tailRows _).length
      rw [hgroups, hfullGroups, List.length_append, newBlocks, List.length_map, List.length_range]

/-!
# Operation sequences
-/

section

variable {config : KvarnConfig} {maxSeqLen numKvHeads headDim : Nat}

theorem deviceLayout_of_new (h : new codec config maxSeqLen numKvHeads headDim = .ok cache) :
    KvarnDeviceRecordLayout.new config numKvHeads headDim = .ok cache.deviceLayout := by
  rcases bind_eq_ok h with ⟨valid, _, hrest⟩
  rcases bind_eq_ok hrest with ⟨layout, hlayout, hcache⟩
  cases hcache
  exact hlayout

def shapeOfNew {cache : KvarnLayerCache codec}
    (h : new codec config maxSeqLen numKvHeads headDim = .ok cache) :
    KvarnShape where
  config := config
  numKvHeads := numKvHeads
  headDim := headDim
  maxSeqLen := maxSeqLen
  layout := cache.deviceLayout
  accepted := deviceLayout_of_new h

theorem new_represents (h : new codec config maxSeqLen numKvHeads headDim = .ok cache) :
    cache.Represents (shapeOfNew h) empty := by
  have hcache := h
  rcases bind_eq_ok hcache with ⟨valid, _, hrest⟩
  rcases bind_eq_ok hrest with ⟨layout, hlayout, hnew⟩
  cases hnew
  exists []
  exists []
  refine ⟨?_, rfl, rfl⟩
  exact {
    config := rfl
    numKvHeads := rfl
    headDim := rfl
    maxSeqLen := rfl
    deviceLayout := rfl
    sinkKey := rfl
    sinkValue := rfl
    tailKey := rfl
    tailValue := rfl
    sinkUniform := UniformKv.nil _
    tailUniform := UniformKv.nil _
    blockShape := by
      intro block hblock
      cases hblock
    deviceBlocks := rfl
    sinkBound := Nat.zero_le _
    sinkFirst := fun _ => ⟨rfl, rfl⟩
    storedLen := by
      simp
    bounded := Nat.zero_le _ }

end

end KvarnLayerCache

inductive KvarnOp where
  | writeBitsRange (posStart len : Nat) (key value : List UInt16)
  | writeBitsUpTo (len : Nat) (key value : List UInt16)
  | compact
  | truncateTo (len : Nat)

namespace KvarnOp

variable {codec : KvarnCodec}

def call (cache : KvarnLayerCache codec) : KvarnOp -> Checked (KvarnLayerCache codec)
  | writeBitsRange posStart len key value => cache.writeBitsRange posStart len key value
  | writeBitsUpTo len key value => cache.writeBitsUpTo len key value
  | compact => cache.compact
  | truncateTo len => cache.truncateTo len

def callAll (cache : KvarnLayerCache codec) (ops : List KvarnOp) :
    Checked (KvarnLayerCache codec) :=
  ops.foldlM call cache

/-- What a caller owes: the rows end within the cache, and the buffers hold them. -/
def RespectsMaxSeqLen (width maxSeqLen : Nat) : KvarnOp -> Prop
  | writeBitsRange posStart len key value =>
    posStart + len <= maxSeqLen ∧ len * width <= key.length ∧
      len * width <= value.length
  | writeBitsUpTo len key value =>
    len <= maxSeqLen ∧ len * width <= key.length ∧ len * width <= value.length
  | compact => True
  | truncateTo _ => True

def onStore (codec : KvarnCodec) (shape : KvarnShape) (store : KvStore shape) :
    KvarnOp -> KvStore shape
  | writeBitsRange posStart len key value =>
    store.writeAt (KvarnLayerCache.zeroRow shape) posStart
      (rowsOf shape.width len key value)
  | writeBitsUpTo len key value =>
    (store.truncate 0).writeAt (KvarnLayerCache.zeroRow shape) 0
      (rowsOf shape.width len key value)
  | compact => store.compact (shape.requantize codec)
  | truncateTo len => store.truncate len

variable {shape : KvarnShape} {store : KvStore shape}

theorem call_represents {cache : KvarnLayerCache codec} {op : KvarnOp}
    (h : cache.Represents shape store) (hop : op.RespectsMaxSeqLen shape.width shape.maxSeqLen) :
    Delivers (op.call cache)
      (fun next => next.Represents shape (op.onStore codec shape store)) := by
  cases op with
  | writeBitsRange posStart len key value =>
    rcases hop with ⟨hroom, hkey, hvalue⟩
    exact KvarnLayerCache.writeBitsRange_represents h hroom hkey hvalue
  | writeBitsUpTo len key value =>
    rcases hop with ⟨hroom, hkey, hvalue⟩
    exact KvarnLayerCache.writeBitsUpTo_represents h hroom hkey hvalue
  | compact => exact KvarnLayerCache.compact_represents h
  | truncateTo len => exact KvarnLayerCache.truncateTo_represents h len

theorem callAll_represents {cache : KvarnLayerCache codec} {ops : List KvarnOp}
    (h : cache.Represents shape store)
    (hops : forall op, op ∈ ops -> op.RespectsMaxSeqLen shape.width shape.maxSeqLen) :
    Delivers (callAll cache ops)
      (fun next => next.Represents shape (ops.foldl (onStore codec shape) store)) := by
  induction ops generalizing cache store with
  | nil => exact delivers_ok h
  | cons op rest ih =>
    refine (call_represents h (hops op List.mem_cons_self)).bind ?_
    intro next hnext
    exact ih hnext (fun other hother => hops other (List.mem_cons_of_mem op hother))

theorem call_represents_of_ok {cache next : KvarnLayerCache codec} {op : KvarnOp}
    (h : cache.Represents shape store) (hcall : op.call cache = .ok next) :
    next.Represents shape (op.onStore codec shape store) := by
  have hrespects : op.RespectsMaxSeqLen shape.width shape.maxSeqLen := by
    cases op with
    | writeBitsRange posStart len key value => exact KvarnLayerCache.writeBitsRange_room h hcall
    | writeBitsUpTo len key value => exact KvarnLayerCache.writeBitsUpTo_room h hcall
    | compact => trivial
    | truncateTo len => trivial
  exact (call_represents h hrespects).returns next hcall

theorem callAll_represents_of_ok {cache final : KvarnLayerCache codec} {ops : List KvarnOp}
    (h : cache.Represents shape store) (hrun : callAll cache ops = .ok final) :
    final.Represents shape (ops.foldl (onStore codec shape) store) := by
  induction ops generalizing cache store with
  | nil =>
    cases hrun
    exact h
  | cons op rest ih =>
    rcases bind_eq_ok hrun with ⟨next, hcall, hrest⟩
    exact ih (call_represents_of_ok h hcall) hrest

/-- After any admissible operation sequence on a fresh cache both readers show
the rows of the grouped row list, and no call on the way fails. -/
theorem callAll_reads_rows
    {config : KvarnConfig} {maxSeqLen numKvHeads headDim : Nat}
    {cache : KvarnLayerCache codec} {ops : List KvarnOp}
    (hnew : KvarnLayerCache.new codec config maxSeqLen numKvHeads headDim = .ok cache)
    (hops : forall op, op ∈ ops ->
      op.RespectsMaxSeqLen (numKvHeads * headDim) maxSeqLen) :
    exists final, callAll cache ops = .ok final ∧
      let shape := KvarnLayerCache.shapeOfNew hnew
      let rows := (ops.foldl (onStore codec shape) GroupedRows.empty).rows
      final.Represents shape (ops.foldl (onStore codec shape) GroupedRows.empty) ∧
      final.storedLen = rows.length ∧ rows.length <= maxSeqLen ∧
      (forall len, len <= final.storedLen ->
        final.materialize len = .ok (kvBits (rows.take len))) ∧
      (forall start stop, start <= stop -> stop <= final.storedLen ->
        final.materializeRange start stop =
          .ok (kvBits ((rows.take stop).drop start))) := by
  have hrun := callAll_represents (KvarnLayerCache.new_represents hnew) hops
  rcases hrun with ⟨final, hfinal, hrep⟩
  exists final
  refine ⟨hfinal, hrep, hrep.storedLen, hrep.length_le, ?_, ?_⟩
  · intro len hlen
    rw [hrep.storedLen] at hlen
    exact hrep.materialize hlen
  · intro start stop hstart hstop
    rw [hrep.storedLen] at hstop
    exact hrep.materializeRange hstart hstop

/-- A codec that keeps the high byte of each value. -/
def coarseCodec : KvarnCodec where
  Payload := List UInt16 × List UInt16
  encode _ _ _ key value := (key, value)
  decodeKey _ _ _ payload i := payload.1.getD i 0 &&& 0xFF00
  decodeValue _ _ _ payload i := payload.2.getD i 0 &&& 0xFF00
  recordByte _ _ _ _ _ := 0

def freshCache : KvarnLayerCache coarseCodec where
  config := { KvarnConfig.k4V2G64 with sinkTokens := 0 }
  numKvHeads := 1
  headDim := 4
  maxSeqLen := 64
  sinkKey := []
  sinkValue := []
  blocks := []
  tailKey := []
  tailValue := []
  deviceLayout := {
    keyPackedOffset := 0
    keyScaleOffset := 128
    keyZeroOffset := 136
    keyTokenScaleOffset := 144
    valuePackedOffset := 272
    valueChannelScaleOffset := 336
    valueTokenScaleOffset := 344
    valueZeroOffset := 472
    blockBytes := 600 }
  deviceBlocks := []
  storedLen := 0

theorem new_eq_freshCache :
    KvarnLayerCache.new coarseCodec { KvarnConfig.k4V2G64 with sinkTokens := 0 } 64 1 4 =
      .ok freshCache := by
  have hvalid : KvarnConfig.validate { KvarnConfig.k4V2G64 with sinkTokens := 0 } 4 =
      .ok () := by
    decide
  have hlayout : KvarnDeviceRecordLayout.new { KvarnConfig.k4V2G64 with sinkTokens := 0 } 1 4 =
      .ok freshCache.deviceLayout := by
    decide
  unfold KvarnLayerCache.new
  rw [hvalid, hlayout]
  rfl

def wideWrite : KvarnOp :=
  writeBitsRange 0 64 (List.replicate 256 0x1234) (List.replicate 256 0x5678)

def narrowWrite : KvarnOp :=
  writeBitsRange 1 1 [1, 2, 3, 4] [5, 6, 7, 8]

/-- The group of 64 rows is compacted, cut inside and written over: the first
row reads as the block decodes it, the second as it was written last. -/
theorem callAll_reads_rows_fresh :
    exists final,
      callAll freshCache [wideWrite, compact, truncateTo 2, narrowWrite] = .ok final ∧
      final.materialize 2 =
        .ok ([0x1200, 0x1200, 0x1200, 0x1200, 1, 2, 3, 4],
          [0x5600, 0x5600, 0x5600, 0x5600, 5, 6, 7, 8]) := by
  have hwide : wideWrite.RespectsMaxSeqLen (1 * 4) 64 :=
    ⟨by decide, Nat.le_of_eq List.length_replicate.symm, Nat.le_of_eq List.length_replicate.symm⟩
  have hnarrow : narrowWrite.RespectsMaxSeqLen (1 * 4) 64 :=
    ⟨(by decide), ⟨(by decide), (by decide)⟩⟩
  have hops : forall op, op ∈ [wideWrite, compact, truncateTo 2, narrowWrite] ->
      op.RespectsMaxSeqLen (1 * 4) 64 := by
    intro op hop
    simp only [List.mem_cons, List.not_mem_nil, or_false] at hop
    rcases hop with hop | hop | hop | hop
    · rw [hop]
      exact hwide
    · rw [hop]
      trivial
    · rw [hop]
      trivial
    · rw [hop]
      exact hnarrow
  have hrun := callAll_reads_rows new_eq_freshCache hops
  generalize hrows : [wideWrite, compact, truncateTo 2, narrowWrite] = ops at hrun
  rcases hrun with ⟨final, hfinal, hrest⟩
  rcases hrest with ⟨_, hlen, _, hread, _⟩
  exists final
  refine ⟨hfinal, ?_⟩
  rw [hread 2 (by rw [hlen, ← hrows]; decide +kernel), ← hrows]
  decide +kernel

end KvarnOp

end KvCache
end RunNBurn
