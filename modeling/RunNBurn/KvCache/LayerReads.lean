import RunNBurn.KvCache.KvarnRefinement
import RunNBurn.KvCache.Layer

/-!
# What later writes leave readable

How the operations of one layer act on rows that were readable before.  Writes
and cuts at or above row `n` leave the rows below `n` alone; compaction does so
exactly when the groups it takes decode to themselves there.
-/

namespace RunNBurn
namespace KvCache

open Library
open GroupedRows

namespace KvarnLayerCache

variable {codec : KvarnCodec} {shape : KvarnShape}
  {cache next : KvarnLayerCache codec} {store : KvStore shape}

theorem Represents.storedLen_le_maxSeqLen (h : cache.Represents shape store) :
    cache.storedLen <= cache.maxSeqLen := by
  rw [h.storedLen, h.maxSeqLen]
  exact h.length_le

theorem writeBitsRange_returns
    {posStart len : Nat} {key value : List UInt16} (h : cache.Represents shape store) :
    Returns (cache.writeBitsRange posStart len key value) (fun next =>
      next.Represents shape
        (store.writeAt (zeroRow shape) posStart
          (rowsOf shape.width len key value))) := by
  intro next hnext
  rcases writeBitsRange_room h hnext with ⟨hroom, hkey, hvalue⟩
  exact (writeBitsRange_represents h hroom hkey hvalue).returns next hnext

/-!
# Which rows compaction changes
-/

def tailGroup (cache : KvarnLayerCache codec) (b : Nat) : List KvRow :=
  rowsOf cache.rowWidth cache.config.group
    (cache.tailKey.drop (b * (cache.config.group * cache.rowWidth)))
    (cache.tailValue.drop (b * (cache.config.group * cache.rowWidth)))

def requantizedGroup (cache : KvarnLayerCache codec) (b : Nat) : List KvRow :=
  let block : KvarnBlock codec := {
    config := cache.config
    numKvHeads := cache.numKvHeads
    headDim := cache.headDim
    payload := codec.encode cache.config cache.numKvHeads cache.headDim
      (kvBits (cache.tailGroup b)).1 (kvBits (cache.tailGroup b)).2 }
  block.rows

/-- Every group that compaction would take decodes to itself below row `p`. -/
def CompactKeeps (cache : KvarnLayerCache codec) (p : Nat) : Prop :=
  forall b, b < cache.tailKey.length / (cache.config.group * cache.rowWidth) ->
    let start :=
      cache.config.sinkTokens + (cache.blocks.length + b) * cache.config.group
    (cache.requantizedGroup b).take (p - start) = (cache.tailGroup b).take (p - start)

section

variable {sinkRows tailRows : List KvRow} {b : Nat} (h : cache.Regions shape sinkRows tailRows)
  (hb : b * shape.group + shape.group <= tailRows.length)
include h hb

theorem tailGroup_eq :
    cache.tailGroup b = GroupMap.groupAt shape.group tailRows b := by
  have hcut : b * (shape.group * shape.width) = b * shape.group * shape.width := by
    rw [Nat.mul_assoc]
  unfold tailGroup
  rw [h.rowWidth, h.group, h.tailKey, h.tailValue, hcut, h.tailUniform.drop_key,
    h.tailUniform.drop_value]
  refine rowsOf_kvBits (h.tailUniform.drop _) ?_
  rw [List.length_drop]
  omega

theorem requantizedGroup_eq :
    cache.requantizedGroup b =
      (shape.requantize codec).apply (GroupMap.groupAt shape.group tailRows b) := by
  unfold requantizedGroup
  rw [tailGroup_eq h hb, h.config, h.numKvHeads, h.headDim]
  rfl

end

theorem compactKeeps_iff
    (h : cache.Represents shape store) (p : Nat) :
    cache.CompactKeeps p ↔ store.CompactKeeps (shape.requantize codec) p := by
  have hlength := h.storedLen
  rcases h with ⟨sinkRows, tailRows, hregions, hrows, hgroups⟩
  have hcount : cache.tailKey.length / (cache.config.group * cache.rowWidth) =
      tailRows.length / shape.group := by
    rw [hregions.tailKey, hregions.tailUniform.length_key, hregions.group,
      hregions.rowWidth, Nat.mul_div_mul_right _ _ shape.width_pos]
  have hfrontier : store.frontier =
      shape.sink + cache.blocks.length * shape.group := by
    rw [GroupedRows.frontier, hgroups]
  have hfullGroups : store.fullGroups = tailRows.length / shape.group :=
    fullGroups_eq hregions hrows hgroups
  have htails : tailRows.length / shape.group ≠ 0 ->
      store.rows.drop store.frontier = tailRows := by
    intro hsome
    exact drop_frontier_eq hregions hrows hgroups hsome
  unfold CompactKeeps GroupedRows.CompactKeeps
  rw [hcount, hfullGroups]
  apply forall_congr'
  intro b
  apply imp_congr_right
  intro hb
  have hgroup : b * shape.group + shape.group <= tailRows.length := by
    rw [← Nat.succ_mul]
    exact Nat.le_trans (Nat.mul_le_mul_right shape.group hb) (Nat.div_mul_le_self _ _)
  rw [tailGroup_eq hregions hgroup, requantizedGroup_eq hregions hgroup,
    htails (by omega), hfrontier, hregions.sink, hregions.group, Nat.add_mul,
    Nat.add_assoc]

theorem materialize_of_lt
    {cache : KvarnLayerCache codec} {len : Nat} (h : cache.storedLen < len) :
    cache.materialize len = abort "KVarN read exceeds initialized rows" := by
  unfold materialize require
  rw [if_neg (Nat.not_le_of_lt h)]
  rfl

theorem storedLen_of_materialize
    {len : Nat} {bits : List UInt16 × List UInt16} (h : cache.materialize len = .ok bits) :
    len <= cache.storedLen := by
  rcases bind_eq_ok h with ⟨bounded, hbounded, _⟩
  exact require_eq_ok hbounded

end KvarnLayerCache

/-!
# Reads of one layer

`KeepsReads` says that whatever could be read below row `n` of an earlier layer
state reads the same now.  `Follows` is what holds between the two states
whatever was compacted in between.
-/

namespace LayerCache

variable {codec : KvarnCodec}

def KeepsReads (n : Nat) (saved current : LayerCache codec) : Prop :=
  forall len bits, len <= n -> saved.readUpToMaterialized len = .ok bits ->
    current.readUpToMaterialized len = .ok bits

theorem keepsReads_refl (n : Nat) (layer : LayerCache codec) :
    KeepsReads n layer layer :=
  fun _ _ _ h => h

variable {saved current next : LayerCache codec} {n : Nat}

theorem KeepsReads.trans (hfirst : KeepsReads n saved current)
    (hsecond : KeepsReads n current next) :
    KeepsReads n saved next :=
  fun len bits hlen h => hsecond len bits hlen (hfirst len bits hlen h)

inductive Follows (n : Nat) : LayerCache codec -> LayerCache codec -> Prop where
  | f16 {saved current : LayerCache codec}
      {savedKey savedValue key value : List UInt16}
      (hsaved : saved.storage = .f16 savedKey savedValue)
      (hcurrent : current.storage = .f16 key value)
      (hreads : KeepsReads n saved current) :
      Follows n saved current
  | kvarn {saved current : LayerCache codec}
      {savedCache cache : KvarnLayerCache codec}
      {shape : KvarnShape} {savedStore store : KvStore shape}
      (hsaved : saved.storage = .kvarn savedCache)
      (hcurrent : current.storage = .kvarn cache)
      (hsavedRep : savedCache.Represents shape savedStore)
      (hrep : cache.Represents shape store)
      (hlong : min n savedStore.rows.length <= store.rows.length) :
      Follows n saved current

def storedRows (layer : LayerCache codec) : Nat :=
  match layer.storage with
  | .f16 _ _ => 0
  | .kvarn cache => cache.storedLen

def CompactKeeps (layer : LayerCache codec) (p : Nat) : Prop :=
  match layer.storage with
  | .f16 _ _ => True
  | .kvarn cache => cache.CompactKeeps p

def sinkRoom (layer : LayerCache codec) : Nat :=
  match layer.storage with
  | .f16 _ _ => 0
  | .kvarn cache => cache.config.sinkTokens

def blockCount (layer : LayerCache codec) : Nat :=
  match layer.storage with
  | .f16 _ _ => 0
  | .kvarn cache => cache.blocks.length

/-- The groups begin behind the sink. -/
theorem compactKeeps_of_le_sinkRoom {layer : LayerCache codec} {p : Nat}
    (h : p <= layer.sinkRoom) : layer.CompactKeeps p := by
  unfold sinkRoom at h
  unfold CompactKeeps
  cases hstorage : layer.storage with
  | f16 key value => trivial
  | kvarn cache =>
    rw [hstorage] at h
    intro b _ start
    rw [Nat.sub_eq_zero_of_le (Nat.le_trans h (Nat.le_add_right _ _))]
    rfl

/-!
## Reads as rows
-/

variable {layer : LayerCache codec}

theorem readUpToMaterialized_kvarn {cache : KvarnLayerCache codec}
    (h : layer.storage = .kvarn cache) (len : Nat) :
    layer.readUpToMaterialized len = cache.materialize len := by
  unfold readUpToMaterialized
  rw [h]

theorem keepsReads_kvarn_iff {saved current : LayerCache codec}
    {savedCache cache : KvarnLayerCache codec} {shape : KvarnShape}
    {savedStore store : KvStore shape} (hsaved : saved.storage = .kvarn savedCache)
    (hcurrent : current.storage = .kvarn cache)
    (hsavedRep : savedCache.Represents shape savedStore) (hrep : cache.Represents shape store)
    (hlong : min n savedStore.rows.length <= store.rows.length) :
    KeepsReads n saved current ↔
      store.rows.take (min n savedStore.rows.length) =
        savedStore.rows.take (min n savedStore.rows.length) := by
  constructor
  · intro hreads
    have hsavedLong : min n savedStore.rows.length <= savedStore.rows.length :=
      Nat.min_le_right _ _
    have hnow := hreads _ (kvBits (savedStore.rows.take (min n savedStore.rows.length)))
      (Nat.min_le_left _ _) (by
        rw [readUpToMaterialized_kvarn hsaved]
        exact hsavedRep.materialize hsavedLong)
    rw [readUpToMaterialized_kvarn hcurrent, hrep.materialize hlong] at hnow
    refine kvBits_inj (hrep.uniform.take _) (hsavedRep.uniform.take _) ?_ (Except.ok.inj hnow)
    rw [List.length_take, List.length_take, Nat.min_eq_left hlong, Nat.min_eq_left hsavedLong]
  · intro hrows len bits hlen hread
    rw [readUpToMaterialized_kvarn hsaved] at hread
    have hstored := KvarnLayerCache.storedLen_of_materialize hread
    rw [hsavedRep.storedLen] at hstored
    have hp : len <= min n savedStore.rows.length :=
      Nat.le_min.mpr ⟨hlen, hstored⟩
    have hstarts : store.rows.take len = savedStore.rows.take len := by
      have hcut := congrArg (List.take len) hrows
      rw [List.take_take, List.take_take, Nat.min_eq_left hp] at hcut
      exact hcut
    rw [hsavedRep.materialize hstored] at hread
    rw [readUpToMaterialized_kvarn hcurrent, hrep.materialize (Nat.le_trans hp hlong), hstarts]
    exact hread

/-!
## Writes and cuts above the saved rows
-/

theorem take_overwrite_grow
    {buffer : List UInt16} {start m : Nat} (row : List UInt16) (stop : Nat) (hstart : m <= start)
    (hbuffer : m <= buffer.length) :
    (overwrite (growF16Buffer buffer stop) start row).take m = buffer.take m ∧
      m <= (overwrite (growF16Buffer buffer stop) start row).length := by
  have hgrown : m <= (growF16Buffer buffer stop).length := by
    rw [growF16Buffer, List.length_append]
    exact Nat.le_trans hbuffer (Nat.le_add_right _ _)
  have hhead : m <= ((growF16Buffer buffer stop).take start).length := by
    rw [List.length_take]
    exact Nat.le_min.mpr ⟨hstart, hgrown⟩
  constructor
  · rw [overwrite, List.append_assoc, List.take_append_of_le_length hhead,
      List.take_take, Nat.min_eq_left hstart, growF16Buffer, List.take_append_of_le_length hbuffer]
  · rw [overwrite, List.append_assoc, List.length_append]
    exact Nat.le_trans hhead (Nat.le_add_right _ _)

theorem readUpToMaterialized_f16_iff {key value : List UInt16} {len : Nat}
    {bits : List UInt16 × List UInt16} (h : layer.storage = .f16 key value) :
    layer.readUpToMaterialized len = .ok bits ↔
      len * layer.stride <= key.length ∧ len * layer.stride <= value.length ∧
        bits = (key.take (len * layer.stride), value.take (len * layer.stride)) := by
  unfold readUpToMaterialized
  rw [h]
  constructor
  · intro hread
    rcases bind_eq_ok hread with ⟨keyBits, hkey, hrest⟩
    rcases bind_eq_ok hrest with ⟨valueBits, hvalue, hbits⟩
    rcases slice_zero_eq_ok_iff.mp hkey with ⟨hkeyLong, hkeyBits⟩
    rcases slice_zero_eq_ok_iff.mp hvalue with ⟨hvalueLong, hvalueBits⟩
    cases hbits
    rw [hkeyBits, hvalueBits]
    exact ⟨hkeyLong, hvalueLong, rfl⟩
  · intro hbits
    rcases hbits with ⟨hkeyLong, hvalueLong, hbits⟩
    dsimp only
    rw [slice_zero_of_le hkeyLong, slice_zero_of_le hvalueLong, hbits]
    rfl

theorem keepsReads_overwrite {n pos : Nat} {key value : List UInt16} (stop : Nat)
    (keyRow valueRow : List UInt16) (hlayer : layer.storage = .f16 key value) (hpos : n <= pos) :
    KeepsReads n layer (layer.withStorage (.f16
      (overwrite (growF16Buffer key stop) (pos * layer.stride) keyRow)
      (overwrite (growF16Buffer value stop) (pos * layer.stride) valueRow))) := by
  intro len bits hlen hread
  have hstart : len * layer.stride <= pos * layer.stride :=
    Nat.mul_le_mul_right _ (Nat.le_trans hlen hpos)
  rcases (readUpToMaterialized_f16_iff hlayer).mp hread with ⟨hkey, hvalue, hbits⟩
  have hkeyNext := take_overwrite_grow keyRow stop hstart hkey
  have hvalueNext := take_overwrite_grow valueRow stop hstart hvalue
  apply (readUpToMaterialized_f16_iff rfl).mpr
  refine ⟨hkeyNext.right, hvalueNext.right, ?_⟩
  rw [hbits, ← hkeyNext.left, ← hvalueNext.left]
  rfl

/-- The state after a step still follows the saved one and reads like the state
before the step. -/
def ReadsLike (n : Nat) (saved current next : LayerCache codec) : Prop :=
  Follows n saved next ∧ (KeepsReads n saved next ↔ KeepsReads n saved current)

theorem readsLike_refl {saved current : LayerCache codec} (h : Follows n saved current) :
    ReadsLike n saved current current :=
  ⟨h, Iff.rfl⟩

theorem readsLike_f16 {savedKey savedValue key value : List UInt16}
    (hsaved : saved.storage = .f16 savedKey savedValue) (hnext : next.storage = .f16 key value)
    (hreads : KeepsReads n saved current) (hstep : KeepsReads n current next) :
    ReadsLike n saved current next :=
  ⟨Follows.f16 hsaved hnext (hreads.trans hstep),
    Iff.intro (fun _ => hreads) (fun _ => hreads.trans hstep)⟩

theorem readsLike_kvarn {savedCache cache nextCache : KvarnLayerCache codec} {shape : KvarnShape}
    {savedStore store nextStore : KvStore shape} (hsaved : saved.storage = .kvarn savedCache)
    (hcurrent : current.storage = .kvarn cache) (hnext : next.storage = .kvarn nextCache)
    (hsavedRep : savedCache.Represents shape savedStore) (hrep : cache.Represents shape store)
    (hnextRep : nextCache.Represents shape nextStore)
    (hlong : min n savedStore.rows.length <= store.rows.length)
    (hnextLong : min n savedStore.rows.length <= nextStore.rows.length)
    (hrows : nextStore.rows.take (min n savedStore.rows.length) =
      store.rows.take (min n savedStore.rows.length)) :
    ReadsLike n saved current next := by
  constructor
  · exact Follows.kvarn hsaved hnext hsavedRep hnextRep hnextLong
  · rw [keepsReads_kvarn_iff hsaved hnext hsavedRep hnextRep hnextLong,
      keepsReads_kvarn_iff hsaved hcurrent hsavedRep hrep hlong, hrows]

theorem writeBitsRange_readsLike {n posStart kvLen : Nat} {kBits vBits : List UInt16}
    (h : Follows n saved current) (hpos : n <= posStart)
    (hnext : current.writeBitsRange posStart kvLen kBits vBits = .ok next) :
    ReadsLike n saved current next := by
  rcases bind_eq_ok hnext with ⟨long, _, hbody⟩
  cases h with
  | f16 hsaved hcurrent hreads =>
    rw [hcurrent] at hbody
    rcases bind_eq_ok hbody with ⟨room, _, hstored⟩
    cases hstored
    exact readsLike_f16 hsaved rfl hreads (keepsReads_overwrite _ _ _ hcurrent hpos)
  | kvarn hsaved hcurrent hsavedRep hrep hlong =>
    rename_i savedCache cache shape savedStore store
    rw [hcurrent] at hbody
    rcases bind_eq_ok hbody with ⟨written, hwritten, hstored⟩
    cases hstored
    have hp := Nat.le_trans (Nat.min_le_left n savedStore.rows.length) hpos
    exact readsLike_kvarn hsaved hcurrent rfl hsavedRep hrep
      (KvarnLayerCache.writeBitsRange_returns hrep written hwritten) hlong
      (le_length_rows_writeAt _ _ hp hlong) (take_rows_writeAt _ _ hp hlong)

theorem writeAt_readsLike {f16FromF32 : UInt32 -> UInt16} {n pos : Nat}
    {kSlice vSlice : List UInt32} (h : Follows n saved current) (hpos : n <= pos)
    (hnext : current.writeAt f16FromF32 pos kSlice vSlice = .ok next) :
    ReadsLike n saved current next := by
  rcases bind_eq_ok hnext with ⟨room, _, hbody⟩
  cases h with
  | f16 hsaved hcurrent hreads =>
    rw [hcurrent] at hbody
    rcases bind_eq_ok hbody with ⟨keyRow, _, hrest⟩
    rcases bind_eq_ok hrest with ⟨valueRow, _, hstored⟩
    cases hstored
    exact readsLike_f16 hsaved rfl hreads (keepsReads_overwrite _ _ _ hcurrent hpos)
  | kvarn hsaved hcurrent hsavedRep hrep hlong =>
    rename_i savedCache cache shape savedStore store
    rw [hcurrent] at hbody
    rcases bind_eq_ok hbody with ⟨written, hwritten, hstored⟩
    cases hstored
    rcases bind_eq_ok hwritten with ⟨keyWidth, _, hrest⟩
    rcases bind_eq_ok hrest with ⟨valueWidth, _, hbits⟩
    have hp := Nat.le_trans (Nat.min_le_left n savedStore.rows.length) hpos
    exact readsLike_kvarn hsaved hcurrent rfl hsavedRep hrep
      (KvarnLayerCache.writeBitsRange_returns hrep written hbits) hlong
      (le_length_rows_writeAt _ _ hp hlong) (take_rows_writeAt _ _ hp hlong)

theorem truncateTo_readsLike
    {n len : Nat} {saved current : LayerCache codec} (h : Follows n saved current)
    (hlen : n <= len) :
    Delivers (current.truncateTo len) (ReadsLike n saved current) := by
  cases h with
  | f16 hsaved hcurrent hreads =>
    unfold truncateTo
    rw [hcurrent]
    exact delivers_ok (readsLike_refl (Follows.f16 hsaved hcurrent hreads))
  | kvarn hsaved hcurrent hsavedRep hrep hlong =>
    rename_i savedCache cache shape savedStore store
    unfold truncateTo
    rw [hcurrent]
    have hp := Nat.le_trans (Nat.min_le_left n savedStore.rows.length) hlen
    refine (KvarnLayerCache.truncateTo_represents hrep len).bind ?_
    intro cut hcut
    exact delivers_ok (readsLike_kvarn hsaved hcurrent rfl hsavedRep hrep hcut hlong
      (le_length_rows_truncate hp hlong) (take_rows_truncate _ hp))

/-!
## Compaction
-/

/-- Compaction keeps the saved reads exactly when its groups decode to
themselves below the saved rows. -/
theorem compact_follows {saved current : LayerCache codec} (h : Follows n saved current) :
    Delivers current.compact (fun next =>
      Follows n saved next ∧ (KeepsReads n saved current ->
        (KeepsReads n saved next ↔ current.CompactKeeps (min n saved.storedRows)))) := by
  cases h with
  | f16 hsaved hcurrent hreads =>
    unfold compact CompactKeeps
    rw [hcurrent]
    apply delivers_ok
    exact ⟨Follows.f16 hsaved hcurrent hreads,
      fun hkeeps => Iff.intro (fun _ => trivial) (fun _ => hkeeps)⟩
  | kvarn hsaved hcurrent hsavedRep hrep hlong =>
    rename_i savedCache cache shape savedStore store
    have hstored : saved.storedRows = savedStore.rows.length := by
      unfold storedRows
      rw [hsaved]
      exact hsavedRep.storedLen
    have hcompactKeeps : current.CompactKeeps (min n saved.storedRows) ↔
        cache.CompactKeeps (min n saved.storedRows) := by
      unfold CompactKeeps
      rw [hcurrent]
    rw [hcompactKeeps, hstored]
    unfold compact
    rw [hcurrent]
    refine (KvarnLayerCache.compact_represents hrep).bind ?_
    intro compacted hcompacted
    have hcompactedLong : min n savedStore.rows.length <=
        (store.compact (shape.requantize codec)).rows.length := by
      rw [length_rows_compact]
      exact hlong
    apply delivers_ok
    refine ⟨Follows.kvarn hsaved rfl hsavedRep hcompacted hcompactedLong, ?_⟩
    intro hkeeps
    rw [keepsReads_kvarn_iff hsaved hcurrent hsavedRep hrep hlong] at hkeeps
    rw [keepsReads_kvarn_iff hsaved rfl hsavedRep hcompacted hcompactedLong, ← hkeeps,
      take_rows_compact_eq_iff, KvarnLayerCache.compactKeeps_iff hrep]

end LayerCache

end KvCache
end RunNBurn
