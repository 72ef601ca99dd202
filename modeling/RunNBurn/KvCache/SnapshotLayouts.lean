import RunNBurn.KvCache.CheckpointExactness

/-!
# Layouts under the cache operations

Every operation keeps the shape that a snapshot is compared against: the
dimensions, the storage kind of each layer, and the number of recurrent states
and indexer rows.  Plain buffers only grow.
-/

namespace RunNBurn
namespace KvCache

open Library

/-!
# One layer
-/

variable (buffer : List UInt16)

theorem length_le_overwrite (start : Nat) (row : List UInt16) :
    buffer.length <= (overwrite buffer start row).length := by
  simp only [overwrite, List.length_append, List.length_take, List.length_drop]
  omega

theorem length_overwrite
    {buffer : List UInt16} {start : Nat} {row : List UInt16}
    (h : start + row.length <= buffer.length) :
    (overwrite buffer start row).length = buffer.length := by
  simp only [overwrite, List.length_append, List.length_take, List.length_drop]
  omega

theorem length_le_growF16Buffer (len : Nat) :
    buffer.length <= (growF16Buffer buffer len).length := by
  rw [growF16Buffer, List.length_append]
  exact Nat.le_add_right _ _

theorem length_le_overwrite_grow (stop start : Nat) (row : List UInt16) :
    buffer.length <= (overwrite (growF16Buffer buffer stop) start row).length :=
  Nat.le_trans (length_le_growF16Buffer buffer stop) (length_le_overwrite _ start row)

inductive LayerCacheStorage.KeepsKind {codec : KvarnCodec} :
    LayerCacheStorage codec -> LayerCacheStorage codec -> Prop where
  | f16 {savedKey savedValue key value : List UInt16}
      (hkey : savedKey.length <= key.length)
      (hvalue : savedValue.length <= value.length) :
      KeepsKind (.f16 savedKey savedValue) (.f16 key value)
  | kvarn {saved current : KvarnLayerCache codec} {shape : KvarnShape}
      {savedStore store : KvStore shape}
      (hsaved : saved.Represents shape savedStore)
      (hcurrent : current.Represents shape store) :
      KeepsKind (.kvarn saved) (.kvarn current)

theorem LayerCacheStorage.KeepsKind.self {codec : KvarnCodec}
    {saved current : LayerCacheStorage codec} (h : LayerCacheStorage.KeepsKind saved current) :
    LayerCacheStorage.KeepsKind current current := by
  cases h with
  | f16 _ _ => exact LayerCacheStorage.KeepsKind.f16 (Nat.le_refl _) (Nat.le_refl _)
  | kvarn _ hcurrent => exact LayerCacheStorage.KeepsKind.kvarn hcurrent hcurrent

theorem LayerCacheStorage.KeepsKind.overwritten {codec : KvarnCodec}
    {saved : LayerCacheStorage codec} {key value : List UInt16}
    (h : saved.KeepsKind (.f16 key value)) (stop start : Nat) (keyRow valueRow : List UInt16) :
    saved.KeepsKind (.f16 (overwrite (growF16Buffer key stop) start keyRow)
      (overwrite (growF16Buffer value stop) start valueRow)) := by
  cases h with
  | f16 hkey hvalue =>
    constructor
    · exact Nat.le_trans hkey (length_le_overwrite_grow _ _ _ _)
    · exact Nat.le_trans hvalue (length_le_overwrite_grow _ _ _ _)

namespace LayerCache

variable {codec : KvarnCodec}

structure SameLayout (saved current : LayerCache codec) : Prop where
  numKvHeads : current.numKvHeads = saved.numKvHeads
  headDim : current.headDim = saved.headDim
  maxSeqLen : current.maxSeqLen = saved.maxSeqLen
  storage : saved.storage.KeepsKind current.storage

def Sound (layer : LayerCache codec) : Prop :=
  layer.storage.KeepsKind layer.storage

theorem SameLayout.sound {saved current : LayerCache codec} (h : SameLayout saved current) :
    current.Sound :=
  h.storage.self

theorem Sound.sameLayout {layer : LayerCache codec} (h : layer.Sound) :
    SameLayout layer layer :=
  SameLayout.mk rfl rfl rfl h

def KeepsLayout (call : LayerCache codec -> Checked (LayerCache codec)) : Prop :=
  forall (saved : LayerCacheStorage codec) layer, saved.KeepsKind layer.storage ->
    Returns (call layer) (fun next => exists storage,
      next = layer.withStorage storage ∧ saved.KeepsKind storage)

theorem KeepsLayout.sameLayout
    {call : LayerCache codec -> Checked (LayerCache codec)} {saved current next : LayerCache codec}
    (hcall : KeepsLayout call) (h : SameLayout saved current) (hnext : call current = .ok next) :
    SameLayout saved next := by
  rcases hcall saved.storage current h.storage next hnext with ⟨storage, heq, hkind⟩
  rw [heq]
  exact SameLayout.mk h.numKvHeads h.headDim h.maxSeqLen hkind

theorem writeAt_keepsLayout (f16FromF32 : UInt32 -> UInt16) (pos : Nat)
    (kSlice vSlice : List UInt32) :
    KeepsLayout
      (fun layer : LayerCache codec => layer.writeAt f16FromF32 pos kSlice vSlice) := by
  intro saved layer h next hnext
  rcases bind_eq_ok hnext with ⟨room, _, hbody⟩
  cases hstorage : layer.storage with
  | f16 key value =>
    rw [hstorage] at h hbody
    rcases bind_eq_ok hbody with ⟨keyRow, _, hrest⟩
    rcases bind_eq_ok hrest with ⟨valueRow, _, hstored⟩
    cases hstored
    exact ⟨_, rfl, h.overwritten _ _ _ _⟩
  | kvarn cache =>
    rw [hstorage] at h hbody
    rcases bind_eq_ok hbody with ⟨written, hwritten, hstored⟩
    cases hstored
    rcases bind_eq_ok hwritten with ⟨keyWidth, _, hrest⟩
    rcases bind_eq_ok hrest with ⟨valueWidth, _, hbits⟩
    cases h with
    | kvarn hsaved hcurrent =>
      exact ⟨_, rfl, LayerCacheStorage.KeepsKind.kvarn hsaved
        (KvarnLayerCache.writeBitsRange_returns hcurrent written hbits)⟩

theorem writeBitsRange_keepsLayout (posStart kvLen : Nat) (kBits vBits : List UInt16) :
    KeepsLayout
      (fun layer : LayerCache codec => layer.writeBitsRange posStart kvLen kBits vBits) := by
  intro saved layer h next hnext
  rcases bind_eq_ok hnext with ⟨long, _, hbody⟩
  cases hstorage : layer.storage with
  | f16 key value =>
    rw [hstorage] at h hbody
    rcases bind_eq_ok hbody with ⟨room, _, hstored⟩
    cases hstored
    exact ⟨_, rfl, h.overwritten _ _ _ _⟩
  | kvarn cache =>
    rw [hstorage] at h hbody
    rcases bind_eq_ok hbody with ⟨written, hwritten, hstored⟩
    cases hstored
    cases h with
    | kvarn hsaved hcurrent =>
      exact ⟨_, rfl, LayerCacheStorage.KeepsKind.kvarn hsaved
        (KvarnLayerCache.writeBitsRange_returns hcurrent written hwritten)⟩

theorem writeBitsUpTo_keepsLayout (len : Nat) (kBits vBits : List UInt16) :
    KeepsLayout (fun layer : LayerCache codec => layer.writeBitsUpTo len kBits vBits) := by
  intro saved layer h next hnext
  rcases bind_eq_ok hnext with ⟨long, _, hbody⟩
  cases hstorage : layer.storage with
  | f16 key value =>
    rw [hstorage] at h hbody
    cases hbody
    exact ⟨_, rfl, h.overwritten _ _ _ _⟩
  | kvarn cache =>
    rw [hstorage] at h hbody
    rcases bind_eq_ok hbody with ⟨written, hwritten, hstored⟩
    cases hstored
    rcases bind_eq_ok hwritten with ⟨cleared, hcleared, hbits⟩
    cases h with
    | kvarn hsaved hcurrent =>
      have hempty :=
        (KvarnLayerCache.truncateTo_represents hcurrent 0).returns cleared hcleared
      exact ⟨_, rfl, LayerCacheStorage.KeepsKind.kvarn hsaved
        (KvarnLayerCache.writeBitsRange_returns hempty written hbits)⟩

theorem compact_keepsLayout : KeepsLayout
    (compact : LayerCache codec -> Checked (LayerCache codec)) := by
  intro saved layer h next hnext
  unfold compact at hnext
  cases hstorage : layer.storage with
  | f16 key value =>
    rw [hstorage] at h hnext
    cases hnext
    refine ⟨.f16 key value, ?_, h⟩
    rw [← hstorage]
    rfl
  | kvarn cache =>
    rw [hstorage] at h hnext
    rcases bind_eq_ok hnext with ⟨compacted, hcompacted, hstored⟩
    cases hstored
    cases h with
    | kvarn hsaved hcurrent =>
      exact ⟨_, rfl, LayerCacheStorage.KeepsKind.kvarn hsaved
        ((KvarnLayerCache.compact_represents hcurrent).returns compacted hcompacted)⟩

theorem truncateTo_keepsLayout (len : Nat) :
    KeepsLayout (fun layer : LayerCache codec => layer.truncateTo len) := by
  intro saved layer h next hnext
  dsimp only at hnext
  unfold truncateTo at hnext
  cases hstorage : layer.storage with
  | f16 key value =>
    rw [hstorage] at h hnext
    cases hnext
    refine ⟨.f16 key value, ?_, h⟩
    rw [← hstorage]
    rfl
  | kvarn cache =>
    rw [hstorage] at h hnext
    rcases bind_eq_ok hnext with ⟨cut, hcut, hstored⟩
    cases hstored
    cases h with
    | kvarn hsaved hcurrent =>
      exact ⟨_, rfl, LayerCacheStorage.KeepsKind.kvarn hsaved
        ((KvarnLayerCache.truncateTo_represents hcurrent len).returns cut hcut)⟩

end LayerCache

/-!
# The whole cache
-/

namespace KVCache

variable {codec : KvarnCodec}

structure SameLayout (saved current : KVCache codec) : Prop where
  layers : List.Forall₂ LayerCache.SameLayout saved.layers current.layers
  ssmStates : current.ssmStates.length = saved.ssmStates.length
  maxSeqLen : current.maxSeqLen = saved.maxSeqLen
  glmIndexerK : List.Forall₂ (fun before after => after.length = before.length)
    saved.glmIndexerK current.glmIndexerK
  glmIndexerKeyLen : current.glmIndexerKeyLen = saved.glmIndexerKeyLen
  glmIndexerTopK : current.glmIndexerTopK = saved.glmIndexerTopK

/-- What holds of every cache: sound layers, and indexer buffers of full size. -/
structure Sound (cache : KVCache codec) : Prop where
  layers : forall layer, layer ∈ cache.layers -> layer.Sound
  glmIndexerK : forall keys, keys ∈ cache.glmIndexerK ->
    keys.length = cache.maxSeqLen * cache.glmIndexerKeyLen

theorem Sound.sameLayout {cache : KVCache codec} (h : cache.Sound) :
    SameLayout cache cache :=
  { layers := forall₂_same (fun layer hlayer => (h.layers layer hlayer).sameLayout)
    ssmStates := rfl
    maxSeqLen := rfl
    glmIndexerK := forall₂_same (fun _ _ => rfl)
    glmIndexerKeyLen := rfl
    glmIndexerTopK := rfl }

theorem SameLayout.sound {saved current : KVCache codec} (h : SameLayout saved current)
    (hsaved : saved.Sound) :
    current.Sound := by
  constructor
  · intro layer hlayer
    rcases List.mem_iff_getElem?.mp hlayer with ⟨l, hl⟩
    rcases exists_getElem?_of_length_eq h.layers.length_eq.symm hl with ⟨a, ha⟩
    exact (getElem?_of_forall₂ h.layers ha hl).sound
  · intro keys hkeys
    rcases List.mem_iff_getElem?.mp hkeys with ⟨l, hl⟩
    rcases exists_getElem?_of_length_eq h.glmIndexerK.length_eq.symm hl with ⟨a, ha⟩
    rw [getElem?_of_forall₂ h.glmIndexerK ha hl,
      hsaved.glmIndexerK a (List.mem_of_getElem? ha), h.maxSeqLen, h.glmIndexerKeyLen]

variable {saved current next : KVCache codec}

theorem updateLayer_sameLayout {layer : Nat}
    {call : LayerCache codec -> Checked (LayerCache codec)} (h : SameLayout saved current)
    (hcall : LayerCache.KeepsLayout call) (hnext : current.updateLayer layer call = .ok next) :
    SameLayout saved next := by
  rcases updateLayer_eq_ok hnext with ⟨before, after, hbefore, hafter, heq⟩
  rw [heq]
  refine { h with layers := forall₂_set h.layers ?_ }
  intro a ha
  exact hcall.sameLayout (getElem?_of_forall₂ h.layers ha hbefore) hafter

theorem noteWritten_sameLayout
    {saved current : KVCache codec} (layer stop : Nat) (h : SameLayout saved current) :
    SameLayout saved (current.noteWritten layer stop) := by
  unfold noteWritten
  split
  · exact { h with }
  · exact h

theorem append_sameLayout {f16FromF32 : UInt32 -> UInt16} {layer pos : Nat} {k v : List UInt32}
    (h : SameLayout saved current) (hnext : current.append f16FromF32 layer pos k v = .ok next) :
    SameLayout saved next := by
  rcases bind_eq_ok hnext with ⟨written, hwritten, hnoted⟩
  cases hnoted
  exact noteWritten_sameLayout layer (pos + 1)
    (updateLayer_sameLayout h (LayerCache.writeAt_keepsLayout f16FromF32 pos k v) hwritten)

theorem appendBitsRange_sameLayout {layer posStart seqLen : Nat} {kBits vBits : List UInt16}
    (h : SameLayout saved current)
    (hnext : current.appendBitsRange layer posStart seqLen kBits vBits = .ok next) :
    SameLayout saved next := by
  rcases bind_eq_ok hnext with ⟨written, hwritten, hnoted⟩
  cases hnoted
  exact noteWritten_sameLayout layer (posStart + seqLen) (updateLayer_sameLayout h
      (LayerCache.writeBitsRange_keepsLayout posStart seqLen kBits vBits) hwritten)

theorem replaceLayerF16RangeCompacted_sameLayout {layer posStart kvLen : Nat}
    {kBits vBits : List UInt16} (h : SameLayout saved current)
    (hnext : current.replaceLayerF16RangeCompacted layer posStart kvLen kBits vBits = .ok next) :
    SameLayout saved next := by
  rcases bind_eq_ok hnext with ⟨written, hwritten, hrest⟩
  rcases bind_eq_ok hrest with ⟨kvarn, _, hcompacted⟩
  have hkept := updateLayer_sameLayout h
    (LayerCache.writeBitsRange_keepsLayout posStart kvLen kBits vBits) hwritten
  cases kvarn with
  | false =>
    cases hcompacted
    exact hkept
  | true => exact updateLayer_sameLayout hkept LayerCache.compact_keepsLayout hcompacted

theorem mapM_truncateTo_sameLayout
    {saved current : KVCache codec} {layers : List (LayerCache codec)} {len : Nat}
    (h : SameLayout saved current)
    (hlayers : (current.layers.mapM fun layer => layer.truncateTo len) = .ok layers) :
    List.Forall₂ LayerCache.SameLayout saved.layers layers :=
  forall₂_comp h.layers (mapM_returns _ _ layers hlayers)
    (fun _ _ _ hkept hcut => (LayerCache.truncateTo_keepsLayout len).sameLayout hkept hcut)

theorem setLen_sameLayout {len : Nat} (h : SameLayout saved current)
    (hnext : current.setLen len = .ok next) :
    SameLayout saved next := by
  rcases bind_eq_ok hnext with ⟨layers, hlayers, hstored⟩
  cases hstored
  exact { h with layers := mapM_truncateTo_sameLayout h hlayers }

theorem clear_sameLayout (h : SameLayout saved current) (hnext : current.clear = .ok next) :
    SameLayout saved next := by
  rcases bind_eq_ok hnext with ⟨layers, hlayers, hstored⟩
  cases hstored
  exact { h with
    layers := mapM_truncateTo_sameLayout h hlayers
    ssmStates := List.length_map _ |>.trans h.ssmStates }

theorem initSsmState_sameLayout
    {saved current : KVCache codec} (layerIdx : Nat) (state : SsmLayerState UInt32)
    (h : SameLayout saved current) :
    SameLayout saved (current.initSsmState layerIdx state) := by
  unfold initSsmState
  split
  · exact { h with ssmStates := List.length_set.trans h.ssmStates }
  · exact h

theorem updateSsmState_sameLayout
    {saved current : KVCache codec} (layerIdx : Nat) (state : SsmLayerState UInt32)
    (h : SameLayout saved current) :
    SameLayout saved (current.updateSsmState layerIdx state) := by
  unfold updateSsmState
  split
  · exact { h with ssmStates := List.length_set.trans h.ssmStates }
  · exact h

theorem assignSsmState_sameLayout {layerIdx : Nat} {state : Option (SsmLayerState UInt32)}
    (h : SameLayout saved current) (hnext : current.assignSsmState layerIdx state = .ok next) :
    SameLayout saved next := by
  rcases bind_eq_ok hnext with ⟨inside, _, hstored⟩
  cases hstored
  exact { h with ssmStates := List.length_set.trans h.ssmStates }

theorem writeGlmIndexerK_sameLayout {f16FromF32 : UInt32 -> UInt16} {layer pos : Nat}
    {k : List UInt32} (h : SameLayout saved current)
    (hnext : current.writeGlmIndexerK f16FromF32 layer pos k = .ok next) :
    SameLayout saved next := by
  rcases bind_eq_ok hnext with ⟨room, _, hrest⟩
  rcases bind_eq_ok hrest with ⟨keys, hkeys, hslice⟩
  rcases bind_eq_ok hslice with ⟨inside, hinside, hstored⟩
  cases hstored
  refine { h with glmIndexerK := forall₂_set h.glmIndexerK ?_ }
  intro before hbefore
  have hlong := require_eq_ok hinside
  have hrow : pos * current.glmIndexerKeyLen +
      ((k.take current.glmIndexerKeyLen).map f16FromF32).length <= keys.length := by
    rw [List.length_map, List.length_take]
    rw [Nat.add_mul, Nat.one_mul] at hlong
    exact Nat.le_trans (Nat.add_le_add_left (Nat.min_le_left _ _) _) hlong
  rw [length_overwrite hrow]
  have hkept := getElem?_of_forall₂ h.glmIndexerK hbefore (getElem?_of_index_eq_ok hkeys)
  exact hkept

end KVCache

theorem CacheOp.call_sameLayout {codec : KvarnCodec}
    {f16FromF32 : UInt32 -> UInt16} {saved current next : KVCache codec} {op : CacheOp}
    (h : KVCache.SameLayout saved current) (hnext : op.call f16FromF32 current = .ok next) :
    KVCache.SameLayout saved next := by
  cases op with
  | append layer pos k v => exact KVCache.append_sameLayout h hnext
  | appendBitsRange layer posStart seqLen kBits vBits =>
    exact KVCache.appendBitsRange_sameLayout h hnext
  | replaceLayerF16Range layer posStart kvLen kBits vBits =>
    exact KVCache.updateLayer_sameLayout h
      (LayerCache.writeBitsRange_keepsLayout posStart kvLen kBits vBits) hnext
  | replaceLayerF16RangeCompacted layer posStart kvLen kBits vBits =>
    exact KVCache.replaceLayerF16RangeCompacted_sameLayout h hnext
  | compactLayer layer =>
    exact KVCache.updateLayer_sameLayout h LayerCache.compact_keepsLayout hnext
  | setLen len => exact KVCache.setLen_sameLayout h hnext
  | initSsmState layerIdx state =>
    cases hnext
    exact KVCache.initSsmState_sameLayout layerIdx state h
  | updateSsmState layerIdx state =>
    cases hnext
    exact KVCache.updateSsmState_sameLayout layerIdx state h

/-!
# Operations between a snapshot and its restoration
-/

inductive SequenceOp where
  | cacheOp (op : CacheOp)
  | replaceLayerF16 (layer len : Nat) (kBits vBits : List UInt16)
  | writeGlmIndexerK (layer pos : Nat) (k : List UInt32)
  | assignSsmState (layerIdx : Nat) (state : Option (SsmLayerState UInt32))
  | clear

namespace SequenceOp

variable {codec : KvarnCodec}

def call (f16FromF32 : UInt32 -> UInt16) (cache : KVCache codec) :
    SequenceOp -> Checked (KVCache codec)
  | cacheOp op => op.call f16FromF32 cache
  | replaceLayerF16 layer len kBits vBits => cache.replaceLayerF16 layer len kBits vBits
  | writeGlmIndexerK layer pos k => cache.writeGlmIndexerK f16FromF32 layer pos k
  | assignSsmState layerIdx state => cache.assignSsmState layerIdx state
  | clear => cache.clear

def callAll (f16FromF32 : UInt32 -> UInt16) (cache : KVCache codec)
    (ops : List SequenceOp) : Checked (KVCache codec) :=
  ops.foldlM (call f16FromF32) cache

theorem call_sameLayout
    {f16FromF32 : UInt32 -> UInt16} {saved current next : KVCache codec} {op : SequenceOp}
    (h : KVCache.SameLayout saved current) (hnext : op.call f16FromF32 current = .ok next) :
    KVCache.SameLayout saved next := by
  cases op with
  | cacheOp op => exact CacheOp.call_sameLayout h hnext
  | replaceLayerF16 layer len kBits vBits =>
    exact KVCache.updateLayer_sameLayout h
      (LayerCache.writeBitsUpTo_keepsLayout len kBits vBits) hnext
  | writeGlmIndexerK layer pos k => exact KVCache.writeGlmIndexerK_sameLayout h hnext
  | assignSsmState layerIdx state => exact KVCache.assignSsmState_sameLayout h hnext
  | clear => exact KVCache.clear_sameLayout h hnext

theorem callAll_sameLayout
    {f16FromF32 : UInt32 -> UInt16} {saved current final : KVCache codec} {ops : List SequenceOp}
    (h : KVCache.SameLayout saved current) (hrun : callAll f16FromF32 current ops = .ok final) :
    KVCache.SameLayout saved final := by
  induction ops generalizing current with
  | nil =>
    cases hrun
    exact h
  | cons op rest ih =>
    unfold callAll at hrun
    rw [List.foldlM_cons] at hrun
    rcases bind_eq_ok hrun with ⟨next, hnext, hrest⟩
    exact ih (call_sameLayout h hnext) hrest

end SequenceOp

end KvCache
end RunNBurn
