import RunNBurn.Inference.KvShare

/-!
# Exactness of the refreshed view

A refresh trusts the rows below the length it saw last.  It therefore shows what
a fresh extraction shows as long as no compaction takes such a row into a group
that decodes to something else.
-/

namespace RunNBurn
namespace KvCache

open Library

variable {codec : KvarnCodec}

/-!
# A read as a shorter read and a range
-/

theorem slice_zero_eq_ok_iff_split {alpha : Type} {xs all : List alpha} {lo hi : Nat}
    (hle : lo <= hi) :
    slice xs 0 hi = .ok all ↔
      exists part, slice xs lo hi = .ok part ∧ all = xs.take lo ++ part := by
  have hsplit : xs.take hi = xs.take lo ++ (xs.drop lo).take (hi - lo) := by
    rw [← List.take_add, Nat.add_sub_cancel' hle]
  rw [slice_zero_eq_ok_iff, hsplit]
  constructor
  · intro h
    exact ⟨_, slice_of_le hle h.left, h.right⟩
  · intro h
    rcases h with ⟨part, hpart, hall⟩
    unfold slice at hpart
    split at hpart
    · rename_i hbounds
      cases hpart
      exact ⟨hbounds.right, hall⟩
    · cases hpart

theorem KvarnLayerCache.Represents.materialize_eq_ok_iff {shape : KvarnShape}
    {cache : KvarnLayerCache codec} {store : KvStore shape} {n stop : Nat}
    {bits : List UInt16 × List UInt16} (h : cache.Represents shape store) (hle : n <= stop) :
    cache.materialize stop = .ok bits ↔
      exists part, cache.materializeRange n stop = .ok part ∧
        bits = ((kvBits (store.rows.take n)).1 ++ part.1,
          (kvBits (store.rows.take n)).2 ++ part.2) := by
  have hsplit : store.rows.take stop =
      store.rows.take n ++ (store.rows.take stop).drop n := by
    have hhead : store.rows.take n = (store.rows.take stop).take n := by
      rw [List.take_take, Nat.min_eq_left hle]
    rw [hhead, List.take_append_drop]
  have hbits := kvBits_append (store.rows.take n) ((store.rows.take stop).drop n)
  rw [← hsplit] at hbits
  constructor
  · intro hread
    have hstop := storedLen_of_materialize hread
    rw [h.storedLen] at hstop
    rw [h.materialize hstop] at hread
    exact ⟨_, h.materializeRange hle hstop, (Except.ok.inj hread).symm.trans hbits⟩
  · intro hread
    rcases hread with ⟨part, hpart, hall⟩
    have hstop : stop <= store.rows.length := by
      rcases bind_eq_ok hpart with ⟨bounded, hbounded, _⟩
      rw [← h.storedLen]
      exact (require_eq_ok hbounded).right
    rw [h.materializeRange hle hstop] at hpart
    rw [h.materialize hstop, hall, ← Except.ok.inj hpart, hbits]

namespace LayerCache

theorem Sound.follows {layer : LayerCache codec} (h : layer.Sound) (n : Nat) :
    Follows n layer layer := by
  unfold Sound at h
  cases hstorage : layer.storage with
  | f16 key value => exact Follows.f16 hstorage hstorage (keepsReads_refl n layer)
  | kvarn cache =>
    rw [hstorage] at h
    cases h with
    | kvarn hsaved hcurrent =>
      exact Follows.kvarn hstorage hstorage hcurrent hcurrent (Nat.min_le_right _ _)

theorem readUpTo_eq_ok_iff_readRange {layer : LayerCache codec} {n stop : Nat}
    {k v : List UInt16} {bits : List UInt16 × List UInt16}
    (h : layer.Sound) (hle : n <= stop) (hread : layer.readUpToMaterialized n = .ok (k, v)) :
    layer.readUpToMaterialized stop = .ok bits ↔
      exists part, layer.readRangeMaterialized n stop = .ok part ∧
        bits = (k ++ part.1, v ++ part.2) := by
  unfold Sound at h
  cases hstorage : layer.storage with
  | f16 key value =>
    have hmul : n * layer.stride <= stop * layer.stride := Nat.mul_le_mul_right _ hle
    rcases (readUpToMaterialized_f16_iff hstorage).mp hread with ⟨_, _, hbits⟩
    cases hbits
    unfold readUpToMaterialized readRangeMaterialized
    rw [hstorage]
    constructor
    · intro hlong
      rcases bind_eq_ok hlong with ⟨keyBits, hkey, hrest⟩
      rcases bind_eq_ok hrest with ⟨valueBits, hvalue, hboth⟩
      cases hboth
      rcases (slice_zero_eq_ok_iff_split hmul).mp hkey with ⟨keyPart, hkeyPart, hkeyAll⟩
      rcases (slice_zero_eq_ok_iff_split hmul).mp hvalue with
        ⟨valuePart, hvaluePart, hvalueAll⟩
      refine ⟨(keyPart, valuePart), ?_, ?_⟩
      · dsimp only
        rw [hkeyPart, ok_bind, hvaluePart]
        rfl
      · rw [hkeyAll, hvalueAll]
    · intro hsuffix
      rcases hsuffix with ⟨part, hpart, hall⟩
      rcases bind_eq_ok hpart with ⟨keyPart, hkey, hrest⟩
      rcases bind_eq_ok hrest with ⟨valuePart, hvalue, hboth⟩
      cases hboth
      dsimp only
      rw [(slice_zero_eq_ok_iff_split hmul).mpr ⟨keyPart, hkey, rfl⟩, ok_bind,
        (slice_zero_eq_ok_iff_split hmul).mpr ⟨valuePart, hvalue, rfl⟩, hall]
      rfl
  | kvarn cache =>
    rw [hstorage] at h
    cases h with
    | kvarn _ hrep =>
      have hshort := hread
      rw [readUpToMaterialized_kvarn hstorage] at hshort
      have hstored := KvarnLayerCache.storedLen_of_materialize hshort
      rw [hrep.storedLen] at hstored
      rw [hrep.materialize hstored] at hshort
      have hpair := Except.ok.inj hshort
      rw [readUpToMaterialized_kvarn hstorage, hrep.materialize_eq_ok_iff hle, hpair]
      unfold readRangeMaterialized
      rw [hstorage]

/-- A longer read that starts with what the earlier layer held reads the same below. -/
theorem keepsReads_of_extends {saved current : LayerCache codec} {n stop : Nat}
    {bits part : List UInt16 × List UInt16} (h : Follows n saved current) (hle : n <= stop)
    (hsaved : saved.readUpToMaterialized n = .ok bits)
    (hpart : current.readRangeMaterialized n stop = .ok part)
    (hall : current.readUpToMaterialized stop = .ok (bits.1 ++ part.1, bits.2 ++ part.2)) :
    KeepsReads n saved current := by
  cases h with
  | f16 _ _ hreads => exact hreads
  | kvarn hsavedStorage hcurrent hsavedRep hrep hlong =>
    rename_i savedCache cache shape savedStore store
    rw [readUpToMaterialized_kvarn hsavedStorage] at hsaved
    have hstored := KvarnLayerCache.storedLen_of_materialize hsaved
    rw [hsavedRep.storedLen] at hstored
    rw [hsavedRep.materialize hstored] at hsaved
    unfold readRangeMaterialized at hpart
    rw [hcurrent] at hpart
    have hrange : cache.materializeRange n stop = .ok part := hpart
    rw [readUpToMaterialized_kvarn hcurrent, hrep.materialize_eq_ok_iff hle] at hall
    rcases hall with ⟨again, hagain, hboth⟩
    rw [hrange] at hagain
    cases hagain
    rw [Nat.min_eq_left hstored] at hlong
    rw [keepsReads_kvarn_iff hsavedStorage hcurrent hsavedRep hrep
      (by rwa [Nat.min_eq_left hstored]), Nat.min_eq_left hstored]
    apply kvBits_inj (hrep.uniform.take n) (hsavedRep.uniform.take n)
    · rw [List.length_take, List.length_take, Nat.min_eq_left hlong, Nat.min_eq_left hstored]
    · rw [Except.ok.inj hsaved]
      exact Prod.ext (List.append_cancel_right (congrArg Prod.fst hboth)).symm
        (List.append_cancel_right (congrArg Prod.snd hboth)).symm

theorem keepsReads_of_storedRows_eq_zero {saved current : LayerCache codec} {n : Nat}
    (h : Follows n saved current) (hzero : saved.storedRows = 0) :
    KeepsReads n saved current := by
  cases h with
  | f16 _ _ hreads => exact hreads
  | kvarn hsaved hcurrent hsavedRep hrep hlong =>
    unfold storedRows at hzero
    rw [hsaved] at hzero
    have hnone := hsavedRep.storedLen.symm.trans hzero
    rw [keepsReads_kvarn_iff hsaved hcurrent hsavedRep hrep hlong, hnone, Nat.min_zero,
      List.take_zero, List.take_zero]

theorem CompactKeeps.mono {layer : LayerCache codec} {p q : Nat}
    (h : layer.CompactKeeps q) (hle : p <= q) :
    layer.CompactKeeps p := by
  unfold CompactKeeps at h ⊢
  cases hstorage : layer.storage with
  | f16 key value => trivial
  | kvarn cache =>
    rw [hstorage] at h
    intro b hb
    have hkept := congrArg
      (List.take (p - (cache.config.sinkTokens +
        (cache.blocks.length + b) * cache.config.group))) (h b hb)
    rw [List.take_take, List.take_take, Nat.min_eq_left (Nat.sub_le_sub_right hle _)] at hkept
    exact hkept

end LayerCache

theorem KVCache.Reachable.callAll {f16FromF32 : UInt32 -> UInt16} {cache next : KVCache codec}
    {ops : List SequenceOp} (h : KVCache.Reachable f16FromF32 cache)
    (hrun : SequenceOp.callAll f16FromF32 cache ops = .ok next) :
    KVCache.Reachable f16FromF32 next := by
  induction ops generalizing cache with
  | nil =>
    cases hrun
    exact h
  | cons op rest ih =>
    unfold SequenceOp.callAll at hrun
    rw [List.foldlM_cons] at hrun
    rcases bind_eq_ok hrun with ⟨middle, hmiddle, hrest⟩
    exact ih (h.call hmiddle) hrest

/-!
# One layer under one operation
-/

namespace CacheOp

/-- A compaction of the layer leaves its rows below `n` alone. -/
def LeavesRows (n layer : Nat) (current : LayerCache codec) : CacheOp -> Prop
  | compactLayer other => other = layer -> current.CompactKeeps n
  | replaceLayerF16RangeCompacted other posStart kvLen kBits vBits =>
    other = layer -> forall written,
      current.writeBitsRange posStart kvLen kBits vBits = .ok written ->
        written.CompactKeeps n
  | _ => True

/-- What the operation makes of a layer that reads the same below `n`. -/
def KeepsLayer (n layer : Nat) (current : LayerCache codec) (next : KVCache codec) : Prop :=
  exists after, next.layers[layer]? = some after ∧ LayerCache.KeepsReads n current after

variable {n layer : Nat} {cache next : KVCache codec} {current : LayerCache codec}

theorem keepsLayer_of_layers_eq (hcurrent : cache.layers[layer]? = some current)
    (h : next.layers = cache.layers) :
    KeepsLayer n layer current next := by
  exists current
  rw [h]
  exact ⟨hcurrent, LayerCache.keepsReads_refl n current⟩

theorem updateLayer_keepsLayer {other : Nat} {call : LayerCache codec -> Checked (LayerCache codec)}
    (hcurrent : cache.layers[layer]? = some current)
    (hcall : other = layer -> forall after, call current = .ok after ->
      LayerCache.KeepsReads n current after)
    (hnext : cache.updateLayer other call = .ok next) :
    KeepsLayer n layer current next := by
  rcases KVCache.updateLayer_eq_ok hnext with ⟨before, after, hbefore, hafter, heq⟩
  rw [heq]
  by_cases hsame : other = layer
  · rw [hsame, hcurrent] at hbefore
    cases hbefore
    exists after
    rw [hsame]
    exact ⟨List.getElem?_set_self (List.getElem?_eq_some_iff.mp hcurrent).1,
      hcall hsame after hafter⟩
  · exists current
    exact ⟨(List.getElem?_set_ne hsame).trans hcurrent, LayerCache.keepsReads_refl n current⟩

theorem KeepsLayer.noteWritten {written : KVCache codec} (other stop : Nat)
    (h : KeepsLayer n layer current written) :
    KeepsLayer n layer current (written.noteWritten other stop) := by
  unfold KVCache.noteWritten
  split
  · exact h
  · exact h

theorem writeBitsRange_keepsReads {posStart kvLen : Nat} {kBits vBits : List UInt16}
    {after : LayerCache codec} (hsound : current.Sound) (hpos : n <= posStart)
    (hafter : current.writeBitsRange posStart kvLen kBits vBits = .ok after) :
    LayerCache.KeepsReads n current after :=
  (LayerCache.writeBitsRange_readsLike (hsound.follows n) hpos hafter).right.mpr
    (LayerCache.keepsReads_refl n current)

theorem compact_keepsReads {first second : LayerCache codec}
    (h : LayerCache.Follows n current first) (hreads : LayerCache.KeepsReads n current first)
    (hkeep : first.CompactKeeps n) (hsecond : first.compact = .ok second) :
    LayerCache.KeepsReads n current second := by
  have hcompact := (LayerCache.compact_follows h).returns second hsecond
  exact (hcompact.right hreads).mpr (hkeep.mono (Nat.min_le_left _ _))

theorem replaceCompacted_keepsLayer {other posStart kvLen : Nat} {kBits vBits : List UInt16}
    (hsound : current.Sound) (hpos : n <= posStart) (hcurrent : cache.layers[layer]? = some current)
    (hkeep : other = layer -> forall written,
      current.writeBitsRange posStart kvLen kBits vBits = .ok written ->
        written.CompactKeeps n)
    (hnext : cache.replaceLayerF16RangeCompacted other posStart kvLen kBits vBits = .ok next) :
    KeepsLayer n layer current next := by
  rcases bind_eq_ok hnext with ⟨written, hwritten, hrest⟩
  rcases bind_eq_ok hrest with ⟨kvarn, _, hfinish⟩
  cases kvarn with
  | false =>
    cases hfinish
    exact updateLayer_keepsLayer hcurrent
      (fun _ after hafter => writeBitsRange_keepsReads hsound hpos hafter) hwritten
  | true =>
    rcases KVCache.updateLayer_eq_ok hwritten with ⟨before, middle, hbefore, hmiddle, heq⟩
    by_cases hsame : other = layer
    · rw [hsame, hcurrent] at hbefore
      cases hbefore
      have hstays := LayerCache.writeBitsRange_readsLike (hsound.follows n) hpos hmiddle
      have hreads := hstays.right.mpr (LayerCache.keepsReads_refl n current)
      have hthere : written.layers[layer]? = some middle := by
        rw [heq, hsame]
        exact List.getElem?_set_self (List.getElem?_eq_some_iff.mp hcurrent).1
      rcases KVCache.updateLayer_eq_ok hfinish with ⟨again, after, hagain, hafter, hlast⟩
      rw [hsame, hthere] at hagain
      cases hagain
      exists after
      rw [hlast, hsame]
      exact ⟨List.getElem?_set_self (List.getElem?_eq_some_iff.mp hthere).1,
        compact_keepsReads hstays.left hreads (hkeep hsame middle hmiddle) hafter⟩
    · have hthere : written.layers[layer]? = some current := by
        rw [heq]
        exact (List.getElem?_set_ne hsame).trans hcurrent
      exact updateLayer_keepsLayer hthere (fun h => absurd h hsame) hfinish

theorem setLen_keepsLayer {len : Nat} (hsound : current.Sound) (hlen : n <= len)
    (hcurrent : cache.layers[layer]? = some current) (hnext : cache.setLen len = .ok next) :
    KeepsLayer n layer current next := by
  rcases bind_eq_ok hnext with ⟨layers, hlayers, hstored⟩
  cases hstored
  have hcuts := mapM_returns _ _ layers hlayers
  rcases exists_getElem?_of_length_eq hcuts.length_eq hcurrent with ⟨after, hafter⟩
  have hcut := getElem?_of_forall₂ hcuts hcurrent hafter
  have hlike := (LayerCache.truncateTo_readsLike (hsound.follows n) hlen).returns after hcut
  exact ⟨after, hafter, hlike.right.mpr (LayerCache.keepsReads_refl n current)⟩

/-- An operation above row `n` whose compaction leaves the rows below alone. -/
theorem call_keepsLayer {f16FromF32 : UInt32 -> UInt16} {op : CacheOp}
    (hsound : current.Sound) (hcurrent : cache.layers[layer]? = some current)
    (hop : op.StaysAbove n) (hkeep : op.LeavesRows n layer current)
    (hnext : op.call f16FromF32 cache = .ok next) :
    KeepsLayer n layer current next := by
  cases op with
  | append other pos k v =>
    rcases bind_eq_ok hnext with ⟨written, hwritten, hnoted⟩
    cases hnoted
    refine (updateLayer_keepsLayer hcurrent ?_ hwritten).noteWritten other (pos + 1)
    intro _ after hafter
    exact (LayerCache.writeAt_readsLike (hsound.follows n) hop hafter).right.mpr
      (LayerCache.keepsReads_refl n current)
  | appendBitsRange other posStart seqLen kBits vBits =>
    rcases bind_eq_ok hnext with ⟨written, hwritten, hnoted⟩
    cases hnoted
    refine (updateLayer_keepsLayer hcurrent ?_ hwritten).noteWritten other (posStart + seqLen)
    exact fun _ after hafter => writeBitsRange_keepsReads hsound hop hafter
  | replaceLayerF16Range other posStart kvLen kBits vBits =>
    exact updateLayer_keepsLayer hcurrent
      (fun _ after hafter => writeBitsRange_keepsReads hsound hop hafter) hnext
  | replaceLayerF16RangeCompacted other posStart kvLen kBits vBits =>
    exact replaceCompacted_keepsLayer hsound hop hcurrent hkeep hnext
  | compactLayer other =>
    refine updateLayer_keepsLayer hcurrent ?_ hnext
    intro hsame after hafter
    exact compact_keepsReads (hsound.follows n) (LayerCache.keepsReads_refl n current)
      (hkeep hsame) hafter
  | setLen len => exact setLen_keepsLayer hsound hop hcurrent hnext
  | initSsmState layerIdx state =>
    cases hnext
    apply keepsLayer_of_layers_eq hcurrent
    unfold KVCache.initSsmState
    split
    · rfl
    · rfl
  | updateSsmState layerIdx state =>
    cases hnext
    apply keepsLayer_of_layers_eq hcurrent
    unfold KVCache.updateSsmState
    split
    · rfl
    · rfl

theorem le_currentLen_noteWritten {written : KVCache codec} (other stop : Nat)
    (h : n <= written.currentLen) :
    n <= (written.noteWritten other stop).currentLen := by
  unfold KVCache.noteWritten
  split
  · exact Nat.le_trans h (Nat.le_max_left _ _)
  · exact h

theorem currentLen_updateLayer {other : Nat} {call : LayerCache codec -> Checked (LayerCache codec)}
    (hnext : cache.updateLayer other call = .ok next) :
    next.currentLen = cache.currentLen := by
  rcases KVCache.updateLayer_eq_ok hnext with ⟨_, _, _, _, heq⟩
  rw [heq]

theorem call_le_currentLen {f16FromF32 : UInt32 -> UInt16} {op : CacheOp}
    (hle : n <= cache.currentLen) (hop : op.StaysAbove n)
    (hnext : op.call f16FromF32 cache = .ok next) :
    n <= next.currentLen := by
  cases op with
  | append other pos k v =>
    rcases bind_eq_ok hnext with ⟨written, hwritten, hnoted⟩
    cases hnoted
    apply le_currentLen_noteWritten
    rw [currentLen_updateLayer hwritten]
    exact hle
  | appendBitsRange other posStart seqLen kBits vBits =>
    rcases bind_eq_ok hnext with ⟨written, hwritten, hnoted⟩
    cases hnoted
    apply le_currentLen_noteWritten
    rw [currentLen_updateLayer hwritten]
    exact hle
  | replaceLayerF16Range other posStart kvLen kBits vBits =>
    rw [currentLen_updateLayer hnext]
    exact hle
  | replaceLayerF16RangeCompacted other posStart kvLen kBits vBits =>
    rcases bind_eq_ok hnext with ⟨written, hwritten, hrest⟩
    rcases bind_eq_ok hrest with ⟨kvarn, _, hfinish⟩
    have hlen := currentLen_updateLayer hwritten
    cases kvarn with
    | false =>
      cases hfinish
      rw [hlen]
      exact hle
    | true =>
      rw [currentLen_updateLayer hfinish, hlen]
      exact hle
  | compactLayer other =>
    rw [currentLen_updateLayer hnext]
    exact hle
  | setLen len =>
    rcases bind_eq_ok hnext with ⟨layers, _, hstored⟩
    cases hstored
    exact hop
  | initSsmState layerIdx state =>
    cases hnext
    unfold KVCache.initSsmState
    split
    · exact hle
    · exact hle
  | updateSsmState layerIdx state =>
    cases hnext
    unfold KVCache.updateSsmState
    split
    · exact hle
    · exact hle

end CacheOp
end KvCache

namespace Inference

open Library
open KvCache

variable {codec : KvarnCodec}

theorem expect_eq_ok {alpha : Type} {value : Option alpha} {message : String} {x : alpha}
    (h : expect value message = .ok x) :
    value = some x := by
  cases value with
  | none => cases h
  | some y =>
    cases h
    rfl

/-!
# One shared layer
-/

def nativeLayer (layerIdx nKvHeads headDim seqLen : Nat) (bits : List UInt16 × List UInt16) :
    SharedKvLayer where
  k := []
  v := []
  kF16 := some bits.1
  vF16 := some bits.2
  sourceLayerIdx := some layerIdx
  nKvHeads := nKvHeads
  seqLen := seqLen
  headDim := headDim

namespace DrafterTarget

def HeadsFit (target : DrafterTarget codec) (layerIdx : Nat) (current : LayerCache codec) : Prop :=
  let headDim := target.metadata.headDimForLayer layerIdx
  headDim ≠ 0 ∧ current.stride / headDim * headDim = current.stride

/-- The shared layer holds the first `n` rows of its source, as they read now. -/
def Mirrors (target : DrafterTarget codec) (layerIdx n : Nat) (layer : SharedKvLayer) : Prop :=
  exists current bits, target.kvCache.layers[layerIdx]? = some current ∧
    target.HeadsFit layerIdx current ∧ current.readUpToMaterialized n = .ok bits ∧
      layer = nativeLayer layerIdx
        (current.stride / target.metadata.headDimForLayer layerIdx)
        (target.metadata.headDimForLayer layerIdx) n bits

variable {target : DrafterTarget codec} {layerIdx n : Nat} {layer : SharedKvLayer}

theorem extract_eq_ok_iff {f32FromF16 : UInt16 -> UInt32} (hnative : target.nativeCudaKv = true) :
    target.extractSharedKvLayer f32FromF16 layerIdx = .ok layer ↔
      target.Mirrors layerIdx target.kvCache.currentLen layer := by
  constructor
  · intro h
    rcases bind_eq_ok h with ⟨kvDim, hkvDim, hrest⟩
    rcases bind_eq_ok hkvDim with ⟨current, hcurrent, hdim⟩
    cases hdim
    rcases bind_eq_ok hrest with ⟨nKvHeads, hheads, hrest⟩
    rcases bind_eq_ok hrest with ⟨fits, hfits, hrest⟩
    have hfill := require_eq_ok hfits
    unfold divide at hheads
    split at hheads
    · cases hheads
    · rename_i hpos
      cases hheads
      rw [if_pos hnative] at hrest
      rcases bind_eq_ok hrest with ⟨bits, hbits, hlayer⟩
      have hthere := getElem?_of_index_eq_ok hcurrent
      rcases bind_eq_ok hbits with ⟨again, hagain, hread⟩
      rw [hcurrent] at hagain
      cases hagain
      cases hlayer
      exact ⟨current, bits, hthere, And.intro hpos hfill, hread, rfl⟩
  · intro h
    rcases h with ⟨current, bits, hcurrent, hfit, hread, hlayer⟩
    have hindex := index_of_getElem?_eq_some hcurrent
    have hdim : target.kvCache.layerKvDim layerIdx = .ok current.stride := by
      unfold KVCache.layerKvDim
      rw [hindex]
      rfl
    have hbits : target.kvCache.readUpTo layerIdx target.kvCache.currentLen = .ok bits := by
      unfold KVCache.readUpTo
      rw [hindex, ok_bind, hread]
    unfold extractSharedKvLayer
    dsimp only
    rw [hdim, ok_bind, divide_of_pos (Nat.pos_of_ne_zero hfit.left), ok_bind,
      require_of_true _ hfit.right, ok_bind, if_pos hnative]
    unfold extractNativeKvLayer
    dsimp only
    rw [hbits, hlayer]
    rfl

theorem Mirrors.sourceLayerIdx (h : target.Mirrors layerIdx n layer) :
    layer.sourceLayerIdx = some layerIdx := by
  rcases h with ⟨_, _, _, _, _, hlayer⟩
  rw [hlayer]
  rfl

theorem Mirrors.seqLen (h : target.Mirrors layerIdx n layer) :
    layer.seqLen = n := by
  rcases h with ⟨_, _, _, _, _, hlayer⟩
  rw [hlayer]
  rfl

theorem refreshSharedKvLayer_native {nKvHeads headDim : Nat} {bits : List UInt16 × List UInt16}
    (hle : n <= target.kvCache.currentLen) :
    target.refreshSharedKvLayer (nativeLayer layerIdx nKvHeads headDim n bits) =
      if target.kvCache.currentLen = n then .ok (nativeLayer layerIdx nKvHeads headDim n bits)
      else target.kvCache.readRange layerIdx n target.kvCache.currentLen >>= fun part =>
        .ok (nativeLayer layerIdx nKvHeads headDim target.kvCache.currentLen
          (bits.1 ++ part.1, bits.2 ++ part.2)) := by
  unfold refreshSharedKvLayer nativeLayer
  dsimp only
  unfold expect
  dsimp only
  rw [ok_bind, require_of_true _ hle, ok_bind]
  rfl

theorem refreshLayer_eq_ok_iff {next : SharedKvLayer} (hsound : target.kvCache.Sound)
    (h : target.Mirrors layerIdx n layer) (hle : n <= target.kvCache.currentLen) :
    target.refreshSharedKvLayer layer = .ok next ↔
      target.Mirrors layerIdx target.kvCache.currentLen next := by
  rcases h with ⟨current, bits, hcurrent, hfit, hread, hlayer⟩
  have hindex := index_of_getElem?_eq_some hcurrent
  rw [hlayer, refreshSharedKvLayer_native hle]
  by_cases hsame : target.kvCache.currentLen = n
  · rw [if_pos hsame, hsame]
    constructor
    · intro hnext
      cases hnext
      exact ⟨current, bits, hcurrent, hfit, hread, rfl⟩
    · intro hnext
      rcases hnext with ⟨again, bits', hagain, _, hread', hnext⟩
      rw [hcurrent] at hagain
      cases hagain
      rw [hread] at hread'
      cases hread'
      rw [hnext]
  · have hrange : target.kvCache.readRange layerIdx n target.kvCache.currentLen =
        current.readRangeMaterialized n target.kvCache.currentLen := by
      unfold KVCache.readRange
      rw [hindex, ok_bind]
    have hcurrentSound := hsound.layers current (List.mem_of_getElem? hcurrent)
    have hreads : forall all,
        current.readUpToMaterialized target.kvCache.currentLen = .ok all ↔
          exists part, current.readRangeMaterialized n target.kvCache.currentLen = .ok part ∧
            all = (bits.1 ++ part.1, bits.2 ++ part.2) :=
      fun _ => LayerCache.readUpTo_eq_ok_iff_readRange hcurrentSound hle hread
    rw [if_neg hsame, hrange]
    constructor
    · intro hnext
      rcases bind_eq_ok hnext with ⟨part, hpart, hstored⟩
      cases hstored
      exact ⟨current, _, hcurrent, hfit, (hreads _).mpr ⟨part, hpart, rfl⟩, rfl⟩
    · intro hnext
      rcases hnext with ⟨again, all, hagain, _, hall, hnext⟩
      rw [hcurrent] at hagain
      cases hagain
      rcases (hreads all).mp hall with ⟨part, hpart, hboth⟩
      rw [hpart, ok_bind, hnext, hboth]

/-- Where the refreshed layer is the extracted one, the source reads as it did. -/
theorem keepsReads_of_refresh_eq {later : DrafterTarget codec} {next : SharedKvLayer}
    {saved current : LayerCache codec} (h : target.Mirrors layerIdx n layer)
    (hsaved : target.kvCache.layers[layerIdx]? = some saved)
    (hcurrent : later.kvCache.layers[layerIdx]? = some current)
    (hfollows : LayerCache.Follows n saved current) (hlt : n < later.kvCache.currentLen)
    (hrefresh : later.refreshSharedKvLayer layer = .ok next)
    (hextract : later.Mirrors layerIdx later.kvCache.currentLen next) :
    LayerCache.KeepsReads n saved current := by
  rcases h with ⟨held, bits, hheld, _, hread, hlayer⟩
  rw [hsaved] at hheld
  cases hheld
  rw [hlayer, refreshSharedKvLayer_native (Nat.le_of_lt hlt), if_neg (Nat.ne_of_gt hlt)]
    at hrefresh
  rcases bind_eq_ok hrefresh with ⟨part, hpart, hnext⟩
  rcases bind_eq_ok hpart with ⟨again, hagain, hrange⟩
  rw [index_of_getElem?_eq_some hcurrent] at hagain
  cases hagain
  rcases hextract with ⟨there, all, hthere, _, hall, hsame⟩
  rw [hcurrent] at hthere
  cases hthere
  rw [hsame] at hnext
  have hlayers := Except.ok.inj hnext
  have hkeys := Option.some.inj (congrArg SharedKvLayer.kF16 hlayers)
  have hvalues := Option.some.inj (congrArg SharedKvLayer.vF16 hlayers)
  have hbits : all = (bits.1 ++ part.1, bits.2 ++ part.2) := Prod.ext hkeys.symm hvalues.symm
  rw [hbits] at hall
  exact LayerCache.keepsReads_of_extends hfollows (Nat.le_of_lt hlt) hread hrange hall

theorem Mirrors.of_keepsLayer {next : DrafterTarget codec} (h : target.Mirrors layerIdx n layer)
    (hmetadata : next.metadata = target.metadata)
    (hlayout : KVCache.SameLayout target.kvCache next.kvCache)
    (hkeep : forall current, target.kvCache.layers[layerIdx]? = some current ->
      CacheOp.KeepsLayer n layerIdx current next.kvCache) :
    next.Mirrors layerIdx n layer := by
  rcases h with ⟨current, bits, hcurrent, hfit, hread, hlayer⟩
  rcases hkeep current hcurrent with ⟨after, hafter, hreads⟩
  have hsame := getElem?_of_forall₂ hlayout.layers hcurrent hafter
  have hstride : after.stride = current.stride := by
    unfold LayerCache.stride
    rw [hsame.numKvHeads, hsame.headDim]
  refine ⟨after, bits, hafter, ?_, hreads n bits (Nat.le_refl n) hread, ?_⟩
  · unfold HeadsFit at hfit ⊢
    rw [hmetadata, hstride]
    exact hfit
  · rw [hmetadata, hstride]
    exact hlayer

/-!
# Both layers
-/

theorem statesForDrafter_eq_ok_iff {f32FromF16 : UInt16 -> UInt32} {sharedKv : SharedKvStates}
    {slidingIdx fullIdx : Nat} (hnative : target.nativeCudaKv = true)
    (hfound : prevSharedLayers target.metadata = .ok (some slidingIdx, some fullIdx)) :
    target.sharedKvStatesForDrafter f32FromF16 = .ok sharedKv ↔
      target.Mirrors slidingIdx target.kvCache.currentLen sharedKv.slidingAttention ∧
        target.Mirrors fullIdx target.kvCache.currentLen sharedKv.fullAttention := by
  unfold sharedKvStatesForDrafter
  rw [hfound, ok_bind]
  constructor
  · intro h
    rcases bind_eq_ok h with ⟨sliding, hsliding, hrest⟩
    cases expect_eq_ok hsliding
    rcases bind_eq_ok hrest with ⟨slidingAttention, hslidingLayer, hrest⟩
    rcases bind_eq_ok hrest with ⟨full, hfull, hrest⟩
    cases expect_eq_ok hfull
    rcases bind_eq_ok hrest with ⟨fullAttention, hfullLayer, hboth⟩
    cases hboth
    exact ⟨(extract_eq_ok_iff hnative).mp hslidingLayer, (extract_eq_ok_iff hnative).mp hfullLayer⟩
  · intro h
    dsimp only
    unfold expect
    dsimp only
    rw [ok_bind, (extract_eq_ok_iff hnative).mpr h.left, ok_bind, ok_bind,
      (extract_eq_ok_iff hnative).mpr h.right]
    rfl

theorem found_of_statesForDrafter {f32FromF16 : UInt16 -> UInt32} {sharedKv : SharedKvStates}
    (h : target.sharedKvStatesForDrafter f32FromF16 = .ok sharedKv) :
    exists slidingIdx fullIdx,
      prevSharedLayers target.metadata = .ok (some slidingIdx, some fullIdx) := by
  rcases bind_eq_ok h with ⟨found, hfound, hrest⟩
  rcases bind_eq_ok hrest with ⟨sliding, hsliding, hrest⟩
  rcases bind_eq_ok hrest with ⟨_, _, hrest⟩
  rcases bind_eq_ok hrest with ⟨full, hfull, _⟩
  exists sliding
  exists full
  rw [← expect_eq_ok hsliding, ← expect_eq_ok hfull]
  exact hfound

end DrafterTarget

/-!
# Runs of the loop
-/

namespace DrafterLoop

def refreshedLen (loop : DrafterLoop codec) : Nat :=
  loop.sharedKv.slidingAttention.seqLen

def Shows (loop : DrafterLoop codec) (layer : Nat) : Prop :=
  loop.sharedKv.slidingAttention.sourceLayerIdx = some layer ∨
    loop.sharedKv.fullAttention.sourceLayerIdx = some layer

/-- A refresh leaves what a fresh extraction gives, and fails only where it fails. -/
def RefreshExact (f32FromF16 : UInt16 -> UInt32) (loop : DrafterLoop codec) : Prop :=
  forall sharedKv,
    loop.target.refreshSharedKvView f32FromF16 loop.sharedKv = .ok sharedKv ↔
      loop.target.sharedKvStatesForDrafter f32FromF16 = .ok sharedKv

/-- Both shared layers hold the rows of their sources below the refreshed length. -/
structure InStep (loop : DrafterLoop codec) : Prop where
  native : loop.target.nativeCudaKv = true
  sound : loop.target.kvCache.Sound
  layers : exists slidingIdx fullIdx,
    DrafterTarget.prevSharedLayers loop.target.metadata =
        .ok (some slidingIdx, some fullIdx) ∧
      loop.target.Mirrors slidingIdx loop.refreshedLen loop.sharedKv.slidingAttention ∧
        loop.target.Mirrors fullIdx loop.refreshedLen loop.sharedKv.fullAttention
  refreshedLen_le : loop.refreshedLen <= loop.target.kvCache.currentLen

variable {loop next : DrafterLoop codec}

theorem refreshSharedKvView_eq {f32FromF16 : UInt16 -> UInt32} {target : DrafterTarget codec}
    {sharedKv : SharedKvStates} {slidingIdx fullIdx : Nat}
    (hsliding : sharedKv.slidingAttention.sourceLayerIdx = some slidingIdx)
    (hfull : sharedKv.fullAttention.sourceLayerIdx = some fullIdx) :
    target.refreshSharedKvView f32FromF16 sharedKv = (do
      let slidingAttention <- target.refreshSharedKvLayer sharedKv.slidingAttention
      let fullAttention <- target.refreshSharedKvLayer sharedKv.fullAttention
      return { slidingAttention := slidingAttention, fullAttention := fullAttention }) := by
  have hsome : ¬ (sharedKv.slidingAttention.sourceLayerIdx.isNone ∨
      sharedKv.fullAttention.sourceLayerIdx.isNone) := by
    rw [hsliding, hfull]
    intro hnone
    cases hnone with
    | inl hnone => cases hnone
    | inr hnone => cases hnone
  unfold DrafterTarget.refreshSharedKvView
  rw [if_neg hsome]

theorem refresh_eq_ok_iff {f32FromF16 : UInt16 -> UInt32} {sharedKv : SharedKvStates}
    {slidingIdx fullIdx : Nat} (h : loop.InStep)
    (hsliding : loop.target.Mirrors slidingIdx loop.refreshedLen loop.sharedKv.slidingAttention)
    (hfull : loop.target.Mirrors fullIdx loop.refreshedLen loop.sharedKv.fullAttention) :
    loop.target.refreshSharedKvView f32FromF16 loop.sharedKv = .ok sharedKv ↔
      loop.target.Mirrors slidingIdx loop.target.kvCache.currentLen
          sharedKv.slidingAttention ∧
        loop.target.Mirrors fullIdx loop.target.kvCache.currentLen
          sharedKv.fullAttention := by
  rw [refreshSharedKvView_eq hsliding.sourceLayerIdx hfull.sourceLayerIdx]
  constructor
  · intro hrefresh
    rcases bind_eq_ok hrefresh with ⟨slidingAttention, hslidingLayer, hrest⟩
    rcases bind_eq_ok hrest with ⟨fullAttention, hfullLayer, hboth⟩
    cases hboth
    exact ⟨(DrafterTarget.refreshLayer_eq_ok_iff h.sound hsliding h.refreshedLen_le).mp
        hslidingLayer, (DrafterTarget.refreshLayer_eq_ok_iff h.sound hfull h.refreshedLen_le).mp
          hfullLayer⟩
  · intro hboth
    rw [(DrafterTarget.refreshLayer_eq_ok_iff h.sound hsliding h.refreshedLen_le).mpr
        hboth.left, ok_bind,
      (DrafterTarget.refreshLayer_eq_ok_iff h.sound hfull h.refreshedLen_le).mpr hboth.right]
    rfl

theorem InStep.refreshExact (f32FromF16 : UInt16 -> UInt32) (h : loop.InStep) :
    loop.RefreshExact f32FromF16 := by
  intro sharedKv
  rcases h.layers with ⟨slidingIdx, fullIdx, hfound, hsliding, hfull⟩
  rw [refresh_eq_ok_iff h hsliding hfull, DrafterTarget.statesForDrafter_eq_ok_iff h.native hfound]

theorem start_inStep {f32FromF16 : UInt16 -> UInt32} {target : DrafterTarget codec}
    (hnative : target.nativeCudaKv = true) (hsound : target.kvCache.Sound)
    (hstart : start f32FromF16 target = .ok loop) :
    loop.InStep := by
  rcases bind_eq_ok hstart with ⟨sharedKv, hview, hloop⟩
  cases hloop
  rcases DrafterTarget.found_of_statesForDrafter hview with ⟨slidingIdx, fullIdx, hfound⟩
  rcases (DrafterTarget.statesForDrafter_eq_ok_iff hnative hfound).mp hview with
    ⟨hsliding, hfull⟩
  have hlen : refreshedLen ({ target := target, sharedKv := sharedKv } : DrafterLoop codec) =
      target.kvCache.currentLen := hsliding.seqLen
  refine InStep.mk hnative hsound ⟨slidingIdx, fullIdx, hfound, ?_, ?_⟩ (Nat.le_of_eq hlen)
  · rw [hlen]
    exact hsliding
  · rw [hlen]
    exact hfull

end DrafterLoop

namespace LoopStep

/-- What the loop owes: it writes and cuts at or above the refreshed length. -/
def StaysAbove (loop : DrafterLoop codec) : LoopStep -> Prop
  | verify op => op.StaysAbove loop.refreshedLen
  | commit newPosition => loop.refreshedLen <= min newPosition.toNat loop.target.kvCache.maxSeqLen
  | refresh => True

/-- No compaction of a shared layer changes a row below the refreshed length. -/
def LeavesRows (loop : DrafterLoop codec) : LoopStep -> Prop
  | verify op =>
    forall layer current, loop.Shows layer ->
      loop.target.kvCache.layers[layer]? = some current ->
        op.LeavesRows loop.refreshedLen layer current
  | commit _ => True
  | refresh => True

variable {f16FromF32 : UInt32 -> UInt16} {f32FromF16 : UInt16 -> UInt32}
  {loop next : DrafterLoop codec}

theorem inStep_of_call {op : CacheOp} {target : DrafterTarget codec} (h : loop.InStep)
    (hop : op.StaysAbove loop.refreshedLen) (hkeep : (verify op).LeavesRows loop)
    (hcall : op.call f16FromF32 loop.target.kvCache = .ok target.kvCache)
    (hmetadata : target.metadata = loop.target.metadata)
    (hnative : target.nativeCudaKv = loop.target.nativeCudaKv) :
    ({ loop with target := target } : DrafterLoop codec).InStep := by
  have hlayout := CacheOp.call_sameLayout h.sound.sameLayout hcall
  rcases h.layers with ⟨slidingIdx, fullIdx, hfound, hsliding, hfull⟩
  have hlayer : forall layerIdx, loop.Shows layerIdx -> forall current,
      loop.target.kvCache.layers[layerIdx]? = some current ->
        CacheOp.KeepsLayer loop.refreshedLen layerIdx current target.kvCache := by
    intro layerIdx hshows current hcurrent
    exact CacheOp.call_keepsLayer (h.sound.layers current (List.mem_of_getElem? hcurrent))
      hcurrent hop (hkeep layerIdx current hshows hcurrent) hcall
  refine DrafterLoop.InStep.mk (hnative.trans h.native) (hlayout.sound h.sound)
    ⟨slidingIdx, fullIdx, ?_, ?_, ?_⟩ (CacheOp.call_le_currentLen h.refreshedLen_le hop hcall)
  · change DrafterTarget.prevSharedLayers target.metadata = _
    rw [hmetadata]
    exact hfound
  · exact hsliding.of_keepsLayer hmetadata hlayout
      (hlayer slidingIdx (Or.inl hsliding.sourceLayerIdx))
  · exact hfull.of_keepsLayer hmetadata hlayout (hlayer fullIdx (Or.inr hfull.sourceLayerIdx))

theorem syncSequenceCursor_keeps {target synced : DrafterTarget codec}
    (h : target.syncSequenceCursorToKvLen = .ok synced) :
    synced.kvCache = target.kvCache ∧ synced.metadata = target.metadata ∧
      synced.nativeCudaKv = target.nativeCudaKv := by
  unfold DrafterTarget.syncSequenceCursorToKvLen at h
  split at h
  · cases h
    exact ⟨rfl, rfl, rfl⟩
  · rcases bind_eq_ok h with ⟨cursor, _, hsynced⟩
    cases hsynced
    exact ⟨rfl, rfl, rfl⟩

theorem call_inStep {step : LoopStep} (h : loop.InStep) (hstep : step.StaysAbove loop)
    (hkeep : step.LeavesRows loop) (hcall : step.call f16FromF32 f32FromF16 loop = .ok next) :
    next.InStep := by
  cases step with
  | verify op =>
    rcases bind_eq_ok hcall with ⟨kvCache, hkvCache, hnext⟩
    cases hnext
    exact inStep_of_call h hstep hkeep hkvCache rfl rfl
  | commit newPosition =>
    rcases bind_eq_ok hcall with ⟨target, htarget, hnext⟩
    cases hnext
    rcases bind_eq_ok htarget with ⟨kvCache, hkvCache, hsync⟩
    rcases syncSequenceCursor_keeps hsync with ⟨hcache, hmetadata, hnative⟩
    let cut := CacheOp.setLen (min newPosition.toNat loop.target.kvCache.maxSeqLen)
    have hcut : cut.call f16FromF32 loop.target.kvCache = .ok target.kvCache := by
      rw [hcache]
      exact hkvCache
    have habove : cut.StaysAbove loop.refreshedLen := hstep
    have hleaves : (verify cut).LeavesRows loop := fun _ _ _ _ => trivial
    exact inStep_of_call h habove hleaves hcut hmetadata hnative
  | refresh =>
    rcases bind_eq_ok hcall with ⟨sharedKv, hrefresh, hnext⟩
    cases hnext
    rcases h.layers with ⟨slidingIdx, fullIdx, hfound, hsliding, hfull⟩
    rcases (DrafterLoop.refresh_eq_ok_iff h hsliding hfull).mp hrefresh with
      ⟨hslidingNow, hfullNow⟩
    have hlen : DrafterLoop.refreshedLen { loop with sharedKv := sharedKv } =
        loop.target.kvCache.currentLen := hslidingNow.seqLen
    refine DrafterLoop.InStep.mk h.native h.sound ⟨slidingIdx, fullIdx, hfound, ?_, ?_⟩
      (Nat.le_of_eq hlen)
    · rw [hlen]
      exact hslidingNow
    · rw [hlen]
      exact hfullNow

variable (f16FromF32 f32FromF16) in
/-- The condition holds of each step of the run, in the state that it starts from. -/
def Along (condition : DrafterLoop codec -> LoopStep -> Prop) :
    DrafterLoop codec -> List LoopStep -> Prop
  | _, [] => True
  | loop, step :: rest =>
    condition loop step ∧ forall next,
      step.call f16FromF32 f32FromF16 loop = .ok next -> Along condition next rest

theorem callAll_inStep {steps : List LoopStep} (h : loop.InStep)
    (hsteps : Along f16FromF32 f32FromF16 (fun loop step => step.StaysAbove loop) loop steps)
    (hkeep : Along f16FromF32 f32FromF16 (fun loop step => step.LeavesRows loop) loop steps)
    (hrun : callAll f16FromF32 f32FromF16 loop steps = .ok next) :
    next.InStep := by
  induction steps generalizing loop with
  | nil =>
    cases hrun
    exact h
  | cons step rest ih =>
    unfold callAll at hrun
    rw [List.foldlM_cons] at hrun
    rcases bind_eq_ok hrun with ⟨middle, hmiddle, hrest⟩
    exact ih (call_inStep h hsteps.left hkeep.left hmiddle) (hsteps.right middle hmiddle)
      (hkeep.right middle hmiddle) hrest

theorem Along.take {condition : DrafterLoop codec -> LoopStep -> Prop}
    {steps : List LoopStep} (h : Along f16FromF32 f32FromF16 condition loop steps) (k : Nat) :
    Along f16FromF32 f32FromF16 condition loop (steps.take k) := by
  induction steps generalizing loop k with
  | nil =>
    rw [List.take_nil]
    trivial
  | cons step rest ih =>
    cases k with
    | zero => trivial
    | succ k => exact ⟨h.left, fun middle hmiddle => ih (h.right middle hmiddle) k⟩

theorem staysAbove_window {ops : List CacheOp} {rest : List LoopStep}
    (hsound : loop.target.kvCache.Sound)
    (hops : forall op, op ∈ ops -> op.StaysAbove loop.refreshedLen)
    (hrest : forall next : DrafterLoop codec, next.refreshedLen = loop.refreshedLen ->
      next.target.kvCache.maxSeqLen = loop.target.kvCache.maxSeqLen ->
        Along f16FromF32 f32FromF16 (fun loop step => step.StaysAbove loop) next rest) :
    Along f16FromF32 f32FromF16 (fun loop step => step.StaysAbove loop) loop
      (ops.map verify ++ rest) := by
  induction ops generalizing loop with
  | nil => exact hrest loop rfl rfl
  | cons op ops ih =>
    refine ⟨hops op List.mem_cons_self, ?_⟩
    intro middle hmiddle
    rcases bind_eq_ok hmiddle with ⟨kvCache, hkvCache, hstored⟩
    cases hstored
    have hlayout := CacheOp.call_sameLayout hsound.sameLayout hkvCache
    apply ih (hlayout.sound hsound)
    · exact fun other hother => hops other (List.mem_cons_of_mem op hother)
    · exact fun next hlen hroom => hrest next hlen (hroom.trans hlayout.maxSeqLen)

/-- In every state of a run whose compactions leave the refreshed rows alone, a
refresh gives what a fresh extraction gives. -/
theorem refreshes_exact {target : DrafterTarget codec} {first mid : DrafterLoop codec}
    {steps : List LoopStep} (hnative : target.nativeCudaKv = true)
    (hcache : KVCache.Reachable f16FromF32 target.kvCache)
    (hstart : DrafterLoop.start f32FromF16 target = .ok first)
    (hsteps : Along f16FromF32 f32FromF16 (fun loop step => step.StaysAbove loop) first steps)
    (hkeep : Along f16FromF32 f32FromF16 (fun loop step => step.LeavesRows loop) first steps)
    (k : Nat) (hrun : callAll f16FromF32 f32FromF16 first (steps.take k) = .ok mid) :
    mid.RefreshExact f32FromF16 :=
  (callAll_inStep (DrafterLoop.start_inStep hnative hcache.sound hstart) (hsteps.take k)
    (hkeep.take k) hrun).refreshExact f32FromF16

/-!
## A round that completes a group
-/

def pairMetadata : TargetMetadata where
  numLayers := 2
  sharedKvLayers := 0
  slidingWindowPattern := [true, false]
  keyLengthSwa := 4
  keyLengthFull := 4
  headDim := 4

def pairTarget (kvCache : KVCache codec) : DrafterTarget codec where
  metadata := pairMetadata
  nativeCudaKv := true
  kvCache := kvCache
  sequenceCursor := none

def writeLossy (posStart len : Nat) : List CacheOp :=
  [.appendBitsRange 0 posStart len (lossyRows len) (lossyRows len),
    .appendBitsRange 1 posStart len (lossyRows len) (lossyRows len)]

def groupWindow (posStart len : Nat) : List CacheOp :=
  writeLossy posStart len ++ [.compactLayer 0]

def groupRound (posStart len : Nat) : List LoopStep :=
  (groupWindow posStart len).map verify ++ [commit 192]

theorem staysAbove_groupRound {posStart len : Nat} (hsound : loop.target.kvCache.Sound)
    (hlen : loop.refreshedLen = posStart) (hroom : loop.target.kvCache.maxSeqLen = 256)
    (hpos : posStart <= 192) :
    Along f16FromF32 f32FromF16 (fun loop step => step.StaysAbove loop) loop
      (groupRound posStart len) := by
  apply staysAbove_window hsound
  · rw [hlen]
    simp [groupWindow, writeLossy, CacheOp.StaysAbove]
  · intro next hnextLen hnextRoom
    refine ⟨?_, fun _ _ => trivial⟩
    change next.refreshedLen <= _
    rw [hnextLen, hnextRoom, hlen, hroom]
    exact hpos

theorem callAll_groupRound {posStart len : Nat}
    (hwritten : callAll f16FromF32 f32FromF16 loop ((writeLossy posStart len).map verify) =
      .ok next)
    {last : DrafterLoop codec}
    (hlast : callAll f16FromF32 f32FromF16 next [verify (.compactLayer 0), commit 192] =
      .ok last) :
    callAll f16FromF32 f32FromF16 loop (groupRound posStart len) = .ok last := by
  have hsplit : groupRound posStart len = (writeLossy posStart len).map verify ++
      [verify (.compactLayer 0), commit 192] := rfl
  unfold callAll at hwritten hlast ⊢
  rw [hsplit, List.foldlM_append, hwritten, ok_bind]
  exact hlast

/-- What is looked up in the states of the round. -/
structure GroupFacts where
  /-- The refreshed length before the round, and the room of the cache. -/
  refreshed : Nat × Nat
  /-- The lengths before and after the round. -/
  lengths : Nat × Nat
  /-- Before the round, the rows of each layer that is not plain. -/
  storedRows : List Nat
  /-- Before the compaction, whether the group is the one that a block does not keep. -/
  group : Option Bool
  /-- The sink of the compacted layer, and its blocks behind the round. -/
  compacted : Option Nat × Option Nat
deriving DecidableEq

noncomputable def groupRun (posStart len : Nat) : Checked GroupFacts := do
  let fresh <- KVCache.newPerLayerWithFormats (packedCodec realMath) 256 [1, 1] [4, 4]
    [.kvarnK4V2G64, .f16]
  let filled <- SequenceOp.callAll (fun _ => 0) fresh ((writeLossy 0 posStart).map .cacheOp)
  let first <- DrafterLoop.start (fun _ => 0) (pairTarget filled)
  let written <- callAll (fun _ => 0) (fun _ => 0) first ((writeLossy posStart len).map verify)
  let loop <- callAll (fun _ => 0) (fun _ => 0) written [verify (.compactLayer 0), commit 192]
  let _ <- loop.target.refreshSharedKvView (fun _ => 0) loop.sharedKv
  let _ <- loop.target.sharedKvStatesForDrafter (fun _ => 0)
  return {
    refreshed := (first.refreshedLen, filled.maxSeqLen)
    lengths := (filled.currentLen, loop.target.kvCache.currentLen)
    storedRows := filled.layers.map LayerCache.storedRows
    group := written.target.kvCache.layers[0]?.map LayerCache.lossyGroup
    compacted := (written.target.kvCache.layers[0]?.map LayerCache.sinkRoom,
      loop.target.kvCache.layers[0]?.map LayerCache.blockCount) }

theorem callAll_verify {ops : List CacheOp}
    (hrun : callAll f16FromF32 f32FromF16 loop (ops.map verify) = .ok next) :
    CacheOp.callAll f16FromF32 loop.target.kvCache ops = .ok next.target.kvCache ∧
      next = { loop with target := { loop.target with kvCache := next.target.kvCache } } := by
  induction ops generalizing loop with
  | nil =>
    cases hrun
    exact ⟨rfl, rfl⟩
  | cons op rest ih =>
    unfold callAll at hrun
    rw [List.map_cons, List.foldlM_cons] at hrun
    rcases bind_eq_ok hrun with ⟨middle, hmiddle, hrest⟩
    rcases bind_eq_ok hmiddle with ⟨kvCache, hkvCache, hstored⟩
    cases hstored
    rcases ih hrest with ⟨hcalls, hnext⟩
    constructor
    · unfold CacheOp.callAll
      rw [List.foldlM_cons, hkvCache, ok_bind]
      exact hcalls
    · exact hnext

theorem groupRun_behind_sink : groupRun 128 64 = .ok {
    refreshed := (128, 256)
    lengths := (128, 192)
    storedRows := [128, 0]
    group := some true
    compacted := (some 128, some 1) } := by
  decide +kernel

/-- The view ends with the sink, and the round completes the group behind it. -/
theorem refreshes_exact_behind_sink :
    exists (filled : KVCache (packedCodec realMath))
        (first mid : DrafterLoop (packedCodec realMath)),
      KVCache.Reachable (fun _ => 0) filled ∧
      DrafterLoop.start (fun _ => 0) (pairTarget filled) = .ok first ∧
      callAll (fun _ => 0) (fun _ => 0) first ((groupRound 128 64).take 4) = .ok mid ∧
      mid.target.kvCache.layers[0]?.map LayerCache.blockCount = some 1 ∧
      mid.RefreshExact (fun _ => 0) := by
  have hrun := groupRun_behind_sink
  unfold groupRun at hrun
  rcases bind_eq_ok hrun with ⟨fresh, hfresh, hrest⟩
  rcases bind_eq_ok hrest with ⟨filled, hfilled, hrest⟩
  rcases bind_eq_ok hrest with ⟨first, hfirst, hrest⟩
  rcases bind_eq_ok hrest with ⟨written, hwritten, hrest⟩
  rcases bind_eq_ok hrest with ⟨mid, hmid, hrest⟩
  rcases bind_eq_ok hrest with ⟨refreshed, _, hrest⟩
  rcases bind_eq_ok hrest with ⟨extracted, _, hresult⟩
  have hfacts := Except.ok.inj hresult
  have hlens := congrArg GroupFacts.refreshed hfacts
  have hcompacted := congrArg GroupFacts.compacted hfacts
  dsimp only at hlens hcompacted
  rcases Prod.mk.inj hlens with ⟨hlen, hroom⟩
  rcases Prod.mk.inj hcompacted with ⟨hsink, hblocks⟩
  have hreach : KVCache.Reachable (fun _ => 0) filled :=
    (KVCache.Reachable.new hfresh).callAll hfilled
  have hsound := (DrafterLoop.start_inStep rfl hreach.sound hfirst).sound
  have hfirstRoom : first.target.kvCache.maxSeqLen = 256 := by
    rcases bind_eq_ok hfirst with ⟨sharedKv, _, hstart⟩
    cases hstart
    exact hroom
  have hround := callAll_groupRound hwritten hmid
  refine ⟨filled, first, mid, hreach, hfirst, hround, hblocks,
    refreshes_exact rfl hreach hfirst
      (staysAbove_groupRound hsound hlen hfirstRoom (by decide)) ?_ 4 hround⟩
  refine ⟨fun _ _ _ _ => trivial, fun sliding hsliding => ?_⟩
  refine ⟨fun _ _ _ _ => trivial, fun both hboth => ?_⟩
  refine ⟨?_, fun _ _ => ⟨trivial, fun _ _ => trivial⟩⟩
  have hboth' : callAll (fun _ => 0) (fun _ => 0) first ((writeLossy 128 64).map verify) =
      .ok both := by
    unfold callAll
    rw [writeLossy, List.map_cons, List.foldlM_cons, hsliding, ok_bind, List.map_cons,
      List.foldlM_cons, hboth]
    rfl
  cases hwritten.symm.trans hboth'
  intro layer current _ hcurrent hlayer
  cases hlayer
  rw [hcurrent] at hsink
  apply LayerCache.compactKeeps_of_le_sinkRoom
  rw [Option.some.inj hsink, (callAll_verify hwritten).right]
  exact Nat.le_of_eq hlen

/-!
## A group that completes in a round

The view is taken at 191 rows, one short of a complete group behind the sink of
the sliding layer.  The round writes row 191 and compacts the layer, which
quantizes 63 rows that the view already holds.
-/

theorem groupRun_within_view : groupRun 191 1 = .ok {
    refreshed := (191, 256)
    lengths := (191, 192)
    storedRows := [191, 0]
    group := some true
    compacted := (some 128, some 1) } := by
  decide +kernel

/-- Up to the compaction the rows are kept, and the cut behind it keeps what is left. -/
theorem keepsReads_round_iff {filled written compacted final : KVCache codec}
    (hsound : filled.Sound) (hlen : filled.currentLen = 191)
    (hwritten : CacheOp.callAll f16FromF32 filled (writeLossy 191 1) = .ok written)
    (hcompacted : (CacheOp.compactLayer 0).call f16FromF32 written = .ok compacted)
    (hfinal : compacted.setLen 192 = .ok final) :
    KVCache.Follows 191 filled final ∧ (KVCache.KeepsReads 191 filled final ↔
      (CacheOp.compactLayer 0).CompactKeeps filled written) := by
  have hself : KVCache.Follows 191 filled filled := by
    refine KVCache.Follows.mk rfl ?_
    intro l a b ha hb
    cases ha.symm.trans hb
    exact (hsound.layers a (List.mem_of_getElem? ha)).follows 191
  unfold CacheOp.callAll writeLossy at hwritten
  rw [List.foldlM_cons] at hwritten
  rcases bind_eq_ok hwritten with ⟨sliding, hsliding, hrest⟩
  rw [List.foldlM_cons] at hrest
  rcases bind_eq_ok hrest with ⟨both, hboth, hlast⟩
  cases hlast
  have habove : forall l, (CacheOp.appendBitsRange l 191 1 (lossyRows 1)
      (lossyRows 1)).StaysAbove 191 := fun _ => Nat.le_refl 191
  have hcompacts : (CacheOp.compactLayer 0).StaysAbove 191 := trivial
  rcases CacheOp.call_follows hlen.symm hself (habove 0) hsliding with ⟨hfirst, hfirstReads⟩
  rcases CacheOp.call_follows hlen.symm hfirst (habove 1) hboth with ⟨hsecond, hsecondReads⟩
  rcases CacheOp.call_follows hlen.symm hsecond hcompacts hcompacted with
    ⟨hthird, hthirdReads⟩
  have hcut := (KVCache.setLen_readsLike hthird (Nat.le_succ 191)).returns final hfinal
  have hkept := (hfirstReads (KVCache.keepsReads_refl 191 filled)).mpr trivial
  exact ⟨hcut.left, hcut.right.trans (hthirdReads ((hsecondReads hkept).mpr trivial))⟩

/-- Where the refreshed sliding layer is the extracted one, all layers read as they did. -/
theorem keepsReads_of_sliding_eq {filled : KVCache codec} {target : DrafterTarget codec}
    {sharedKv refreshed extracted : SharedKvStates}
    (hview : (pairTarget filled).sharedKvView f32FromF16 = .ok sharedKv)
    (hmetadata : target.metadata = pairMetadata) (hnative : target.nativeCudaKv = true)
    (hbefore : filled.currentLen = 191) (hafter : target.kvCache.currentLen = 192)
    (hfollows : KVCache.Follows 191 filled target.kvCache)
    (hstored : filled.layers.map LayerCache.storedRows = [191, 0])
    (hrefreshed : target.refreshSharedKvView f32FromF16 sharedKv = .ok refreshed)
    (hextracted : target.sharedKvStatesForDrafter f32FromF16 = .ok extracted)
    (hsame : refreshed.slidingAttention = extracted.slidingAttention) :
    KVCache.KeepsReads 191 filled target.kvCache := by
  have hfound : DrafterTarget.prevSharedLayers pairMetadata = .ok (some 0, some 1) := by
    decide
  have hfoundLater := hfound
  rw [← hmetadata] at hfoundLater
  have hviewNative : (pairTarget filled).nativeCudaKv = true := rfl
  rcases (DrafterTarget.statesForDrafter_eq_ok_iff hviewNative hfound).mp hview with
    ⟨hsliding, hfull⟩
  have hextractedSliding :=
    ((DrafterTarget.statesForDrafter_eq_ok_iff hnative hfoundLater).mp hextracted).left
  rw [DrafterLoop.refreshSharedKvView_eq hsliding.sourceLayerIdx hfull.sourceLayerIdx]
    at hrefreshed
  rcases bind_eq_ok hrefreshed with ⟨sliding, hrefreshSliding, hrest⟩
  rcases bind_eq_ok hrest with ⟨full, _, hboth⟩
  cases hboth
  have hnext : sliding = extracted.slidingAttention := hsame
  rw [hnext] at hrefreshSliding
  have hlen : (pairTarget filled).kvCache.currentLen = 191 := hbefore
  rw [hlen] at hsliding
  intro l a b ha hb
  cases l with
  | zero =>
    exact DrafterTarget.keepsReads_of_refresh_eq hsliding ha hb (hfollows.layers 0 a b ha hb)
      (by rw [hafter]; exact Nat.lt_succ_self 191) hrefreshSliding hextractedSliding
  | succ l =>
    have hrows := congrArg (fun rows : List Nat => rows[l + 1]?) hstored
    rw [List.getElem?_map, ha] at hrows
    apply LayerCache.keepsReads_of_storedRows_eq_zero (hfollows.layers (l + 1) a b ha hb)
    cases l with
    | zero => exact Option.some.inj hrows
    | succ l => cases hrows

/-- A refresh after a round whose compaction completes a group of the view. -/
theorem completed_group_leaves_stale_rows :
    exists (filled : KVCache (packedCodec realMath))
        (first loop : DrafterLoop (packedCodec realMath))
        (refreshed extracted : SharedKvStates),
      KVCache.Reachable (fun _ => 0) filled ∧
      DrafterLoop.start (fun _ => 0) (pairTarget filled) = .ok first ∧
      Along (fun _ => 0) (fun _ => 0) (fun loop step => step.StaysAbove loop) first
        (groupRound 191 1) ∧
      callAll (fun _ => 0) (fun _ => 0) first (groupRound 191 1) = .ok loop ∧
      loop.target.refreshSharedKvView (fun _ => 0) loop.sharedKv = .ok refreshed ∧
      loop.target.sharedKvStatesForDrafter (fun _ => 0) = .ok extracted ∧
      refreshed.slidingAttention ≠ extracted.slidingAttention := by
  have hrun := groupRun_within_view
  unfold groupRun at hrun
  rcases bind_eq_ok hrun with ⟨fresh, hfresh, hrest⟩
  rcases bind_eq_ok hrest with ⟨filled, hfilled, hrest⟩
  rcases bind_eq_ok hrest with ⟨first, hfirst, hrest⟩
  rcases bind_eq_ok hrest with ⟨written, hwritten, hrest⟩
  rcases bind_eq_ok hrest with ⟨loop, hloop, hrest⟩
  rcases bind_eq_ok hrest with ⟨refreshed, hrefreshed, hrest⟩
  rcases bind_eq_ok hrest with ⟨extracted, hextracted, hresult⟩
  have hfacts := Except.ok.inj hresult
  have hlens := congrArg GroupFacts.refreshed hfacts
  have hlengths := congrArg GroupFacts.lengths hfacts
  have hstored := congrArg GroupFacts.storedRows hfacts
  have hgroup := congrArg GroupFacts.group hfacts
  dsimp only at hlens hlengths hstored hgroup
  rcases Prod.mk.inj hlens with ⟨hlen, hroom⟩
  rcases Prod.mk.inj hlengths with ⟨hbefore, hafter⟩
  have hreach : KVCache.Reachable (fun _ => 0) filled :=
    (KVCache.Reachable.new hfresh).callAll hfilled
  have hstep := DrafterLoop.start_inStep rfl hreach.sound hfirst
  rcases bind_eq_ok hfirst with ⟨sharedKv, hview, hstart⟩
  cases hstart
  have hround := callAll_groupRound hwritten hloop
  refine ⟨filled, _, loop, refreshed, extracted, hreach, hfirst, ?_, hround, hrefreshed,
    hextracted, ?_⟩
  · exact staysAbove_groupRound hstep.sound hlen hroom (by decide)
  · intro hsame
    rcases callAll_verify hwritten with ⟨hwrites, hwrittenEq⟩
    rcases bind_eq_ok hloop with ⟨compactedLoop, hcompactStep, hrest⟩
    rcases bind_eq_ok hcompactStep with ⟨compacted, hcompacted, hnextStep⟩
    cases hnextStep
    rw [List.foldlM_cons] at hrest
    rcases bind_eq_ok hrest with ⟨last, hcommit, hlast⟩
    cases hlast
    rcases bind_eq_ok hcommit with ⟨target, htarget, hcommitted⟩
    cases hcommitted
    rcases bind_eq_ok htarget with ⟨final, hfinal, hsync⟩
    rcases syncSequenceCursor_keeps hsync with ⟨hcache, hmetadata, hnative⟩
    have hkvCache : target.kvCache = final := hcache
    have hkind : target.metadata = pairMetadata ∧ target.nativeCudaKv = true := by
      rw [hwrittenEq] at hmetadata hnative
      exact ⟨hmetadata, hnative⟩
    have hshared : written.sharedKv = sharedKv := by
      rw [hwrittenEq]
    have hfinalLen : final.currentLen = 192 := by
      rw [← hkvCache]
      exact hafter
    have hcut : min (192 : UInt32).toNat compacted.maxSeqLen = 192 := by
      rcases bind_eq_ok hfinal with ⟨layers, _, hstoredLen⟩
      cases hstoredLen
      exact hfinalLen
    have hsetLen : compacted.setLen 192 = .ok final := by
      rw [← hcut]
      exact hfinal
    rcases keepsReads_round_iff hreach.sound hbefore hwrites hcompacted hsetLen with
      ⟨hfollows, hkeepsIff⟩
    rw [← hkvCache] at hfollows hkeepsIff
    dsimp only at hrefreshed
    rw [hshared] at hrefreshed
    have hkeeps := hkeepsIff.mp (keepsReads_of_sliding_eq hview hkind.left hkind.right hbefore
      hafter hfollows hstored hrefreshed hextracted hsame)
    have hfirstRows := congrArg (fun rows : List Nat => rows[0]?) hstored
    rw [List.getElem?_map] at hfirstRows
    rcases Option.map_eq_some_iff.mp hfirstRows with ⟨before, hbeforeLayer, hbeforeRows⟩
    rcases Option.map_eq_some_iff.mp hgroup with ⟨layer, hlayer, hlossy⟩
    have hlayerKeeps := hkeeps before layer hbeforeLayer hlayer
    rw [hbefore, hbeforeRows] at hlayerKeeps
    exact not_compactKeeps_of_lossyGroup hlossy (by decide) hlayerKeeps

end LoopStep
end Inference
end RunNBurn
