import RunNBurn.KvCache.SnapshotExactness

/-!
# Restoring snapshots

Every cache that the operations reach is sound, so a restoration either is
refused with the cache untouched, or copies everything, or stops in a plain
buffer that was never grown to the rows of the snapshot.
-/

namespace RunNBurn
namespace KvCache

open Library
open GroupedRows

/-!
# The recurrent states
-/

theorem restoreSavedSsmState_eq (current saved : Option (SsmLayerState UInt32)) :
    restoreSavedSsmState current saved = saved := by
  cases saved with
  | none =>
    cases current with
    | none => rfl
    | some current => rfl
  | some saved =>
    cases current with
    | none => rfl
    | some current =>
      unfold restoreSavedSsmState
      dsimp only
      split
      · rfl
      · rfl

theorem restoreSsmStates_eq
    {current saved : List (Option (SsmLayerState UInt32))} (h : saved.length = current.length) :
    restoreSsmStates current saved = saved := by
  unfold restoreSsmStates
  rw [h, List.drop_length, List.append_nil]
  induction saved generalizing current with
  | nil => rw [List.zipWith_nil_right]
  | cons state rest ih =>
    cases current with
    | nil => cases h
    | cons head tail => rw [List.zipWith_cons_cons, restoreSavedSsmState_eq, ih (Nat.succ.inj h)]

/-!
# One restoration
-/

namespace KVCache

variable {codec : KvarnCodec}

def restored (saved : KVCacheSnapshot codec) (cache : KVCache codec) : KVCache codec :=
  { cache with
    layers := List.zipWith (fun entry layer => (LayerCache.restoreSnapshot entry layer).1)
      saved.layers cache.layers
    glmIndexerK := List.zipWith (fun row keys => (copyPrefix row keys).1)
      saved.glmIndexerK cache.glmIndexerK
    ssmStates := saved.ssmStates
    currentLen := saved.currentLen }

variable {saved : KVCacheSnapshot codec}

theorem restoreSnapshot_rejected {cache : KVCache codec} {fault : Fault}
    (h : cache.validateSnapshot saved = .error fault) :
    restoreSnapshot saved cache = (cache, .error fault) := by
  unfold restoreSnapshot
  exact InPlace.bind_of_error (InPlace.reading_of_eq h)

variable {cache source : KVCache codec}

theorem glmIndexerK_fits (hcache : cache.Sound) (hsource : saved.TakenFrom source)
    (hfits : saved.Fits cache) {row keys : List UInt16} (hrow : row ∈ saved.glmIndexerK)
    (hkeys : keys ∈ cache.glmIndexerK) :
    row.length <= keys.length := by
  rw [hsource.length_glmIndexerK hrow, hcache.glmIndexerK keys hkeys, hfits.glmIndexerKeyLen]
  exact Nat.mul_le_mul_right _ hfits.currentLen

theorem layers_ok_iff_holdsRows (hsource : saved.TakenFrom source) (hfits : saved.Fits cache) :
    (forall (l : Nat) entry layer, saved.layers[l]? = some entry ->
      cache.layers[l]? = some layer ->
        (LayerCache.restoreSnapshot entry layer).2 = .ok ()) ↔
      cache.HoldsRows saved.currentLen := by
  have hone : forall (l : Nat) entry layer, saved.layers[l]? = some entry ->
      cache.layers[l]? = some layer ->
      ((LayerCache.restoreSnapshot entry layer).2 = .ok () ↔
        layer.HoldsRows saved.currentLen) := by
    intro l entry layer hentry hlayer
    rcases exists_getElem?_of_length_eq hsource.layers.length_eq.symm hentry with
      ⟨origin, horigin⟩
    rw [hsource.currentLen]
    exact LayerCache.restoreSnapshot_ok_iff (getElem?_of_forall₂ hsource.layers horigin hentry)
      (getElem?_of_forall₂ hfits.layers hentry hlayer)
  constructor
  · intro h layer hmem
    rcases List.mem_iff_getElem?.mp hmem with ⟨l, hl⟩
    rcases exists_getElem?_of_length_eq hfits.layers.length_eq.symm hl with ⟨entry, hentry⟩
    exact (hone l entry layer hentry hl).mp (h l entry layer hentry hl)
  · intro h l entry layer hentry hlayer
    exact (hone l entry layer hentry hlayer).mpr (h layer (List.mem_of_getElem? hlayer))

theorem restoreSnapshot_of_holdsRows (hcache : cache.Sound) (hsource : saved.TakenFrom source)
    (hfits : saved.Fits cache) (hrows : cache.HoldsRows saved.currentLen) :
    restoreSnapshot saved cache = (restored saved cache, .ok ()) := by
  have hread : InPlace.reading (fun cache : KVCache codec => cache.validateSnapshot saved)
      cache = (cache, .ok ()) :=
    InPlace.reading_of_eq ((validateSnapshot_eq_ok_iff hsource).mpr hfits)
  have hlayers := InPlace.eachZip_of_ok hfits.layers.length_eq
    ((layers_ok_iff_holdsRows hsource hfits).mpr hrows)
  let copied := { cache with
    layers := List.zipWith (fun entry layer => (LayerCache.restoreSnapshot entry layer).1)
      saved.layers cache.layers }
  have hkeys : InPlace.eachZip copyPrefix saved.glmIndexerK copied.glmIndexerK =
      (List.zipWith (fun row keys => (copyPrefix row keys).1) saved.glmIndexerK
        cache.glmIndexerK, .ok ()) :=
    InPlace.eachZip_of_ok hfits.glmIndexerK (fun i row keys hrow hkeys =>
      copyPrefix_ok_iff.mpr (glmIndexerK_fits hcache hsource hfits
        (List.mem_of_getElem? hrow) (List.mem_of_getElem? hkeys)))
  unfold restoreSnapshot
  refine (InPlace.bind_of_ok hread).trans ?_
  refine (InPlace.bind_of_ok (InPlace.onPart_of_eq hlayers)).trans ?_
  refine (InPlace.bind_of_ok (InPlace.onPart_of_eq hkeys)).trans ?_
  unfold InPlace.modifying restored
  dsimp only
  rw [restoreSsmStates_eq hfits.ssmStates]

theorem restoreSnapshot_of_not_holdsRows (hsource : saved.TakenFrom source)
    (hfits : saved.Fits cache) (hrows : ¬cache.HoldsRows saved.currentLen) :
    exists message, (restoreSnapshot saved cache).2 = .error (.panicked message) := by
  have hread : InPlace.reading (fun cache : KVCache codec => cache.validateSnapshot saved)
      cache = (cache, .ok ()) :=
    InPlace.reading_of_eq ((validateSnapshot_eq_ok_iff hsource).mpr hfits)
  cases hcopy : InPlace.eachZip LayerCache.restoreSnapshot saved.layers cache.layers with
  | mk left result =>
    cases result with
    | ok done =>
      have hok := (InPlace.eachZip_ok_iff hfits.layers.length_eq).mp
        (congrArg Prod.snd hcopy)
      exact absurd ((layers_ok_iff_holdsRows hsource hfits).mp hok) hrows
    | error fault =>
      rcases InPlace.eachZip_error (congrArg Prod.snd hcopy) with
        ⟨l, entry, layer, _, _, hfault⟩
      rcases LayerCache.restoreSnapshot_panics hfault with ⟨message, hmessage⟩
      exists message
      unfold restoreSnapshot
      rw [InPlace.bind_of_ok hread, InPlace.bind_of_error (InPlace.onPart_of_eq hcopy), hmessage]

/-!
# Reachable caches
-/

inductive Reachable (f16FromF32 : UInt32 -> UInt16) : KVCache codec -> Prop where
  | new {maxSeqLen : Nat} {layerNumKvHeads layerHeadDims : List Nat}
      {layerFormats : List KvCacheFormat} {cache : KVCache codec}
      (h : newPerLayerWithFormats codec maxSeqLen layerNumKvHeads layerHeadDims
        layerFormats = .ok cache) :
      Reachable f16FromF32 cache
  | call {cache next : KVCache codec} {op : SequenceOp}
      (hcache : Reachable f16FromF32 cache)
      (h : op.call f16FromF32 cache = .ok next) :
      Reachable f16FromF32 next
  | convertToF16 {cache next : KVCache codec} {reserveLen : Nat}
      (hcache : Reachable f16FromF32 cache)
      (h : cache.convertToF16 reserveLen = .ok next) :
      Reachable f16FromF32 next
  | initGlmIndexer {cache : KVCache codec} (numLayers keyLen topK : Nat)
      (hcache : Reachable f16FromF32 cache) :
      Reachable f16FromF32 (cache.initGlmIndexer numLayers keyLen topK)
  | restoreSnapshot {cache source next : KVCache codec} {saved : KVCacheSnapshot codec}
      (hcache : Reachable f16FromF32 cache)
      (hsource : Reachable f16FromF32 source)
      (hsaved : source.snapshot = .ok saved)
      (h : restoreSnapshot saved cache = (next, .ok ())) :
      Reachable f16FromF32 next

theorem new_sound
    {maxSeqLen : Nat} {layerNumKvHeads layerHeadDims : List Nat}
    {layerFormats : List KvCacheFormat} {cache : KVCache codec}
    (h : newPerLayerWithFormats codec maxSeqLen layerNumKvHeads layerHeadDims
      layerFormats = .ok cache) :
    cache.Sound := by
  have hself := (CacheOp.follows_of_fresh h).left
  constructor
  · intro layer hlayer
    rcases List.mem_iff_getElem?.mp hlayer with ⟨l, hl⟩
    unfold LayerCache.Sound
    cases hself.layers l layer layer hl hl with
    | f16 hsaved _ _ =>
      rw [hsaved]
      exact LayerCacheStorage.KeepsKind.f16 (Nat.le_refl _) (Nat.le_refl _)
    | kvarn hsaved _ hrep _ _ =>
      rw [hsaved]
      exact LayerCacheStorage.KeepsKind.kvarn hrep hrep
  · intro keys hkeys
    unfold newPerLayerWithFormats at h
    split at h
    · cases h
    · rcases bind_eq_ok h with ⟨layers, _, hcache⟩
      cases hcache
      cases hkeys

theorem convertToF16_sound
    {cache next : KVCache codec} {reserveLen : Nat} (hcache : cache.Sound)
    (h : cache.convertToF16 reserveLen = .ok next) :
    next.Sound := by
  rcases bind_eq_ok h with ⟨layers, hlayers, hstored⟩
  cases hstored
  constructor
  · intro layer hmem
    have hall := mapM_returns _ _ layers hlayers
    rcases List.mem_iff_getElem?.mp hmem with ⟨l, hl⟩
    rcases exists_getElem?_of_length_eq hall.length_eq.symm hl with ⟨before, hbefore⟩
    have hconverted := getElem?_of_forall₂ hall hbefore hl
    have hplain : exists key value, layer.storage = .f16 key value := by
      unfold LayerCache.convertToF16 at hconverted
      dsimp only at hconverted
      split at hconverted
      · cases hconverted
        exact ⟨_, _, rfl⟩
      · rcases bind_eq_ok hconverted with ⟨bits, _, hrest⟩
        rcases bind_eq_ok hrest with ⟨keyFits, _, hvalue⟩
        rcases bind_eq_ok hvalue with ⟨valueFits, _, hlayer⟩
        cases hlayer
        exact ⟨_, _, rfl⟩
    rcases hplain with ⟨key, value, hstorage⟩
    unfold LayerCache.Sound
    rw [hstorage]
    exact LayerCacheStorage.KeepsKind.f16 (Nat.le_refl _) (Nat.le_refl _)
  · exact hcache.glmIndexerK

theorem initGlmIndexer_sound
    {cache : KVCache codec} (numLayers keyLen topK : Nat) (hcache : cache.Sound) :
    (cache.initGlmIndexer numLayers keyLen topK).Sound := by
  constructor
  · exact hcache.layers
  · intro keys hkeys
    rw [(List.mem_replicate.mp hkeys).2, List.length_replicate]
    rfl

end KVCache

namespace LayerCache

variable {codec : KvarnCodec}

theorem restoreSnapshot_sound
    {saved : LayerCacheSnapshot codec} {layer source : LayerCache codec} {n : Nat}
    (hsource : saved.TakenFrom n source) (hlayer : layer.Sound) :
    (restoreSnapshot saved layer).1.Sound := by
  unfold Sound at hlayer
  cases hsource with
  | f16 _ _ _ =>
    unfold restoreSnapshot
    cases hstorage : layer.storage with
    | f16 key value =>
      dsimp only
      split
      · exact LayerCacheStorage.KeepsKind.f16 (Nat.le_refl _) (Nat.le_refl _)
      · exact LayerCacheStorage.KeepsKind.f16 (Nat.le_refl _) (Nat.le_refl _)
    | kvarn cache => exact hlayer
  | kvarn _ _ hcut =>
    unfold restoreSnapshot
    cases hstorage : layer.storage with
    | f16 key value => exact hlayer
    | kvarn cache => exact LayerCacheStorage.KeepsKind.kvarn hcut hcut

theorem restoreSnapshot_readUpTo
    {saved : LayerCacheSnapshot codec} {layer source : LayerCache codec} {n len : Nat}
    (hsource : saved.TakenFrom n source) (hkind : saved.SameKind layer) (hrows : layer.HoldsRows n)
    (hlen : len <= n) :
    (restoreSnapshot saved layer).1.readUpToMaterialized len =
      source.readUpToMaterialized len := by
  have hstride := LayerCacheSnapshot.stride_of_sameKind hkind hsource
  have hstorage := hkind.right.right
  cases hsource with
  | f16 hlayer hkey hvalue =>
    rename_i sourceKey sourceValue
    cases hcurrent : layer.storage with
    | kvarn cache =>
      rw [hcurrent] at hstorage
      exact hstorage.elim
    | f16 key value =>
      have hkeyLength := length_take_rows hstride hkey
      have hvalueLength := length_take_rows hstride hvalue
      rcases hrows key value hcurrent with ⟨hkeyRows, hvalueRows⟩
      rw [← hkeyLength] at hkeyRows
      rw [← hvalueLength] at hvalueRows
      rw [restoreSnapshot_f16 hcurrent rfl hkeyRows hvalueRows]
      have hcount : len * source.stride <= n * source.stride :=
        Nat.mul_le_mul_right _ hlen
      have hread := (readUpToMaterialized_f16_iff hlayer).mpr
        ⟨Nat.le_trans hcount hkey, Nat.le_trans hcount hvalue, rfl⟩
      rw [hread]
      apply (readUpToMaterialized_f16_iff rfl).mpr
      change len * layer.stride <= _ ∧ len * layer.stride <= _ ∧ _ = (_, _)
      rw [hstride]
      have hkeyHead : len * source.stride <=
          (sourceKey.take (n * source.stride)).length := by
        rw [hkeyLength, hstride]
        exact hcount
      have hvalueHead : len * source.stride <=
          (sourceValue.take (n * source.stride)).length := by
        rw [hvalueLength, hstride]
        exact hcount
      refine ⟨?_, ?_, ?_⟩
      · rw [List.length_append]
        exact Nat.le_trans hkeyHead (Nat.le_add_right _ _)
      · rw [List.length_append]
        exact Nat.le_trans hvalueHead (Nat.le_add_right _ _)
      · show _ = (List.take (len * layer.stride) _, List.take (len * layer.stride) _)
        rw [hstride, List.take_append_of_le_length hkeyHead,
          List.take_append_of_le_length hvalueHead, List.take_take, List.take_take,
          Nat.min_eq_left hcount]
  | kvarn hlayer hcache hcut =>
    rename_i cache cut shape store
    cases hcurrent : layer.storage with
    | f16 key value =>
      rw [hcurrent] at hstorage
      exact hstorage.elim
    | kvarn current =>
      rw [restoreSnapshot_kvarn hcurrent rfl, readUpToMaterialized_kvarn rfl,
        readUpToMaterialized_kvarn hlayer]
      have hcutRows : (store.truncate n).rows = store.rows.take n := rows_truncate store n
      by_cases hstored : len <= store.rows.length
      · have hcutStored : len <= (store.truncate n).rows.length := by
          rw [hcutRows, List.length_take]
          exact Nat.le_min.mpr ⟨hlen, hstored⟩
        rw [hcache.materialize hstored, hcut.materialize hcutStored, hcutRows,
          List.take_take, Nat.min_eq_left hlen]
      · have hcacheStored : cache.storedLen < len := by
          rw [hcache.storedLen]
          exact Nat.lt_of_not_le hstored
        have hcutStored : cut.storedLen < len := by
          rw [hcut.storedLen, hcutRows, List.length_take]
          exact Nat.lt_of_le_of_lt (Nat.min_le_right _ _) (Nat.lt_of_not_le hstored)
        rw [KvarnLayerCache.materialize_of_lt hcacheStored,
          KvarnLayerCache.materialize_of_lt hcutStored]

end LayerCache

namespace KVCache

variable {codec : KvarnCodec}

theorem restored_sound
    {cache source : KVCache codec} {saved : KVCacheSnapshot codec} (hcache : cache.Sound)
    (hsource : saved.TakenFrom source) (hfits : saved.Fits cache) :
    (restored saved cache).Sound := by
  constructor
  · intro layer hlayer
    rcases List.mem_iff_getElem?.mp hlayer with ⟨l, hl⟩
    rcases List.getElem?_zipWith_eq_some.mp hl with ⟨entry, current, hentry, hcurrent, heq⟩
    rcases exists_getElem?_of_length_eq hsource.layers.length_eq.symm hentry with
      ⟨origin, horigin⟩
    rw [← heq]
    exact LayerCache.restoreSnapshot_sound (getElem?_of_forall₂ hsource.layers horigin hentry)
      (hcache.layers current (List.mem_of_getElem? hcurrent))
  · intro keys hkeys
    rcases List.mem_iff_getElem?.mp hkeys with ⟨l, hl⟩
    rcases List.getElem?_zipWith_eq_some.mp hl with ⟨row, current, hrow, hcurrent, heq⟩
    have hmem := List.mem_of_getElem? hcurrent
    have hfit := glmIndexerK_fits hcache hsource hfits (List.mem_of_getElem? hrow) hmem
    rw [← heq, copyPrefix_of_le hfit, List.length_append, List.length_drop,
      Nat.add_sub_cancel' hfit]
    exact hcache.glmIndexerK current hmem

theorem restoreSnapshot_ok
    {cache source next : KVCache codec} {saved : KVCacheSnapshot codec} (hcache : cache.Sound)
    (hsource : saved.TakenFrom source) (h : restoreSnapshot saved cache = (next, .ok ())) :
    saved.Fits cache ∧ cache.HoldsRows saved.currentLen ∧ next = restored saved cache := by
  cases hvalid : cache.validateSnapshot saved with
  | error fault =>
    rw [restoreSnapshot_rejected hvalid] at h
    cases h
  | ok done =>
    have hfits := (validateSnapshot_eq_ok_iff hsource).mp hvalid
    by_cases hrows : cache.HoldsRows saved.currentLen
    · rw [restoreSnapshot_of_holdsRows hcache hsource hfits hrows] at h
      cases h
      exact ⟨hfits, hrows, rfl⟩
    · rcases restoreSnapshot_of_not_holdsRows hsource hfits hrows with ⟨message, hpanic⟩
      rw [h] at hpanic
      cases hpanic

theorem Reachable.sound
    {f16FromF32 : UInt32 -> UInt16} {cache : KVCache codec} (h : Reachable f16FromF32 cache) :
    cache.Sound := by
  induction h with
  | new h => exact new_sound h
  | call _ h ih => exact (SequenceOp.call_sameLayout ih.sameLayout h).sound ih
  | convertToF16 _ h ih => exact convertToF16_sound ih h
  | initGlmIndexer numLayers keyLen topK _ ih => exact initGlmIndexer_sound numLayers keyLen topK ih
  | restoreSnapshot _ _ hsaved h ihcache ihsource =>
    have htaken := snapshot_takenFrom ihsource hsaved
    rcases restoreSnapshot_ok ihcache htaken h with ⟨hfits, _, hnext⟩
    rw [hnext]
    exact restored_sound ihcache htaken hfits

end KVCache

/-!
# Snapshot and restore on one cache
-/

namespace KvarnLayerCache

variable {codec : KvarnCodec}

theorem Represents.layoutMatches
    {shape : KvarnShape} {cache other : KvarnLayerCache codec} {store otherStore : KvStore shape}
    (h : cache.Represents shape store) (hother : other.Represents shape otherStore) :
    cache.LayoutMatches other := by
  have hbounded := hother.storedLen_le_maxSeqLen
  rcases h with ⟨_, _, hregions, _, _⟩
  rcases hother with ⟨_, _, hotherRegions, _, _⟩
  rw [hotherRegions.maxSeqLen, ← hregions.maxSeqLen] at hbounded
  exact ⟨hregions.config.trans hotherRegions.config.symm,
    hregions.numKvHeads.trans hotherRegions.numKvHeads.symm,
    hregions.headDim.trans hotherRegions.headDim.symm,
    hregions.maxSeqLen.trans hotherRegions.maxSeqLen.symm, hbounded⟩

theorem LayoutMatches.trans
    {first second third : KvarnLayerCache codec} (h : first.LayoutMatches second)
    (hnext : second.LayoutMatches third) :
    first.LayoutMatches third := by
  rcases h with ⟨hconfig, hheads, hdim, hmax, _⟩
  rcases hnext with ⟨hnextConfig, hnextHeads, hnextDim, hnextMax, hbounded⟩
  rw [← hmax] at hbounded
  exact ⟨hconfig.trans hnextConfig, hheads.trans hnextHeads, hdim.trans hnextDim,
    hmax.trans hnextMax, hbounded⟩

end KvarnLayerCache

namespace KVCache

variable {codec : KvarnCodec} {cache later : KVCache codec} {saved : KVCacheSnapshot codec}

theorem SameLayout.fits (h : SameLayout cache later) (hsaved : saved.TakenFrom cache)
    (hlen : cache.currentLen <= cache.maxSeqLen) :
    saved.Fits later := by
  constructor
  · rw [hsaved.currentLen, h.maxSeqLen]
    exact hlen
  · rw [hsaved.maxSeqLen, h.maxSeqLen]
  · refine forall₂_comp hsaved.layers.flip h.layers ?_
    intro entry before after hentry hafter
    have hkind := hafter.storage
    cases hentry with
    | f16 hlayer _ _ =>
      refine ⟨hafter.numKvHeads, hafter.headDim, ?_⟩
      rw [hlayer] at hkind
      cases hnow : after.storage with
      | f16 key value => trivial
      | kvarn current =>
        rw [hnow] at hkind
        cases hkind
    | kvarn hlayer hcache hcut =>
      refine ⟨hafter.numKvHeads, hafter.headDim, ?_⟩
      rw [hlayer] at hkind
      cases hnow : after.storage with
      | f16 key value =>
        rw [hnow] at hkind
        cases hkind
      | kvarn current =>
        rw [hnow] at hkind
        cases hkind with
        | kvarn hbefore hcurrent =>
          exact (hcurrent.layoutMatches hbefore).trans (hcache.layoutMatches hcut)
  · rw [hsaved.ssmStates, h.ssmStates]
  · rw [← hsaved.glmIndexerK.length_eq, h.glmIndexerK.length_eq]
  · rw [hsaved.glmIndexerKeyLen, h.glmIndexerKeyLen]
  · rw [hsaved.glmIndexerTopK, h.glmIndexerTopK]

theorem SameLayout.holdsRows {n : Nat} (h : SameLayout cache later) (hrows : cache.HoldsRows n) :
    later.HoldsRows n := by
  intro layer hmem key value hstorage
  rcases List.mem_iff_getElem?.mp hmem with ⟨l, hl⟩
  rcases exists_getElem?_of_length_eq h.layers.length_eq.symm hl with ⟨before, hbefore⟩
  have hlayout := getElem?_of_forall₂ h.layers hbefore hl
  have hkind := hlayout.storage
  have hstride : layer.stride = before.stride := by
    unfold LayerCache.stride
    rw [hlayout.numKvHeads, hlayout.headDim]
  rw [hstorage] at hkind
  cases hsaved : before.storage with
  | kvarn cache =>
    rw [hsaved] at hkind
    cases hkind
  | f16 savedKey savedValue =>
    rw [hsaved] at hkind
    rcases hrows before (List.mem_of_getElem? hbefore) savedKey savedValue hsaved with
      ⟨hkey, hvalue⟩
    cases hkind with
    | f16 hkeyGrown hvalueGrown =>
      rw [hstride]
      exact ⟨Nat.le_trans hkey hkeyGrown, Nat.le_trans hvalue hvalueGrown⟩

theorem restored_readUpTo {layer len : Nat} (hsaved : saved.TakenFrom cache)
    (hfits : saved.Fits later) (hrows : later.HoldsRows cache.currentLen)
    (hlen : len <= cache.currentLen) :
    (restored saved later).readUpTo layer len = cache.readUpTo layer len := by
  unfold readUpTo index
  cases hbefore : cache.layers[layer]? with
  | none =>
    have hshort : (restored saved later).layers[layer]? = none := by
      have hentry : saved.layers[layer]? = none := by
        rw [List.getElem?_eq_none_iff] at hbefore ⊢
        rw [← hsaved.layers.length_eq]
        exact hbefore
      unfold restored
      rw [List.getElem?_zipWith, hentry]
    rw [hshort]
  | some before =>
    rcases exists_getElem?_of_length_eq hsaved.layers.length_eq hbefore with
      ⟨entry, hentry⟩
    rcases exists_getElem?_of_length_eq hfits.layers.length_eq hentry with
      ⟨current, hcurrent⟩
    have hnow : (restored saved later).layers[layer]? =
        some (LayerCache.restoreSnapshot entry current).1 := by
      unfold restored
      rw [List.getElem?_zipWith, hentry, hcurrent]
    rw [hnow]
    exact LayerCache.restoreSnapshot_readUpTo (getElem?_of_forall₂ hsaved.layers hbefore hentry)
      (getElem?_of_forall₂ hfits.layers hentry hcurrent)
      (hrows current (List.mem_of_getElem? hcurrent)) hlen

theorem restored_glmIndexerKUpTo {layer len : Nat} (hlater : later.Sound)
    (hsaved : saved.TakenFrom cache) (hfits : saved.Fits later) (hlen : len <= cache.currentLen) :
    (restored saved later).glmIndexerKUpTo layer len = cache.glmIndexerKUpTo layer len := by
  have hkeyLen : (restored saved later).glmIndexerKeyLen = cache.glmIndexerKeyLen :=
    hfits.glmIndexerKeyLen.symm.trans hsaved.glmIndexerKeyLen
  unfold glmIndexerKUpTo index
  rw [hkeyLen]
  cases hbefore : cache.glmIndexerK[layer]? with
  | none =>
    have hshort : (restored saved later).glmIndexerK[layer]? = none := by
      have hrow : saved.glmIndexerK[layer]? = none := by
        rw [List.getElem?_eq_none_iff] at hbefore ⊢
        rw [← hsaved.glmIndexerK.length_eq]
        exact hbefore
      unfold restored
      rw [List.getElem?_zipWith, hrow]
    rw [hshort]
  | some keys =>
    rcases exists_getElem?_of_length_eq hsaved.glmIndexerK.length_eq hbefore with
      ⟨row, hrow⟩
    rcases exists_getElem?_of_length_eq hfits.glmIndexerK hrow with ⟨current, hcurrent⟩
    have hfit := glmIndexerK_fits hlater hsaved hfits (List.mem_of_getElem? hrow)
      (List.mem_of_getElem? hcurrent)
    have hnow : (restored saved later).glmIndexerK[layer]? =
        some (row ++ current.drop row.length) := by
      unfold restored
      rw [List.getElem?_zipWith, hrow, hcurrent]
      dsimp only
      rw [copyPrefix_of_le hfit]
    rcases getElem?_of_forall₂ hsaved.glmIndexerK hbefore hrow with ⟨hlong, htake⟩
    have hcount : len * cache.glmIndexerKeyLen <=
        cache.currentLen * cache.glmIndexerKeyLen :=
      Nat.mul_le_mul_right _ hlen
    have hhead : len * cache.glmIndexerKeyLen <= row.length := by
      rw [htake, List.length_take, Nat.min_eq_left hlong]
      exact hcount
    rw [hnow]
    change slice (row ++ current.drop row.length) 0 _ = slice keys 0 _
    rw [slice_zero_of_le (Nat.le_trans hcount hlong), slice_zero_of_le,
      List.take_append_of_le_length hhead, htake, List.take_take, Nat.min_eq_left hcount]
    rw [List.length_append]
    exact Nat.le_trans hhead (Nat.le_add_right _ _)

/-- A snapshot brings back the rows, the recurrent states and the indexer keys,
whatever the operations in between did. -/
theorem snapshot_restores
    {f16FromF32 : UInt32 -> UInt16} {cache later : KVCache codec} {ops : List SequenceOp}
    (hcache : Reachable f16FromF32 cache) (hlen : cache.currentLen <= cache.maxSeqLen)
    (hrows : cache.HoldsRows cache.currentLen)
    (hops : SequenceOp.callAll f16FromF32 cache ops = .ok later) :
    exists saved next, cache.snapshot = .ok saved ∧
      restoreSnapshot saved later = (next, .ok ()) ∧
      next.currentLen = cache.currentLen ∧
      (forall layer len, len <= cache.currentLen ->
        next.readUpTo layer len = cache.readUpTo layer len) ∧
      next.ssmStates = cache.ssmStates ∧
      forall layer len, len <= cache.currentLen ->
        next.glmIndexerKUpTo layer len = cache.glmIndexerKUpTo layer len := by
  have hsound := hcache.sound
  rcases snapshot_delivers hsound hlen hrows with ⟨saved, hsnapshot, hsaved⟩
  have hlayout := SequenceOp.callAll_sameLayout hsound.sameLayout hops
  have hlater := hlayout.sound hsound
  have hfits := hlayout.fits hsaved hlen
  have hheld := hlayout.holdsRows hrows
  have hheldSaved := hheld
  rw [← hsaved.currentLen] at hheldSaved
  refine ⟨saved, restored saved later, hsnapshot,
    restoreSnapshot_of_holdsRows hlater hsaved hfits hheldSaved, hsaved.currentLen, ?_,
    hsaved.ssmStates, ?_⟩
  · intro layer len hle
    exact restored_readUpTo hsaved hfits hheld hle
  · intro layer len hle
    exact restored_glmIndexerKUpTo hlater hsaved hfits hle

def singleRow (format : KvCacheFormat) : Checked (KVCache KvarnOp.coarseCodec) :=
  newPerLayerWithFormats KvarnOp.coarseCodec 1 [1] [4] [format]

def writeRow : SequenceOp :=
  .cacheOp (.appendBitsRange 0 0 1 [1, 2, 3, 4] [5, 6, 7, 8])

theorem reachable_singleRow
    (format : KvCacheFormat) (op : SequenceOp) {fresh next : KVCache KvarnOp.coarseCodec}
    (hfresh : singleRow format = .ok fresh) (hnext : op.call (fun _ => 0) fresh = .ok next) :
    Reachable (fun _ => 0) next :=
  Reachable.call (Reachable.new hfresh) hnext

theorem snapshot_restores_cleared_row :
    exists fresh cache later : KVCache KvarnOp.coarseCodec,
      singleRow .kvarnK4V2G64 = .ok fresh ∧
      writeRow.call (fun _ => 0) fresh = .ok cache ∧
      SequenceOp.callAll (fun _ => 0) cache [.clear] = .ok later ∧
      later.currentLen = 0 ∧
      exists saved next, cache.snapshot = .ok saved ∧
        restoreSnapshot saved later = (next, .ok ()) ∧
        next.currentLen = 1 ∧
        next.readUpTo 0 1 = .ok ([1, 2, 3, 4], [5, 6, 7, 8]) := by
  refine ⟨_, _, _, rfl, rfl, rfl, rfl, ?_⟩
  rcases snapshot_restores (reachable_singleRow .kvarnK4V2G64 writeRow rfl rfl) (Nat.le_refl 1)
      (by
        intro layer hlayer key value hstorage
        rcases List.mem_singleton.mp hlayer with rfl
        cases hstorage)
      (rfl : SequenceOp.callAll (fun _ => 0) _ [.clear] = .ok _) with
    ⟨saved, next, hsaved, hnext, hlen, hreads, _⟩
  exact ⟨saved, next, hsaved, hnext, hlen, hreads 0 1 (Nat.le_refl 1)⟩

/-- A length past the buffer is accepted by `setLen`: a compressed layer still
gives a snapshot, which the guard of the restoration refuses, and a plain layer
without the rows gives none. -/
theorem unchecked_length_not_restored :
    (exists (cache : KVCache KvarnOp.coarseCodec) (saved : KVCacheSnapshot KvarnOp.coarseCodec),
      Reachable (fun _ => 0) cache ∧ cache.snapshot = .ok saved ∧
        (restoreSnapshot saved cache).2 =
          report "sequence state does not match this KV cache") ∧
      exists cache : KVCache KvarnOp.coarseCodec,
        Reachable (fun _ => 0) cache ∧ cache.currentLen <= cache.maxSeqLen ∧
          cache.snapshot = abort "slice index out of range" := by
  constructor
  · have hreached : forall fresh next : KVCache KvarnOp.coarseCodec,
        singleRow .kvarnK4V2G64 = .ok fresh ->
        SequenceOp.call (fun _ => 0) fresh (.cacheOp (.setLen 2)) = .ok next ->
        Reachable (fun _ => 0) next :=
      fun _ _ hfresh hnext => reachable_singleRow _ _ hfresh hnext
    exact ⟨_, _, hreached _ _ rfl rfl, rfl, rfl⟩
  · have hreached : forall fresh plain next : KVCache KvarnOp.coarseCodec,
        singleRow .kvarnK4V2G64 = .ok fresh ->
        fresh.convertToF16 0 = .ok plain ->
        SequenceOp.call (fun _ => 0) plain (.cacheOp (.setLen 1)) = .ok next ->
        Reachable (fun _ => 0) next :=
      fun _ _ _ hfresh hplain hnext =>
        Reachable.call (Reachable.convertToF16 (Reachable.new hfresh) hplain) hnext
    exact ⟨_, hreached _ _ _ rfl rfl rfl, Nat.le_refl 1, rfl⟩

/-!
# Restoring into any cache of the layout
-/

/-- No panic, and no change behind a reported error. -/
def RestoresTotally (saved : KVCacheSnapshot codec) (cache : KVCache codec) : Prop :=
  (forall message, (restoreSnapshot saved cache).2 ≠ .error (.panicked message)) ∧
    forall message, (restoreSnapshot saved cache).2 = .error (.reported message) ->
      (restoreSnapshot saved cache).1 = cache

/-- Restoring is total exactly when a cache of the snapshot's layout already
holds the rows of the snapshot in its plain buffers. -/
theorem restoresTotally_iff_holdsRows
    {f16FromF32 : UInt32 -> UInt16} {cache source : KVCache codec} {saved : KVCacheSnapshot codec}
    (hcache : Reachable f16FromF32 cache) (hsource : Reachable f16FromF32 source)
    (hsaved : source.snapshot = .ok saved) :
    RestoresTotally saved cache ↔
      (saved.Fits cache -> cache.HoldsRows saved.currentLen) := by
  have htaken := snapshot_takenFrom hsource.sound hsaved
  constructor
  · intro h hfits
    by_contra hrows
    rcases restoreSnapshot_of_not_holdsRows htaken hfits hrows with ⟨message, hpanic⟩
    exact h.left message hpanic
  · intro h
    cases hvalid : cache.validateSnapshot saved with
    | error fault =>
      rcases validateSnapshot_reports hvalid with ⟨reported, hreported⟩
      unfold RestoresTotally
      rw [restoreSnapshot_rejected hvalid, hreported]
      exact ⟨(fun message hpanic => by cases hpanic), fun _ _ => rfl⟩
    | ok done =>
      have hfits := (validateSnapshot_eq_ok_iff htaken).mp hvalid
      unfold RestoresTotally
      rw [restoreSnapshot_of_holdsRows hcache.sound htaken hfits (h hfits)]
      exact ⟨(fun message hpanic => by cases hpanic), (fun message hreported => by cases hreported)⟩

theorem restoresTotally_plain_row :
    exists fresh source : KVCache KvarnOp.coarseCodec,
      singleRow .f16 = .ok fresh ∧ writeRow.call (fun _ => 0) fresh = .ok source ∧
        exists saved, source.snapshot = .ok saved ∧ RestoresTotally saved fresh := by
  have hreached : forall fresh source : KVCache KvarnOp.coarseCodec,
      singleRow .f16 = .ok fresh -> writeRow.call (fun _ => 0) fresh = .ok source ->
      Reachable (fun _ => 0) fresh ∧ Reachable (fun _ => 0) source :=
    fun _ _ hfresh hsource =>
      ⟨Reachable.new hfresh, reachable_singleRow _ _ hfresh hsource⟩
  refine ⟨_, _, rfl, rfl, _, rfl, ?_⟩
  rcases hreached _ _ rfl rfl with ⟨hfresh, hsource⟩
  refine (restoresTotally_iff_holdsRows hfresh hsource rfl).mpr (fun _ => ?_)
  intro layer hlayer key value hstorage
  rcases List.mem_singleton.mp hlayer with rfl
  cases hstorage
  decide

/-- A cache converted to plain buffers with nothing reserved panics on a
snapshot of one row. -/
theorem unreserved_buffer_panics :
    exists (fresh cache plain source : KVCache KvarnOp.coarseCodec)
      (saved : KVCacheSnapshot KvarnOp.coarseCodec),
      singleRow .kvarnK4V2G64 = .ok fresh ∧ fresh.convertToF16 0 = .ok cache ∧
        singleRow .f16 = .ok plain ∧ writeRow.call (fun _ => 0) plain = .ok source ∧
          source.snapshot = .ok saved ∧ ¬ RestoresTotally saved cache := by
  refine ⟨_, _, _, _, _, rfl, rfl, rfl, rfl, rfl, ?_⟩
  intro h
  exact h.left "range end index out of range" rfl

end KVCache

end KvCache
end RunNBurn
