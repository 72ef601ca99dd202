import RunNBurn.KvCache.SnapshotLayouts

/-!
# Exactness of sequence snapshots

What a snapshot holds, when a cache accepts it, and what restoring it leaves.
-/

namespace RunNBurn
namespace KvCache

open Library
open GroupedRows

/-!
# What a snapshot holds
-/

namespace LayerCacheSnapshot

variable {codec : KvarnCodec}

/-- The entry that a sound layer leaves in a snapshot of `n` rows. -/
inductive TakenFrom (n : Nat) (layer : LayerCache codec) :
    LayerCacheSnapshot codec -> Prop where
  | f16 {key value : List UInt16}
      (hlayer : layer.storage = .f16 key value)
      (hkey : n * layer.stride <= key.length)
      (hvalue : n * layer.stride <= value.length) :
      TakenFrom n layer {
        storage := .f16 (key.take (n * layer.stride)) (value.take (n * layer.stride))
        numKvHeads := layer.numKvHeads
        headDim := layer.headDim }
  | kvarn {cache cut : KvarnLayerCache codec} {shape : KvarnShape} {store : KvStore shape}
      (hlayer : layer.storage = .kvarn cache)
      (hcache : cache.Represents shape store)
      (hcut : cut.Represents shape (store.truncate n)) :
      TakenFrom n layer {
        storage := .kvarn cut
        numKvHeads := layer.numKvHeads
        headDim := layer.headDim }

end LayerCacheSnapshot

namespace LayerCache

variable {codec : KvarnCodec}

/-- A plain layer has `n` rows allocated. -/
def HoldsRows (n : Nat) (layer : LayerCache codec) : Prop :=
  forall key value, layer.storage = .f16 key value ->
    n * layer.stride <= key.length ∧ n * layer.stride <= value.length

theorem snapshot_takenFrom
    {layer : LayerCache codec} {n : Nat} {entry : LayerCacheSnapshot codec} (h : layer.Sound)
    (hentry : layer.snapshot n = .ok entry) :
    entry.TakenFrom n layer := by
  unfold Sound at h
  unfold snapshot at hentry
  cases hlayer : layer.storage with
  | f16 key value =>
    rw [hlayer] at hentry
    rcases bind_eq_ok hentry with ⟨bits, hbits, hpure⟩
    rcases (readUpToMaterialized_f16_iff hlayer).mp hbits with ⟨hkey, hvalue, hboth⟩
    rw [hboth] at hpure
    cases hpure
    exact LayerCacheSnapshot.TakenFrom.f16 hlayer hkey hvalue
  | kvarn cache =>
    rw [hlayer] at hentry h
    rcases bind_eq_ok hentry with ⟨cut, hcut, hpure⟩
    cases hpure
    cases h with
    | kvarn _ hrep =>
      exact LayerCacheSnapshot.TakenFrom.kvarn hlayer hrep
        ((KvarnLayerCache.truncateTo_represents hrep n).returns cut hcut)

theorem snapshot_delivers
    {layer : LayerCache codec} {n : Nat} (h : layer.Sound) (hrows : layer.HoldsRows n) :
    Delivers (layer.snapshot n) (fun _ => True) := by
  unfold Sound at h
  unfold snapshot
  cases hlayer : layer.storage with
  | f16 key value =>
    rcases hrows key value hlayer with ⟨hkey, hvalue⟩
    have hread := (readUpToMaterialized_f16_iff hlayer).mpr
      ⟨hkey, hvalue, rfl⟩
    dsimp only
    rw [hread]
    exact delivers_ok trivial
  | kvarn cache =>
    rw [hlayer] at h
    cases h with
    | kvarn _ hrep =>
      rcases KvarnLayerCache.truncateTo_represents hrep n with ⟨cut, hcut, _⟩
      dsimp only
      unfold KvarnLayerCache.snapshot
      rw [hcut]
      exact delivers_ok trivial

end LayerCache

namespace KVCacheSnapshot

variable {codec : KvarnCodec}

structure TakenFrom (cache : KVCache codec) (saved : KVCacheSnapshot codec) : Prop where
  layers : List.Forall₂ (fun layer entry =>
    LayerCacheSnapshot.TakenFrom cache.currentLen layer entry) cache.layers saved.layers
  ssmStates : saved.ssmStates = cache.ssmStates
  maxSeqLen : saved.maxSeqLen = cache.maxSeqLen
  currentLen : saved.currentLen = cache.currentLen
  glmIndexerK : List.Forall₂ (fun keys row =>
    cache.currentLen * cache.glmIndexerKeyLen <= keys.length ∧
      row = keys.take (cache.currentLen * cache.glmIndexerKeyLen))
    cache.glmIndexerK saved.glmIndexerK
  glmIndexerKeyLen : saved.glmIndexerKeyLen = cache.glmIndexerKeyLen
  glmIndexerTopK : saved.glmIndexerTopK = cache.glmIndexerTopK

end KVCacheSnapshot

namespace KVCache

variable {codec : KvarnCodec}

def HoldsRows (n : Nat) (cache : KVCache codec) : Prop :=
  forall layer, layer ∈ cache.layers -> layer.HoldsRows n

theorem snapshot_takenFrom
    {cache : KVCache codec} {saved : KVCacheSnapshot codec} (h : cache.Sound)
    (hsaved : cache.snapshot = .ok saved) :
    saved.TakenFrom cache := by
  rcases bind_eq_ok hsaved with ⟨layers, hlayers, hrest⟩
  rcases bind_eq_ok hrest with ⟨keys, hkeys, hpure⟩
  cases hpure
  constructor
  · have hsound : List.Forall₂ (fun layer other => layer = other ∧ layer.Sound)
        cache.layers cache.layers :=
      forall₂_same (fun layer hlayer => ⟨rfl, h.layers layer hlayer⟩)
    refine forall₂_comp hsound (mapM_returns _ _ layers hlayers) ?_
    intro layer other entry hsame hentry
    rw [← hsame.left] at hentry
    exact LayerCache.snapshot_takenFrom hsame.right hentry
  · rfl
  · rfl
  · rfl
  · exact (mapM_returns _ _ keys hkeys).imp (fun _ _ hslice =>
      slice_zero_eq_ok_iff.mp hslice)
  · rfl
  · rfl

theorem snapshot_delivers
    {cache : KVCache codec} (h : cache.Sound) (hlen : cache.currentLen <= cache.maxSeqLen)
    (hrows : cache.HoldsRows cache.currentLen) :
    Delivers cache.snapshot (fun saved => saved.TakenFrom cache) := by
  have hlayers : Delivers (cache.layers.mapM fun layer => layer.snapshot cache.currentLen)
      _ := mapM_delivers (fun layer hlayer =>
    LayerCache.snapshot_delivers (h.layers layer hlayer) (hrows layer hlayer))
  have hkeys : Delivers (cache.glmIndexerK.mapM fun keys =>
      slice keys 0 (cache.currentLen * cache.glmIndexerKeyLen))
      (fun rows => List.Forall₂ (fun keys row =>
        slice keys 0 (cache.currentLen * cache.glmIndexerKeyLen) = .ok row)
        cache.glmIndexerK rows) := by
    apply mapM_delivers
    intro keys hmem
    refine ⟨_, slice_zero_of_le ?_, trivial⟩
    rw [h.glmIndexerK keys hmem]
    exact Nat.mul_le_mul_right _ hlen
  rcases hlayers with ⟨layers, hlayers, _⟩
  rcases hkeys with ⟨keys, hkeys, _⟩
  have hsnapshot : exists saved, cache.snapshot = .ok saved := by
    unfold snapshot
    rw [hlayers]
    dsimp only [bind, Except.bind]
    rw [hkeys]
    exact ⟨_, rfl⟩
  rcases hsnapshot with ⟨saved, hsaved⟩
  exact ⟨saved, hsaved, snapshot_takenFrom h hsaved⟩

end KVCache

/-!
# When a cache accepts a snapshot
-/

namespace LayerCacheSnapshot

variable {codec : KvarnCodec}

/-- The layer has the dimensions and the storage kind of the entry. -/
def SameKind (saved : LayerCacheSnapshot codec) (layer : LayerCache codec) : Prop :=
  layer.numKvHeads = saved.numKvHeads ∧ layer.headDim = saved.headDim ∧
    match layer.storage, saved.storage with
    | .f16 _ _, .f16 _ _ => True
    | .kvarn current, .kvarn saved => current.LayoutMatches saved
    | _, _ => False

variable {saved : LayerCacheSnapshot codec} {layer source : LayerCache codec}

theorem stride_of_sameKind {n : Nat} (h : saved.SameKind layer)
    (hsource : saved.TakenFrom n source) :
    layer.stride = source.stride := by
  unfold LayerCache.stride
  rw [h.left, h.right.left]
  cases hsource with
  | f16 _ _ _ => rfl
  | kvarn _ _ _ => rfl

theorem storageMatches_iff_sameKind {n : Nat} (hsource : saved.TakenFrom n source)
    (hheads : layer.numKvHeads = saved.numKvHeads) (hdim : layer.headDim = saved.headDim) :
    saved.StorageMatches n layer ↔ saved.SameKind layer := by
  unfold StorageMatches SameKind
  cases hsource with
  | f16 hlayer hkey hvalue =>
    cases hstorage : layer.storage with
    | f16 key value =>
      have hcount : n * source.stride = n * layer.numKvHeads * layer.headDim := by
        rw [hheads, hdim, Nat.mul_assoc]
        rfl
      dsimp only
      rw [List.length_take, List.length_take, Nat.min_eq_left hkey, Nat.min_eq_left hvalue]
      exact Iff.intro (fun _ => ⟨hheads, hdim, trivial⟩) (fun _ => ⟨hcount, hcount⟩)
    | kvarn cache => exact Iff.intro False.elim (fun h => h.right.right)
  | kvarn hlayer hcache hcut =>
    cases hstorage : layer.storage with
    | f16 key value => exact Iff.intro False.elim (fun h => h.right.right)
    | kvarn current =>
      constructor
      · intro h
        exact ⟨hheads, hdim, h.left⟩
      · intro h
        refine ⟨h.right.right, ?_⟩
        rw [hcut.storedLen, rows_truncate, List.length_take]
        exact Nat.min_le_left _ _

theorem validateLayer_eq_ok_iff {n : Nat} (hsource : saved.TakenFrom n source) :
    saved.validateLayer n layer = .ok () ↔ saved.SameKind layer := by
  unfold validateLayer
  constructor
  · intro h
    split at h
    · cases h
    · rename_i hdims
      rcases not_or.mp hdims with ⟨hheads, hdim⟩
      split at h
      · cases h
      · rename_i hstorage
        exact (storageMatches_iff_sameKind hsource (not_not.mp hheads)
          (not_not.mp hdim)).mp (not_not.mp hstorage)
  · intro h
    have hdims : ¬(layer.numKvHeads ≠ saved.numKvHeads ∨ layer.headDim ≠ saved.headDim) :=
      fun hor => hor.elim (fun hne => hne h.left) (fun hne => hne h.right.left)
    rw [if_neg hdims, if_neg]
    · rfl
    · exact not_not.mpr ((storageMatches_iff_sameKind hsource h.left h.right.left).mpr h)

theorem validateLayer_reports {layer : LayerCache codec} {n : Nat} {fault : Fault}
    (h : saved.validateLayer n layer = .error fault) :
    exists message, fault = .reported message := by
  unfold validateLayer at h
  split at h
  · cases h
    exact ⟨_, rfl⟩
  · split at h
    · cases h
      exact ⟨_, rfl⟩
    · cases h

end LayerCacheSnapshot

namespace KVCacheSnapshot

variable {codec : KvarnCodec}

structure Fits (saved : KVCacheSnapshot codec) (cache : KVCache codec) : Prop where
  currentLen : saved.currentLen <= cache.maxSeqLen
  maxSeqLen : saved.maxSeqLen = cache.maxSeqLen
  layers : List.Forall₂ LayerCacheSnapshot.SameKind saved.layers cache.layers
  ssmStates : saved.ssmStates.length = cache.ssmStates.length
  glmIndexerK : saved.glmIndexerK.length = cache.glmIndexerK.length
  glmIndexerKeyLen : saved.glmIndexerKeyLen = cache.glmIndexerKeyLen
  glmIndexerTopK : saved.glmIndexerTopK = cache.glmIndexerTopK

theorem TakenFrom.length_glmIndexerK
    {saved : KVCacheSnapshot codec} {source : KVCache codec} {row : List UInt16}
    (h : saved.TakenFrom source) (hrow : row ∈ saved.glmIndexerK) :
    row.length = saved.currentLen * saved.glmIndexerKeyLen := by
  rcases List.mem_iff_getElem?.mp hrow with ⟨l, hl⟩
  rcases exists_getElem?_of_length_eq h.glmIndexerK.length_eq.symm hl with ⟨keys, hkeys⟩
  rcases getElem?_of_forall₂ h.glmIndexerK hkeys hl with ⟨hlong, htake⟩
  rw [htake, List.length_take, Nat.min_eq_left hlong, h.currentLen, h.glmIndexerKeyLen]

end KVCacheSnapshot

namespace KVCache

variable {codec : KvarnCodec}

theorem validateSnapshot_reports
    {cache : KVCache codec} {saved : KVCacheSnapshot codec} {fault : Fault}
    (h : cache.validateSnapshot saved = .error fault) :
    exists message, fault = .reported message := by
  unfold validateSnapshot at h
  split at h
  · cases h
    exact ⟨_, rfl⟩
  · cases hlayers : (cache.layers.zip saved.layers).forM
        (fun entry : LayerCache codec × LayerCacheSnapshot codec =>
          entry.2.validateLayer saved.currentLen entry.1) with
    | error other =>
      rw [hlayers] at h
      cases h
      rcases forM_eq_error hlayers with ⟨entry, _, hentry⟩
      exact LayerCacheSnapshot.validateLayer_reports hentry
    | ok done =>
      rw [hlayers, ok_bind] at h
      dsimp only at h
      split at h
      · cases h
        exact ⟨_, rfl⟩
      · cases h

theorem validateSnapshot_eq_ok_iff
    {cache source : KVCache codec} {saved : KVCacheSnapshot codec}
    (hsource : saved.TakenFrom source) :
    cache.validateSnapshot saved = .ok () ↔ saved.Fits cache := by
  have hlayers : ((cache.layers.zip saved.layers).forM
        (fun entry : LayerCache codec × LayerCacheSnapshot codec =>
          entry.2.validateLayer saved.currentLen entry.1) = .ok ()) ↔
      forall entry, entry ∈ cache.layers.zip saved.layers -> entry.2.SameKind entry.1 := by
    rw [forM_eq_ok_iff]
    apply forall_congr'
    intro entry
    apply imp_congr_right
    intro hentry
    rcases List.mem_iff_getElem?.mp (List.of_mem_zip hentry).2 with ⟨l, hl⟩
    rcases exists_getElem?_of_length_eq hsource.layers.length_eq.symm hl with ⟨layer, hlayer⟩
    rw [hsource.currentLen]
    exact LayerCacheSnapshot.validateLayer_eq_ok_iff (getElem?_of_forall₂ hsource.layers hlayer hl)
  have hkeys : ¬exists keys, keys ∈ saved.glmIndexerK ∧
      keys.length ≠ saved.currentLen * saved.glmIndexerKeyLen := by
    rintro ⟨row, hrow, hne⟩
    exact hne (hsource.length_glmIndexerK hrow)
  constructor
  · intro h
    unfold validateSnapshot at h
    split at h
    · cases h
    · rename_i hfields
      simp only [not_or, Nat.not_lt, gt_iff_lt, not_not] at hfields
      rcases hfields with ⟨hlen, hmax, hcount, hssm, hrows, hkeyLen, htopK⟩
      rcases bind_eq_ok h with ⟨done, hdone, _⟩
      have hkinds := hlayers.mp hdone
      refine KVCacheSnapshot.Fits.mk hlen hmax ?_ hssm hrows hkeyLen htopK
      refine List.Forall₂.flip (List.forall₂_iff_zip.mpr ⟨hcount.symm, ?_⟩)
      intro layer entry hentry
      exact hkinds (layer, entry) hentry
  · intro h
    have hfields : ¬(saved.currentLen > cache.maxSeqLen ∨
        saved.maxSeqLen ≠ cache.maxSeqLen ∨
        saved.layers.length ≠ cache.layers.length ∨
        saved.ssmStates.length ≠ cache.ssmStates.length ∨
        saved.glmIndexerK.length ≠ cache.glmIndexerK.length ∨
        saved.glmIndexerKeyLen ≠ cache.glmIndexerKeyLen ∨
        saved.glmIndexerTopK ≠ cache.glmIndexerTopK) := by
      simp only [not_or, Nat.not_lt, gt_iff_lt, not_not]
      exact ⟨h.currentLen, h.maxSeqLen, h.layers.length_eq, h.ssmStates, h.glmIndexerK,
        h.glmIndexerKeyLen, h.glmIndexerTopK⟩
    have hkinds := hlayers.mpr (fun entry hentry =>
      (List.forall₂_iff_zip.mp h.layers.flip).right hentry)
    unfold validateSnapshot
    rw [if_neg hfields, hkinds, ok_bind]
    exact if_neg hkeys

end KVCache

/-!
# The copy pass
-/

variable {row buffer : List UInt16}

theorem copyPrefix_of_le (h : row.length <= buffer.length) :
    copyPrefix row buffer = (row ++ buffer.drop row.length, .ok ()) := by
  unfold copyPrefix overwrite
  rw [if_pos h, List.take_zero, List.nil_append, Nat.zero_add]

theorem copyPrefix_ok_iff :
    (copyPrefix row buffer).2 = .ok () ↔ row.length <= buffer.length := by
  constructor
  · intro h
    unfold copyPrefix at h
    split at h
    · assumption
    · cases h
  · intro h
    rw [copyPrefix_of_le h]

theorem copyPrefix_panics {fault : Fault} (h : (copyPrefix row buffer).2 = .error fault) :
    exists message, fault = .panicked message := by
  unfold copyPrefix at h
  split at h
  · cases h
  · cases h
    exact ⟨_, rfl⟩

namespace LayerCache

variable {codec : KvarnCodec} {saved : LayerCacheSnapshot codec} {layer : LayerCache codec}

theorem restoreSnapshot_f16 {key value savedKey savedValue : List UInt16}
    (hlayer : layer.storage = .f16 key value) (hsaved : saved.storage = .f16 savedKey savedValue)
    (hkey : savedKey.length <= key.length) (hvalue : savedValue.length <= value.length) :
    restoreSnapshot saved layer =
      (layer.withStorage (.f16 (savedKey ++ key.drop savedKey.length)
        (savedValue ++ value.drop savedValue.length)), .ok ()) := by
  unfold restoreSnapshot
  rw [hlayer, hsaved]
  dsimp only
  rw [copyPrefix_of_le hkey, copyPrefix_of_le hvalue]

theorem restoreSnapshot_kvarn {cache savedCache : KvarnLayerCache codec}
    (hlayer : layer.storage = .kvarn cache) (hsaved : saved.storage = .kvarn savedCache) :
    restoreSnapshot saved layer = (layer.withStorage (.kvarn savedCache), .ok ()) := by
  unfold restoreSnapshot
  rw [hlayer, hsaved]

theorem length_take_rows {source : LayerCache codec} {n : Nat} {bits : List UInt16}
    (hstride : layer.stride = source.stride) (hbits : n * source.stride <= bits.length) :
    (bits.take (n * source.stride)).length = n * layer.stride := by
  rw [List.length_take, Nat.min_eq_left hbits, hstride]

theorem restoreSnapshot_ok_iff {layer source : LayerCache codec} {n : Nat}
    (hsource : saved.TakenFrom n source) (hkind : saved.SameKind layer) :
    (restoreSnapshot saved layer).2 = .ok () ↔ layer.HoldsRows n := by
  have hstride := LayerCacheSnapshot.stride_of_sameKind hkind hsource
  have hstorage := hkind.right.right
  cases hsource with
  | f16 hlayer hkey hvalue =>
    rename_i sourceKey sourceValue
    cases hcurrent : layer.storage with
    | kvarn cache =>
      rw [hcurrent] at hstorage
      exact hstorage.elim
    | f16 key value =>
      have hkeyLength := length_take_rows hstride hkey
      have hvalueLength := length_take_rows hstride hvalue
      constructor
      · intro h currentKey currentValue hboth
        rw [hcurrent] at hboth
        cases hboth
        unfold restoreSnapshot at h
        rw [hcurrent] at h
        dsimp only at h
        cases hcopy : copyPrefix (sourceKey.take (n * source.stride)) key with
        | mk left result =>
          rw [hcopy] at h
          cases result with
          | error fault => cases h
          | ok done =>
            have hfirst := copyPrefix_ok_iff.mp (congrArg Prod.snd hcopy)
            have hsecond := copyPrefix_ok_iff.mp h
            rw [hkeyLength] at hfirst
            rw [hvalueLength] at hsecond
            exact ⟨hfirst, hsecond⟩
      · intro h
        rcases h key value hcurrent with ⟨hfirst, hsecond⟩
        rw [← hkeyLength] at hfirst
        rw [← hvalueLength] at hsecond
        rw [restoreSnapshot_f16 hcurrent rfl hfirst hsecond]
  | kvarn hlayer hcache hcut =>
    cases hcurrent : layer.storage with
    | f16 key value =>
      rw [hcurrent] at hstorage
      exact hstorage.elim
    | kvarn cache =>
      rw [restoreSnapshot_kvarn hcurrent rfl]
      refine Iff.intro (fun _ key value hboth => ?_) (fun _ => rfl)
      rw [hcurrent] at hboth
      cases hboth

theorem restoreSnapshot_panics {fault : Fault}
    (h : (restoreSnapshot saved layer).2 = .error fault) :
    exists message, fault = .panicked message := by
  unfold restoreSnapshot at h
  split at h
  · split at h
    · rename_i hcopy
      cases h
      exact copyPrefix_panics (congrArg Prod.snd hcopy)
    · exact copyPrefix_panics h
  · cases h
  · cases h
    exact ⟨_, rfl⟩

end LayerCache

end KvCache
end RunNBurn
