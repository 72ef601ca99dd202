import Mathlib.Algebra.Order.BigOperators.Group.List
import Mathlib.Data.List.ReduceOption
import RunNBurn.KvCache.ByteSize
import RunNBurn.KvCache.DeviceRecords
import RunNBurn.KvCache.SnapshotRestore

/-!
# What the byte sizes leave out

The reported size of a snapshot falls short of its buffers by the block vectors
and the device records of its compressed layers.
-/

namespace RunNBurn
namespace KvCache

open Library

variable {F : Type} [Zero F] [One F] [NatCast F] [Add F] [Neg F] [Sub F] [Mul F] [Div F]
  [Min F] [Max F] [LE F] [DecidableLE F] {math : KvarnMath F}

/-!
# The allocations of a compressed snapshot
-/

namespace AllocatedKvarn

def unreportedBytes (sizes : TypeSizes) (cache : AllocatedKvarn) : Nat :=
  cache.blocks.capacity * sizes.kvarnBlock + cache.deviceBlocks.capacity

variable (sizes : TypeSizes)

theorem ownedBytes_eq (cache : AllocatedKvarn) :
    cache.ownedBytes sizes = cache.actualByteSize + cache.unreportedBytes sizes := by
  unfold ownedBytes actualByteSize unreportedBytes
  omega

theorem truncateTo_unreportedBytes (cache : AllocatedKvarn) (requested : Nat) :
    Returns (cache.truncateTo math requested) (fun next =>
      next.unreportedBytes sizes = cache.unreportedBytes sizes) := by
  intro next hnext
  unfold truncateTo at hnext
  dsimp only at hnext
  split at hnext
  · cases hnext
    rfl
  · split at hnext
    · unfold truncateIntoBlocks at hnext
      dsimp only at hnext
      split at hnext
      · rcases bind_eq_ok hnext with ⟨block, _, hnext⟩
        rcases bind_eq_ok hnext with ⟨key, _, hnext⟩
        rcases bind_eq_ok hnext with ⟨value, _, hnext⟩
        cases hnext
        rfl
      · cases hnext
        rfl
    · cases hnext
      rfl

theorem truncateTo_actualByteSize {cache : AllocatedKvarn}
    (hblocks : cache.blocks.items = []) (requested : Nat) :
    Returns (cache.truncateTo math requested) (fun next =>
      next.actualByteSize = cache.actualByteSize) := by
  intro next hnext
  unfold truncateTo at hnext
  dsimp only at hnext
  rw [hblocks, List.length_nil, Nat.zero_mul] at hnext
  split at hnext
  · cases hnext
    simp [actualByteSize, hblocks]
  · rw [if_neg (Nat.not_lt_zero _)] at hnext
    cases hnext
    rfl

theorem snapshot_unreportedBytes (cache : AllocatedKvarn) (len : Nat) :
    Returns (cache.snapshot math len) (fun taken =>
      taken.unreportedBytes sizes =
        cache.blocks.items.length * sizes.kvarnBlock + cache.deviceBlocks.items.length) := by
  intro taken htaken
  rw [truncateTo_unreportedBytes sizes cache.clone len taken htaken]
  simp [unreportedBytes, clone]

theorem snapshot_actualByteSize_le {cache : AllocatedKvarn}
    (hblocks : cache.blocks.items = []) (len : Nat) :
    Returns (cache.snapshot math len) (fun taken =>
      taken.actualByteSize <= cache.actualByteSize) := by
  intro taken htaken
  have hclone : cache.clone.blocks.items = [] := by
    simp [clone, hblocks]
  rw [truncateTo_actualByteSize hclone len taken htaken]
  have hsinkKey := cache.sinkKey.fits
  have hsinkValue := cache.sinkValue.fits
  have htailKey := cache.tailKey.fits
  have htailValue := cache.tailValue.fits
  simp only [actualByteSize, clone, hblocks, Buffer.capacity_clone, Buffer.items_cloneWith,
    List.map_nil, List.sum_nil]
  omega

end AllocatedKvarn

/-!
# Caches and snapshots without their allocations
-/

def AllocatedStorage.toStorage (math : KvarnMath F) :
    AllocatedStorage -> LayerCacheStorage (packedCodec math)
  | .f16 key value => .f16 key.items value.items
  | .kvarn cache => .kvarn (cache.toCache math)

def AllocatedSsmState.toState (state : AllocatedSsmState) : SsmLayerState UInt32 where
  convState := state.convState.items
  deltaState := state.deltaState.items
  convKernel := state.convKernel
  convChannels := state.convChannels

def AllocatedLayer.toLayer (math : KvarnMath F) (layer : AllocatedLayer) :
    LayerCache (packedCodec math) where
  storage := layer.storage.toStorage math
  numKvHeads := layer.numKvHeads
  headDim := layer.headDim
  maxSeqLen := layer.maxSeqLen

def AllocatedKVCache.toCache (math : KvarnMath F) (cache : AllocatedKVCache) :
    KVCache (packedCodec math) where
  layers := cache.layers.map (AllocatedLayer.toLayer math)
  ssmStates := cache.ssmStates.map (Option.map AllocatedSsmState.toState)
  maxSeqLen := cache.maxSeqLen
  currentLen := cache.currentLen
  glmIndexerK := cache.glmIndexerK.map Buffer.items
  glmIndexerKeyLen := cache.glmIndexerKeyLen
  glmIndexerTopK := cache.glmIndexerTopK

variable {layer : AllocatedLayer}

/-!
# The bound
-/

/-- What a layer of a live cache will leave unreported in a snapshot. -/
def AllocatedLayer.unreportedBytes (sizes : TypeSizes) (layer : AllocatedLayer) : Nat :=
  match layer.storage with
  | .f16 _ _ => 0
  | .kvarn cache => cache.blocks.items.length * sizes.kvarnBlock + cache.deviceBlocks.items.length

def AllocatedLayer.HoldsNoBlock (layer : AllocatedLayer) : Prop :=
  forall cache, layer.storage = .kvarn cache -> cache.blocks.items = []

variable (sizes : TypeSizes)

theorem AllocatedLayer.snapshot_ownedBytes (layer : AllocatedLayer) (currentLen : Nat) :
    Returns (layer.snapshot math currentLen) (fun taken =>
      taken.ownedBytes sizes = taken.byteSize + layer.unreportedBytes sizes) := by
  intro taken htaken
  unfold AllocatedLayer.snapshot at htaken
  unfold AllocatedLayer.unreportedBytes
  cases hstorage : layer.storage with
  | f16 key value =>
    rw [hstorage] at htaken
    rcases bind_eq_ok htaken with ⟨keyBits, _, htaken⟩
    rcases bind_eq_ok htaken with ⟨valueBits, _, htaken⟩
    cases htaken
    exact (Nat.add_mul _ _ _).symm
  | kvarn cache =>
    rw [hstorage] at htaken
    rcases bind_eq_ok htaken with ⟨saved, hsaved, htaken⟩
    cases htaken
    change saved.ownedBytes sizes = saved.actualByteSize + _
    rw [AllocatedKvarn.ownedBytes_eq,
      AllocatedKvarn.snapshot_unreportedBytes sizes cache currentLen saved hsaved]

theorem AllocatedLayer.snapshot_byteSize_le (hnone : layer.HoldsNoBlock) (currentLen : Nat) :
    Returns (layer.snapshot math currentLen) (fun taken =>
      taken.byteSize <= layer.snapshotByteSize currentLen) := by
  intro taken htaken
  unfold AllocatedLayer.snapshot at htaken
  unfold AllocatedLayer.snapshotByteSize
  cases hstorage : layer.storage with
  | f16 key value =>
    rw [hstorage] at htaken
    rcases bind_eq_ok htaken with ⟨keyBits, hkey, htaken⟩
    rcases bind_eq_ok htaken with ⟨valueBits, hvalue, htaken⟩
    cases htaken
    rcases slice_zero_eq_ok_iff.mp hkey with ⟨hkeyRoom, hkeyBits⟩
    rcases slice_zero_eq_ok_iff.mp hvalue with ⟨hvalueRoom, hvalueBits⟩
    simp only [AllocatedLayerSnapshot.byteSize, Buffer.capacity_ofList, hkeyBits, hvalueBits,
      List.length_take, Nat.min_eq_left hkeyRoom, Nat.min_eq_left hvalueRoom]
    rw [← Nat.mul_assoc]
    omega
  | kvarn cache =>
    rw [hstorage] at htaken
    rcases bind_eq_ok htaken with ⟨saved, hsaved, htaken⟩
    cases htaken
    exact AllocatedKvarn.snapshot_actualByteSize_le (hnone cache hstorage) currentLen saved hsaved

theorem snapshotSize_lt_blockBytes (shape : KvarnShape) :
    snapshotSize < shape.layout.blockBytes := by
  have hbytes := (KvarnDeviceRecordLayout.spans_of_new_eq_ok shape.accepted).right
  have hheads := (KvarnDeviceRecordLayout.facts_of_new_eq_ok shape.accepted).right.left
  have hgroup := ((KvarnConfig.validate_eq_ok_iff shape.config shape.headDim).mp
    shape.validated).right.right.left
  have hgroupPos : 64 <= shape.config.group := by
    omega
  have htokens : 64 <= shape.numKvHeads * shape.config.group := by
    calc
      64 = 1 * 64 := rfl
      _ <= shape.numKvHeads * shape.config.group := Nat.mul_le_mul hheads hgroupPos
  rw [hbytes]
  simp only [KvarnDeviceRecordLayout.fieldSizes, List.sum_cons, List.sum_nil, snapshotSize, vecSize]
  generalize shape.numKvHeads * shape.headDim * shape.config.group /
    (8 / shape.config.keyBits) = keyPacked
  generalize shape.numKvHeads * shape.config.group * shape.headDim /
    (8 / shape.config.valueBits) = valuePacked
  omega

theorem AllocatedLayer.snapshotSize_lt_unreportedBytes (hsound : (layer.toLayer math).Sound)
    (hsome : ¬ layer.HoldsNoBlock) :
    snapshotSize < layer.unreportedBytes sizes := by
  rcases Classical.not_forall.mp hsome with ⟨cache, hcache⟩
  rcases Classical.not_imp.mp hcache with ⟨hstorage, hblocks⟩
  have hkind : (AllocatedStorage.kvarn cache).toStorage math |>.KeepsKind
      ((AllocatedStorage.kvarn cache).toStorage math) := by
    rw [← hstorage]
    exact hsound
  cases hkind with
  | @kvarn _ _ shape _ store _ hrep =>
    rcases hrep with ⟨sinkRows, tailRows, hregions, _⟩
    have hdevice := hregions.deviceBlocks
    have hlength : cache.deviceBlocks.items.length =
        cache.blocks.items.length * shape.layout.blockBytes := by
      have huniform : UniformRows
          (fun block : KvarnBlock (packedCodec math) =>
            block.deviceRecord shape.layout.blockBytes)
          shape.layout.blockBytes (cache.toCache math).blocks := by
        intro block _
        exact KvarnBlock.length_deviceRecord block _
      change (cache.toCache math).deviceBlocks.length = _
      rw [hdevice, length_flatMap_of_uniformRows huniform]
      simp [AllocatedKvarn.toCache]
    have hcount : 1 <= cache.blocks.items.length :=
      List.length_pos_iff.mpr hblocks
    have hrecord := snapshotSize_lt_blockBytes shape
    have hleast := Nat.mul_le_mul_right shape.layout.blockBytes hcount
    unfold AllocatedLayer.unreportedBytes
    rw [hstorage]
    dsimp only
    rw [hlength]
    omega

theorem AllocatedLayer.unreportedBytes_of_holdsNoBlock (hsound : (layer.toLayer math).Sound)
    (hnone : layer.HoldsNoBlock) :
    layer.unreportedBytes sizes = 0 := by
  unfold AllocatedLayer.unreportedBytes
  cases hstorage : layer.storage with
  | f16 key value => rfl
  | kvarn cache =>
    have hblocks := hnone cache hstorage
    have hkind : (AllocatedStorage.kvarn cache).toStorage math |>.KeepsKind
        ((AllocatedStorage.kvarn cache).toStorage math) := by
      rw [← hstorage]
      exact hsound
    cases hkind with
    | @kvarn _ _ shape _ store _ hrep =>
      rcases hrep with ⟨sinkRows, tailRows, hregions, _⟩
      have hdevice : cache.deviceBlocks.items = [] := by
        have hflat := hregions.deviceBlocks
        have hplain : (cache.toCache math).blocks = [] := by
          simp [AllocatedKvarn.toCache, hblocks]
        rw [hplain, List.flatMap_nil] at hflat
        exact hflat
      simp [hblocks, hdevice]

namespace AllocatedKVCache

variable {cache : AllocatedKVCache} {taken : AllocatedSnapshot}

theorem sum_map_of_forall₂ {source taken : Type} {xs : List source} {ys : List taken}
    {left : source -> Nat} {right owned : taken -> Nat}
    (h : List.Forall₂ (fun x y => owned y = right y + left x) xs ys) :
    (ys.map owned).sum = (ys.map right).sum + (xs.map left).sum := by
  induction h with
  | nil => rfl
  | cons hhead _ ih =>
    simp only [List.map_cons, List.sum_cons, ih, hhead]
    omega

theorem sum_map_le_of_forall₂ {source taken : Type} {xs : List source} {ys : List taken}
    {rel : source -> taken -> Prop} {estimate : source -> Nat} {size : taken -> Nat}
    (h : List.Forall₂ rel xs ys) (hle : forall x y, x ∈ xs -> rel x y -> size y <= estimate x) :
    (ys.map size).sum <= (xs.map estimate).sum := by
  induction h with
  | nil => exact Nat.le_refl _
  | cons hhead _ ih =>
    have hrest := ih (fun x y hx hxy => hle x y (List.mem_cons_of_mem _ hx) hxy)
    have hfirst := hle _ _ List.mem_cons_self hhead
    simp only [List.map_cons, List.sum_cons]
    omega

theorem snapshot_ownedBytes (sizes : TypeSizes) (h : cache.snapshot math = .ok taken) :
    taken.ownedBytes sizes + snapshotSize = taken.byteSize sizes +
      (cache.layers.map fun layer => layer.unreportedBytes sizes).sum := by
  rcases bind_eq_ok h with ⟨layers, hlayers, h⟩
  rcases bind_eq_ok h with ⟨glmIndexerK, _, h⟩
  cases h
  have heach : List.Forall₂
      (fun (layer : AllocatedLayer) (taken : AllocatedLayerSnapshot) =>
        taken.ownedBytes sizes = taken.byteSize + layer.unreportedBytes sizes)
      cache.layers layers :=
    (mapM_returns _ _ layers hlayers).imp
      (fun layer taken htaken => layer.snapshot_ownedBytes sizes cache.currentLen taken htaken)
  have hlayerSum : (layers.map fun taken => taken.ownedBytes sizes).sum =
      (layers.map AllocatedLayerSnapshot.byteSize).sum +
        (cache.layers.map fun layer => layer.unreportedBytes sizes).sum :=
    sum_map_of_forall₂ heach
  simp only [AllocatedSnapshot.ownedBytes, AllocatedSnapshot.byteSize, Buffer.items_ofList,
    hlayerSum, Nat.add_mul]
  omega

theorem snapshot_byteSize_le (sizes : TypeSizes)
    (hnone : forall layer, layer ∈ cache.layers -> layer.HoldsNoBlock)
    (h : cache.snapshot math = .ok taken) :
    taken.byteSize sizes <= cache.snapshotByteSize sizes := by
  rcases bind_eq_ok h with ⟨layers, hlayers, h⟩
  rcases bind_eq_ok h with ⟨glmIndexerK, hkeys, h⟩
  cases h
  have hall := mapM_returns _ _ layers hlayers
  have hlayerCount : layers.length = cache.layers.length := hall.length_eq.symm
  have hlayerBytes : (layers.map AllocatedLayerSnapshot.byteSize).sum <=
      (cache.layers.map fun layer => layer.snapshotByteSize cache.currentLen).sum :=
    sum_map_le_of_forall₂ hall (fun layer taken hlayer htaken =>
      AllocatedLayer.snapshot_byteSize_le (hnone layer hlayer) cache.currentLen taken htaken)
  have hssmBytes : ((cache.ssmStates.map
        (Option.map AllocatedSsmState.clone)).reduceOption.map fun state =>
          (state.convState.capacity + state.deltaState.capacity) * 4).sum =
      (cache.ssmStates.reduceOption.map fun state =>
        (state.convState.items.length + state.deltaState.items.length) * 4).sum := by
    rw [List.reduceOption_map, List.map_map]
    rfl
  have hkeyAll := mapM_returns _ _ glmIndexerK hkeys
  have hkeyCount : glmIndexerK.length = cache.glmIndexerK.length := hkeyAll.length_eq.symm
  have hkeyBytes : (glmIndexerK.map fun keys => keys.capacity * 2).sum =
      cache.currentLen * cache.glmIndexerKeyLen * cache.glmIndexerK.length * 2 := by
    have heach : forall keys, keys ∈ glmIndexerK ->
        keys.capacity * 2 = cache.currentLen * cache.glmIndexerKeyLen * 2 := by
      intro keys hmem
      rcases exists_of_mem_of_forall₂ hkeyAll.flip hmem with ⟨source, _, hsource⟩
      rcases bind_eq_ok hsource with ⟨bits, hbits, hsource⟩
      rcases slice_zero_eq_ok_iff.mp hbits with ⟨hroom, hbits⟩
      cases hsource
      rw [Buffer.capacity_ofList, hbits, List.length_take, Nat.min_eq_left hroom]
    rw [List.map_congr_left heach, List.map_const', List.sum_replicate_nat, hkeyCount,
      ← Nat.mul_assoc, Nat.mul_comm cache.glmIndexerK.length]
  simp only [AllocatedSnapshot.byteSize, snapshotByteSize, Buffer.items_ofList,
    Buffer.capacity_ofList, List.length_map, hlayerCount, hssmBytes, hkeyCount, hkeyBytes]
  omega

/-- The reported sizes bound what the snapshot owns exactly while no layer holds
a quantized block. -/
theorem byteSize_bounds_iff (sizes : TypeSizes) {f16FromF32 : UInt32 -> UInt16}
    (hreach : KVCache.Reachable f16FromF32 (cache.toCache math))
    (htaken : cache.snapshot math = .ok taken) :
    (taken.ownedBytes sizes <= taken.byteSize sizes ∧
        taken.byteSize sizes <= cache.snapshotByteSize sizes) ↔
      forall layer, layer ∈ cache.layers -> layer.HoldsNoBlock := by
  have howned := snapshot_ownedBytes sizes htaken
  have hsound : forall layer, layer ∈ cache.layers -> (layer.toLayer math).Sound := by
    intro layer hlayer
    exact hreach.sound.layers (layer.toLayer math) (List.mem_map_of_mem hlayer)
  constructor
  · intro hbounds layer hlayer
    by_contra hsome
    have hmissing := layer.snapshotSize_lt_unreportedBytes sizes (hsound layer hlayer) hsome
    have hsum : layer.unreportedBytes sizes <=
        (cache.layers.map fun layer => layer.unreportedBytes sizes).sum :=
      List.le_sum_of_mem (List.mem_map_of_mem hlayer)
    have hreported := hbounds.left
    omega
  · intro hnone
    have hsum : (cache.layers.map fun layer => layer.unreportedBytes sizes).sum = 0 := by
      apply List.sum_eq_zero
      intro bytes hbytes
      rcases List.mem_map.mp hbytes with ⟨layer, hlayer, hlayerBytes⟩
      rw [← hlayerBytes]
      exact layer.unreportedBytes_of_holdsNoBlock sizes (hsound layer hlayer) (hnone layer hlayer)
    constructor
    · omega
    · exact snapshot_byteSize_le sizes hnone htaken

end AllocatedKVCache

/-!
# A compacted layer
-/

def AllocatedBlock.ofBlock (block : KvarnBlock (packedCodec math)) : AllocatedBlock where
  config := block.config
  numKvHeads := block.numKvHeads
  headDim := block.headDim
  keyPacked := Buffer.ofList block.buffers.keyPacked
  keyScale := Buffer.ofList block.buffers.keyScale
  keyZero := Buffer.ofList block.buffers.keyZero
  keyTokenScale := Buffer.ofList block.buffers.keyTokenScale
  valuePacked := Buffer.ofList block.buffers.valuePacked
  valueChannelScale := Buffer.ofList block.buffers.valueChannelScale
  valueTokenScale := Buffer.ofList block.buffers.valueTokenScale
  valueZero := Buffer.ofList block.buffers.valueZero

def AllocatedStorage.ofStorage : LayerCacheStorage (packedCodec math) -> AllocatedStorage
  | .f16 key value => .f16 (Buffer.ofList key) (Buffer.ofList value)
  | .kvarn cache => .kvarn {
      config := cache.config
      numKvHeads := cache.numKvHeads
      headDim := cache.headDim
      maxSeqLen := cache.maxSeqLen
      sinkKey := Buffer.ofList cache.sinkKey
      sinkValue := Buffer.ofList cache.sinkValue
      blocks := Buffer.ofList (cache.blocks.map AllocatedBlock.ofBlock)
      tailKey := Buffer.ofList cache.tailKey
      tailValue := Buffer.ofList cache.tailValue
      deviceLayout := cache.deviceLayout
      deviceBlocks := Buffer.ofList cache.deviceBlocks
      storedLen := cache.storedLen }

def AllocatedLayer.ofLayer (layer : LayerCache (packedCodec math)) : AllocatedLayer where
  storage := AllocatedStorage.ofStorage layer.storage
  numKvHeads := layer.numKvHeads
  headDim := layer.headDim
  maxSeqLen := layer.maxSeqLen

def AllocatedSsmState.ofState (state : SsmLayerState UInt32) : AllocatedSsmState where
  convState := Buffer.ofList state.convState
  deltaState := Buffer.ofList state.deltaState
  convKernel := state.convKernel
  convChannels := state.convChannels

def AllocatedKVCache.ofCache (cache : KVCache (packedCodec math)) : AllocatedKVCache where
  layers := cache.layers.map AllocatedLayer.ofLayer
  ssmStates := cache.ssmStates.map (Option.map AllocatedSsmState.ofState)
  maxSeqLen := cache.maxSeqLen
  currentLen := cache.currentLen
  glmIndexerK := cache.glmIndexerK.map Buffer.ofList
  glmIndexerKeyLen := cache.glmIndexerKeyLen
  glmIndexerTopK := cache.glmIndexerTopK

theorem AllocatedLayer.toLayer_ofLayer (layer : LayerCache (packedCodec math)) :
    (AllocatedLayer.ofLayer layer).toLayer math = layer := by
  rcases layer with ⟨storage, numKvHeads, headDim, maxSeqLen⟩
  cases storage with
  | f16 key value => rfl
  | kvarn cache =>
    have hblocks : (cache.blocks.map AllocatedBlock.ofBlock).map
        (AllocatedBlock.toBlock math) = cache.blocks := by
      rw [List.map_map]
      exact List.map_id _
    simp only [AllocatedLayer.ofLayer, AllocatedLayer.toLayer, AllocatedStorage.ofStorage,
      AllocatedStorage.toStorage, AllocatedKvarn.toCache, Buffer.items_ofList, hblocks]

theorem AllocatedKVCache.toCache_ofCache (cache : KVCache (packedCodec math)) :
    (AllocatedKVCache.ofCache cache).toCache math = cache := by
  have hlayers : (cache.layers.map AllocatedLayer.ofLayer).map
      (AllocatedLayer.toLayer math) = cache.layers := by
    rw [List.map_map]
    exact List.map_id'' AllocatedLayer.toLayer_ofLayer _
  have hstates : (cache.ssmStates.map (Option.map AllocatedSsmState.ofState)).map
      (Option.map AllocatedSsmState.toState) = cache.ssmStates := by
    rw [List.map_map, Option.map_comp_map]
    exact List.map_id'' (fun state => Option.map_id' (x := state)) _
  have hkeys : (cache.glmIndexerK.map Buffer.ofList).map Buffer.items =
      cache.glmIndexerK := by
    rw [List.map_map]
    exact List.map_id _
  unfold AllocatedKVCache.ofCache AllocatedKVCache.toCache
  dsimp only
  rw [hlayers, hstates, hkeys]

def pointerSizes : TypeSizes where
  layerCacheSnapshot := 296
  ssmSlot := 64
  kvarnBlock := 272

def freshLayer : Checked (KVCache (packedCodec KvarnOp.linearMath)) :=
  KVCache.newPerLayerWithFormats (packedCodec KvarnOp.linearMath) 192 [1] [4]
    [.kvarnK4V2G64]

def fillRows : SequenceOp :=
  .cacheOp (.appendBitsRange 0 0 192 (List.replicate 768 7) (List.replicate 768 9))

def compactRows : SequenceOp :=
  .cacheOp (.compactLayer 0)

def AllocatedLayer.blockCount (layer : AllocatedLayer) : Nat :=
  match layer.storage with
  | .f16 _ _ => 0
  | .kvarn cache => cache.blocks.items.length

/-- Fill the sink and one group, compact the group, and take a snapshot. -/
def compactedSnapshot : Checked (List Nat) := do
  let fresh <- freshLayer
  let written <- fillRows.call (fun _ => 0) fresh
  let compacted <- compactRows.call (fun _ => 0) written
  let _ <- (AllocatedKVCache.ofCache compacted).snapshot KvarnOp.linearMath
  return (AllocatedKVCache.ofCache compacted).layers.map AllocatedLayer.blockCount

theorem compactedSnapshot_eq : compactedSnapshot = .ok [1] := by
  decide +kernel

theorem AllocatedLayer.holdsNoBlock_iff (layer : AllocatedLayer) :
    layer.HoldsNoBlock ↔ layer.blockCount = 0 := by
  unfold AllocatedLayer.HoldsNoBlock AllocatedLayer.blockCount
  cases hstorage : layer.storage with
  | f16 key value => simp
  | kvarn cache => simp

/-- The record of one compacted group is already more than the reported size holds. -/
theorem byteSize_misses_records :
    exists (cache : AllocatedKVCache) (taken : AllocatedSnapshot),
      KVCache.Reachable (fun _ => 0) (cache.toCache KvarnOp.linearMath) ∧
        cache.snapshot KvarnOp.linearMath = .ok taken ∧
          taken.byteSize pointerSizes < taken.ownedBytes pointerSizes := by
  have hrun := compactedSnapshot_eq
  unfold compactedSnapshot at hrun
  rcases bind_eq_ok hrun with ⟨fresh, hfresh, hrun⟩
  rcases bind_eq_ok hrun with ⟨written, hwritten, hrun⟩
  rcases bind_eq_ok hrun with ⟨compacted, hcompacted, hrun⟩
  rcases bind_eq_ok hrun with ⟨taken, htaken, hrun⟩
  have hcounts := Except.ok.inj hrun
  have hreach : KVCache.Reachable (fun _ => 0)
      ((AllocatedKVCache.ofCache compacted).toCache KvarnOp.linearMath) := by
    rw [AllocatedKVCache.toCache_ofCache]
    exact .call (.call (.new hfresh) hwritten) hcompacted
  refine ⟨AllocatedKVCache.ofCache compacted, taken, hreach, htaken, ?_⟩
  rcases List.map_eq_cons_iff.mp hcounts with ⟨layer, rest, hlayers, hcount, _⟩
  have hmem : layer ∈ (AllocatedKVCache.ofCache compacted).layers := by
    rw [hlayers]
    exact List.mem_cons_self
  have hmissing := layer.snapshotSize_lt_unreportedBytes pointerSizes
    (hreach.sound.layers (layer.toLayer KvarnOp.linearMath) (List.mem_map_of_mem hmem)) (by
      rw [AllocatedLayer.holdsNoBlock_iff, hcount]
      decide)
  have hsum : layer.unreportedBytes pointerSizes <=
      ((AllocatedKVCache.ofCache compacted).layers.map fun layer =>
        layer.unreportedBytes pointerSizes).sum :=
    List.le_sum_of_mem (List.mem_map_of_mem hmem)
  have howned := AllocatedKVCache.snapshot_ownedBytes pointerSizes htaken
  omega

def freshSnapshot : Checked (List Nat) := do
  let fresh <- freshLayer
  let written <- fillRows.call (fun _ => 0) fresh
  let _ <- (AllocatedKVCache.ofCache written).snapshot KvarnOp.linearMath
  return (AllocatedKVCache.ofCache written).layers.map AllocatedLayer.blockCount

theorem freshSnapshot_eq : freshSnapshot = .ok [0] := by
  decide +kernel

/-- The same rows before the compaction are covered. -/
theorem byteSize_bounds_fresh :
    exists (cache : AllocatedKVCache) (taken : AllocatedSnapshot),
      cache.snapshot KvarnOp.linearMath = .ok taken ∧
        taken.ownedBytes pointerSizes <= taken.byteSize pointerSizes ∧
          taken.byteSize pointerSizes <= cache.snapshotByteSize pointerSizes := by
  have hrun := freshSnapshot_eq
  unfold freshSnapshot at hrun
  rcases bind_eq_ok hrun with ⟨fresh, hfresh, hrun⟩
  rcases bind_eq_ok hrun with ⟨written, hwritten, hrun⟩
  rcases bind_eq_ok hrun with ⟨taken, htaken, hrun⟩
  have hcounts := Except.ok.inj hrun
  have hreach : KVCache.Reachable (fun _ => 0)
      ((AllocatedKVCache.ofCache written).toCache KvarnOp.linearMath) := by
    rw [AllocatedKVCache.toCache_ofCache]
    exact .call (.new hfresh) hwritten
  refine ⟨AllocatedKVCache.ofCache written, taken, htaken, ?_⟩
  refine (AllocatedKVCache.byteSize_bounds_iff pointerSizes hreach htaken).mpr ?_
  intro layer hlayer
  have hcount : layer.blockCount ∈
      (AllocatedKVCache.ofCache written).layers.map AllocatedLayer.blockCount :=
    List.mem_map_of_mem hlayer
  rw [hcounts] at hcount
  rw [AllocatedLayer.holdsNoBlock_iff]
  exact List.mem_singleton.mp hcount

end KvCache
end RunNBurn
