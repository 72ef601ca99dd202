import RunNBurn.KvCache.Snapshot
import RunNBurn.KvCache.LayerReads
import RunNBurn.KvCache.RealBlocks

/-!
# Exactness of speculative checkpoints

A checkpoint stores a length, not the rows.  Restoring it is exact as long as
no compaction in between takes a saved row into a group that decodes to
something else, and only so long.
-/

namespace RunNBurn
namespace KvCache

open Library

/-!
# Recurrent states
-/

/-- What a checkpoint keeps of a layer without device-resident state. -/
def fullCheckpoint (state : SsmLayerState UInt32) : SsmLayerCheckpoint where
  convState := state.convState
  deltaState := some state.deltaState
  convKernel := state.convKernel
  convChannels := state.convChannels

theorem checkpointSsmStates_nil (states : List (Option (SsmLayerState UInt32))) :
    checkpointSsmStates states [] = states.map (fun state => state.map fullCheckpoint) := by
  apply List.ext_getElem
  · simp [checkpointSsmStates]
  · intro i _ _
    simp only [checkpointSsmStates, List.getElem_mapIdx, List.getElem_map]
    rfl

theorem restoreSsmState_checkpoint (current saved : Option (SsmLayerState UInt32)) :
    restoreSsmState current (saved.map fullCheckpoint) = saved := by
  cases saved with
  | none =>
    cases current with
    | none => rfl
    | some current => rfl
  | some saved =>
    cases current with
    | none => rfl
    | some current =>
      simp only [Option.map_some]
      unfold restoreSsmState
      dsimp only
      split
      · rfl
      · rfl

theorem zipWith_restoreSsmState_checkpoint
    {current saved : List (Option (SsmLayerState UInt32))} (h : current.length = saved.length) :
    List.zipWith restoreSsmState current
        (saved.map (fun state => state.map fullCheckpoint)) = saved := by
  induction saved generalizing current with
  | nil => simp
  | cons state rest ih =>
    cases current with
    | nil => cases h
    | cons head tail =>
      rw [List.map_cons, List.zipWith_cons_cons, restoreSsmState_checkpoint, ih (Nat.succ.inj h)]

theorem restoreSsmStates_checkpoint (current saved : List (Option (SsmLayerState UInt32))) :
    restoreSsmStatesPreservingAllocations current (checkpointSsmStates saved []) =
      saved := by
  unfold restoreSsmStatesPreservingAllocations
  rw [checkpointSsmStates_nil, List.length_map]
  by_cases hsame : current.length = saved.length
  · rw [if_neg (fun h => h hsame)]
    exact zipWith_restoreSsmState_checkpoint hsame
  · have hfull : (fun state : Option (SsmLayerState UInt32) =>
          (state.map fullCheckpoint).bind SsmLayerCheckpoint.toState) = id := by
      funext state
      cases state with
      | none => rfl
      | some state => rfl
    rw [if_pos hsame, List.map_map]
    exact (congrArg (fun f => saved.map f) hfull).trans (List.map_id saved)

/-!
# Operations between save and restore
-/

inductive CacheOp where
  | append (layer pos : Nat) (k v : List UInt32)
  | appendBitsRange (layer posStart seqLen : Nat) (kBits vBits : List UInt16)
  | replaceLayerF16Range (layer posStart kvLen : Nat) (kBits vBits : List UInt16)
  | replaceLayerF16RangeCompacted (layer posStart kvLen : Nat)
      (kBits vBits : List UInt16)
  | compactLayer (layer : Nat)
  | setLen (len : Nat)
  | initSsmState (layerIdx : Nat) (state : SsmLayerState UInt32)
  | updateSsmState (layerIdx : Nat) (state : SsmLayerState UInt32)

namespace CacheOp

variable {codec : KvarnCodec}

def call (f16FromF32 : UInt32 -> UInt16) (cache : KVCache codec) :
    CacheOp -> Checked (KVCache codec)
  | append layer pos k v => cache.append f16FromF32 layer pos k v
  | appendBitsRange layer posStart seqLen kBits vBits =>
    cache.appendBitsRange layer posStart seqLen kBits vBits
  | replaceLayerF16Range layer posStart kvLen kBits vBits =>
    cache.replaceLayerF16Range layer posStart kvLen kBits vBits
  | replaceLayerF16RangeCompacted layer posStart kvLen kBits vBits =>
    cache.replaceLayerF16RangeCompacted layer posStart kvLen kBits vBits
  | compactLayer layer => cache.compactLayer layer
  | setLen len => cache.setLen len
  | initSsmState layerIdx state => .ok (cache.initSsmState layerIdx state)
  | updateSsmState layerIdx state => .ok (cache.updateSsmState layerIdx state)

def callAll (f16FromF32 : UInt32 -> UInt16) (cache : KVCache codec)
    (ops : List CacheOp) : Checked (KVCache codec) :=
  ops.foldlM (call f16FromF32) cache

/-- Writes and cuts stand at or above row `n`. -/
def StaysAbove (n : Nat) : CacheOp -> Prop
  | append _ pos _ _ => n <= pos
  | appendBitsRange _ posStart _ _ _ => n <= posStart
  | replaceLayerF16Range _ posStart _ _ _ => n <= posStart
  | replaceLayerF16RangeCompacted _ posStart _ _ _ => n <= posStart
  | compactLayer _ => True
  | setLen len => n <= len
  | initSsmState _ _ => True
  | updateSsmState _ _ => True

end CacheOp

namespace KVCache

variable {codec : KvarnCodec}

/-- Layer by layer, the current cache descends from the saved one. -/
structure Follows (n : Nat) (saved current : KVCache codec) : Prop where
  length : current.layers.length = saved.layers.length
  layers : forall (l : Nat) a b, saved.layers[l]? = some a -> current.layers[l]? = some b ->
    LayerCache.Follows n a b

def KeepsReads (n : Nat) (saved current : KVCache codec) : Prop :=
  forall (l : Nat) a b, saved.layers[l]? = some a -> current.layers[l]? = some b ->
    LayerCache.KeepsReads n a b

theorem keepsReads_refl (n : Nat) (cache : KVCache codec) :
    KeepsReads n cache cache := by
  intro l a b ha hb
  rw [ha] at hb
  cases hb
  exact LayerCache.keepsReads_refl n a

def ReadsLike (n : Nat) (saved current next : KVCache codec) : Prop :=
  Follows n saved next ∧ (KeepsReads n saved next ↔ KeepsReads n saved current)

theorem readsLike_of_layers_eq
    {n : Nat} {saved current next : KVCache codec} (h : Follows n saved current)
    (hlayers : next.layers = current.layers) :
    ReadsLike n saved current next := by
  constructor
  · constructor
    · rw [hlayers]
      exact h.length
    · rw [hlayers]
      exact h.layers
  · unfold KeepsReads
    rw [hlayers]

theorem ReadsLike.trans
    {n : Nat} {saved first second third : KVCache codec} (hfirst : ReadsLike n saved first second)
    (hsecond : ReadsLike n saved second third) :
    ReadsLike n saved first third :=
  ⟨hsecond.left, hsecond.right.trans hfirst.right⟩

/-!
## One layer at a time
-/

theorem updateLayer_eq_ok
    {cache next : KVCache codec} {layer : Nat}
    {call : LayerCache codec -> Checked (LayerCache codec)}
    (h : cache.updateLayer layer call = .ok next) :
    exists before after, cache.layers[layer]? = some before ∧
      call before = .ok after ∧
        next = { cache with layers := cache.layers.set layer after } := by
  rcases bind_eq_ok h with ⟨before, hbefore, hrest⟩
  rcases bind_eq_ok hrest with ⟨after, hafter, hnext⟩
  cases hnext
  exists before
  exists after
  exact ⟨getElem?_of_index_eq_ok hbefore, hafter, rfl⟩

variable {saved current : KVCache codec} {n layer : Nat}

theorem follows_set {before after : LayerCache codec} (h : Follows n saved current)
    (hbefore : current.layers[layer]? = some before)
    (hafter : forall a, saved.layers[layer]? = some a -> LayerCache.Follows n a after) :
    Follows n saved { current with layers := current.layers.set layer after } := by
  constructor
  · rw [List.length_set]
    exact h.length
  · intro l a b ha hb
    change (current.layers.set layer after)[l]? = some b at hb
    by_cases hl : layer = l
    · rw [← hl] at ha hb
      rw [List.getElem?_set_self (List.getElem?_eq_some_iff.mp hbefore).1] at hb
      cases hb
      exact hafter a ha
    · rw [List.getElem?_set_ne hl] at hb
      exact h.layers l a b ha hb

theorem keepsReads_set_iff {before after : LayerCache codec}
    (hbefore : current.layers[layer]? = some before) :
    KeepsReads n saved { current with layers := current.layers.set layer after } ↔
      (forall a, saved.layers[layer]? = some a -> LayerCache.KeepsReads n a after) ∧
        forall (l : Nat) a b, layer ≠ l -> saved.layers[l]? = some a ->
          current.layers[l]? = some b -> LayerCache.KeepsReads n a b := by
  have hlayer : layer < current.layers.length :=
    (List.getElem?_eq_some_iff.mp hbefore).1
  constructor
  · intro h
    constructor
    · intro a ha
      exact h layer a after ha (List.getElem?_set_self hlayer)
    · intro l a b hl ha hb
      exact h l a b ha ((List.getElem?_set_ne hl).trans hb)
  · intro h l a b ha hb
    change (current.layers.set layer after)[l]? = some b at hb
    by_cases hl : layer = l
    · rw [← hl] at ha hb
      rw [List.getElem?_set_self hlayer] at hb
      cases hb
      exact h.left a ha
    · rw [List.getElem?_set_ne hl] at hb
      exact h.right l a b hl ha hb

theorem keepsReads_iff_split {before : LayerCache codec}
    (hbefore : current.layers[layer]? = some before) :
    KeepsReads n saved current ↔
      (forall a, saved.layers[layer]? = some a -> LayerCache.KeepsReads n a before) ∧
        forall (l : Nat) a b, layer ≠ l -> saved.layers[l]? = some a ->
          current.layers[l]? = some b -> LayerCache.KeepsReads n a b := by
  constructor
  · intro h
    constructor
    · intro a ha
      exact h layer a before ha hbefore
    · intro l a b _ ha hb
      exact h l a b ha hb
  · intro h l a b ha hb
    by_cases hl : layer = l
    · rw [← hl] at ha hb
      rw [hbefore] at hb
      cases hb
      exact h.left a ha
    · exact h.right l a b hl ha hb

theorem updateLayer_readsLike {saved current next : KVCache codec}
    {call : LayerCache codec -> Checked (LayerCache codec)} (h : Follows n saved current)
    (hcall : forall a b c, LayerCache.Follows n a b -> call b = .ok c ->
      LayerCache.ReadsLike n a b c) (hnext : current.updateLayer layer call = .ok next) :
    ReadsLike n saved current next := by
  rcases updateLayer_eq_ok hnext with ⟨before, after, hbefore, hafter, heq⟩
  rw [heq]
  have hlayer : forall a, saved.layers[layer]? = some a ->
      LayerCache.ReadsLike n a before after :=
    fun a ha => hcall a before after (h.layers layer a before ha hbefore) hafter
  constructor
  · exact follows_set h hbefore (fun a ha => (hlayer a ha).left)
  · rw [keepsReads_set_iff hbefore, keepsReads_iff_split hbefore]
    apply and_congr_left
    intro _
    apply forall_congr'
    intro a
    apply imp_congr_right
    intro ha
    exact (hlayer a ha).right

theorem noteWritten_readsLike {n : Nat} (layer stop : Nat) (h : Follows n saved current) :
    ReadsLike n saved current (current.noteWritten layer stop) := by
  apply readsLike_of_layers_eq h
  unfold noteWritten
  split
  · rfl
  · rfl

theorem compactLayer_follows {saved current next : KVCache codec} (h : Follows n saved current)
    (hnext : current.compactLayer layer = .ok next) :
    Follows n saved next ∧ (KeepsReads n saved current ->
      (KeepsReads n saved next ↔
        forall a b, saved.layers[layer]? = some a -> current.layers[layer]? = some b ->
          b.CompactKeeps (min n a.storedRows))) := by
  rcases updateLayer_eq_ok hnext with ⟨before, after, hbefore, hafter, heq⟩
  rw [heq]
  have hlayer := fun a (ha : saved.layers[layer]? = some a) =>
    (LayerCache.compact_follows (h.layers layer a before ha hbefore)).returns after hafter
  refine ⟨follows_set h hbefore (fun a ha => (hlayer a ha).left), ?_⟩
  intro hkeeps
  have hsplit := (keepsReads_iff_split hbefore).mp hkeeps
  rw [keepsReads_set_iff hbefore]
  constructor
  · intro hall a b ha hb
    rw [hbefore] at hb
    cases hb
    exact ((hlayer a ha).right (hsplit.left a ha)).mp (hall.left a ha)
  · intro hall
    refine ⟨?_, hsplit.right⟩
    intro a ha
    exact ((hlayer a ha).right (hsplit.left a ha)).mpr (hall a before ha hbefore)

/-!
## Cuts
-/

theorem setLen_readsLike {n len : Nat} (h : Follows n saved current) (hlen : n <= len) :
    Delivers (current.setLen len) (ReadsLike n saved current) := by
  have hcuts : Delivers (current.layers.mapM fun layer => layer.truncateTo len)
      (fun layers => List.Forall₂ (fun b c => b.truncateTo len = .ok c)
        current.layers layers) := by
    apply mapM_delivers
    intro b hb
    rcases List.mem_iff_getElem?.mp hb with ⟨l, hl⟩
    rcases exists_getElem?_of_length_eq h.length hl with ⟨a, ha⟩
    exact (LayerCache.truncateTo_readsLike (h.layers l a b ha hl) hlen).mono (fun _ _ => trivial)
  refine hcuts.bind ?_
  intro layers hlayers
  have hlength := hlayers.length_eq
  have hpair : forall (l : Nat) a b c, saved.layers[l]? = some a ->
      current.layers[l]? = some b -> layers[l]? = some c ->
        LayerCache.ReadsLike n a b c := by
    intro l a b c ha hb hc
    have hcut := getElem?_of_forall₂ hlayers hb hc
    exact (LayerCache.truncateTo_readsLike (h.layers l a b ha hb) hlen).returns c hcut
  apply delivers_ok
  constructor
  · constructor
    · rw [← hlength]
      exact h.length
    · intro l a c ha hc
      rcases exists_getElem?_of_length_eq hlength.symm hc with ⟨b, hb⟩
      exact (hpair l a b c ha hb hc).left
  · constructor
    · intro hreads l a b ha hb
      rcases exists_getElem?_of_length_eq hlength hb with ⟨c, hc⟩
      exact (hpair l a b c ha hb hc).right.mp (hreads l a c ha hc)
    · intro hreads l a c ha hc
      rcases exists_getElem?_of_length_eq hlength.symm hc with ⟨b, hb⟩
      exact (hpair l a b c ha hb hc).right.mpr (hreads l a b ha hb)

/-!
## Restoring
-/

/-- Restoring the checkpoint gives back every row that was readable below the
saved length, and every recurrent state. -/
def RestoresSaved (saved current : KVCache codec) : Prop :=
  exists restored, (SpecCheckpoint.save saved).restore current = .ok restored ∧
    KeepsReads saved.currentLen saved restored ∧
    restored.ssmStates = saved.ssmStates ∧
    restored.currentLen = saved.currentLen

theorem restoresSaved_iff (h : Follows saved.currentLen saved current) :
    RestoresSaved saved current ↔ KeepsReads saved.currentLen saved current := by
  rcases setLen_readsLike h (Nat.le_refl _) with ⟨cut, hcut, hlike⟩
  have hcall : (SpecCheckpoint.save saved).restore current =
      .ok { cut with ssmStates := saved.ssmStates } := by
    unfold SpecCheckpoint.restore SpecCheckpoint.save
    dsimp only
    rw [hcut]
    simp only [ok_bind]
    rw [restoreSsmStates_checkpoint]
    rfl
  have hlen : cut.currentLen = saved.currentLen := by
    rcases bind_eq_ok hcut with ⟨layers, _, hlayers⟩
    cases hlayers
    rfl
  constructor
  · intro hrestores
    rcases hrestores with ⟨restored, hrestored, hreads, _, _⟩
    rw [hcall] at hrestored
    cases hrestored
    exact hlike.right.mp hreads
  · intro hreads
    exists { cut with ssmStates := saved.ssmStates }
    exact ⟨hcall, hlike.right.mpr hreads, rfl, hlen⟩

end KVCache

/-!
# Runs
-/

namespace CacheOp

variable {codec : KvarnCodec}

/-- An operation that compacts leaves the rows of the saved length alone. -/
def CompactKeeps (saved current : KVCache codec) : CacheOp -> Prop
  | compactLayer layer =>
    forall a b, saved.layers[layer]? = some a -> current.layers[layer]? = some b ->
      b.CompactKeeps (min saved.currentLen a.storedRows)
  | replaceLayerF16RangeCompacted layer posStart kvLen kBits vBits =>
    forall a b written, saved.layers[layer]? = some a ->
      current.layers[layer]? = some b ->
        b.writeBitsRange posStart kvLen kBits vBits = .ok written ->
          written.CompactKeeps (min saved.currentLen a.storedRows)
  | _ => True

/-- Every compaction that the run performs leaves the saved rows alone. -/
def CompactionsKeep (f16FromF32 : UInt32 -> UInt16) (saved : KVCache codec) :
    KVCache codec -> List CacheOp -> Prop
  | _, [] => True
  | current, op :: rest =>
    forall next, op.call f16FromF32 current = .ok next ->
      op.CompactKeeps saved current ∧ CompactionsKeep f16FromF32 saved next rest

theorem compactKeeps_f16
    {layer : LayerCache codec} {p : Nat} (h : layer.isKvarn = false) :
    layer.CompactKeeps p := by
  unfold LayerCache.isKvarn at h
  unfold LayerCache.CompactKeeps
  cases hstorage : layer.storage with
  | f16 key value => trivial
  | kvarn cache =>
    rw [hstorage] at h
    cases h

theorem replaceCompacted_follows
    {layer posStart kvLen : Nat} {kBits vBits : List UInt16}
    {saved current next : KVCache codec} {n : Nat} (h : KVCache.Follows n saved current)
    (hpos : n <= posStart)
    (hnext : current.replaceLayerF16RangeCompacted layer posStart kvLen kBits vBits = .ok next) :
    KVCache.Follows n saved next ∧ (KVCache.KeepsReads n saved current ->
      (KVCache.KeepsReads n saved next ↔
        forall a b written, saved.layers[layer]? = some a ->
          current.layers[layer]? = some b ->
            b.writeBitsRange posStart kvLen kBits vBits = .ok written ->
              written.CompactKeeps (min n a.storedRows))) := by
  rcases bind_eq_ok hnext with ⟨written, hwritten, hrest⟩
  have hlike := KVCache.updateLayer_readsLike h
    (fun a b c hab hc => LayerCache.writeBitsRange_readsLike hab hpos hc) hwritten
  rcases KVCache.updateLayer_eq_ok hwritten with ⟨before, after, hbefore, hafter, heq⟩
  have hwrittenLayer : written.layers[layer]? = some after := by
    rw [heq]
    exact List.getElem?_set_self (List.getElem?_eq_some_iff.mp hbefore).1
  have hcondition :
      (forall a b w, saved.layers[layer]? = some a -> current.layers[layer]? = some b ->
        b.writeBitsRange posStart kvLen kBits vBits = .ok w ->
          w.CompactKeeps (min n a.storedRows)) ↔
      (forall a b, saved.layers[layer]? = some a -> written.layers[layer]? = some b ->
        b.CompactKeeps (min n a.storedRows)) := by
    constructor
    · intro hall a b ha hb
      rw [hwrittenLayer] at hb
      cases hb
      exact hall a before after ha hbefore hafter
    · intro hall a b w ha hb hw
      rw [hbefore] at hb
      cases hb
      rw [hafter] at hw
      cases hw
      exact hall a after ha hwrittenLayer
  rw [hcondition]
  rcases bind_eq_ok hrest with ⟨kvarn, hkvarn, hfinish⟩
  have hisKvarn : kvarn = after.isKvarn := by
    unfold KVCache.layerUsesKvarn index at hkvarn
    rw [hwrittenLayer] at hkvarn
    cases hkvarn
    rfl
  cases hkind : kvarn with
  | true =>
    rw [hkind] at hfinish
    have hcompact := KVCache.compactLayer_follows hlike.left hfinish
    exact ⟨hcompact.left, fun hreads => hcompact.right (hlike.right.mpr hreads)⟩
  | false =>
    rw [hkind] at hfinish
    cases hfinish
    refine ⟨hlike.left, ?_⟩
    intro hreads
    refine Iff.intro ?_ (fun _ => hlike.right.mpr hreads)
    intro _ a b _ hb
    rw [hwrittenLayer] at hb
    cases hb
    exact compactKeeps_f16 (hisKvarn.symm.trans hkind)

variable {f16FromF32 : UInt32 -> UInt16}

theorem call_follows {saved current next : KVCache codec} {n : Nat} {op : CacheOp}
    (hn : n = saved.currentLen) (h : KVCache.Follows n saved current) (hop : op.StaysAbove n)
    (hnext : op.call f16FromF32 current = .ok next) :
    KVCache.Follows n saved next ∧ (KVCache.KeepsReads n saved current ->
      (KVCache.KeepsReads n saved next ↔ op.CompactKeeps saved current)) := by
  have hwrite : KVCache.ReadsLike n saved current next ->
      KVCache.Follows n saved next ∧ (KVCache.KeepsReads n saved current ->
        (KVCache.KeepsReads n saved next ↔ True)) :=
    fun hlike => ⟨hlike.left,
      fun hreads => Iff.intro (fun _ => trivial) (fun _ => hlike.right.mpr hreads)⟩
  cases op with
  | append layer pos k v =>
    rcases bind_eq_ok hnext with ⟨written, hwritten, hnoted⟩
    cases hnoted
    have hlike := KVCache.updateLayer_readsLike h
      (fun a b c hab hc => LayerCache.writeAt_readsLike hab hop hc) hwritten
    exact hwrite (hlike.trans (KVCache.noteWritten_readsLike _ _ hlike.left))
  | appendBitsRange layer posStart seqLen kBits vBits =>
    rcases bind_eq_ok hnext with ⟨written, hwritten, hnoted⟩
    cases hnoted
    have hlike := KVCache.updateLayer_readsLike h
      (fun a b c hab hc => LayerCache.writeBitsRange_readsLike hab hop hc) hwritten
    exact hwrite (hlike.trans (KVCache.noteWritten_readsLike _ _ hlike.left))
  | replaceLayerF16Range layer posStart kvLen kBits vBits =>
    exact hwrite (KVCache.updateLayer_readsLike h
      (fun a b c hab hc => LayerCache.writeBitsRange_readsLike hab hop hc) hnext)
  | replaceLayerF16RangeCompacted layer posStart kvLen kBits vBits =>
    rw [hn] at h hop ⊢
    exact replaceCompacted_follows h hop hnext
  | compactLayer layer =>
    rw [hn] at h ⊢
    exact KVCache.compactLayer_follows h hnext
  | setLen len => exact hwrite ((KVCache.setLen_readsLike h hop).returns next hnext)
  | initSsmState layerIdx state =>
    cases hnext
    refine hwrite (KVCache.readsLike_of_layers_eq h ?_)
    unfold KVCache.initSsmState
    split
    · rfl
    · rfl
  | updateSsmState layerIdx state =>
    cases hnext
    refine hwrite (KVCache.readsLike_of_layers_eq h ?_)
    unfold KVCache.updateSsmState
    split
    · rfl
    · rfl

theorem callAll_take_succ {current next : KVCache codec} {op : CacheOp} (rest : List CacheOp)
    (k : Nat) (hnext : op.call f16FromF32 current = .ok next) :
    callAll f16FromF32 current ((op :: rest).take (k + 1)) =
      callAll f16FromF32 next (rest.take k) := by
  unfold callAll
  rw [List.take_succ_cons, List.foldlM_cons, hnext]
  rfl

/-- A whole run: the reads survive every prefix of it exactly when each of its
compactions keeps them. -/
theorem keepsReads_all_iff {saved current : KVCache codec} {ops : List CacheOp}
    (h : KVCache.Follows saved.currentLen saved current)
    (hreads : KVCache.KeepsReads saved.currentLen saved current)
    (hops : forall op, op ∈ ops -> op.StaysAbove saved.currentLen) :
    (forall k mid, callAll f16FromF32 current (ops.take k) = .ok mid ->
      KVCache.RestoresSaved saved mid) ↔
      CompactionsKeep f16FromF32 saved current ops := by
  induction ops generalizing current with
  | nil =>
    refine Iff.intro (fun _ => trivial) ?_
    intro _ k mid hmid
    rw [List.take_nil] at hmid
    cases hmid
    exact (KVCache.restoresSaved_iff h).mpr hreads
  | cons op rest ih =>
    have hop := hops op List.mem_cons_self
    have hrest := fun other hother =>
      hops other (List.mem_cons_of_mem op hother)
    constructor
    · intro hall next hnext
      rcases call_follows rfl h hop hnext with ⟨hfollows, hkeeps⟩
      have hrestores : KVCache.RestoresSaved saved next := by
        apply hall 1 next
        rw [callAll_take_succ rest 0 hnext]
        rfl
      have hnextReads := (KVCache.restoresSaved_iff hfollows).mp hrestores
      refine ⟨(hkeeps hreads).mp hnextReads, ?_⟩
      apply (ih hfollows hnextReads hrest).mp
      intro k mid hmid
      apply hall (k + 1) mid
      rw [callAll_take_succ rest k hnext]
      exact hmid
    · intro hkeep k mid hmid
      cases k with
      | zero =>
        cases hmid
        exact (KVCache.restoresSaved_iff h).mpr hreads
      | succ k =>
        unfold callAll at hmid
        rw [List.take_succ_cons, List.foldlM_cons] at hmid
        rcases bind_eq_ok hmid with ⟨next, hnext, hrun⟩
        rcases call_follows rfl h hop hnext with ⟨hfollows, hkeeps⟩
        rcases hkeep next hnext with ⟨hcompact, hkeepRest⟩
        exact (ih hfollows ((hkeeps hreads).mpr hcompact) hrest).mpr hkeepRest k mid hrun

/-!
# Reachable caches
-/

theorem layer_follows_of_new
    {maxSeqLen numKvHeads headDim : Nat} {format : KvCacheFormat} {layer : LayerCache codec}
    (h : LayerCache.new codec maxSeqLen numKvHeads headDim format = .ok layer) :
    LayerCache.Follows 0 layer layer := by
  unfold LayerCache.new at h
  cases hconfig : format.kvarnConfig with
  | none =>
    rw [hconfig] at h
    cases h
    exact LayerCache.Follows.f16 rfl rfl (LayerCache.keepsReads_refl 0 _)
  | some config =>
    rw [hconfig] at h
    rcases bind_eq_ok h with ⟨storage, hstorage, hlayer⟩
    cases hlayer
    cases hnew : KvarnLayerCache.new codec config maxSeqLen numKvHeads headDim with
    | error fault =>
      rw [hnew] at hstorage
      cases hstorage
    | ok cache =>
      rw [hnew] at hstorage
      cases hstorage
      have hrep := KvarnLayerCache.new_represents hnew
      exact LayerCache.Follows.kvarn rfl rfl hrep hrep (Nat.min_le_right _ _)

theorem layer_follows_self
    {m n : Nat} {saved current : LayerCache codec} (h : LayerCache.Follows m saved current) :
    LayerCache.Follows n current current := by
  cases h with
  | f16 hsaved hcurrent hreads =>
    exact LayerCache.Follows.f16 hcurrent hcurrent (LayerCache.keepsReads_refl n current)
  | kvarn hsaved hcurrent hsavedRep hrep hlong =>
    exact LayerCache.Follows.kvarn hcurrent hcurrent hrep hrep (Nat.min_le_right _ _)

theorem follows_self
    {m n : Nat} {saved current : KVCache codec} (h : KVCache.Follows m saved current) :
    KVCache.Follows n current current := by
  refine KVCache.Follows.mk rfl ?_
  intro l a b ha hb
  rw [ha] at hb
  cases hb
  rcases exists_getElem?_of_length_eq h.length ha with ⟨s, hs⟩
  exact layer_follows_self (h.layers l s a hs ha)

theorem follows_of_fresh
    {maxSeqLen : Nat} {layerNumKvHeads layerHeadDims : List Nat}
    {layerFormats : List KvCacheFormat} {cache : KVCache codec}
    (h : KVCache.newPerLayerWithFormats codec maxSeqLen layerNumKvHeads layerHeadDims
      layerFormats = .ok cache) :
    KVCache.Follows cache.currentLen cache cache ∧ cache.currentLen = 0 := by
  unfold KVCache.newPerLayerWithFormats at h
  split at h
  · cases h
  · rcases bind_eq_ok h with ⟨layers, hlayers, hcache⟩
    cases hcache
    have hall := mapM_returns _ _ layers hlayers
    refine ⟨KVCache.Follows.mk rfl ?_, rfl⟩
    intro l a b ha hb
    cases ha.symm.trans hb
    rcases exists_getElem?_of_length_eq hall.length_eq.symm ha with ⟨item, hitem⟩
    have hnew := getElem?_of_forall₂ hall hitem ha
    exact layer_follows_of_new hnew

theorem callAll_follows {saved current final : KVCache codec} {ops : List CacheOp}
    (h : KVCache.Follows saved.currentLen saved current)
    (hops : forall op, op ∈ ops -> op.StaysAbove saved.currentLen)
    (hrun : callAll f16FromF32 current ops = .ok final) :
    KVCache.Follows saved.currentLen saved final := by
  induction ops generalizing current with
  | nil =>
    cases hrun
    exact h
  | cons op rest ih =>
    unfold callAll at hrun
    rw [List.foldlM_cons] at hrun
    rcases bind_eq_ok hrun with ⟨next, hnext, hrest⟩
    exact ih (call_follows rfl h (hops op List.mem_cons_self) hnext).left
      (fun other hother => hops other (List.mem_cons_of_mem op hother)) hrest

theorem staysAbove_zero (op : CacheOp) : op.StaysAbove 0 := by
  cases op with
  | append layer pos k v => exact Nat.zero_le _
  | appendBitsRange layer posStart seqLen kBits vBits => exact Nat.zero_le _
  | replaceLayerF16Range layer posStart kvLen kBits vBits => exact Nat.zero_le _
  | replaceLayerF16RangeCompacted layer posStart kvLen kBits vBits => exact Nat.zero_le _
  | compactLayer layer => trivial
  | setLen len => exact Nat.zero_le _
  | initSsmState layerIdx state => trivial
  | updateSsmState layerIdx state => trivial

/-- For every reachable cache and every later operation sequence, restoring the
checkpoint is exact after each prefix if and only if no compaction of the run
changes a saved row. -/
theorem restore_exact_iff_compactions_keep
    {f16FromF32 : UInt32 -> UInt16} {maxSeqLen : Nat}
    {layerNumKvHeads layerHeadDims : List Nat} {layerFormats : List KvCacheFormat}
    {fresh saved : KVCache codec} {before ops : List CacheOp}
    (hfresh : KVCache.newPerLayerWithFormats codec maxSeqLen layerNumKvHeads
      layerHeadDims layerFormats = .ok fresh)
    (hsaved : callAll f16FromF32 fresh before = .ok saved)
    (hops : forall op, op ∈ ops -> op.StaysAbove saved.currentLen) :
    (forall k mid, callAll f16FromF32 saved (ops.take k) = .ok mid ->
      KVCache.RestoresSaved saved mid) ↔
      CompactionsKeep f16FromF32 saved saved ops := by
  rcases follows_of_fresh hfresh with ⟨hself, hzero⟩
  have hreached := callAll_follows hself (by
    rw [hzero]
    exact fun op _ => staysAbove_zero op) hsaved
  exact keepsReads_all_iff (follows_self hreached)
    (KVCache.keepsReads_refl saved.currentLen saved) hops

/-- A checkpoint in the sink: the group behind it is compacted before the restore. -/
def groupWrite : CacheOp :=
  appendBitsRange 0 128 64 (lossyRows 64) (lossyRows 64)

noncomputable def sinkRun : Checked (Nat × Option Nat × Option Nat) := do
  let fresh <- KVCache.newPerLayerWithFormats (packedCodec realMath) 256 [1] [4]
    [KvCacheFormat.kvarnK4V2G64]
  let saved <- callAll (fun _ => 0) fresh
    [appendBitsRange 0 0 128 (lossyRows 128) (lossyRows 128)]
  let filled <- groupWrite.call (fun _ => 0) saved
  let compacted <- (compactLayer 0).call (fun _ => 0) filled
  return (saved.currentLen, filled.layers[0]?.map LayerCache.sinkRoom,
    compacted.layers[0]?.map LayerCache.blockCount)

theorem sinkRun_eq : sinkRun = .ok (128, some 128, some 1) := by
  decide +kernel

theorem restore_exact_behind_sink :
    exists fresh saved mid : KVCache (packedCodec realMath),
      KVCache.newPerLayerWithFormats (packedCodec realMath) 256 [1] [4]
        [KvCacheFormat.kvarnK4V2G64] = .ok fresh ∧
      callAll (fun _ => 0) fresh [appendBitsRange 0 0 128 (lossyRows 128) (lossyRows 128)] =
        .ok saved ∧
      callAll (fun _ => 0) saved [groupWrite, compactLayer 0] = .ok mid ∧
      mid.layers[0]?.map LayerCache.blockCount = some 1 ∧
      KVCache.RestoresSaved saved mid := by
  have hrun := sinkRun_eq
  unfold sinkRun at hrun
  rcases bind_eq_ok hrun with ⟨fresh, hfresh, hrest⟩
  rcases bind_eq_ok hrest with ⟨saved, hsaved, hrest⟩
  rcases bind_eq_ok hrest with ⟨filled, hfilled, hrest⟩
  rcases bind_eq_ok hrest with ⟨mid, hmid, hresult⟩
  have htriple := Except.ok.inj hresult
  have hlen : saved.currentLen = 128 := congrArg Prod.fst htriple
  have hroom : filled.layers[0]?.map LayerCache.sinkRoom = some 128 :=
    congrArg (fun triple => triple.2.1) htriple
  have hcall : callAll (fun _ => 0) saved [groupWrite, compactLayer 0] = .ok mid := by
    unfold callAll
    rw [List.foldlM_cons, hfilled, ok_bind, List.foldlM_cons, hmid]
    rfl
  have hops : forall op, op ∈ [groupWrite, compactLayer 0] -> op.StaysAbove saved.currentLen := by
    intro op hop
    rcases List.mem_pair.mp hop with rfl | rfl
    · exact Nat.le_of_eq hlen
    · trivial
  refine ⟨fresh, saved, mid, hfresh, hsaved, hcall, congrArg (fun triple => triple.2.2) htriple, ?_⟩
  apply (restore_exact_iff_compactions_keep hfresh hsaved hops).mpr ?_ 2 mid hcall
  intro written hwritten
  refine ⟨trivial, ?_⟩
  intro compacted _
  refine ⟨?_, trivial⟩
  intro before layer _ hlayer
  cases hfilled.symm.trans hwritten
  apply LayerCache.compactKeeps_of_le_sinkRoom
  rw [hlayer] at hroom
  rw [Option.some.inj hroom]
  exact Nat.le_trans (Nat.min_le_left _ _) (Nat.le_of_eq hlen)

end CacheOp

/-!
# A checkpoint inside a group

The checkpoint is taken at 191 rows, one short of a complete group behind the
sink.  Appending one row and compacting quantizes 63 saved rows.
-/

/-- The tail is one group of rows that a block does not keep. -/
def LayerCache.lossyGroup {codec : KvarnCodec} (layer : LayerCache codec) : Bool :=
  match layer.storage with
  | .f16 _ _ => false
  | .kvarn cache =>
    decide (cache.config = KvarnConfig.k4V2G64) && cache.numKvHeads == 1 &&
      cache.headDim == 4 && cache.blocks.isEmpty && cache.tailKey == lossyRows 64 &&
        cache.tailValue == lossyRows 64

theorem head_rowsOf {width n : Nat} (key value : List UInt16) (hn : 0 < n) :
    (rowsOf width n key value)[0]? = some ⟨key.take width, value.take width⟩ := by
  rw [rowsOf_eq_map, List.getElem?_map, List.getElem?_range hn]
  simp

/-- The first row of the group differs in two entries, the first row of the block does not. -/
theorem head_lossyBlock_ne :
    let block : KvarnBlock (packedCodec realMath) := {
      config := KvarnConfig.k4V2G64
      numKvHeads := 1
      headDim := 4
      payload := (packedCodec realMath).encode KvarnConfig.k4V2G64 1 4 (lossyRows 64)
        (lossyRows 64) }
    block.rows[0]? ≠ (rowsOf 4 64 (lossyRows 64) (lossyRows 64))[0]? := by
  intro block hsame
  have hpos : 0 < KvarnConfig.k4V2G64.group := by
    decide
  have hbits : KvarnConfig.k4V2G64.valueBits = 2 := rfl
  have hequal := decodeValue_lossyRows hbits (lossyRows 64) hpos
  have hentry : forall i, i < 4 -> (block.dequantizeF16.2.take (1 * 4))[i]? =
      some ((packedCodec realMath).decodeValue KvarnConfig.k4V2G64 1 4 block.payload i) := by
    intro i hi
    have hrange : i < 64 * (1 * 4) := Nat.lt_of_lt_of_le hi (by decide)
    unfold KvarnBlock.dequantizeF16
    rw [List.getElem?_take_of_lt hi, List.getElem?_map]
    show Option.map _ ((List.range (64 * (1 * 4)))[i]?) = _
    rw [List.getElem?_range hrange]
    rfl
  have hsaved : (lossyRows 64).take 4 = lossyRow := by
    decide
  unfold KvarnBlock.rows at hsame
  rw [head_rowsOf _ _ hpos, head_rowsOf _ _ (Nat.zero_lt_succ 63), hsaved] at hsame
  have hvalues := congrArg KvRow.value (Option.some.inj hsame)
  have hsecond := congrArg (fun entries : List UInt16 => entries[1]?) hvalues
  have hthird := congrArg (fun entries : List UInt16 => entries[2]?) hvalues
  have hsecondEntry := (hentry 1 (by decide)).symm.trans hsecond
  have hthirdEntry := (hentry 2 (by decide)).symm.trans hthird
  have hboth := hsecondEntry.symm.trans ((congrArg some hequal).trans hthirdEntry)
  exact absurd (Option.some.inj hboth) (by decide)

theorem not_compactKeeps_of_lossyGroup {layer : LayerCache (packedCodec realMath)} {p : Nat}
    (h : layer.lossyGroup = true) (hp : 128 < p) :
    ¬ layer.CompactKeeps p := by
  unfold LayerCache.lossyGroup at h
  unfold LayerCache.CompactKeeps
  cases hstorage : layer.storage with
  | f16 key value =>
    rw [hstorage] at h
    cases h
  | kvarn cache =>
    rw [hstorage] at h
    simp only [Bool.and_eq_true, decide_eq_true_eq, beq_iff_eq, List.isEmpty_iff] at h
    rcases h with ⟨⟨⟨⟨⟨hconfig, hheads⟩, hdim⟩, hblocks⟩, htailKey⟩, htailValue⟩
    have hwidth : cache.rowWidth = 4 := by
      unfold KvarnLayerCache.rowWidth
      rw [hheads, hdim]
    have hgroup : cache.config.group = 64 := by
      rw [hconfig]
      rfl
    have htail : cache.tailGroup 0 = rowsOf 4 64 (lossyRows 64) (lossyRows 64) := by
      unfold KvarnLayerCache.tailGroup
      rw [hwidth, hgroup, htailKey, htailValue, Nat.zero_mul, List.drop_zero]
    intro hkeeps
    have hsome : 0 < cache.tailKey.length / (cache.config.group * cache.rowWidth) := by
      rw [htailKey, hgroup, hwidth, length_lossyRows]
      exact Nat.zero_lt_one
    have hfirst := congrArg (fun rows : List KvRow => rows[0]?) (hkeeps 0 hsome)
    have hbelow : 0 < p - (cache.config.sinkTokens +
        (cache.blocks.length + 0) * cache.config.group) := by
      rw [hconfig, hblocks]
      exact Nat.sub_pos_of_lt hp
    have hwhole : (lossyRows 64).take (64 * 4) = lossyRows 64 :=
      List.take_of_length_le (Nat.le_of_eq (length_lossyRows 64))
    rw [List.getElem?_take_of_lt hbelow, List.getElem?_take_of_lt hbelow] at hfirst
    unfold KvarnLayerCache.requantizedGroup at hfirst
    rw [htail, kvBits_rowsOf, hwhole, hconfig, hheads, hdim] at hfirst
    exact head_lossyBlock_ne hfirst

namespace CacheOp

def writeLossy (pos : Nat) : CacheOp :=
  appendBitsRange 0 pos 1 lossyRow lossyRow

/-- Save, append and compact: the saved length, the rows stored at the save, and whether the
compacted group is the one that a block does not keep. -/
noncomputable def compactedRun : Checked (Nat × Option Nat × Option Bool) := do
  let fresh <- KVCache.newPerLayerWithFormats (packedCodec realMath) 256 [1] [4]
    [KvCacheFormat.kvarnK4V2G64]
  let saved <- callAll (fun _ => 0) fresh ((List.range 191).map writeLossy)
  let filled <- (writeLossy 191).call (fun _ => 0) saved
  let _ <- (compactLayer 0).call (fun _ => 0) filled
  return (saved.currentLen, saved.layers[0]?.map LayerCache.storedRows,
    filled.layers[0]?.map LayerCache.lossyGroup)

theorem compactedRun_eq : compactedRun = .ok (191, some 191, some true) := by
  decide +kernel

theorem compaction_after_save_changes_saved_row :
    exists fresh saved mid : KVCache (packedCodec realMath),
      KVCache.newPerLayerWithFormats (packedCodec realMath) 256 [1] [4]
        [KvCacheFormat.kvarnK4V2G64] = .ok fresh ∧
      callAll (fun _ => 0) fresh ((List.range 191).map writeLossy) = .ok saved ∧
      (forall op, op ∈ [writeLossy 191, compactLayer 0] ->
        op.StaysAbove saved.currentLen) ∧
      callAll (fun _ => 0) saved [writeLossy 191, compactLayer 0] = .ok mid ∧
      ¬ KVCache.RestoresSaved saved mid := by
  have hrun := compactedRun_eq
  unfold compactedRun at hrun
  rcases bind_eq_ok hrun with ⟨fresh, hfresh, hrest⟩
  rcases bind_eq_ok hrest with ⟨saved, hsaved, hrest⟩
  rcases bind_eq_ok hrest with ⟨filled, hfilled, hrest⟩
  rcases bind_eq_ok hrest with ⟨mid, hmid, hresult⟩
  have htriple := Except.ok.inj hresult
  have hlen : saved.currentLen = 191 := congrArg Prod.fst htriple
  have hstored : saved.layers[0]?.map LayerCache.storedRows = some 191 :=
    congrArg (fun triple => triple.2.1) htriple
  have hgroup : filled.layers[0]?.map LayerCache.lossyGroup = some true :=
    congrArg (fun triple => triple.2.2) htriple
  have habove : (writeLossy 191).StaysAbove saved.currentLen := Nat.le_of_eq hlen
  have hcall : callAll (fun _ => 0) saved [writeLossy 191, compactLayer 0] = .ok mid := by
    unfold callAll
    rw [List.foldlM_cons, hfilled, ok_bind, List.foldlM_cons, hmid]
    rfl
  refine ⟨fresh, saved, mid, hfresh, hsaved, ?_, hcall, ?_⟩
  · intro op hop
    rcases List.mem_pair.mp hop with rfl | rfl
    · exact habove
    · trivial
  · rcases follows_of_fresh hfresh with ⟨hself, hzero⟩
    have hreached : KVCache.Follows saved.currentLen saved saved :=
      follows_self (callAll_follows hself (by
        rw [hzero]
        exact fun op _ => staysAbove_zero op) hsaved)
    rcases call_follows rfl hreached habove hfilled with ⟨hfilledFollows, hfilledReads⟩
    have hcompacts : (compactLayer 0).StaysAbove saved.currentLen := trivial
    rcases call_follows rfl hfilledFollows hcompacts hmid with ⟨hmidFollows, hmidReads⟩
    rw [KVCache.restoresSaved_iff hmidFollows,
      hmidReads ((hfilledReads (KVCache.keepsReads_refl _ saved)).mpr trivial)]
    rcases Option.map_eq_some_iff.mp hstored with ⟨before, hbefore, hbeforeRows⟩
    rcases Option.map_eq_some_iff.mp hgroup with ⟨layer, hlayer, hlossy⟩
    intro hkeeps
    have hlayerKeeps := hkeeps before layer hbefore hlayer
    rw [hlen, hbeforeRows] at hlayerKeeps
    exact not_compactKeeps_of_lossyGroup hlossy (by decide) hlayerKeeps

end CacheOp

end KvCache
end RunNBurn
