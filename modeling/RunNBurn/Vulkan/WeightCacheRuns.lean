import RunNBurn.Library.Turns
import RunNBurn.Vulkan.WeightCache

/-!
# Runs of the weight cache

Every call keeps the accounting of the cache and evicts in the order of use.  It also keeps
every buffer owned, unless it creates a buffer for a weight and then fails to fill it: that
buffer is neither destroyed nor remembered.
-/

namespace RunNBurn
namespace Vulkan

open Library

abbrev WeightEntries : Type :=
  KeyedMap WeightId CachedWeight

abbrev WeightTurn : Type :=
  Turn WeightMemory WeightCall WeightAnswer

namespace CachedWeight

def bytes (w : CachedWeight) : Nat :=
  w.buf.size

def pinnedBytes (w : CachedWeight) : Nat :=
  if w.pinned then w.buf.size else 0

end CachedWeight

def GpuWeightCache.owned (cache : GpuWeightCache) : List GpuBuffer :=
  cache.stagingBuf.toList ++ cache.entries.values.map CachedWeight.buf

/-- One eviction after another, each of an unpinned weight that no unpinned weight was used
before, and each while the weights and what is reserved do not fit the budget. -/
inductive Evicted (uses : List WeightId) (budget reserved : Nat) :
    WeightEntries -> WeightEntries -> Prop where
  | done (entries : WeightEntries) : Evicted uses budget reserved entries entries
  | evict {entries left : WeightEntries} {id : WeightId} {w : CachedWeight}
      (cached : entries.lookup id = some w)
      (unpinned : w.pinned = false)
      (oldest : forall other w', entries.lookup other = some w' -> w'.pinned = false ->
        uses.idxOf other <= uses.idxOf id)
      (needed : budget < entries.total CachedWeight.bytes + reserved)
      (rest : Evicted uses budget reserved (entries.erase id) left) :
      Evicted uses budget reserved entries left

namespace Evicted

variable {uses : List WeightId} {budget reserved : Nat} {entries left : WeightEntries}

theorem lookup_of_left (h : Evicted uses budget reserved entries left)
    {id : WeightId} {w : CachedWeight} (hw : left.lookup id = some w) :
    entries.lookup id = some w := by
  induction h with
  | done entries => exact hw
  | @evict entries left gone _ _ _ _ _ _ ih =>
    have hrest := ih hw
    by_cases hid : id = gone
    · rw [hid, AList.lookup_erase] at hrest
      cases hrest
    · rw [AList.lookup_erase_ne hid] at hrest
      exact hrest

theorem lookup_of_pinned (h : Evicted uses budget reserved entries left)
    {id : WeightId} {w : CachedWeight} (hw : entries.lookup id = some w)
    (hpinned : w.pinned = true) :
    left.lookup id = some w := by
  induction h with
  | done entries => exact hw
  | @evict entries left gone evicted hcached hunpinned _ _ _ ih =>
    apply ih
    have hid : id ≠ gone := by
      intro hsame
      rw [hsame, hcached] at hw
      cases hw
      rw [hunpinned] at hpinned
      cases hpinned
    rw [AList.lookup_erase_ne hid]
    exact hw

theorem pinnedBytes_eq (h : Evicted uses budget reserved entries left) :
    left.total CachedWeight.pinnedBytes = entries.total CachedWeight.pinnedBytes := by
  induction h with
  | done entries => rfl
  | @evict entries left gone evicted hcached hunpinned _ _ _ ih =>
    rw [ih, ← KeyedMap.total_erase_add CachedWeight.pinnedBytes entries gone]
    unfold KeyedMap.weightAt
    rw [hcached]
    simp [CachedWeight.pinnedBytes, hunpinned]

end Evicted

namespace WeightMemory

/-- What holds between calls: the accounts agree with the entries, the ticks with the order
of the uses (the latest first), and the living buffers with the ones that are owned. -/
structure Sound (uses : List WeightId) (memory : WeightMemory) : Prop where
  accounted : memory.cache.totalCached = memory.cache.entries.total CachedWeight.bytes
  within : memory.cache.totalCached + memory.cache.externalReserved <= memory.cache.budget
  recent : forall id w, memory.cache.entries.lookup id = some w ->
    w.lastUsed + uses.idxOf id = memory.cache.tick
  owned : memory.ctx.buffers.Perm memory.cache.owned
  fresh : forall buf, buf ∈ memory.ctx.buffers -> buf.handle < memory.ctx.created

theorem new_sound (budget : Nat) : (new budget).Sound [] where
  accounted := rfl
  within := Nat.zero_le _
  recent := fun id w hw => by
    unfold new at hw
    rw [AList.lookup_empty] at hw
    cases hw
  owned := List.Perm.refl _
  fresh := fun buf hbuf => by cases hbuf

variable {uses : List WeightId} {memory left : WeightMemory}

/-!
# Making room
-/

variable {w : CachedWeight} {id : WeightId}

theorem bytes_add_erase (hw : memory.cache.entries.lookup id = some w) :
    KeyedMap.total CachedWeight.bytes (memory.cache.entries.erase id) + w.buf.size =
      memory.cache.entries.total CachedWeight.bytes := by
  rw [← KeyedMap.total_erase_add CachedWeight.bytes memory.cache.entries id]
  unfold KeyedMap.weightAt
  rw [hw]
  rfl

theorem owned_perm_of_lookup {cache : GpuWeightCache} (hw : cache.entries.lookup id = some w) :
    cache.owned.Perm (w.buf :: GpuWeightCache.owned { cache with
      entries := cache.entries.erase id }) := by
  unfold GpuWeightCache.owned
  have hvalues := (KeyedMap.values_erase_perm hw).map CachedWeight.buf
  rw [List.map_cons] at hvalues
  exact (hvalues.append_left _).trans List.perm_middle

theorem Sound.evict (h : memory.Sound uses) (hw : memory.cache.entries.lookup id = some w) :
    (memory.evict id w).Sound uses where
  accounted := by
    show memory.cache.totalCached - w.buf.size =
      KeyedMap.total CachedWeight.bytes (memory.cache.entries.erase id)
    have htotal := bytes_add_erase hw
    rw [h.accounted]
    omega
  within := by
    have hwithin := h.within
    show memory.cache.totalCached - w.buf.size + memory.cache.externalReserved <=
      memory.cache.budget
    omega
  recent := by
    intro other found hfound
    have hfound : (memory.cache.entries.erase id).lookup other = some found := hfound
    by_cases hid : other = id
    · rw [hid, AList.lookup_erase] at hfound
      cases hfound
    · rw [AList.lookup_erase_ne hid] at hfound
      exact h.recent other found hfound
  owned := by
    have hperm := (h.owned.trans (owned_perm_of_lookup hw)).erase w.buf
    rw [List.erase_cons_head] at hperm
    exact hperm
  fresh := fun buf hbuf => h.fresh buf (List.mem_of_mem_erase hbuf)

theorem lru_eq_some (h : memory.lru = some ⟨id, w⟩) :
    memory.cache.entries.lookup id = some w ∧ w.pinned = false ∧
      forall other w', memory.cache.entries.lookup other = some w' -> w'.pinned = false ->
        w.lastUsed <= w'.lastUsed := by
  unfold lru at h
  have hmem := List.mem_filter.mp (List.argmin_mem h)
  have hunpinned : w.pinned = false := by simpa using hmem.2
  refine ⟨(KeyedMap.mem_entries_iff _ id w).mp hmem.1, hunpinned, ?_⟩
  intro other w' hw' hpinned
  have hother : (⟨other, w'⟩ : Sigma fun _ : WeightId => CachedWeight) ∈
      memory.cache.entries.entries.filter (fun entry => !entry.2.pinned) :=
    List.mem_filter.mpr ⟨(KeyedMap.mem_entries_iff _ other w').mpr hw', by simp [hpinned]⟩
  exact List.le_of_mem_argmin
    (f := fun entry : Sigma fun _ : WeightId => CachedWeight => entry.2.lastUsed) hother h

theorem pinnedBytes_of_lru_eq_none (h : memory.lru = none) :
    memory.cache.entries.total CachedWeight.pinnedBytes =
      memory.cache.entries.total CachedWeight.bytes := by
  unfold lru at h
  rw [List.argmin_eq_none, List.filter_eq_nil_iff] at h
  unfold KeyedMap.total
  congr 1
  apply List.map_congr_left
  intro entry hentry
  have hpinned : entry.2.pinned = true := by simpa using h entry hentry
  simp [CachedWeight.pinnedBytes, CachedWeight.bytes, hpinned]

structure Shrunk (uses : List WeightId) (incomingBytes : Nat) (memory left : WeightMemory) :
    Prop where
  sound : left.Sound uses
  evicted : Evicted uses memory.cache.budget (memory.cache.externalReserved + incomingBytes)
    memory.cache.entries left.cache.entries
  rest : left.cache = { memory.cache with
    entries := left.cache.entries
    totalCached := left.cache.totalCached }

def takenAtLeast (memory : WeightMemory) (incomingBytes : Nat) : Nat :=
  memory.cache.entries.total CachedWeight.pinnedBytes + memory.cache.externalReserved +
    incomingBytes

theorem pinnedBytes_le (entries : WeightEntries) :
    entries.total CachedWeight.pinnedBytes <= entries.total CachedWeight.bytes := by
  unfold KeyedMap.total
  apply List.sum_le_sum
  intro entry _
  unfold CachedWeight.pinnedBytes CachedWeight.bytes
  split
  · exact Nat.le_refl _
  · exact Nat.zero_le _

variable {incomingBytes : Nat}

theorem Shrunk.takenAtLeast_eq (h : Shrunk uses incomingBytes memory left) :
    left.takenAtLeast incomingBytes = memory.takenAtLeast incomingBytes := by
  unfold takenAtLeast
  rw [h.evicted.pinnedBytes_eq, h.rest]

theorem Shrunk.evict (hsound : memory.Sound uses) (hlru : memory.lru = some ⟨id, w⟩)
    (hneeded : memory.cache.budget < memory.taken incomingBytes)
    (h : Shrunk uses incomingBytes (memory.evict id w) left) :
    Shrunk uses incomingBytes memory left where
  sound := h.sound
  evicted := by
    rcases lru_eq_some hlru with ⟨hcached, hunpinned, holdest⟩
    refine Evicted.evict hcached hunpinned ?_ ?_ h.evicted
    · intro other w' hw' hother
      have hfirst := hsound.recent id w hcached
      have hsecond := hsound.recent other w' hw'
      have hticks := holdest other w' hw' hother
      omega
    · unfold taken at hneeded
      rw [hsound.accounted, Nat.add_assoc] at hneeded
      exact hneeded
  rest := h.rest

theorem Sound.shrunk (h : memory.Sound uses) (incomingBytes : Nat) :
    Shrunk uses incomingBytes memory memory where
  sound := h
  evicted := Evicted.done _
  rest := rfl

theorem stuck_of_lru_eq_none (h : memory.Sound uses) (hlru : memory.lru = none)
    (hneeded : memory.cache.budget < memory.taken incomingBytes) :
    Shrunk uses incomingBytes memory memory ∧
      memory.cache.budget < memory.takenAtLeast incomingBytes := by
  refine ⟨h.shrunk incomingBytes, ?_⟩
  unfold takenAtLeast
  rw [pinnedBytes_of_lru_eq_none hlru, ← h.accounted]
  exact hneeded

theorem length_evict (hw : memory.cache.entries.lookup id = some w) :
    (memory.evict id w).cache.entries.entries.length + 1 =
      memory.cache.entries.entries.length := by
  have hlength := (KeyedMap.values_erase_perm hw).length_eq
  unfold KeyedMap.values at hlength
  rw [List.length_cons, List.length_map, List.length_map] at hlength
  exact hlength.symm

theorem evictRounds_ends {rounds : Nat} (h : memory.Sound uses)
    (hrounds : memory.cache.entries.entries.length <= rounds) :
    InPlace.Ends (evictRounds incomingBytes rounds) memory
      (fun () left => Shrunk uses incomingBytes memory left ∧
        left.taken incomingBytes <= left.cache.budget)
      (fun fault left => fault.Reported -> Shrunk uses incomingBytes memory left ∧
        left.cache.budget < left.takenAtLeast incomingBytes) := by
  induction rounds generalizing memory with
  | zero =>
    have hlru : memory.lru = none := by
      unfold lru
      rw [List.length_eq_zero_iff.mp (Nat.le_zero.mp hrounds)]
      rfl
    unfold InPlace.Ends evictRounds
    split_ifs with hoverflow hneeded
    · exact False.elim
    · exact fun _ => stuck_of_lru_eq_none h hlru hneeded
    · exact ⟨h.shrunk incomingBytes, Nat.le_of_not_lt hneeded⟩
  | succ rounds ih =>
    unfold InPlace.Ends evictRounds
    split_ifs with hoverflow hneeded
    · exact False.elim
    · cases hlru : memory.lru with
      | none => exact fun _ => stuck_of_lru_eq_none h hlru hneeded
      | some entry =>
        rcases entry with ⟨id, w⟩
        have hw := (lru_eq_some hlru).1
        have hlength := length_evict hw
        exact (ih (h.evict hw) (by omega)).imp
          (fun _ left hleft => ⟨hleft.1.evict h hlru hneeded, hleft.2⟩)
          (fun fault left hleft hreported =>
            ⟨(hleft hreported).1.evict h hlru hneeded, (hleft hreported).2⟩)
    · exact ⟨h.shrunk incomingBytes, Nat.le_of_not_lt hneeded⟩

theorem evictToFit_ends (h : memory.Sound uses) (incomingBytes : Nat) :
    InPlace.Ends (evictToFit incomingBytes) memory
      (fun () left => Shrunk uses incomingBytes memory left ∧
        left.taken incomingBytes <= left.cache.budget ∧
        memory.takenAtLeast incomingBytes <= memory.cache.budget)
      (fun fault left => fault.Reported -> Shrunk uses incomingBytes memory left ∧
        memory.cache.budget < memory.takenAtLeast incomingBytes) := by
  refine (evictRounds_ends h (Nat.le_refl _)).imp ?_ ?_
  · intro _ left hleft
    refine ⟨hleft.1, hleft.2, ?_⟩
    have hsame : left.cache.budget = memory.cache.budget := by rw [hleft.1.rest]
    have hpinned := pinnedBytes_le left.cache.entries
    have htaken := hleft.2
    rw [← hleft.1.takenAtLeast_eq, ← hsame]
    unfold takenAtLeast
    unfold taken at htaken
    rw [hleft.1.sound.accounted] at htaken
    omega
  · intro fault left hleft hreported
    rcases hleft hreported with ⟨hshrunk, hless⟩
    have hsame : left.cache.budget = memory.cache.budget := by rw [hshrunk.rest]
    rw [hshrunk.takenAtLeast_eq, hsame] at hless
    exact ⟨hshrunk, hless⟩

end WeightMemory

/-!
# Creating buffers
-/

namespace DeviceOutcomes

/-- A host-visible buffer is created for the weight and cannot be filled. -/
def WastesHost (outcomes : DeviceOutcomes) : Prop :=
  outcomes.host = .ok () ∧ outcomes.hostUpload ≠ .ok ()

/-- A buffer is created for the staged weight and cannot be filled. -/
def WastesDevice (outcomes : DeviceOutcomes) : Prop :=
  (outcomes.device = .ok () ∧ outcomes.copy ≠ .ok ()) ∨
    (outcomes.device ≠ .ok () ∧ outcomes.WastesHost)

end DeviceOutcomes

namespace VulkanContext

variable {ctx : VulkanContext} {size : Nat} {outcomes : DeviceOutcomes}

def newBuffer (ctx : VulkanContext) (size : Nat) : GpuBuffer where
  handle := ctx.created
  size := size

def grown (ctx : VulkanContext) (size : Nat) : VulkanContext where
  buffers := ctx.newBuffer size :: ctx.buffers
  created := ctx.created + 1

theorem createBuffer_ends (ctx : VulkanContext) (size : Nat) (outcome : Except String Unit) :
    InPlace.Ends (createBuffer size outcome) ctx
      (fun buf left => buf = ctx.newBuffer size ∧ left = ctx.grown size ∧ outcome = .ok ())
      (fun _ left => left = ctx ∧ outcome ≠ .ok ()) := by
  cases outcome with
  | error complaint => exact ⟨rfl, fun h => by cases h⟩
  | ok done => exact ⟨rfl, rfl, rfl⟩

theorem checkedOutcome_eq_ok {outcome : Except String Unit} {done : Unit} :
    checkedOutcome outcome = .ok done ↔ outcome = .ok () := by
  cases outcome with
  | error complaint => simp [checkedOutcome, report]
  | ok done => simp [checkedOutcome]

theorem uploadToBuffer_ends (ctx : VulkanContext) (outcome : Except String Unit) :
    InPlace.Ends (uploadToBuffer outcome) ctx
      (fun () left => left = ctx ∧ outcome = .ok ())
      (fun _ left => left = ctx ∧ outcome ≠ .ok ()) := by
  apply InPlace.ends_reading
  · intro done hdone
    exact ⟨rfl, checkedOutcome_eq_ok.mp hdone⟩
  · intro fault hfault
    refine ⟨rfl, fun hok => ?_⟩
    rw [hok] at hfault
    cases hfault

theorem copyBufferAndWait_ends {src dst : GpuBuffer} (ctx : VulkanContext)
    (outcome : Except String Unit) (hsrc : size <= src.size) (hdst : size <= dst.size) :
    InPlace.Ends (copyBufferAndWait src dst size outcome) ctx
      (fun () left => left = ctx ∧ outcome = .ok ())
      (fun _ left => left = ctx ∧ outcome ≠ .ok ()) := by
  have hranges : ¬ (src.size < size ∨ dst.size < size) := by
    rw [not_or]
    exact ⟨Nat.not_lt_of_le hsrc, Nat.not_lt_of_le hdst⟩
  unfold copyBufferAndWait
  rw [if_neg hranges]
  exact uploadToBuffer_ends ctx outcome

theorem createHostVisible_ends (ctx : VulkanContext) (size : Nat) (outcomes : DeviceOutcomes) :
    InPlace.Ends (createHostVisible size outcomes) ctx
      (fun buf left => (buf = ctx.newBuffer size ∧ left = ctx.grown size) ∧
        ¬ outcomes.WastesHost)
      (fun _ left => (left = ctx ∧ ¬ outcomes.WastesHost) ∨
        (left = ctx.grown size ∧ outcomes.WastesHost)) := by
  unfold createHostVisible
  refine InPlace.ends_bind ((createBuffer_ends ctx size outcomes.host).imp (fun _ _ h => h) ?_) ?_
  · intro fault left hleft
    exact Or.inl ⟨hleft.1, fun hwastes => hleft.2 hwastes.1⟩
  · rintro buf left ⟨hbuf, hleft, hcreated⟩
    refine InPlace.ends_bind ((uploadToBuffer_ends left outcomes.hostUpload).imp
      (fun _ _ h => h) ?_) ?_
    · intro fault left' hfailed
      exact Or.inr ⟨hfailed.1.trans hleft, hcreated, hfailed.2⟩
    · rintro done left' ⟨hsame, huploaded⟩
      exact InPlace.ends_pure ⟨⟨hbuf, hsame.trans hleft⟩, fun hwastes => hwastes.2 huploaded⟩

theorem createDeviceLocal_ends {staging : GpuBuffer} (ctx : VulkanContext)
    (outcomes : DeviceOutcomes) (hstaging : size <= staging.size) :
    InPlace.Ends (createDeviceLocal staging size outcomes) ctx
      (fun buf left => (buf = ctx.newBuffer size ∧ left = ctx.grown size) ∧
        ¬ outcomes.WastesDevice)
      (fun _ left => (left = ctx ∧ ¬ outcomes.WastesDevice) ∨
        (left = ctx.grown size ∧ outcomes.WastesDevice)) := by
  have hcreate := createBuffer_ends ctx size outcomes.device
  cases hresult : createBuffer size outcomes.device ctx with
  | mk left result =>
    unfold InPlace.Ends createDeviceLocal
    rw [hresult]
    cases result with
    | ok buf =>
      rcases hcreate.of_ok hresult with ⟨hbuf, hleft, hdevice⟩
      have hdst : size <= buf.size := by
        rw [hbuf]
        exact Nat.le_refl _
      refine InPlace.ends_bind
        ((copyBufferAndWait_ends left outcomes.copy hstaging hdst).imp (fun _ _ h => h) ?_) ?_
      · intro fault left' hfailed
        exact Or.inr ⟨hfailed.1.trans hleft, Or.inl ⟨hdevice, hfailed.2⟩⟩
      · rintro done left' ⟨hsame, hcopied⟩
        refine InPlace.ends_pure ⟨⟨hbuf, hsame.trans hleft⟩, ?_⟩
        rintro (hwastes | hwastes)
        · exact hwastes.2 hcopied
        · exact hwastes.1 hdevice
    | error fault =>
      rcases hcreate.of_error hresult with ⟨hleft, hdevice⟩
      have hwastes : outcomes.WastesDevice ↔ outcomes.WastesHost := by
        unfold DeviceOutcomes.WastesDevice
        simp [hdevice]
      rw [hleft, hwastes]
      exact createHostVisible_ends ctx size outcomes

end VulkanContext

namespace WeightMemory

variable {uses : List WeightId} {memory mid left : WeightMemory} {id : WeightId} {size : Nat}
  {outcomes : DeviceOutcomes}

/-!
# Staging
-/

structure Staged (uses : List WeightId) (incomingBytes : Nat) (memory left : WeightMemory) :
    Prop where
  sound : left.Sound uses
  evicted : Evicted uses memory.cache.budget (memory.cache.externalReserved + incomingBytes)
    memory.cache.entries left.cache.entries
  rest : left.cache = { memory.cache with
    entries := left.cache.entries
    totalCached := left.cache.totalCached
    stagingBuf := left.cache.stagingBuf }

theorem Shrunk.staged (h : Shrunk uses size memory mid) {staging : Option GpuBuffer}
    (hsound : left.Sound uses) (hcache : left.cache = { mid.cache with stagingBuf := staging }) :
    Staged uses size memory left where
  sound := hsound
  evicted := by
    rw [hcache]
    exact h.evicted
  rest := by
    rw [hcache, h.rest]

/-- There is a staging buffer that is large enough, or one can be created. -/
def CanStage (memory : WeightMemory) (size : Nat) (outcomes : DeviceOutcomes) : Prop :=
  (exists staging, memory.cache.stagingBuf = some staging ∧ size <= staging.size) ∨
    outcomes.staging = .ok ()

theorem Sound.dropStaging (h : memory.Sound uses) {staging : GpuBuffer}
    (hstaging : memory.cache.stagingBuf = some staging) :
    Sound uses { memory.setStaging none with
      ctx := memory.ctx.destroyBuffer staging } where
  accounted := h.accounted
  within := h.within
  recent := h.recent
  owned := by
    have hperm := h.owned
    unfold GpuWeightCache.owned at hperm
    rw [hstaging] at hperm
    have herased := hperm.erase staging
    rw [Option.toList_some, List.singleton_append, List.erase_cons_head] at herased
    exact herased
  fresh := fun buf hbuf => h.fresh buf (List.mem_of_mem_erase hbuf)

theorem Sound.fresh_grown (h : memory.Sound uses) (size : Nat) :
    forall buf, buf ∈ (memory.ctx.grown size).buffers ->
      buf.handle < (memory.ctx.grown size).created := by
  intro buf hbuf
  rcases List.mem_cons.mp hbuf with hnew | hold
  · rw [hnew]
    exact Nat.lt_succ_self _
  · exact Nat.lt_succ_of_lt (h.fresh buf hold)

theorem Sound.growStaging (h : memory.Sound uses)
    (hnone : memory.cache.stagingBuf = none) (size : Nat) :
    Sound uses (setStaging (some (memory.ctx.newBuffer size))
      { memory with ctx := memory.ctx.grown size }) where
  accounted := h.accounted
  within := h.within
  recent := h.recent
  owned := by
    have hperm := h.owned
    unfold GpuWeightCache.owned at hperm
    rw [hnone] at hperm
    exact hperm.cons (memory.ctx.newBuffer size)
  fresh := h.fresh_grown size

theorem onContext_ends {alpha : Type} {call : InPlace Fault VulkanContext alpha}
    {returned : alpha -> VulkanContext -> Prop} {failed : Fault -> VulkanContext -> Prop}
    (h : InPlace.Ends call memory.ctx returned failed) :
    InPlace.Ends (onContext call) memory
      (fun x left => exists ctx, left = { memory with ctx := ctx } ∧ returned x ctx)
      (fun fault left => exists ctx, left = { memory with ctx := ctx } ∧ failed fault ctx) :=
  InPlace.ends_onPart h

theorem createStaging_ends (h : memory.Sound uses) (hnone : memory.cache.stagingBuf = none) :
    InPlace.Ends (createStaging size outcomes) memory
      (fun staging left => left.Sound uses ∧
        left.cache = { memory.cache with stagingBuf := some staging } ∧
        size <= staging.size ∧ outcomes.staging = .ok ())
      (fun _ left => left = memory ∧ outcomes.staging ≠ .ok ()) := by
  unfold createStaging
  refine InPlace.ends_bind
    ((onContext_ends (VulkanContext.createBuffer_ends memory.ctx size outcomes.staging)).imp
      (fun _ _ h => h) ?_) ?_
  · rintro fault left ⟨ctx, hleft, hctx, hfailed⟩
    rw [hctx] at hleft
    exact ⟨hleft, hfailed⟩
  · rintro staging left ⟨ctx, hleft, hbuf, hctx, hcreated⟩
    rw [hleft, hctx, hbuf]
    exact ⟨h.growStaging hnone size, rfl, Nat.le_refl _, hcreated⟩

theorem ensureStaging_ends (h : memory.Sound uses) (size : Nat) (outcomes : DeviceOutcomes) :
    InPlace.Ends (ensureStaging size outcomes) memory
      (fun staging left => left.Sound uses ∧
        left.cache = { memory.cache with stagingBuf := some staging } ∧
        size <= staging.size ∧ memory.CanStage size outcomes)
      (fun _ left => left.Sound uses ∧ left.cache = { memory.cache with stagingBuf := none } ∧
        ¬ memory.CanStage size outcomes) := by
  unfold InPlace.Ends ensureStaging CanStage
  cases hstaging : memory.cache.stagingBuf with
  | none =>
    refine (createStaging_ends h hstaging).imp ?_ ?_
    · rintro staging left ⟨hsound, hcache, hsize, hcreated⟩
      exact ⟨hsound, hcache, hsize, Or.inr hcreated⟩
    · rintro fault left ⟨hleft, hfailed⟩
      rw [hleft, ← hstaging]
      refine ⟨h, rfl, ?_⟩
      rintro (⟨staging, hsome, _⟩ | hcreated)
      · rw [hstaging] at hsome
        cases hsome
      · exact hfailed hcreated
  | some staging =>
    dsimp only
    split_ifs with hlarge
    · refine ⟨h, ?_, hlarge, Or.inl ⟨staging, rfl, hlarge⟩⟩
      rw [← hstaging]
    · refine (createStaging_ends (h.dropStaging hstaging) rfl).imp ?_ ?_
      · rintro created left ⟨hsound, hcache, hsize, hcreated⟩
        exact ⟨hsound, hcache, hsize, Or.inr hcreated⟩
      · rintro fault left ⟨hleft, hfailed⟩
        rw [hleft]
        refine ⟨h.dropStaging hstaging, rfl, ?_⟩
        rintro (⟨found, hsome, hfound⟩ | hcreated)
        · cases hsome
          exact hlarge hfound
        · exact hfailed hcreated

/-!
# Uploads
-/

def Lost (uses : List WeightId) (size : Nat) (memory left : WeightMemory) : Prop :=
  exists mid, Staged uses size memory mid ∧ left = { mid with ctx := mid.ctx.grown size }

def Stored (uses : List WeightId) (id : WeightId) (size : Nat) (memory left : WeightMemory) :
    Prop :=
  left.Sound (id :: uses) ∧ exists mid w, Staged uses size memory mid ∧
    left.cache.budget = mid.cache.budget ∧
    left.cache.entries = mid.cache.entries.insert id w

theorem recent_insert {entries : WeightEntries} {tick : Nat} {w : CachedWeight}
    (hrecent : forall other found, entries.lookup other = some found ->
      found.lastUsed + uses.idxOf other = tick)
    (hw : w.lastUsed = tick + 1) :
    forall other found, (entries.insert id w).lookup other = some found ->
      found.lastUsed + (id :: uses).idxOf other = tick + 1 := by
  intro other found hfound
  by_cases hid : other = id
  · rw [hid, AList.lookup_insert] at hfound
    cases hfound
    rw [hid, List.idxOf_cons_self, hw, Nat.add_zero]
  · rw [AList.lookup_insert_ne hid] at hfound
    rw [List.idxOf_cons_ne uses (Ne.symm hid), ← hrecent other found hfound]
    rfl

theorem insert_ends (h : Staged uses size memory mid) (hmiss : mid.cache.entries.lookup id = none)
    (hroom : mid.taken size <= mid.cache.budget) :
    InPlace.Ends (insert id (mid.ctx.newBuffer size) size)
      { mid with ctx := mid.ctx.grown size }
      (fun () left => Stored uses id size memory left)
      (fun fault _ => ¬ fault.Reported) := by
  have hsound := h.sound
  unfold InPlace.Ends insert
  dsimp only
  split_ifs with htick
  · refine ⟨?_, mid, _, h, ?_, rfl⟩
    · constructor
      · show mid.cache.totalCached + size = KeyedMap.total CachedWeight.bytes
          (mid.cache.entries.insert id _)
        rw [KeyedMap.total_insert, hsound.accounted,
          ← KeyedMap.total_erase_add CachedWeight.bytes mid.cache.entries id]
        unfold KeyedMap.weightAt
        rw [hmiss, Nat.add_comm]
        rfl
      · unfold taken at hroom
        show mid.cache.totalCached + size + mid.cache.externalReserved <= mid.cache.budget
        omega
      · exact recent_insert hsound.recent rfl
      · have hperm := hsound.owned.cons (mid.ctx.newBuffer size)
        refine hperm.trans ?_
        unfold GpuWeightCache.owned
        dsimp only
        rw [KeyedMap.values_insert_perm _ hmiss, List.map_cons]
        exact List.perm_middle.symm
      · exact hsound.fresh_grown size
    · rfl
  · exact fun h => h

theorem fill_ends {create : InPlace Fault VulkanContext GpuBuffer} {wastes : Prop}
    (hcreate : InPlace.Ends create mid.ctx
      (fun buf left => (buf = mid.ctx.newBuffer size ∧ left = mid.ctx.grown size) ∧ ¬ wastes)
      (fun _ left => (left = mid.ctx ∧ ¬ wastes) ∨ (left = mid.ctx.grown size ∧ wastes)))
    (h : Staged uses size memory mid) (hmiss : mid.cache.entries.lookup id = none)
    (hroom : mid.taken size <= mid.cache.budget) :
    InPlace.Ends (onContext create >>= fun buf => insert id buf size) mid
      (fun () left => Stored uses id size memory left ∧ ¬ wastes)
      (fun fault left => fault.Reported ->
        (Staged uses size memory left ∧ ¬ wastes) ∨ (Lost uses size memory left ∧ wastes)) := by
  refine InPlace.ends_bind ((onContext_ends hcreate).imp (fun _ _ h => h) ?_) ?_
  · rintro fault left ⟨ctx, hleft, ⟨hctx, hkept⟩ | ⟨hctx, hwastes⟩⟩ _
    · rw [hctx] at hleft
      rw [hleft]
      exact Or.inl ⟨h, hkept⟩
    · rw [hctx] at hleft
      exact Or.inr ⟨⟨mid, h, hleft⟩, hwastes⟩
  · rintro buf left ⟨ctx, hleft, ⟨hbuf, hctx⟩, hkept⟩
    rw [hleft, hctx, hbuf]
    exact (insert_ends h hmiss hroom).imp (fun _ _ hstored => ⟨hstored, hkept⟩)
      (fun _ _ hpanicked hreported => absurd hreported hpanicked)

/-- The weight fits next to the pinned weights and the reservations. -/
def Fits (memory : WeightMemory) (size : Nat) : Prop :=
  memory.takenAtLeast size <= memory.cache.budget

/-- The upload gets as far as creating the weight's buffer, and no further. -/
def Wastes (memory : WeightMemory) (size : Nat) (outcomes : DeviceOutcomes) :
    GpuWeightMode -> Prop
  | .raw32 => memory.Fits size ∧ outcomes.WastesHost
  | _ => memory.Fits size ∧ memory.CanStage size outcomes ∧ outcomes.stagingUpload = .ok () ∧
      outcomes.WastesDevice

theorem Shrunk.fill {size : Nat} (h : Shrunk uses size memory mid)
    (hmiss : memory.cache.entries.lookup id = none)
    (hcache : exists staging, left.cache = { mid.cache with stagingBuf := staging })
    (hroom : mid.taken size <= mid.cache.budget) :
    left.cache.entries.lookup id = none ∧ left.taken size <= left.cache.budget := by
  rcases hcache with ⟨staging, hcache⟩
  constructor
  · rw [hcache]
    cases hid : mid.cache.entries.lookup id with
    | none => rfl
    | some w =>
      rw [h.evicted.lookup_of_left hid] at hmiss
      cases hmiss
  · unfold taken
    rw [hcache]
    exact hroom

theorem uploadHostVisible_ends (h : memory.Sound uses)
    (hmiss : memory.cache.entries.lookup id = none) :
    InPlace.Ends (uploadHostVisible id size outcomes) memory
      (fun () left => Stored uses id size memory left ∧ ¬ memory.Wastes size outcomes .raw32)
      (fun fault left => fault.Reported ->
        (Staged uses size memory left ∧ ¬ memory.Wastes size outcomes .raw32) ∨
          (Lost uses size memory left ∧ memory.Wastes size outcomes .raw32)) := by
  unfold uploadHostVisible
  refine InPlace.ends_bind ((evictToFit_ends h size).imp (fun _ _ h => h) ?_) ?_
  · intro fault left hleft hreported
    rcases hleft hreported with ⟨hshrunk, hless⟩
    exact Or.inl ⟨hshrunk.staged hshrunk.sound rfl,
      fun hwastes => absurd hwastes.1 (Nat.not_le_of_lt hless)⟩
  · rintro done mid ⟨hshrunk, hroom, hfits⟩
    have hwastes : memory.Wastes size outcomes .raw32 ↔ outcomes.WastesHost :=
      and_iff_right hfits
    rw [hwastes]
    exact fill_ends (VulkanContext.createHostVisible_ends mid.ctx size outcomes)
      (hshrunk.staged hshrunk.sound rfl) (hshrunk.fill hmiss ⟨_, rfl⟩ hroom).1 hroom

theorem uploadDeviceLocal_ends (h : memory.Sound uses)
    (hmiss : memory.cache.entries.lookup id = none) :
    InPlace.Ends (uploadDeviceLocal id size outcomes) memory
      (fun () left => Stored uses id size memory left ∧ ¬ memory.Wastes size outcomes .soa)
      (fun fault left => fault.Reported ->
        (Staged uses size memory left ∧ ¬ memory.Wastes size outcomes .soa) ∨
          (Lost uses size memory left ∧ memory.Wastes size outcomes .soa)) := by
  unfold uploadDeviceLocal
  refine InPlace.ends_bind ((evictToFit_ends h size).imp (fun _ _ h => h) ?_) ?_
  · intro fault left hleft hreported
    rcases hleft hreported with ⟨hshrunk, hless⟩
    exact Or.inl ⟨hshrunk.staged hshrunk.sound rfl,
      fun hwastes => absurd hwastes.1 (Nat.not_le_of_lt hless)⟩
  · rintro done mid ⟨hshrunk, hroom, hfits⟩
    have hcan : mid.CanStage size outcomes ↔ memory.CanStage size outcomes := by
      unfold CanStage
      rw [hshrunk.rest]
    refine InPlace.ends_bind
      ((ensureStaging_ends hshrunk.sound size outcomes).imp (fun _ _ h => h) ?_) ?_
    · rintro fault left ⟨hsound, hcache, hcannot⟩ _
      exact Or.inl ⟨hshrunk.staged hsound hcache, fun hwastes => hcannot (hcan.mpr hwastes.2.1)⟩
    · rintro staging staged ⟨hsound, hcache, hsize, hstaged⟩
      have hkept := hshrunk.staged hsound hcache
      rcases hshrunk.fill hmiss ⟨_, hcache⟩ hroom with ⟨hstill, hroomy⟩
      refine InPlace.ends_bind ((onContext_ends
        (VulkanContext.uploadToBuffer_ends staged.ctx outcomes.stagingUpload)).imp
          (fun _ _ h => h) ?_) ?_
      · rintro fault left ⟨ctx, hleft, hctx, hfailed⟩ _
        rw [hctx] at hleft
        rw [hleft]
        exact Or.inl ⟨hkept, fun hwastes => hfailed hwastes.2.2.1⟩
      · rintro done' left ⟨ctx, hleft, hctx, huploaded⟩
        rw [hctx] at hleft
        rw [hleft]
        have hwastes : memory.Wastes size outcomes .soa ↔ outcomes.WastesDevice :=
          ⟨fun hwastes => hwastes.2.2.2,
            fun hdevice => ⟨hfits, hcan.mp hstaged, huploaded, hdevice⟩⟩
        rw [hwastes]
        exact fill_ends (VulkanContext.createDeviceLocal_ends staged.ctx outcomes hsize)
          hkept hstill hroomy

def uploadSize (rawBytes : List UInt8) (rows cols : UInt32) (quant : QuantType) :
    GpuWeightMode -> Checked Nat
  | .soa => repackedSize quant rawBytes rows cols
  | .rowMajor => .ok (paddedSize rawBytes)
  | .raw32 => .ok (paddedSize rawBytes)

variable {rows cols : UInt32} {quant : QuantType} {rawBytes : List UInt8} {mode : GpuWeightMode}

theorem upload_ends (h : memory.Sound uses) (hmiss : memory.cache.entries.lookup id = none)
    (hsize : uploadSize rawBytes rows cols quant mode = .ok size) :
    InPlace.Ends (upload id rawBytes rows cols quant outcomes mode) memory
      (fun () left => Stored uses id size memory left ∧ ¬ memory.Wastes size outcomes mode)
      (fun fault left => fault.Reported ->
        (Staged uses size memory left ∧ ¬ memory.Wastes size outcomes mode) ∨
          (Lost uses size memory left ∧ memory.Wastes size outcomes mode)) := by
  cases mode with
  | soa =>
    have hread : InPlace.reading (fun _ => repackedSize quant rawBytes rows cols) memory =
        (memory, .ok size) := InPlace.reading_of_eq hsize
    have hupload : upload id rawBytes rows cols quant outcomes .soa memory =
        uploadDeviceLocal id size outcomes memory := InPlace.bind_of_ok hread
    unfold InPlace.Ends
    rw [hupload]
    exact uploadDeviceLocal_ends h hmiss
  | rowMajor =>
    cases hsize
    exact uploadDeviceLocal_ends h hmiss
  | raw32 =>
    cases hsize
    exact uploadHostVisible_ends h hmiss

theorem repackedSize_not_reported {fault : Fault} (hkernel : quant.hasSoaKernel = true)
    (h : repackedSize quant rawBytes rows cols = .error fault) :
    ¬ fault.Reported := by
  have hpanics : forall srcBlockSize wordsPerBlock blocksPerRow,
      repackTransposed srcBlockSize wordsPerBlock rawBytes rows.toNat blocksPerRow =
        .error fault -> ¬ fault.Reported := by
    intro srcBlockSize wordsPerBlock blocksPerRow hrepack
    unfold repackTransposed at hrepack
    split at hrepack
    · cases hrepack
    · cases hrepack
      exact fun h => h
  cases quant <;> first | exact hpanics _ _ _ h | cases hkernel

theorem hasSoaKernel_of_effectiveUploadMode (h : effectiveUploadMode mode quant rows cols = .soa) :
    quant.hasSoaKernel = true := by
  unfold effectiveUploadMode at h
  cases mode with
  | raw32 => cases h
  | rowMajor =>
    dsimp only at h
    split_ifs at h with hwide hkernel
    exact hkernel
  | soa =>
    dsimp only at h
    split_ifs at h with hkernel
    exact hkernel

/-!
# Calls
-/

/-- Every weight stays in its buffer, and stays pinned when it was. -/
def SameResidents (memory left : WeightMemory) : Prop :=
  forall id, (left.cache.entries.lookup id).map (fun w => (w.buf, w.pinned)) =
    (memory.cache.entries.lookup id).map (fun w => (w.buf, w.pinned))

/-- A weight that is cached already evicts nothing; the others make room for `size` bytes
by evictions, and nothing but these takes an entry away. -/
def ServesFrom (uses : List WeightId) (id : WeightId) (size : Checked Nat)
    (memory left : WeightMemory) : Prop :=
  left.cache.budget = memory.cache.budget ∧
  match memory.cache.entries.lookup id with
  | some _ => SameResidents memory left
  | none => exists bytes remaining, size = .ok bytes ∧
      Evicted uses memory.cache.budget (memory.cache.externalReserved + bytes)
        memory.cache.entries remaining ∧
      forall other, other ≠ id -> left.cache.entries.lookup other = remaining.lookup other

theorem servesFrom_of_evicted {bytes : Nat} {remaining : WeightEntries} {result : Checked Nat}
    (hmiss : memory.cache.entries.lookup id = none) (hsize : result = .ok bytes)
    (hbudget : left.cache.budget = memory.cache.budget)
    (h : Evicted uses memory.cache.budget (memory.cache.externalReserved + bytes)
      memory.cache.entries remaining)
    (hleft : forall other, other ≠ id ->
      left.cache.entries.lookup other = remaining.lookup other) :
    ServesFrom uses id result memory left := by
  unfold ServesFrom
  rw [hmiss]
  exact ⟨hbudget, bytes, remaining, hsize, h, hleft⟩

theorem Stored.servesFrom {result : Checked Nat} (h : Stored uses id size memory left)
    (hmiss : memory.cache.entries.lookup id = none) (hsize : result = .ok size) :
    ServesFrom uses id result memory left := by
  rcases h.2 with ⟨mid, w, hstaged, hbudget, hentries⟩
  refine servesFrom_of_evicted hmiss hsize (by rw [hbudget, hstaged.rest]) hstaged.evicted ?_
  intro other hother
  rw [hentries, AList.lookup_insert_ne hother]

theorem Lost.unowned (h : Lost uses size memory left) :
    exists buf, buf ∈ left.ctx.buffers ∧ buf ∉ left.cache.owned := by
  rcases h with ⟨mid, hstaged, hleft⟩
  rw [hleft]
  refine ⟨mid.ctx.newBuffer size, List.mem_cons_self, ?_⟩
  intro howned
  have hold := hstaged.sound.owned.mem_iff.mpr howned
  exact absurd (hstaged.sound.fresh _ hold) (Nat.lt_irrefl _)

theorem Sound.replace {uses' : List WeightId} {w w' : CachedWeight} {tick : Nat}
    (h : memory.Sound uses) (hw : memory.cache.entries.lookup id = some w) (hbuf : w'.buf = w.buf)
    (hrecent : forall other found, (memory.cache.entries.insert id w').lookup other = some found ->
      found.lastUsed + uses'.idxOf other = tick) :
    Sound uses' { memory with
      cache := { memory.cache with
        tick := tick
        entries := memory.cache.entries.insert id w' } } where
  accounted := by
    show memory.cache.totalCached = KeyedMap.total CachedWeight.bytes
      (memory.cache.entries.insert id w')
    rw [KeyedMap.total_insert, h.accounted, ← bytes_add_erase hw, Nat.add_comm]
    unfold CachedWeight.bytes
    rw [hbuf]
  within := h.within
  recent := hrecent
  owned := by
    refine (h.owned.trans (owned_perm_of_lookup hw)).trans ?_
    unfold GpuWeightCache.owned
    dsimp only
    rw [KeyedMap.values_insert, List.map_cons, hbuf]
    exact List.perm_middle.symm
  fresh := h.fresh

theorem touch_ends {w : CachedWeight} (h : memory.Sound uses)
    (hw : memory.cache.entries.lookup id = some w) :
    InPlace.Ends (touch id w) memory
      (fun () left => left.Sound (id :: uses) ∧ left.cache.budget = memory.cache.budget ∧
        SameResidents memory left)
      (fun fault _ => ¬ fault.Reported) := by
  unfold InPlace.Ends touch
  split_ifs with htick
  · refine ⟨h.replace hw rfl (recent_insert h.recent rfl), rfl, ?_⟩
    intro other
    show ((memory.cache.entries.insert id _).lookup other).map _ = _
    by_cases hid : other = id
    · rw [hid, AList.lookup_insert, hw]
      rfl
    · rw [AList.lookup_insert_ne hid]
  · exact fun h => h

theorem indexed_ends (id : WeightId) (memory : WeightMemory) :
    InPlace.Ends (indexed id) memory
      (fun _ left => left = memory)
      (fun fault _ => ¬ fault.Reported) := by
  apply InPlace.ends_reading
  · intro _ _
    rfl
  · intro fault hfault
    cases hbuf : memory.get id with
    | some buf =>
      rw [hbuf] at hfault
      cases hfault
    | none =>
      rw [hbuf] at hfault
      cases hfault
      exact fun h => h

/-- The state in which a weight is asked for decides whether a buffer is wasted. -/
def WastesOn (memory : WeightMemory) : WeightCall -> Prop
  | .getOrUpload id rawBytes rows cols quant mode outcomes =>
    memory.cache.entries.lookup id = none ∧
      exists size,
        uploadSize rawBytes rows cols quant (effectiveUploadMode mode quant rows cols) =
          .ok size ∧
        memory.Wastes size outcomes (effectiveUploadMode mode quant rows cols)
  | _ => False

theorem upload_panics (id : WeightId) (memory : WeightMemory) (outcomes : DeviceOutcomes)
    {fault : Fault}
    (hsize : uploadSize rawBytes rows cols quant (effectiveUploadMode mode quant rows cols) =
      .error fault) :
    upload id rawBytes rows cols quant outcomes (effectiveUploadMode mode quant rows cols)
      memory = (memory, .error fault) ∧ ¬ fault.Reported := by
  cases hmode : effectiveUploadMode mode quant rows cols with
  | soa =>
    rw [hmode] at hsize
    have hread : InPlace.reading (fun _ => repackedSize quant rawBytes rows cols) memory =
        (memory, .error fault) := InPlace.reading_of_eq hsize
    exact ⟨InPlace.bind_of_error hread,
      repackedSize_not_reported (hasSoaKernel_of_effectiveUploadMode hmode) hsize⟩
  | rowMajor =>
    rw [hmode] at hsize
    cases hsize
  | raw32 =>
    rw [hmode] at hsize
    cases hsize

theorem getOrUpload_ends (h : memory.Sound uses) :
    InPlace.Ends (getOrUpload id rawBytes rows cols quant mode outcomes) memory
      (fun _ left => (left.Sound (id :: uses) ∧ ServesFrom uses id
        (uploadSize rawBytes rows cols quant (effectiveUploadMode mode quant rows cols))
        memory left) ∧
        ¬ memory.WastesOn (.getOrUpload id rawBytes rows cols quant mode outcomes))
      (fun fault left => fault.Reported ->
        ((left.Sound uses ∧ ServesFrom uses id
          (uploadSize rawBytes rows cols quant (effectiveUploadMode mode quant rows cols))
          memory left) ∧
          ¬ memory.WastesOn (.getOrUpload id rawBytes rows cols quant mode outcomes)) ∨
        ((exists buf, buf ∈ left.ctx.buffers ∧ buf ∉ left.cache.owned) ∧
          memory.WastesOn (.getOrUpload id rawBytes rows cols quant mode outcomes))) := by
  unfold InPlace.Ends getOrUpload
  cases hcached : memory.cache.entries.lookup id with
  | some w =>
    have hnot : ¬ memory.WastesOn
        (.getOrUpload id rawBytes rows cols quant mode outcomes) :=
      fun hwastes => Option.some_ne_none w (hcached.symm.trans hwastes.1)
    refine InPlace.ends_bind ((touch_ends h hcached).imp (fun _ _ h => h)
      (fun _ _ hpanicked hreported => absurd hreported hpanicked)) ?_
    rintro done left ⟨hsound, hsame⟩
    refine (indexed_ends id left).imp ?_ (fun _ _ hpanicked hreported => absurd hreported hpanicked)
    intro buf left' hleft
    rw [hleft]
    refine ⟨⟨hsound, ?_⟩, hnot⟩
    unfold ServesFrom
    rw [hcached]
    exact hsame
  | none =>
    cases hsize : uploadSize rawBytes rows cols quant
        (effectiveUploadMode mode quant rows cols) with
    | ok size =>
      have hiff : memory.WastesOn (.getOrUpload id rawBytes rows cols quant mode outcomes) ↔
          memory.Wastes size outcomes (effectiveUploadMode mode quant rows cols) := by
        constructor
        · rintro ⟨_, found, hfound, hmode⟩
          cases hsize.symm.trans hfound
          exact hmode
        · exact fun hmode => ⟨hcached, size, hsize, hmode⟩
      rw [hiff]
      refine InPlace.ends_bind ((upload_ends h hcached hsize).imp (fun _ _ h => h) ?_) ?_
      · intro fault left hleft hreported
        cases hleft hreported with
        | inl hkept =>
          exact Or.inl ⟨⟨hkept.1.sound,
            servesFrom_of_evicted hcached rfl (by rw [hkept.1.rest]) hkept.1.evicted
              (fun _ _ => rfl)⟩, hkept.2⟩
        | inr hlost => exact Or.inr ⟨hlost.1.unowned, hlost.2⟩
      · rintro done left ⟨hstored, hkept⟩
        refine (indexed_ends id left).imp ?_
          (fun _ _ hpanicked hreported => absurd hreported hpanicked)
        intro buf left' hleft
        rw [hleft]
        exact ⟨⟨hstored.1, hstored.servesFrom hcached rfl⟩, hkept⟩
    | error fault =>
      rcases upload_panics id memory outcomes hsize with ⟨hupload, hpanics⟩
      exact InPlace.ends_of_eq (InPlace.bind_of_error hupload) (fun _ hok => by cases hok)
        (fun other hother hreported => by
          cases hother
          exact absurd hreported hpanics)

theorem pin_ends (h : memory.Sound uses) (id : WeightId) :
    InPlace.Ends (pin id) memory
      (fun () left => left.Sound uses ∧ left.cache.budget = memory.cache.budget ∧
        forall other, left.cache.entries.lookup other =
          (memory.cache.entries.lookup other).map
            (fun w => if other = id then { w with pinned := true } else w))
      (fun _ left => left = memory) := by
  unfold InPlace.Ends pin
  cases hw : memory.cache.entries.lookup id with
  | none => rfl
  | some w =>
    have hlookup : forall other,
        (memory.cache.entries.insert id { w with pinned := true }).lookup other =
          (memory.cache.entries.lookup other).map
            (fun w => if other = id then { w with pinned := true } else w) := by
      intro other
      by_cases hid : other = id
      · rw [hid, AList.lookup_insert, hw]
        simp
      · rw [AList.lookup_insert_ne hid]
        simp [hid]
    refine ⟨h.replace hw rfl ?_, rfl, hlookup⟩
    intro other found hfound
    rw [hlookup other, Option.map_eq_some_iff] at hfound
    rcases hfound with ⟨w', hw', hfound⟩
    rw [← hfound, ← h.recent other w' hw']
    split <;> rfl

theorem Sound.evictAll
    {gone : List (Sigma fun _ : WeightId => CachedWeight)} (h : memory.Sound uses)
    (hgone : (gone.map Sigma.fst).Nodup) (hcached : forall entry, entry ∈ gone ->
      memory.cache.entries.lookup entry.1 = some entry.2) :
    let left := gone.foldl (fun memory entry => memory.evict entry.1 entry.2) memory
    left.Sound uses ∧ left.cache.budget = memory.cache.budget ∧
      forall id, left.cache.entries.lookup id =
        if id ∈ gone.map Sigma.fst then none else memory.cache.entries.lookup id := by
  induction gone generalizing memory with
  | nil => exact ⟨h, rfl, fun id => (if_neg List.not_mem_nil).symm⟩
  | cons entry gone ih =>
    rw [List.map_cons, List.nodup_cons] at hgone
    have hfirst := hcached entry List.mem_cons_self
    rcases ih (h.evict hfirst) hgone.2 (by
      intro other hother
      have hne : other.1 ≠ entry.1 := by
        intro hsame
        rw [← hsame] at hgone
        exact hgone.1 (List.mem_map_of_mem hother)
      show (memory.cache.entries.erase entry.1).lookup other.1 = some other.2
      rw [AList.lookup_erase_ne hne]
      exact hcached other (List.mem_cons_of_mem _ hother)) with ⟨hsound, hbudget, hlookup⟩
    refine ⟨hsound, hbudget, ?_⟩
    intro id
    rw [List.foldl_cons, hlookup id, List.map_cons]
    show (if _ then none else (memory.cache.entries.erase entry.1).lookup id) = _
    by_cases hid : id = entry.1
    · rw [hid, AList.lookup_erase, if_pos List.mem_cons_self]
      exact ite_self _
    · rw [AList.lookup_erase_ne hid]
      exact if_congr (by simp [hid]) rfl rfl

theorem reclaimUnpinned_ends (h : memory.Sound uses) :
    InPlace.Ends reclaimUnpinned memory
      (fun _ left => left.Sound uses ∧ left.cache.budget = memory.cache.budget ∧
        forall id, left.cache.entries.lookup id =
          (memory.cache.entries.lookup id).filter CachedWeight.pinned)
      (fun _ _ => False) := by
  have hlookup : forall entry,
      entry ∈ memory.cache.entries.entries.filter (fun entry => !entry.2.pinned) ↔
        memory.cache.entries.lookup entry.1 = some entry.2 ∧ entry.2.pinned = false := by
    intro entry
    rw [List.mem_filter, ← KeyedMap.mem_entries_iff]
    simp
  have hnodup : ((memory.cache.entries.entries.filter (fun entry => !entry.2.pinned)).map
      Sigma.fst).Nodup :=
    List.Nodup.sublist (List.filter_sublist.map Sigma.fst) memory.cache.entries.nodupKeys
  rcases h.evictAll hnodup (fun entry hentry => ((hlookup entry).mp hentry).1) with
    ⟨hsound, hbudget, hleft⟩
  refine ⟨hsound, hbudget, ?_⟩
  intro id
  refine (hleft id).trans ?_
  cases hw : memory.cache.entries.lookup id with
  | none => simp
  | some w =>
    cases hpinned : w.pinned with
    | false =>
      have hmem : id ∈ (memory.cache.entries.entries.filter
          (fun entry => !entry.2.pinned)).map Sigma.fst :=
        List.mem_map.mpr ⟨⟨id, w⟩, (hlookup ⟨id, w⟩).mpr ⟨hw, hpinned⟩, rfl⟩
      rw [if_pos hmem]
      exact (Option.filter_some_neg hpinned).symm
    | true =>
      have hnot : id ∉ (memory.cache.entries.entries.filter
          (fun entry => !entry.2.pinned)).map Sigma.fst := by
        intro hmem
        rcases List.mem_map.mp hmem with ⟨⟨other, w'⟩, hentry, hid⟩
        cases hid
        rcases (hlookup ⟨other, w'⟩).mp hentry with ⟨hw', hunpinned⟩
        cases hw.symm.trans hw'
        cases hpinned.symm.trans hunpinned
      rw [if_neg hnot]
      exact (Option.filter_some_pos hpinned).symm

theorem Sound.reserve {reserved : Nat} (h : memory.Sound uses)
    (hwithin : memory.cache.totalCached + reserved <= memory.cache.budget) :
    Sound uses { memory with
      cache := { memory.cache with externalReserved := reserved } } where
  accounted := h.accounted
  within := hwithin
  recent := h.recent
  owned := h.owned
  fresh := h.fresh

theorem reserveExternal_ends (h : memory.Sound uses) (bytes : Nat) :
    InPlace.Ends (reserveExternal bytes) memory
      (fun () left => left.Sound uses ∧ left.cache.budget = memory.cache.budget ∧
        left.cache.entries = memory.cache.entries)
      (fun _ left => left = memory) := by
  unfold InPlace.Ends reserveExternal
  split_ifs with hoverflow hover
  · rfl
  · rfl
  · refine ⟨h.reserve ?_, rfl, rfl⟩
    unfold taken at hover
    omega

theorem releaseExternal_ends (h : memory.Sound uses) (bytes : Nat) :
    InPlace.Ends (releaseExternal bytes) memory
      (fun () left => left.Sound uses ∧ left.cache.budget = memory.cache.budget ∧
        left.cache.entries = memory.cache.entries)
      (fun _ left => left = memory) := by
  have hwithin := h.within
  unfold InPlace.Ends releaseExternal
  split_ifs with hless
  · rfl
  · refine ⟨h.reserve ?_, rfl, rfl⟩
    omega

end WeightMemory

/-!
# Runs
-/

def usedBy (turn : WeightTurn) : Option WeightId :=
  match turn.call, turn.result with
  | .getOrUpload id _ _ _ _ _ _, .ok _ => some id
  | _, _ => none

def usesOf (earlier : List WeightTurn) : List WeightId :=
  earlier.filterMap usedBy

def Removes (uses : List WeightId) (memory left : WeightMemory) : WeightCall -> Prop
  | .getOrUpload id rawBytes rows cols quant mode _ =>
    WeightMemory.ServesFrom uses id
      (WeightMemory.uploadSize rawBytes rows cols quant
        (effectiveUploadMode mode quant rows cols)) memory left
  | .reclaimUnpinned => left.cache.budget = memory.cache.budget ∧
      forall id, left.cache.entries.lookup id =
        (memory.cache.entries.lookup id).filter CachedWeight.pinned
  | _ => left.cache.budget = memory.cache.budget ∧
      forall id, (left.cache.entries.lookup id).map CachedWeight.buf =
        (memory.cache.entries.lookup id).map CachedWeight.buf

structure Upholds (budget : Nat) (earlier : List WeightTurn) (turn : WeightTurn) : Prop where
  accounted : turn.after.cache.totalCached =
    turn.after.cache.entries.total CachedWeight.bytes
  within : turn.after.cache.totalCached + turn.after.cache.externalReserved <= budget
  resident : forall id w, turn.before.cache.entries.lookup id = some w -> w.pinned = true ->
    exists w', turn.after.cache.entries.lookup id = some w' ∧ w'.pinned = true ∧ w'.buf = w.buf
  removes : Removes (usesOf earlier) turn.before turn.after turn.call
  owned : forall buf, buf ∈ turn.after.ctx.buffers -> buf ∈ turn.after.cache.owned

/-- The turn does not leave a buffer behind that it could not fill. -/
def WastesNothing (_ : List WeightTurn) (turn : WeightTurn) : Prop :=
  ¬ turn.before.WastesOn turn.call

namespace WeightMemory

variable {uses : List WeightId} {memory left : WeightMemory}

theorem ServesFrom.resident {id : WeightId} {size : Checked Nat}
    (h : ServesFrom uses id size memory left) {other : WeightId} {w : CachedWeight}
    (hw : memory.cache.entries.lookup other = some w) (hpinned : w.pinned = true) :
    exists w', left.cache.entries.lookup other = some w' ∧ w'.pinned = true ∧
      w'.buf = w.buf := by
  have hserves := h.2
  cases hid : memory.cache.entries.lookup id with
  | some _ =>
    rw [hid] at hserves
    have hsame := hserves other
    rw [hw, Option.map_some, Option.map_eq_some_iff] at hsame
    rcases hsame with ⟨w', hw', hpair⟩
    exact ⟨w', hw', (congrArg Prod.snd hpair).trans hpinned, congrArg Prod.fst hpair⟩
  | none =>
    rw [hid] at hserves
    rcases hserves with ⟨bytes, remaining, _, hevicted, hleft⟩
    have hne : other ≠ id := by
      intro hsame
      rw [hsame, hid] at hw
      cases hw
    exact ⟨w, (hleft other hne).trans (hevicted.lookup_of_pinned hw hpinned), hpinned, rfl⟩

end WeightMemory

structure Keeps (uses : List WeightId) (memory left : WeightMemory) (call : WeightCall) :
    Prop where
  budget : left.cache.budget = memory.cache.budget
  resident : forall id w, memory.cache.entries.lookup id = some w -> w.pinned = true ->
    exists w', left.cache.entries.lookup id = some w' ∧ w'.pinned = true ∧ w'.buf = w.buf
  removes : Removes uses memory left call

theorem keeps_of_entries_eq {uses : List WeightId} {memory left : WeightMemory} {call : WeightCall}
    (hbudget : left.cache.budget = memory.cache.budget)
    (hentries : left.cache.entries = memory.cache.entries)
    (hremoves : Removes uses memory left call) :
    Keeps uses memory left call where
  budget := hbudget
  resident := fun id w hw hpinned => by
    rw [hentries]
    exact ⟨w, hw, hpinned, rfl⟩
  removes := hremoves

namespace WeightCall

def usesAfter (uses : List WeightId) : WeightCall -> List WeightId
  | .getOrUpload id _ _ _ _ _ _ => id :: uses
  | _ => uses

variable {memory : WeightMemory}

theorem ends_without_upload {alpha : Type} {call : InPlace Fault WeightMemory alpha}
    {answer : alpha -> WeightAnswer} {c : WeightCall} {uses : List WeightId}
    (hwastes : ¬ memory.WastesOn c) (h : InPlace.Ends call memory
      (fun _ left => left.Sound (c.usesAfter uses) ∧ Keeps uses memory left c)
      (fun _ left => left.Sound uses ∧ Keeps uses memory left c)) :
    InPlace.Ends (call >>= fun x => pure (answer x)) memory
      (fun _ left => (left.Sound (c.usesAfter uses) ∧ Keeps uses memory left c) ∧
        ¬ memory.WastesOn c)
      (fun fault left => fault.Reported ->
        ((left.Sound uses ∧ Keeps uses memory left c) ∧ ¬ memory.WastesOn c) ∨
        ((exists buf, buf ∈ left.ctx.buffers ∧ buf ∉ left.cache.owned) ∧
          memory.WastesOn c)) := by
  refine InPlace.ends_bind (h.imp (fun _ _ h => h) ?_) ?_
  · exact fun fault left hleft _ => Or.inl ⟨hleft, hwastes⟩
  · exact fun x left hleft => InPlace.ends_pure ⟨hleft, hwastes⟩

theorem make_ends {uses : List WeightId} (h : memory.Sound uses) (c : WeightCall) :
    InPlace.Ends c.make memory
      (fun _ left => (left.Sound (c.usesAfter uses) ∧ Keeps uses memory left c) ∧
        ¬ memory.WastesOn c)
      (fun fault left => fault.Reported ->
        ((left.Sound uses ∧ Keeps uses memory left c) ∧ ¬ memory.WastesOn c) ∨
        ((exists buf, buf ∈ left.ctx.buffers ∧ buf ∉ left.cache.owned) ∧
          memory.WastesOn c)) := by
  cases c with
  | getOrUpload id rawBytes rows cols quant mode outcomes =>
    refine InPlace.ends_bind ((WeightMemory.getOrUpload_ends h).imp (fun _ _ h => h) ?_) ?_
    · intro fault left hleft hreported
      rcases hleft hreported with ⟨⟨hsound, hserves⟩, hkept⟩ | hlost
      · exact Or.inl ⟨⟨hsound, ⟨hserves.1, fun _ _ => hserves.resident, hserves⟩⟩, hkept⟩
      · exact Or.inr hlost
    · rintro buf left ⟨⟨hsound, hserves⟩, hkept⟩
      exact InPlace.ends_pure ⟨⟨hsound, ⟨hserves.1, fun _ _ => hserves.resident, hserves⟩⟩, hkept⟩
  | pin id =>
    refine ends_without_upload (fun h => h) ((WeightMemory.pin_ends h id).imp ?_ ?_)
    · rintro done left ⟨hsound, hbudget, hlookup⟩
      refine ⟨hsound, hbudget, ?_, hbudget, ?_⟩
      · intro other w hw hpinned
        rw [hlookup other, hw]
        refine ⟨_, rfl, ?_, ?_⟩
        · split
          · rfl
          · exact hpinned
        · split <;> rfl
      · intro other
        rw [hlookup other, Option.map_map]
        congr 1
        funext w
        show (if other = id then _ else w).buf = w.buf
        split <;> rfl
    · intro fault left hleft
      rw [hleft]
      exact ⟨h, keeps_of_entries_eq rfl rfl ⟨rfl, fun _ => rfl⟩⟩
  | reclaimUnpinned =>
    refine ends_without_upload (fun h => h) ((WeightMemory.reclaimUnpinned_ends h).imp ?_ ?_)
    · rintro available left ⟨hsound, hbudget, hlookup⟩
      refine ⟨hsound, hbudget, ?_, hbudget, hlookup⟩
      intro other w hw hpinned
      refine ⟨w, ?_, hpinned, rfl⟩
      rw [hlookup other, hw]
      exact Option.filter_some_pos hpinned
    · exact fun fault left hleft => hleft.elim
  | reserveExternal bytes =>
    refine ends_without_upload (fun h => h) ((WeightMemory.reserveExternal_ends h bytes).imp ?_ ?_)
    · rintro done left ⟨hsound, hbudget, hentries⟩
      exact ⟨hsound, keeps_of_entries_eq hbudget hentries
        ⟨hbudget, fun other => by rw [hentries]⟩⟩
    · intro fault left hleft
      rw [hleft]
      exact ⟨h, keeps_of_entries_eq rfl rfl ⟨rfl, fun _ => rfl⟩⟩
  | releaseExternal bytes =>
    refine ends_without_upload (fun h => h) ((WeightMemory.releaseExternal_ends h bytes).imp ?_ ?_)
    · rintro done left ⟨hsound, hbudget, hentries⟩
      exact ⟨hsound, keeps_of_entries_eq hbudget hentries
        ⟨hbudget, fun other => by rw [hentries]⟩⟩
    · intro fault left hleft
      rw [hleft]
      exact ⟨h, keeps_of_entries_eq rfl rfl ⟨rfl, fun _ => rfl⟩⟩

theorem make_keeps_or_wastes {earlier : List WeightTurn} (h : memory.Sound (usesOf earlier))
    (c : WeightCall) (hreturned : panics (c.make memory).2 = false) :
    let turn : WeightTurn := ⟨memory, c, (c.make memory).2, (c.make memory).1⟩
    (turn.after.Sound (usesOf (turn :: earlier)) ∧
        Keeps (usesOf earlier) memory turn.after c ∧ ¬ memory.WastesOn c) ∨
      ((exists buf, buf ∈ turn.after.ctx.buffers ∧ buf ∉ turn.after.cache.owned) ∧
        memory.WastesOn c) := by
  have hends := make_ends h c
  cases hmake : c.make memory with
  | mk left result =>
    rw [hmake] at hreturned
    cases result with
    | ok answer =>
      rcases hends.of_ok hmake with ⟨⟨hsound, hkeeps⟩, hkept⟩
      refine Or.inl ⟨?_, hkeeps, hkept⟩
      cases c <;> exact hsound
    | error fault =>
      have hreported : fault.Reported := by
        cases fault with
        | reported message => trivial
        | panicked message => cases hreturned
      rcases hends.of_error hmake hreported with ⟨⟨hsound, hkeeps⟩, hkept⟩ | hlost
      · refine Or.inl ⟨?_, hkeeps, hkept⟩
        cases c <;> exact hsound
      · exact Or.inr hlost

end WeightCall

/-- A run keeps the accounts, the budget, the pinned weights, the order of eviction and the
ownership of every buffer at every turn exactly when no upload creates a buffer and then
fails to fill it. -/
theorem run_upholds_iff (budget : Nat) (calls : List WeightCall) :
    EveryTurn (Upholds budget) [] (turns WeightCall.make (WeightMemory.new budget) calls) ↔
      EveryTurn WastesNothing [] (turns WeightCall.make (WeightMemory.new budget) calls) := by
  refine everyTurn_turns_iff
    (fun earlier memory => memory.Sound (usesOf earlier) ∧ memory.cache.budget = budget)
    ?_ ?_ ⟨WeightMemory.new_sound budget, rfl⟩ calls
  · rintro earlier memory c ⟨hsound, hbudget⟩ hreturned
    rcases WeightCall.make_keeps_or_wastes hsound c hreturned with
      ⟨hleft, hkeeps, hnothing⟩ | ⟨⟨buf, hbuf, hunowned⟩, hwastes⟩
    · refine ⟨fun _ => hnothing, fun _ => ?_⟩
      exact
        { accounted := hleft.accounted
          within := by
            rw [← hbudget, ← hkeeps.budget]
            exact hleft.within
          resident := hkeeps.resident
          removes := hkeeps.removes
          owned := fun buf hbuf => hleft.owned.mem_iff.mp hbuf }
    · exact ⟨fun hupholds => absurd (hupholds.owned buf hbuf) hunowned,
        fun hnothing => absurd hwastes hnothing⟩
  · rintro earlier memory c ⟨hsound, hbudget⟩ hreturned hnothing
    rcases WeightCall.make_keeps_or_wastes hsound c hreturned with
      ⟨hleft, hkeeps, _⟩ | ⟨_, hwastes⟩
    · exact ⟨hleft, hkeeps.budget.trans hbudget⟩
    · exact absurd hwastes hnothing

/-- The upload of a norm weight whose buffer is created and cannot be mapped. -/
def unmappableUpload : WeightCall :=
  .getOrUpload { layer := 0, kind := .attnNorm } [0, 0, 128, 63] 1 1 .f32 .raw32
    { staging := .ok ()
      stagingUpload := .ok ()
      device := .ok ()
      copy := .ok ()
      host := .ok ()
      hostUpload := .error "vkMapMemory failed: -5" }

theorem run_loses_buffer :
    ¬ EveryTurn (Upholds 16) []
      (turns WeightCall.make (WeightMemory.new 16) [unmappableUpload]) := by
  intro h
  have hturns : turns WeightCall.make (WeightMemory.new 16) [unmappableUpload] =
      [{ before := WeightMemory.new 16
         call := unmappableUpload
         result := report "vkMapMemory failed: -5"
         after := { WeightMemory.new 16 with
           ctx := (WeightMemory.new 16).ctx.grown 4 } }] := rfl
  rw [hturns] at h
  cases h.1.owned _ List.mem_cons_self

end Vulkan
end RunNBurn
