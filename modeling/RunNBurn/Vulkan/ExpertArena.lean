import Mathlib.Data.List.Dedup
import RunNBurn.Memory.ByteLruInvariants

/-!
# The expert arena

Experts are resident in slots of one buffer.  A batch is planned on a copy of the slot
map, and the copy takes the map's place once the batch has been submitted.
-/

namespace RunNBurn
namespace Vulkan

open Library
open Memory

/-- The stride of a slot in 32-bit words; no matrix of an expert is empty. -/
structure ExpertArenaLayout where
  slotStrideWords : Nat
  positive : 0 < slotStrideWords
  fits : slotStrideWords < 2 ^ 32

namespace ExpertArenaLayout

def slotStrideBytes (layout : ExpertArenaLayout) : Nat :=
  layout.slotStrideWords * 4

/-- The slots that a buffer can have; an arena is created with these or with fewer. -/
def maxSlotCount (layout : ExpertArenaLayout) (availableBytes descriptorBytes : Nat) : Nat :=
  min (min availableBytes ((2 ^ 32 - 1) * 4)) descriptorBytes / layout.slotStrideBytes

end ExpertArenaLayout

/-- `free_slots` is a stack that grows at its end. -/
structure ExpertSlotMap (key : Type) where
  policy : ByteLruPolicy key
  slots : KeyedMap key Nat
  freeSlots : List Nat
  slotBytes : Nat

/-- What a batch is planned to be: the slot of every bundle, and whether it was a hit. -/
abbrev Assignments : Type := List (Nat × Bool)

namespace ExpertSlotMap

variable {key : Type}

def new (slotCount slotBytes : Nat) : ExpertSlotMap key where
  policy := ByteLruPolicy.new (slotCount * slotBytes)
  slots := ∅
  freeSlots := (List.range slotCount).reverse
  slotBytes := slotBytes

variable [LinearOrder key]

/-- Count the touch of a resident key, which must not evict. -/
def touchHit (map : ExpertSlotMap key) (k : key) (complaint : String) :
    Except String (ExpertSlotMap key) :=
  match map.policy.touch k map.slotBytes with
  | ([], policy) => .ok { map with policy := policy }
  | (_ :: _, _) => .error complaint

def touchBatch : (map : ExpertSlotMap key) -> List key -> Except String (ExpertSlotMap key)
  | map, [] => .ok map
  | map, k :: keys =>
    match map.slots.lookup k with
    | none => touchBatch map keys
    | some _ =>
      match map.touchHit k "expert arena evicted a protected batch key while touching hits" with
      | .error complaint => .error complaint
      | .ok touched => touchBatch touched keys

def getOrAssign (map : ExpertSlotMap key) (k : key) :
    Except String ((Nat × Bool) × ExpertSlotMap key) :=
  match map.slots.lookup k with
  | some slot =>
    match map.touchHit k "expert arena hit unexpectedly caused eviction" with
    | .error complaint => .error complaint
    | .ok touched => .ok ((slot, true), touched)
  | none =>
    match map.policy.touch k map.slotBytes with
    | (oldKey :: _, policy) =>
      match map.slots.lookup oldKey with
      | none => .error "expert arena LRU returned an unknown key"
      | some slot =>
        .ok ((slot, false), { map with
          policy := policy
          slots := (map.slots.erase oldKey).insert k slot })
    | ([], policy) =>
      match map.freeSlots.getLast? with
      | none => .error "expert arena has no free or evictable slot"
      | some slot =>
        .ok ((slot, false), { map with
          policy := policy
          slots := map.slots.insert k slot
          freeSlots := map.freeSlots.dropLast })

def assignAll : (map : ExpertSlotMap key) -> List key ->
    Except String (Assignments × ExpertSlotMap key)
  | map, [] => .ok ([], map)
  | map, k :: keys =>
    match map.getOrAssign k with
    | .error complaint => .error complaint
    | .ok (assignment, assigned) =>
      match assignAll assigned keys with
      | .error complaint => .error complaint
      | .ok (assignments, final) => .ok (assignment :: assignments, final)

/-- The plan of a batch: hits are touched before any slot is assigned. -/
def plan (map : ExpertSlotMap key) (keys : List key) :
    Except String (Assignments × ExpertSlotMap key) :=
  match map.touchBatch keys with
  | .error complaint => .error complaint
  | .ok touched => touched.assignAll keys

end ExpertSlotMap

/-- The slots, and the slots of the batch that has been prepared and not committed. -/
structure ExpertArena (key : Type) where
  slotCount : Nat
  slots : ExpertSlotMap key
  pending : Option (ExpertSlotMap key)

namespace ExpertArena

variable {key : Type}

def new (slotCount slotBytes : Nat) : ExpertArena key where
  slotCount := slotCount
  slots := ExpertSlotMap.new slotCount slotBytes
  pending := none

variable [LinearOrder key]

/-- `stage` checks, repacks and copies the bundles of a plan into the staging buffer; the
bundles are told by their keys. -/
def prepareBatch (stage : List key -> Assignments -> Except String Unit)
    (arena : ExpertArena key) (keys : List key) : Except String (List Nat) × ExpertArena key :=
  let dropped := { arena with pending := none }
  if keys.length > arena.slotCount then
    (.error s!"expert arena batch has {keys.length} unique experts but only {arena.slotCount} descriptor-safe slots",
      dropped)
  else if keys.dedup.length ≠ keys.length then
    (.error "expert arena batch contains duplicate expert keys", dropped)
  else
    match arena.slots.plan keys with
    | .error complaint => (.error complaint, dropped)
    | .ok (assignments, proposed) =>
      match stage keys assignments with
      | .error complaint => (.error complaint, dropped)
      | .ok () => (.ok (assignments.map Prod.fst), { arena with pending := some proposed })

def commitPendingBatch (arena : ExpertArena key) : Except String Unit × ExpertArena key :=
  match arena.pending with
  | none => (.error "expert arena has no submitted batch to commit", arena)
  | some proposed => (.ok (), { arena with slots := proposed, pending := none })

end ExpertArena

inductive ArenaOp (key : Type) where
  | prepare (stage : List key -> Assignments -> Except String Unit) (keys : List key)
  | commit

namespace ArenaOp

variable {key : Type} [LinearOrder key]

def call (arena : ExpertArena key) : ArenaOp key -> ExpertArena key
  | .prepare stage keys => (arena.prepareBatch stage keys).2
  | .commit => arena.commitPendingBatch.2

def run (arena : ExpertArena key) (ops : List (ArenaOp key)) : ExpertArena key :=
  ops.foldl call arena

def touches : ArenaOp key -> Nat
  | .prepare _ keys => 2 * keys.length
  | .commit => 0

end ArenaOp

/-!
# Runs of the expert arena

The slot table, the free list and the policy describe one residency.  A batch keeps
its own keys: they are the newest ones, and there are not more of them than slots.
-/

variable {key : Type} [LinearOrder key]

namespace ExpertSlotMap

/-!
# What the three structures agree on
-/

/-- The policy records a slot's bytes under each resident key, and free and used slots
are all the slots. -/
structure Sound (slotCount : Nat) (map : ExpertSlotMap key) : Prop where
  policy : map.policy.Sound
  ahead : map.policy.ClockAhead
  resident : map.policy.residentBytes = map.policy.totalBytes
  maxBytes : map.policy.maxBytes = slotCount * map.slotBytes
  recorded : forall k, map.policy.recorded k = (map.slots.lookup k).map fun _ => map.slotBytes
  partition : (map.freeSlots ++ map.slots.values).Perm (List.range slotCount)

theorem new_sound (slotCount slotBytes : Nat) :
    (new slotCount slotBytes : ExpertSlotMap key).Sound slotCount where
  policy := ByteLruPolicy.new_sound _
  ahead := by
    intro k entry hentry
    cases hentry
  resident := rfl
  maxBytes := rfl
  recorded := fun _ => rfl
  partition := by
    show ((List.range slotCount).reverse ++ []).Perm _
    rw [List.append_nil]
    exact List.reverse_perm _

variable {map : ExpertSlotMap key} {slotCount : Nat}

theorem Sound.total (h : map.Sound slotCount) :
    map.policy.totalBytes = map.slots.values.length * map.slotBytes := by
  rw [← KeyedMap.total_const]
  exact KeyedMap.total_eq_of_weights h.recorded

theorem Sound.count (h : map.Sound slotCount) :
    map.freeSlots.length + map.slots.values.length = slotCount := by
  have hlength := h.partition.length_eq
  rw [List.length_append, List.length_range] at hlength
  exact hlength

theorem Sound.lookup_none_iff (h : map.Sound slotCount) (k : key) :
    map.policy.entries.lookup k = none ↔ map.slots.lookup k = none := by
  have hk := h.recorded k
  unfold ByteLruPolicy.recorded at hk
  rw [← Option.map_eq_none_iff (f := ByteLruEntry.bytes), hk, Option.map_eq_none_iff]

theorem Sound.weightAt_le (h : map.Sound slotCount) (k : key) :
    map.policy.entries.weightAt ByteLruEntry.bytes k <= map.slotBytes := by
  have hk := h.recorded k
  unfold ByteLruPolicy.recorded at hk
  unfold KeyedMap.weightAt
  rw [hk]
  cases map.slots.lookup k with
  | none => exact Nat.zero_le _
  | some slot => exact Nat.le_refl _

/-!
# One touch
-/

variable {k : key}

theorem Sound.touch_hit {slot : Nat} (h : map.Sound slotCount)
    (hclock : map.policy.clock + 1 < usizeLimit) (hk : map.slots.lookup k = some slot) :
    map.policy.touch k map.slotBytes = ([], map.policy.account k map.slotBytes) ∧
      Sound slotCount { map with policy := map.policy.account k map.slotBytes } := by
  have hrecorded : map.policy.recorded k = some map.slotBytes := by
    rw [h.recorded, hk]
    rfl
  have htotal := ByteLruPolicy.totalBytes_account_same hrecorded
  have hresident := ByteLruPolicy.resident_account_same h.policy h.resident hrecorded
  have hcount := h.count
  constructor
  · apply ByteLruPolicy.touch_of_fits
    rw [hresident, h.resident, h.total, h.maxBytes]
    exact Nat.mul_le_mul_right _ (by omega)
  · constructor
    · exact ByteLruPolicy.account_sound h.policy k map.slotBytes
    · exact ByteLruPolicy.account_clockAhead h.ahead hclock k map.slotBytes
    · exact hresident.trans (h.resident.trans htotal.symm)
    · exact h.maxBytes
    · intro other
      show (map.policy.account k map.slotBytes).recorded other = _
      rw [ByteLruPolicy.recorded_account]
      by_cases hother : other = k
      · rw [hother, Function.update_self]
        dsimp only
        rw [hk]
        rfl
      · rw [Function.update_of_ne hother]
        exact h.recorded other
    · exact h.partition

theorem Sound.account_miss (h : map.Sound slotCount)
    (hroom : (slotCount + 1) * map.slotBytes <= u64Max) (hk : map.slots.lookup k = none) :
    (map.policy.account k map.slotBytes).residentBytes =
        (map.slots.values.length + 1) * map.slotBytes ∧
      (map.policy.account k map.slotBytes).residentBytes =
        (map.policy.account k map.slotBytes).totalBytes := by
  have hcount := h.count
  have htotal : (map.policy.account k map.slotBytes).totalBytes =
      (map.slots.values.length + 1) * map.slotBytes := by
    rw [ByteLruPolicy.totalBytes_account_of_missing ((h.lookup_none_iff k).mpr hk), h.total]
    rw [Nat.succ_mul, Nat.add_comm]
  have hresident : (map.policy.account k map.slotBytes).residentBytes =
      (map.policy.account k map.slotBytes).totalBytes := by
    apply ByteLruPolicy.resident_account_eq h.resident
    rw [htotal]
    exact Nat.le_trans (Nat.mul_le_mul_right _ (by omega)) hroom
  exact ⟨hresident.trans htotal, hresident⟩

/-!
# One assignment
-/

/-- What the assignment of a slot to a key leaves, where some keys must be kept. -/
structure Assigned (slotCount : Nat) (map : ExpertSlotMap key) (kept : List key) (k : key)
    (assignment : Nat × Bool) (assigned : ExpertSlotMap key) : Prop where
  sound : assigned.Sound slotCount
  newest : ByteLruPolicy.Newest (k :: kept) assigned.policy
  clock : assigned.policy.clock = map.policy.clock + 1
  slotBytes : assigned.slotBytes = map.slotBytes
  given : assigned.slots.lookup k = some assignment.1
  hit : assignment.2 = (map.slots.lookup k).isSome
  same : forall slot, map.slots.lookup k = some slot -> assignment.1 = slot
  keeps : forall other, other ∈ kept -> other ≠ k ->
    assigned.slots.lookup other = map.slots.lookup other
  absent : forall other, other ≠ k -> map.slots.lookup other = none ->
    assigned.slots.lookup other = none

variable {kept : List key}

theorem Sound.assign_hit {slot : Nat} (h : map.Sound slotCount)
    (hnewest : ByteLruPolicy.Newest kept map.policy) (hclock : map.policy.clock + 1 < usizeLimit)
    (hk : map.slots.lookup k = some slot) :
    exists assigned, map.getOrAssign k = .ok ((slot, true), assigned) ∧
      Assigned slotCount map kept k (slot, true) assigned := by
  rcases h.touch_hit hclock hk with ⟨htouch, hsound⟩
  refine ⟨_, ?_, hsound, ByteLruPolicy.account_newest h.ahead hclock hnewest k map.slotBytes,
    ByteLruPolicy.account_clock hclock k map.slotBytes, rfl, hk, ?_, ?_, ?_, ?_⟩
  · unfold getOrAssign touchHit
    rw [hk, htouch]
  · rw [hk]
    rfl
  · intro other hother
    exact Option.some.inj (hk.symm.trans hother)
  · intro other _ _
    rfl
  · intro other _ hother
    exact hother

theorem Sound.assign_free (h : map.Sound slotCount)
    (hroom : (slotCount + 1) * map.slotBytes <= u64Max)
    (hnewest : ByteLruPolicy.Newest kept map.policy) (hclock : map.policy.clock + 1 < usizeLimit)
    (hk : map.slots.lookup k = none) (hfree : map.slots.values.length < slotCount) :
    exists slot assigned, map.getOrAssign k = .ok ((slot, false), assigned) ∧
      Assigned slotCount map kept k (slot, false) assigned := by
  have hcount := h.count
  rcases h.account_miss hroom hk with ⟨hresident, htotal⟩
  have htouch : map.policy.touch k map.slotBytes =
      ([], map.policy.account k map.slotBytes) := by
    apply ByteLruPolicy.touch_of_fits
    rw [hresident, h.maxBytes]
    exact Nat.mul_le_mul_right _ hfree
  cases hlast : map.freeSlots.getLast? with
  | none =>
    rw [List.getLast?_eq_none_iff.mp hlast, List.length_nil] at hcount
    omega
  | some slot =>
    have hsplit : map.freeSlots = map.freeSlots.dropLast ++ [slot] :=
      (List.dropLast_append_getLast? slot hlast).symm
    refine ⟨slot, { map with
        policy := map.policy.account k map.slotBytes
        slots := map.slots.insert k slot
        freeSlots := map.freeSlots.dropLast },
      ?_,
      ⟨ByteLruPolicy.account_sound h.policy k map.slotBytes,
        ByteLruPolicy.account_clockAhead h.ahead hclock k map.slotBytes, htotal, h.maxBytes, ?_,
        ?_⟩,
      ByteLruPolicy.account_newest h.ahead hclock hnewest k map.slotBytes,
      ByteLruPolicy.account_clock hclock k map.slotBytes, rfl, AList.lookup_insert _, ?_, ?_, ?_,
      ?_⟩
    · unfold getOrAssign
      rw [hk]
      dsimp only
      rw [htouch]
      dsimp only
      rw [hlast]
    · intro other
      show (map.policy.account k map.slotBytes).recorded other =
        ((map.slots.insert k slot).lookup other).map _
      rw [ByteLruPolicy.recorded_account]
      by_cases hother : other = k
      · rw [hother, Function.update_self, AList.lookup_insert]
        rfl
      · rw [Function.update_of_ne hother, AList.lookup_insert_ne hother]
        exact h.recorded other
    · show (map.freeSlots.dropLast ++ KeyedMap.values (map.slots.insert k slot)).Perm _
      rw [KeyedMap.values_insert_perm slot hk]
      have hpartition := h.partition
      rw [hsplit, List.append_assoc] at hpartition
      exact hpartition
    · rw [hk]
      rfl
    · intro other hother
      cases hk.symm.trans hother
    · intro other _ hne
      exact AList.lookup_insert_ne hne
    · intro other hne hother
      exact (AList.lookup_insert_ne hne).trans hother

section Eviction

variable {oldKey : key} {popped : ByteLruPolicy key}

/-- A newest key could only be popped with no other key left, and there are too many. -/
theorem Sound.popOldest_not_kept (h : map.Sound slotCount) (hpositive : 0 < map.slotBytes)
    (hroom : (slotCount + 1) * map.slotBytes <= u64Max)
    (hnewest : ByteLruPolicy.Newest kept map.policy) (hkept : kept.length < slotCount)
    (hclock : map.policy.clock + 1 < usizeLimit) (hk : map.slots.lookup k = none)
    (hfull : map.slots.values.length = slotCount)
    (hpop : (map.policy.account k map.slotBytes).popOldest = (some oldKey, popped)) :
    oldKey ∉ k :: kept := by
  rcases h.account_miss hroom hk with ⟨hresident, htotal⟩
  have hpops := ByteLruPolicy.popOldest_some
    (ByteLruPolicy.account_sound h.policy k map.slotBytes) hpop
  have hweights : forall other,
      (map.policy.account k map.slotBytes).entries.weightAt ByteLruEntry.bytes other <=
        map.slotBytes := by
    intro other
    by_cases hother : other = k
    · rw [hother, ByteLruPolicy.weightAt_of_lookup (ByteLruPolicy.lookup_account _ _ _)]
    · have hsame := h.weightAt_le other
      unfold KeyedMap.weightAt at hsame ⊢
      rw [ByteLruPolicy.lookup_account_ne _ _ hother]
      exact hsame
  intro hmem
  have honly : (map.policy.account k map.slotBytes).totalBytes <=
      ((k :: kept).map
        ((map.policy.account k map.slotBytes).entries.weightAt ByteLruEntry.bytes)).sum :=
    KeyedMap.total_le_of_keys (hpops.only_newest
      (ByteLruPolicy.account_newest h.ahead hclock hnewest k map.slotBytes) hmem)
  have hsum := List.sum_le_card_nsmul
    ((k :: kept).map ((map.policy.account k map.slotBytes).entries.weightAt ByteLruEntry.bytes))
    map.slotBytes (by
      intro weight hweight
      rcases List.mem_map.mp hweight with ⟨other, _, rfl⟩
      exact hweights other)
  rw [List.length_map, List.length_cons] at hsum
  rw [← htotal, hresident, hfull] at honly
  have hle : (slotCount + 1) * map.slotBytes <= (kept.length + 1) * map.slotBytes :=
    Nat.le_trans honly hsum
  have hslots := Nat.le_of_mul_le_mul_right hle hpositive
  omega

/-- One key makes room, and it has a slot. -/
theorem Sound.touch_evicting (h : map.Sound slotCount) (hpositive : 0 < map.slotBytes)
    (hroom : (slotCount + 1) * map.slotBytes <= u64Max) (hk : map.slots.lookup k = none)
    (hfull : map.slots.values.length = slotCount)
    (hpop : (map.policy.account k map.slotBytes).popOldest = (some oldKey, popped))
    (hne : oldKey ≠ k) :
    exists slot, map.slots.lookup oldKey = some slot ∧
      map.policy.touch k map.slotBytes = ([oldKey], popped) := by
  rcases h.account_miss hroom hk with ⟨hresident, _⟩
  have hpops := ByteLruPolicy.popOldest_some
    (ByteLruPolicy.account_sound h.policy k map.slotBytes) hpop
  rcases hpops.stored with ⟨entry, hentry, hpoppedResident, _, _⟩
  rw [ByteLruPolicy.lookup_account_ne _ _ hne] at hentry
  cases hslot : map.slots.lookup oldKey with
  | none =>
    rw [(h.lookup_none_iff oldKey).mpr hslot] at hentry
    cases hentry
  | some slot =>
    have hbytes : entry.bytes = map.slotBytes := by
      have hrecorded := h.recorded oldKey
      unfold ByteLruPolicy.recorded at hrecorded
      rw [hentry, hslot] at hrecorded
      exact Option.some.inj hrecorded
    have hfits : popped.residentBytes = slotCount * map.slotBytes := by
      rw [hpoppedResident, hresident, hbytes, hfull, Nat.succ_mul, Nat.add_sub_cancel]
    refine ⟨slot, rfl, ?_⟩
    apply ByteLruPolicy.touch_evicts_one ?_ hpop
    · rw [hfits, hpops.maxBytes]
      exact Nat.le_of_eq h.maxBytes.symm
    · rw [hresident, h.maxBytes, hfull]
      exact Nat.mul_lt_mul_of_pos_right (Nat.lt_succ_self _) hpositive

/-- The slot of the popped key goes to the new one. -/
theorem Sound.replace (h : map.Sound slotCount) (hroom : (slotCount + 1) * map.slotBytes <= u64Max)
    (hclock : map.policy.clock + 1 < usizeLimit) (hk : map.slots.lookup k = none)
    (hpop : (map.policy.account k map.slotBytes).popOldest = (some oldKey, popped))
    (hne : oldKey ≠ k) {slot : Nat} (hslot : map.slots.lookup oldKey = some slot) :
    ({ map with
      policy := popped
      slots := (map.slots.erase oldKey).insert k slot } : ExpertSlotMap key).Sound slotCount := by
  rcases h.account_miss hroom hk with ⟨_, htotal⟩
  have hpops := ByteLruPolicy.popOldest_some
    (ByteLruPolicy.account_sound h.policy k map.slotBytes) hpop
  have herased : (map.slots.erase oldKey).lookup k = none := by
    rw [AList.lookup_erase_ne hne.symm]
    exact hk
  refine ⟨hpops.sound, ?_, hpops.resident_eq htotal, hpops.maxBytes.trans h.maxBytes, ?_, ?_⟩
  · intro other kept hother
    show kept.lastTouch <= popped.clock
    rw [hpops.clock]
    have hgone : other ≠ oldKey := by
      rintro rfl
      cases hpops.removes.symm.trans hother
    exact ByteLruPolicy.account_clockAhead h.ahead hclock k map.slotBytes other kept
      ((hpops.keeps other hgone).symm.trans hother)
  · intro other
    show popped.recorded other = (((map.slots.erase oldKey).insert k slot).lookup other).map _
    rw [hpops.recorded, ByteLruPolicy.recorded_account]
    by_cases hother : other = k
    · rw [hother, Function.update_of_ne hne.symm, Function.update_self, AList.lookup_insert]
      rfl
    · rw [AList.lookup_insert_ne hother]
      by_cases hgone : other = oldKey
      · rw [hgone, Function.update_self, AList.lookup_erase]
        rfl
      · rw [Function.update_of_ne hgone, Function.update_of_ne hother, AList.lookup_erase_ne hgone]
        exact h.recorded other
  · show (map.freeSlots ++ KeyedMap.values ((map.slots.erase oldKey).insert k slot)).Perm _
    rw [KeyedMap.values_insert_perm slot herased]
    exact (List.Perm.append_left _ (KeyedMap.values_erase_perm hslot).symm).trans h.partition

/-- With all slots in use a key takes the slot of the least recently used key, which is
none of those that must be kept. -/
theorem Sound.assign_evicting (h : map.Sound slotCount) (hpositive : 0 < map.slotBytes)
    (hroom : (slotCount + 1) * map.slotBytes <= u64Max)
    (hnewest : ByteLruPolicy.Newest kept map.policy) (hkept : kept.length < slotCount)
    (hclock : map.policy.clock + 1 < usizeLimit) (hk : map.slots.lookup k = none)
    (hfull : map.slots.values.length = slotCount) :
    exists slot assigned, map.getOrAssign k = .ok ((slot, false), assigned) ∧
      Assigned slotCount map kept k (slot, false) assigned := by
  have haccounted := ByteLruPolicy.account_sound h.policy k map.slotBytes
  rcases hpop : (map.policy.account k map.slotBytes).popOldest with ⟨_ | oldKey, popped⟩
  · have hnone := (ByteLruPolicy.popOldest_none haccounted hpop).1 k
    rw [ByteLruPolicy.lookup_account] at hnone
    cases hnone
  have hpops := ByteLruPolicy.popOldest_some haccounted hpop
  have hold := h.popOldest_not_kept hpositive hroom hnewest hkept hclock hk hfull hpop
  have hne : oldKey ≠ k := List.ne_of_not_mem_cons hold
  rcases h.touch_evicting hpositive hroom hk hfull hpop hne with ⟨slot, hslot, htouch⟩
  refine ⟨slot, { map with
      policy := popped
      slots := (map.slots.erase oldKey).insert k slot },
    ?_, h.replace hroom hclock hk hpop hne hslot,
    hpops.newest (ByteLruPolicy.account_newest h.ahead hclock hnewest k map.slotBytes) hold, ?_,
    rfl, AList.lookup_insert _, ?_, ?_, ?_, ?_⟩
  · unfold getOrAssign
    rw [hk]
    dsimp only
    rw [htouch]
    dsimp only
    rw [hslot]
  · show popped.clock = _
    rw [hpops.clock]
    exact ByteLruPolicy.account_clock hclock k map.slotBytes
  · rw [hk]
    rfl
  · intro found hfound
    cases hk.symm.trans hfound
  · intro other hother hotherNe
    have hgone : other ≠ oldKey := by
      rintro rfl
      exact hold (List.mem_cons_of_mem k hother)
    show ((map.slots.erase oldKey).insert k slot).lookup other = _
    rw [AList.lookup_insert_ne hotherNe, AList.lookup_erase_ne hgone]
  · intro other hotherNe hother
    show ((map.slots.erase oldKey).insert k slot).lookup other = _
    rw [AList.lookup_insert_ne hotherNe]
    by_cases hgone : other = oldKey
    · rw [hgone, AList.lookup_erase]
    · rw [AList.lookup_erase_ne hgone]
      exact hother

end Eviction

theorem Sound.assign (h : map.Sound slotCount) (hpositive : 0 < map.slotBytes)
    (hroom : (slotCount + 1) * map.slotBytes <= u64Max)
    (hnewest : ByteLruPolicy.Newest kept map.policy) (hclock : map.policy.clock + 1 < usizeLimit)
    (hkept : map.slots.lookup k = none -> kept.length < slotCount) :
    exists assignment assigned, map.getOrAssign k = .ok (assignment, assigned) ∧
      Assigned slotCount map kept k assignment assigned := by
  cases hk : map.slots.lookup k with
  | some slot =>
    rcases h.assign_hit hnewest hclock hk with ⟨assigned, hassign, hassigned⟩
    exact ⟨_, assigned, hassign, hassigned⟩
  | none =>
    have hcount := h.count
    by_cases hfree : map.slots.values.length < slotCount
    · rcases h.assign_free hroom hnewest hclock hk hfree with
        ⟨slot, assigned, hassign, hassigned⟩
      exact ⟨_, assigned, hassign, hassigned⟩
    · rcases h.assign_evicting hpositive hroom hnewest (hkept hk) hclock hk (by omega) with
        ⟨slot, assigned, hassign, hassigned⟩
      exact ⟨_, assigned, hassign, hassigned⟩

/-!
# One batch
-/

theorem newest_congr {keys keys' : List key} {policy : ByteLruPolicy key}
    (h : forall k, k ∈ keys ↔ k ∈ keys') (hnewest : ByteLruPolicy.Newest keys policy) :
    ByteLruPolicy.Newest keys' policy := by
  intro k hk
  rcases hnewest k ((h k).mpr hk) with ⟨entry, hentry, hyoung⟩
  exact ⟨entry, hentry,
    fun other kept hother => hyoung other kept (fun hmem => hother ((h other).mp hmem))⟩

def hits (map : ExpertSlotMap key) (keys : List key) : List key :=
  keys.filter fun k => (map.slots.lookup k).isSome

def misses (map : ExpertSlotMap key) (keys : List key) : List key :=
  keys.filter fun k => !(map.slots.lookup k).isSome

theorem Sound.touchBatch (keys : List key) (h : map.Sound slotCount)
    (hnewest : ByteLruPolicy.Newest kept map.policy)
    (hclock : map.policy.clock + keys.length < usizeLimit) :
    exists touched, map.touchBatch keys = .ok touched ∧ touched.Sound slotCount ∧
      ByteLruPolicy.Newest (map.hits keys ++ kept) touched.policy ∧
      touched.policy.clock <= map.policy.clock + keys.length ∧
      touched.slotBytes = map.slotBytes ∧ touched.slots = map.slots := by
  induction keys generalizing map kept with
  | nil => exact ⟨map, rfl, h, hnewest, Nat.le_refl _, rfl, rfl⟩
  | cons k keys ih =>
    rw [List.length_cons] at hclock
    unfold ExpertSlotMap.touchBatch hits
    cases hk : map.slots.lookup k with
    | none =>
      rcases ih h hnewest (by omega) with
        ⟨touched, htouched, hsound, hyoung, hlate, hbytes, hslots⟩
      refine ⟨touched, htouched, hsound, ?_, ?_, hbytes, hslots⟩
      · rw [List.filter_cons_of_neg]
        · exact hyoung
        · rw [hk]
          exact Bool.false_ne_true
      · rw [List.length_cons]
        omega
    | some slot =>
      rcases h.touch_hit (by omega) hk with ⟨htouch, hsound⟩
      have hticked : (map.policy.account k map.slotBytes).clock = map.policy.clock + 1 :=
        ByteLruPolicy.account_clock (by omega) k map.slotBytes
      rcases ih hsound (ByteLruPolicy.account_newest h.ahead (by omega) hnewest k map.slotBytes)
        (by
          show (map.policy.account k map.slotBytes).clock + _ < _
          rw [hticked]
          omega) with
        ⟨touched, htouched, hdone, hyoung, hlate, hbytes, hslots⟩
      refine ⟨touched, ?_, hdone, ?_, ?_, hbytes, hslots⟩
      · dsimp only
        unfold touchHit
        rw [htouch]
        exact htouched
      · rw [List.filter_cons_of_pos]
        · refine newest_congr ?_ hyoung
          intro other
          show other ∈ map.hits keys ++ k :: kept ↔ other ∈ k :: map.hits keys ++ kept
          simp
          tauto
        · rw [hk]
          rfl
      · dsimp only at hlate
        rw [hticked] at hlate
        rw [List.length_cons]
        omega

/-- A key has the slot that it was assigned, which is the one it had. -/
structure SlotGiven (before after : ExpertSlotMap key) (k : key) (assignment : Nat × Bool) :
    Prop where
  given : after.slots.lookup k = some assignment.1
  hit : assignment.2 = (before.slots.lookup k).isSome
  same : forall slot, before.slots.lookup k = some slot -> assignment.1 = slot

theorem Sound.assignAll (keys : List key) (h : map.Sound slotCount)
    (hpositive : 0 < map.slotBytes) (hroom : (slotCount + 1) * map.slotBytes <= u64Max)
    (hnewest : ByteLruPolicy.Newest kept map.policy)
    (hclock : map.policy.clock + keys.length < usizeLimit) (hnodup : keys.Nodup)
    (hhits : forall k, k ∈ keys -> map.slots.lookup k ≠ none -> k ∈ kept)
    (hkept : kept.length + (map.misses keys).length <= slotCount) :
    exists assignments assigned, map.assignAll keys = .ok (assignments, assigned) ∧
      assigned.Sound slotCount ∧
      assigned.policy.clock <= map.policy.clock + keys.length ∧
      assigned.slotBytes = map.slotBytes ∧
      (forall other, other ∈ kept -> other ∉ keys ->
        assigned.slots.lookup other = map.slots.lookup other) ∧
      List.Forall₂ (SlotGiven map assigned) keys assignments := by
  induction keys generalizing map kept with
  | nil => exact ⟨[], map, rfl, h, Nat.le_refl _, rfl, fun _ _ _ => rfl, List.Forall₂.nil⟩
  | cons k keys ih =>
    rw [List.length_cons] at hclock
    have hfresh := (List.nodup_cons.mp hnodup).1
    have hroomFor : map.slots.lookup k = none -> kept.length < slotCount := by
      intro hk
      unfold misses at hkept
      rw [List.filter_cons_of_pos (by rw [hk]; rfl), List.length_cons] at hkept
      omega
    rcases h.assign hpositive hroom hnewest (by omega) hroomFor with
      ⟨assignment, assigned, hassign, hassigned⟩
    have hlookup : forall other, other ∈ keys ->
        assigned.slots.lookup other = map.slots.lookup other := by
      intro other hother
      have hne : other ≠ k := fun heq => hfresh (heq ▸ hother)
      cases hslot : map.slots.lookup other with
      | none => exact hassigned.absent other hne hslot
      | some slot =>
        rw [← hslot]
        apply hassigned.keeps other (hhits other (List.mem_cons_of_mem k hother) ?_) hne
        rw [hslot]
        exact Option.some_ne_none slot
    have hmisses : assigned.misses keys = map.misses keys := by
      unfold misses
      apply List.filter_congr
      intro other hother
      rw [hlookup other hother]
    -- A hit was kept before; a miss is kept from now on.
    have hgrown : exists kept' : List key, (forall other, other ∈ kept' ↔ other ∈ k :: kept) ∧
        kept'.length + (assigned.misses keys).length <= slotCount := by
      rw [hmisses]
      cases hk : map.slots.lookup k with
      | none =>
        refine ⟨k :: kept, fun _ => Iff.rfl, ?_⟩
        unfold misses at hkept
        rw [List.filter_cons_of_pos (by rw [hk]; rfl), List.length_cons] at hkept
        rw [List.length_cons]
        unfold misses
        omega
      | some slot =>
        refine ⟨kept, ?_, ?_⟩
        · intro other
          rw [List.mem_cons]
          constructor
          · exact Or.inr
          · rintro (rfl | hother)
            · exact hhits other List.mem_cons_self (by rw [hk]; exact Option.some_ne_none slot)
            · exact hother
        · unfold misses at hkept
          rw [List.filter_cons_of_neg (by rw [hk]; exact Bool.false_ne_true)] at hkept
          exact hkept
    rcases hgrown with ⟨kept', hmem, hcount⟩
    rcases ih hassigned.sound (by rw [hassigned.slotBytes]; exact hpositive)
      (by rw [hassigned.slotBytes]; exact hroom)
      (newest_congr (fun other => (hmem other).symm) hassigned.newest)
      (by rw [hassigned.clock]; omega) (List.nodup_cons.mp hnodup).2
      (by
        intro other hother hslot
        rw [hlookup other hother] at hslot
        exact (hmem other).mpr (List.mem_cons_of_mem k
          (hhits other (List.mem_cons_of_mem k hother) hslot)))
      hcount with ⟨assignments, final, hall, hsound, hlate, hbytes, hkeeps, hgiven⟩
    refine ⟨assignment :: assignments, final, ?_, hsound, ?_, hbytes.trans hassigned.slotBytes,
      ?_, List.Forall₂.cons ?_ ?_⟩
    · unfold ExpertSlotMap.assignAll
      rw [hassign]
      dsimp only
      rw [hall]
    · rw [hassigned.clock] at hlate
      rw [List.length_cons]
      omega
    · intro other hother hnot
      rw [hkeeps other ((hmem other).mpr (List.mem_cons_of_mem k hother))
        (List.not_mem_of_not_mem_cons hnot)]
      exact hassigned.keeps other hother (List.ne_of_not_mem_cons hnot)
    · refine ⟨?_, hassigned.hit, hassigned.same⟩
      rw [hkeeps k ((hmem k).mpr List.mem_cons_self) hfresh]
      exact hassigned.given
    · rw [List.forall₂_iff_zip] at hgiven ⊢
      refine ⟨hgiven.1, ?_⟩
      intro other given hzip
      have hother := (List.of_mem_zip hzip).1
      have hslot := hgiven.2 hzip
      refine ⟨hslot.given, ?_, ?_⟩
      · rw [hslot.hit, hlookup other hother]
      · intro slot hbefore
        exact hslot.same slot ((hlookup other hother).trans hbefore)

structure Planned (slotCount : Nat) (map : ExpertSlotMap key) (keys : List key)
    (assignments : Assignments) (proposed : ExpertSlotMap key) : Prop where
  sound : proposed.Sound slotCount
  slotBytes : proposed.slotBytes = map.slotBytes
  clock : proposed.policy.clock <= map.policy.clock + 2 * keys.length
  given : List.Forall₂ (SlotGiven map proposed) keys assignments

theorem Sound.plan {keys : List key} (h : map.Sound slotCount) (hpositive : 0 < map.slotBytes)
    (hroom : (slotCount + 1) * map.slotBytes <= u64Max)
    (hclock : map.policy.clock + 2 * keys.length < usizeLimit) (hnodup : keys.Nodup)
    (hfits : keys.length <= slotCount) :
    exists assignments proposed, map.plan keys = .ok (assignments, proposed) ∧
      Planned slotCount map keys assignments proposed := by
  rcases h.touchBatch keys (ByteLruPolicy.newest_nil _) (by omega) with
    ⟨touched, htouched, hsound, hnewest, hlate, hbytes, hslots⟩
  rw [List.append_nil] at hnewest
  have hcount : (map.hits keys).length + (map.misses keys).length = keys.length :=
    (List.length_eq_length_filter_add _).symm
  rcases hsound.assignAll keys (by rw [hbytes]; exact hpositive) (by rw [hbytes]; exact hroom)
    hnewest (by omega) hnodup
    (by
      intro k hk hslot
      rw [hslots] at hslot
      exact List.mem_filter.mpr ⟨hk, Option.isSome_iff_ne_none.mpr hslot⟩)
    (by
      unfold misses at hcount ⊢
      rw [hslots]
      omega) with ⟨assignments, proposed, hall, hproposed, hlater, hbytes', _, hgiven⟩
  refine ⟨assignments, proposed, ?_, hproposed, hbytes'.trans hbytes, by omega, ?_⟩
  · unfold ExpertSlotMap.plan
    rw [htouched]
    exact hall
  · apply hgiven.imp
    intro k assignment hslot
    refine ⟨hslot.given, ?_, ?_⟩
    · rw [hslot.hit, hslots]
    · intro slot hbefore
      apply hslot.same
      rw [hslots]
      exact hbefore

theorem Sound.values_nodup (h : map.Sound slotCount) :
    (map.freeSlots ++ map.slots.values).Nodup :=
  h.partition.nodup_iff.mpr List.nodup_range

theorem Planned.nodup {map proposed : ExpertSlotMap key} {keys : List key}
    {assignments : Assignments} (h : Planned slotCount map keys assignments proposed)
    (hnodup : keys.Nodup) :
    (assignments.map Prod.fst).Nodup := by
  have hvalues := (List.nodup_append.mp h.sound.values_nodup).2.1
  have hslots : keys.map (fun k => proposed.slots.lookup k) =
      (assignments.map Prod.fst).map some := by
    have hgiven := h.given
    clear h hvalues hnodup
    induction hgiven with
    | nil => rfl
    | cons hslot _ ih => rw [List.map_cons, List.map_cons, List.map_cons, hslot.given, ih]
  apply List.Nodup.of_map some
  rw [← hslots]
  apply List.Nodup.map_on ?_ hnodup
  intro k hk other _ hsame
  have hmem : proposed.slots.lookup k ∈ (assignments.map Prod.fst).map some := by
    rw [← hslots]
    exact List.mem_map_of_mem hk
  rcases List.mem_map.mp hmem with ⟨slot, _, hslot⟩
  exact KeyedMap.eq_of_lookup_eq hvalues hslot.symm (hsame.symm.trans hslot.symm)

end ExpertSlotMap

/-!
# Runs
-/

/-- The slots, and what has been prepared, are sound, and neither has counted more touches
than the calls so far can make. -/
structure Holds (slotCount slotBytes count : Nat) (arena : ExpertArena key) : Prop where
  count_eq : arena.slotCount = slotCount
  slots : arena.slots.Sound slotCount
  bytes_eq : arena.slots.slotBytes = slotBytes
  clock : arena.slots.policy.clock <= count
  pending : forall proposed, arena.pending = some proposed ->
    proposed.Sound slotCount ∧ proposed.slotBytes = slotBytes ∧ proposed.policy.clock <= count

theorem new_holds (slotCount slotBytes : Nat) :
    Holds slotCount slotBytes 0 (ExpertArena.new slotCount slotBytes : ExpertArena key) where
  count_eq := rfl
  slots := ExpertSlotMap.new_sound slotCount slotBytes
  bytes_eq := rfl
  clock := Nat.le_refl _
  pending := by
    intro proposed hproposed
    cases hproposed

section Calls

variable {slotCount slotBytes count : Nat} {arena : ExpertArena key}

theorem Holds.grow {more : Nat} (h : Holds slotCount slotBytes count arena) (hle : count <= more) :
    Holds slotCount slotBytes more arena where
  count_eq := h.count_eq
  slots := h.slots
  bytes_eq := h.bytes_eq
  clock := Nat.le_trans h.clock hle
  pending := fun proposed hproposed =>
    ⟨(h.pending proposed hproposed).1, (h.pending proposed hproposed).2.1,
      Nat.le_trans (h.pending proposed hproposed).2.2 hle⟩

theorem Holds.drop (h : Holds slotCount slotBytes count arena) :
    Holds slotCount slotBytes count { arena with pending := none } where
  count_eq := h.count_eq
  slots := h.slots
  bytes_eq := h.bytes_eq
  clock := h.clock
  pending := by
    intro proposed hproposed
    cases hproposed

theorem Holds.plan {keys : List key} (h : Holds slotCount slotBytes count arena)
    (hpositive : 0 < slotBytes) (hroom : (slotCount + 1) * slotBytes <= u64Max)
    (hclock : count + 2 * keys.length < usizeLimit) (hnodup : keys.Nodup)
    (hfits : keys.length <= slotCount) :
    exists assignments proposed, arena.slots.plan keys = .ok (assignments, proposed) ∧
      ExpertSlotMap.Planned slotCount arena.slots keys assignments proposed := by
  have hclock' := h.clock
  apply h.slots.plan
  · rw [h.bytes_eq]
    exact hpositive
  · rw [h.bytes_eq]
    exact hroom
  · omega
  · exact hnodup
  · exact hfits

theorem Holds.call (op : ArenaOp key) (h : Holds slotCount slotBytes count arena)
    (hpositive : 0 < slotBytes) (hroom : (slotCount + 1) * slotBytes <= u64Max)
    (hclock : count + op.touches < usizeLimit) :
    Holds slotCount slotBytes (count + op.touches) (op.call arena) := by
  cases op with
  | commit =>
    unfold ArenaOp.call ExpertArena.commitPendingBatch
    cases hpending : arena.pending with
    | none => exact h
    | some proposed =>
      rcases h.pending proposed hpending with ⟨hsound, hbytes, hlate⟩
      refine ⟨h.count_eq, hsound, hbytes, hlate, ?_⟩
      intro other hother
      cases hother
  | prepare stage keys =>
    have hdropped : Holds slotCount slotBytes (count + 2 * keys.length)
        { arena with pending := none } := h.drop.grow (Nat.le_add_right _ _)
    show Holds slotCount slotBytes (count + 2 * keys.length) (arena.prepareBatch stage keys).2
    unfold ExpertArena.prepareBatch
    dsimp only
    split
    · exact hdropped
    · rename_i hcount
      rw [h.count_eq] at hcount
      split
      · exact hdropped
      · rename_i hdistinct
        have hnodup : keys.Nodup := by
          have hsame : keys.dedup = keys :=
            (List.dedup_sublist keys).eq_of_length (Classical.not_not.mp hdistinct)
          exact List.dedup_eq_self.mp hsame
        rcases h.plan hpositive hroom hclock hnodup (Nat.le_of_not_lt hcount) with
          ⟨assignments, proposed, hplan, hplanned⟩
        rw [hplan]
        dsimp only
        split
        · exact hdropped
        · refine ⟨h.count_eq, h.slots, h.bytes_eq, hdropped.clock, ?_⟩
          intro other hother
          cases hother
          refine ⟨hplanned.sound, hplanned.slotBytes.trans h.bytes_eq, ?_⟩
          exact Nat.le_trans hplanned.clock (Nat.add_le_add_right h.clock _)

end Calls

def totalTouches (ops : List (ArenaOp key)) : Nat :=
  (ops.map ArenaOp.touches).sum

theorem run_holds {slotCount slotBytes : Nat} (ops : List (ArenaOp key)) (hpositive : 0 < slotBytes)
    (hroom : (slotCount + 1) * slotBytes <= u64Max) (hclock : totalTouches ops < usizeLimit) :
    Holds slotCount slotBytes (totalTouches ops)
      (ArenaOp.run (ExpertArena.new slotCount slotBytes) ops) := by
  induction ops using List.reverseRecOn with
  | nil => exact new_holds slotCount slotBytes
  | append_singleton ops op ih =>
    have htotal : totalTouches (ops ++ [op]) = totalTouches ops + op.touches := by
      unfold totalTouches
      rw [List.map_append, List.sum_append]
      rfl
    rw [htotal] at hclock ⊢
    unfold ArenaOp.run at ih ⊢
    rw [List.foldl_append]
    exact (ih (by omega)).call op hpositive hroom hclock

/-!
# What a run leaves, and what a batch does there
-/

namespace ExpertSlotMap

/-- The slots of resident keys are distinct, free and used slots are all the slots, and
the policy knows the same keys. -/
structure Resident (slotCount : Nat) (map : ExpertSlotMap key) : Prop where
  distinct : forall k other slot, map.slots.lookup k = some slot ->
    map.slots.lookup other = some slot -> k = other
  below : forall k slot, map.slots.lookup k = some slot -> slot < slotCount
  freeNodup : map.freeSlots.Nodup
  free_iff : forall slot, slot ∈ map.freeSlots ↔
    slot < slotCount ∧ forall k, map.slots.lookup k ≠ some slot
  keys : forall k, map.policy.entries.lookup k = none ↔ map.slots.lookup k = none

theorem Sound.resident_slots {slotCount : Nat} {map : ExpertSlotMap key} (h : map.Sound slotCount) :
    map.Resident slotCount := by
  have hnodup := h.values_nodup
  rcases List.nodup_append.mp hnodup with ⟨hfree, hused, hapart⟩
  have hmem : forall slot, slot ∈ map.freeSlots ∨ slot ∈ map.slots.values ↔ slot < slotCount := by
    intro slot
    rw [← List.mem_append, h.partition.mem_iff, List.mem_range]
  constructor
  · intro k other slot hk hother
    exact KeyedMap.eq_of_lookup_eq hused hk hother
  · intro k slot hk
    exact (hmem slot).mp (Or.inr ((KeyedMap.mem_values_iff _ slot).mpr ⟨k, hk⟩))
  · exact hfree
  · intro slot
    constructor
    · intro hslot
      refine ⟨(hmem slot).mp (Or.inl hslot), ?_⟩
      intro k hk
      exact hapart slot hslot slot ((KeyedMap.mem_values_iff _ slot).mpr ⟨k, hk⟩) rfl
    · rintro ⟨hlt, hunused⟩
      rcases (hmem slot).mpr hlt with hslot | hslot
      · exact hslot
      · rcases (KeyedMap.mem_values_iff _ slot).mp hslot with ⟨k, hk⟩
        exact absurd hk (hunused k)
  · exact h.lookup_none_iff

end ExpertSlotMap

variable (stage : List key -> Assignments -> Except String Unit)

theorem slots_prepareBatch (arena : ExpertArena key) (keys : List key) :
    (arena.prepareBatch stage keys).2.slots = arena.slots := by
  unfold ExpertArena.prepareBatch
  dsimp only
  split
  · rfl
  · split
    · rfl
    · split
      · rfl
      · split <;> rfl

theorem prepareBatch_eq (arena : ExpertArena key) {keys : List key}
    (hfits : keys.length <= arena.slotCount) (hnodup : keys.Nodup) :
    arena.prepareBatch stage keys =
      match arena.slots.plan keys with
      | .error complaint => (.error complaint, { arena with pending := none })
      | .ok (assignments, proposed) =>
        match stage keys assignments with
        | .error complaint => (.error complaint, { arena with pending := none })
        | .ok () => (.ok (assignments.map Prod.fst), { arena with pending := some proposed }) := by
  unfold ExpertArena.prepareBatch
  dsimp only
  have hdistinct : ¬ keys.dedup.length ≠ keys.length := by
    rw [List.dedup_eq_self.mpr hnodup]
    exact fun hne => hne rfl
  exact (if_neg (Nat.not_lt_of_le hfits)).trans (if_neg hdistinct)

structure Serves (slotCount : Nat) (arena : ExpertArena key)
    (stage : List key -> Assignments -> Except String Unit) (keys : List key)
    (assignments : Assignments) (proposed : ExpertSlotMap key) : Prop where
  planned : arena.slots.plan keys = .ok (assignments, proposed)
  resident : proposed.Resident slotCount
  own : (assignments.map Prod.fst).Nodup
  given : List.Forall₂ (ExpertSlotMap.SlotGiven arena.slots proposed) keys assignments
  staged : stage keys assignments = .ok () -> arena.prepareBatch stage keys =
    (.ok (assignments.map Prod.fst), { arena with pending := some proposed })
  failed : forall complaint, stage keys assignments = .error complaint ->
    arena.prepareBatch stage keys = (.error complaint, { arena with pending := none })

theorem Holds.serves {slotCount slotBytes count : Nat} {arena : ExpertArena key} {keys : List key}
    (h : Holds slotCount slotBytes count arena) (hpositive : 0 < slotBytes)
    (hroom : (slotCount + 1) * slotBytes <= u64Max)
    (hclock : count + 2 * keys.length < usizeLimit) (hnodup : keys.Nodup)
    (hfits : keys.length <= slotCount) :
    exists assignments proposed, Serves slotCount arena stage keys assignments proposed := by
  rcases h.plan hpositive hroom hclock hnodup hfits with ⟨assignments, proposed, hplan, hplanned⟩
  have hstage := prepareBatch_eq stage arena (h.count_eq ▸ hfits) hnodup
  rw [hplan] at hstage
  dsimp only at hstage
  refine ⟨assignments, proposed, hplan, hplanned.sound.resident_slots, hplanned.nodup hnodup,
    hplanned.given, ?_, ?_⟩
  · intro hok
    rw [hstage, hok]
  · intro complaint herror
    rw [hstage, herror]

theorem layout_fits (layout : ExpertArenaLayout) {slotCount availableBytes descriptorBytes : Nat}
    (h : slotCount <= layout.maxSlotCount availableBytes descriptorBytes) :
    0 < layout.slotStrideBytes ∧ (slotCount + 1) * layout.slotStrideBytes <= u64Max := by
  have hpositive : 0 < layout.slotStrideBytes := Nat.mul_pos layout.positive (by decide)
  refine ⟨hpositive, ?_⟩
  have hbytes : slotCount * layout.slotStrideBytes <= (2 ^ 32 - 1) * 4 := by
    apply Nat.le_trans (Nat.mul_le_mul_right _ h)
    apply Nat.le_trans (Nat.div_mul_le_self _ _)
    exact Nat.le_trans (Nat.min_le_left _ _) (Nat.min_le_right _ _)
  have hstride : layout.slotStrideBytes < 2 ^ 32 * 4 :=
    Nat.mul_lt_mul_of_pos_right layout.fits (by decide)
  rw [Nat.succ_mul]
  unfold u64Max usizeLimit
  omega

/-- Below 2^64 touches every run leaves a sound residency, and every batch that fits is
served there; a batch that is not committed leaves the slots as they are. -/
theorem run_serves_batches (layout : ExpertArenaLayout)
    (slotCount availableBytes descriptorBytes : Nat)
    (hslots : slotCount <= layout.maxSlotCount availableBytes descriptorBytes)
    (ops : List (ArenaOp key)) (hclock : totalTouches ops < 2 ^ 64) :
    (ArenaOp.run (ExpertArena.new slotCount layout.slotStrideBytes) ops).slots.Resident slotCount ∧
      (forall stage keys,
        ((ArenaOp.run (ExpertArena.new slotCount layout.slotStrideBytes) ops).prepareBatch
          stage keys).2.slots =
            (ArenaOp.run (ExpertArena.new slotCount layout.slotStrideBytes) ops).slots) ∧
      forall stage keys, keys.Nodup -> keys.length <= slotCount ->
        totalTouches ops + 2 * keys.length < 2 ^ 64 ->
        exists assignments proposed,
          Serves slotCount (ArenaOp.run (ExpertArena.new slotCount layout.slotStrideBytes) ops)
            stage keys assignments proposed := by
  rcases layout_fits layout hslots with ⟨hpositive, hroom⟩
  have hrun := run_holds ops hpositive hroom hclock
  refine ⟨hrun.slots.resident_slots, fun stage keys => slots_prepareBatch stage _ keys, ?_⟩
  intro stage keys hnodup hfits hcount
  exact hrun.serves stage hpositive hroom hcount hnodup hfits

/-!
# One slot
-/

def oneWord : ExpertArenaLayout where
  slotStrideWords := 1
  positive := Nat.one_pos
  fits := by decide

def stageAll (_ : List Nat) (_ : Assignments) : Except String Unit :=
  .ok ()

theorem run_serves_second_batch :
    exists assignments proposed,
      Serves 2
        (ArenaOp.run (ExpertArena.new 2 oneWord.slotStrideBytes)
          [.prepare stageAll [1, 2], .commit])
        stageAll [2, 3] assignments proposed :=
  (run_serves_batches oneWord 2 8 8 (by decide) [.prepare stageAll [1, 2], .commit]
    (by decide)).2.2 stageAll [2, 3] (by decide) (by decide) (by decide)

/-- One key is resident in one slot, and its touch is the only one in the heap. -/
def oneResident (clock : Nat) (k : Nat) : ExpertSlotMap Nat where
  policy := ByteLruPolicy.sole 4 4 clock clock k
  slots := AList.singleton k 0
  freeSlots := []
  slotBytes := 4

theorem plan_oneResident {clock k other : Nat} (hother : other ≠ k) :
    (oneResident clock k).plan [other] = (oneResident clock k).assignAll [other] := by
  unfold ExpertSlotMap.plan ExpertSlotMap.touchBatch
  have hmissing : (oneResident clock k).slots.lookup other = none :=
    KeyedMap.lookup_singleton_ne 0 hother
  rw [hmissing]
  rfl

theorem plan_oneResident_ahead {clock k other : Nat} (hother : other ≠ k)
    (hnew : clock + 1 < usizeLimit) :
    (oneResident clock k).plan [other] =
      .ok ([(0, false)], oneResident (clock + 1) other) := by
  have hmissing : (oneResident clock k).slots.lookup other = none :=
    KeyedMap.lookup_singleton_ne 0 hother
  have hslot : (oneResident clock k).slots.lookup k = some 0 := KeyedMap.lookup_singleton 0
  have hticked : wrappingAdd clock 1 = clock + 1 := wrappingAdd_of_lt hnew
  have hahead : clock < wrappingAdd clock 1 := by
    rw [hticked]
    exact Nat.lt_succ_self clock
  have hpop := ByteLruPolicy.popOldest_sole_ahead 4 4 hother (by decide) hahead
  have hover : 4 < ((ByteLruPolicy.sole 4 4 clock clock k).account other 4).residentBytes := by
    rw [ByteLruPolicy.account_sole 4 4 clock clock hother]
    show 4 < saturatingAdd 4 4
    decide
  have htouch : (oneResident clock k).policy.touch other (oneResident clock k).slotBytes =
      ([k], (oneResident (clock + 1) other).policy) := by
    rw [hticked] at hpop
    exact ByteLruPolicy.touch_evicts_one hover hpop (Nat.le_refl 4)
  have herased : ((oneResident clock k).slots.erase k).insert other 0 =
      (oneResident (clock + 1) other).slots := by
    apply AList.ext
    simp [oneResident, AList.erase, AList.insert, AList.singleton]
  rw [plan_oneResident hother]
  unfold ExpertSlotMap.assignAll ExpertSlotMap.getOrAssign
  rw [hmissing]
  dsimp only
  rw [htouch]
  dsimp only
  rw [hslot]
  dsimp only
  rw [herased]
  rfl

theorem plan_oneResident_wrapped {k other : Nat} (hother : other ≠ k) :
    (oneResident (usizeLimit - 1) k).plan [other] =
      .error "expert arena LRU returned an unknown key" := by
  have hmissing : (oneResident (usizeLimit - 1) k).slots.lookup other = none :=
    KeyedMap.lookup_singleton_ne 0 hother
  have hwrapped : wrappingAdd (usizeLimit - 1) 1 < usizeLimit - 1 := by decide
  have hpop := ByteLruPolicy.popOldest_sole_wrapped 4 4 hother (by decide) hwrapped
  have hover : 4 < ((ByteLruPolicy.sole 4 4 (usizeLimit - 1) (usizeLimit - 1) k).account
      other 4).residentBytes := by
    rw [ByteLruPolicy.account_sole 4 4 _ _ hother]
    show 4 < saturatingAdd 4 4
    decide
  have htouch : (oneResident (usizeLimit - 1) k).policy.touch other
      (oneResident (usizeLimit - 1) k).slotBytes =
        ([other], ByteLruPolicy.sole 4 4 (wrappingAdd (usizeLimit - 1) 1) (usizeLimit - 1) k) :=
    ByteLruPolicy.touch_evicts_one hover hpop (Nat.le_refl 4)
  rw [plan_oneResident hother]
  unfold ExpertSlotMap.assignAll ExpertSlotMap.getOrAssign
  rw [hmissing]
  dsimp only
  rw [htouch]
  dsimp only
  rw [hmissing]

def takingTurns (n : Nat) : List (ArenaOp Nat) :=
  (List.range n).flatMap fun i => [.prepare stageAll [i % 2], .commit]

theorem takingTurns_succ (n : Nat) :
    takingTurns (n + 1) = takingTurns n ++ [.prepare stageAll [n % 2], .commit] := by
  unfold takingTurns
  rw [List.range_succ, List.flatMap_append, List.flatMap_singleton]

theorem run_takingTurns (n : Nat) (h : n + 1 < usizeLimit) :
    ArenaOp.run (ExpertArena.new 1 4) (takingTurns (n + 1)) =
      { slotCount := 1
        slots := oneResident (n + 1) (n % 2)
        pending := none } := by
  induction n with
  | zero => rfl
  | succ n ih =>
    have hother : (n + 1) % 2 ≠ n % 2 := by omega
    rw [takingTurns_succ]
    unfold ArenaOp.run at ih ⊢
    rw [List.foldl_append, ih (Nat.lt_of_succ_lt h)]
    show (ExpertArena.commitPendingBatch (ExpertArena.prepareBatch stageAll _ _).2).2 = _
    have hplan := plan_oneResident_ahead hother h
    have hprepare := prepareBatch_eq stageAll
      { slotCount := 1
        slots := oneResident (n + 1) (n % 2)
        pending := none }
      (show [(n + 1) % 2].length <= 1 from Nat.le_refl 1) (List.nodup_singleton _)
    dsimp only at hprepare
    rw [hplan] at hprepare
    rw [hprepare]
    rfl

/-- After as many batches as the clock can count, a batch of one key is refused in the
branch for an unknown key. -/
theorem prepare_refused_after_wrap :
    ((ArenaOp.run (ExpertArena.new 1 oneWord.slotStrideBytes)
      (takingTurns (usizeLimit - 1))).prepareBatch stageAll [(usizeLimit - 1) % 2]).1 =
        .error "expert arena LRU returned an unknown key" := by
  have hclock : usizeLimit - 1 = usizeLimit - 2 + 1 := by decide
  have hrun : ArenaOp.run (ExpertArena.new 1 4) (takingTurns (usizeLimit - 1)) =
      { slotCount := 1
        slots := oneResident (usizeLimit - 1) ((usizeLimit - 2) % 2)
        pending := none } := by
    rw [hclock]
    exact run_takingTurns (usizeLimit - 2) (by decide)
  have hbytes : oneWord.slotStrideBytes = 4 := rfl
  rw [hbytes, hrun]
  have hprepare := prepareBatch_eq stageAll
    { slotCount := 1
      slots := oneResident (usizeLimit - 1) ((usizeLimit - 2) % 2)
      pending := none }
    (show [(usizeLimit - 1) % 2].length <= 1 from Nat.le_refl 1) (List.nodup_singleton _)
  dsimp only at hprepare
  rw [plan_oneResident_wrapped (by decide)] at hprepare
  rw [hprepare]

end Vulkan
end RunNBurn
