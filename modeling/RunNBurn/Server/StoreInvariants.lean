import RunNBurn.Memory.ByteLruInvariants
import RunNBurn.Server.StoreCalls

/-!
# Invariants of the session store

The two policies stay sound under every primitive of the store, and what they
record follows the maps: the snapshot policy follows the entries that hold a
state, up to a relation that the results choose.
-/

namespace RunNBurn
namespace Server

open Library
open Memory

namespace ResponseStore

/-!
# What the maps hold
-/

def view {part : Type} (ofResponse : StoredResponse -> Option part)
    (ofConversation : ConversationRecord -> Option part) (store : ResponseStore) :
    CacheKey -> Option part
  | .response id => (store.responses.lookup id).bind ofResponse
  | .conversation id => (store.conversations.lookup id).bind ofConversation

def recordBytes (store : ResponseStore) : CacheKey -> Option Nat :=
  store.view (fun entry => some entry.bytes) (fun entry => some entry.bytes)

def heldBytes (host : StoreHost) (store : ResponseStore) : CacheKey -> Option Nat :=
  store.view (fun entry => entry.sequenceState.map (EngineSequenceState.byteSize host))
    (fun entry => entry.sequenceState.map (EngineSequenceState.byteSize host))

section Views

variable {part : Type} (ofResponse : StoredResponse -> Option part)
  (ofConversation : ConversationRecord -> Option part) (store : ResponseStore) (id : String)

theorem view_insertResponse (entry : StoredResponse) :
    { store with responses := store.responses.insert id entry }.view
        ofResponse ofConversation =
      Function.update (store.view ofResponse ofConversation) (.response id)
        (ofResponse entry) := by
  funext key
  unfold view
  cases key with
  | response other =>
    by_cases hid : other = id
    · rw [hid, Function.update_self]
      dsimp only
      rw [AList.lookup_insert]
      rfl
    · rw [Function.update_of_ne (fun h => hid (CacheKey.response.inj h))]
      dsimp only
      rw [AList.lookup_insert_ne hid]
  | conversation other => rw [Function.update_of_ne (fun h => by cases h)]

theorem view_insertConversation (entry : ConversationRecord) :
    { store with conversations := store.conversations.insert id entry }.view
        ofResponse ofConversation =
      Function.update (store.view ofResponse ofConversation) (.conversation id)
        (ofConversation entry) := by
  funext key
  unfold view
  cases key with
  | response other => rw [Function.update_of_ne (fun h => by cases h)]
  | conversation other =>
    by_cases hid : other = id
    · rw [hid, Function.update_self]
      dsimp only
      rw [AList.lookup_insert]
      rfl
    · rw [Function.update_of_ne (fun h => hid (CacheKey.conversation.inj h))]
      dsimp only
      rw [AList.lookup_insert_ne hid]

theorem view_eraseResponse :
    { store with responses := store.responses.erase id }.view ofResponse ofConversation =
      Function.update (store.view ofResponse ofConversation) (.response id) none := by
  funext key
  unfold view
  cases key with
  | response other =>
    by_cases hid : other = id
    · rw [hid, Function.update_self]
      dsimp only
      rw [AList.lookup_erase]
      rfl
    · rw [Function.update_of_ne (fun h => hid (CacheKey.response.inj h))]
      dsimp only
      rw [AList.lookup_erase_ne hid]
  | conversation other => rw [Function.update_of_ne (fun h => by cases h)]

theorem view_eraseConversation :
    { store with conversations := store.conversations.erase id }.view
        ofResponse ofConversation =
      Function.update (store.view ofResponse ofConversation) (.conversation id) none := by
  funext key
  unfold view
  cases key with
  | response other => rw [Function.update_of_ne (fun h => by cases h)]
  | conversation other =>
    by_cases hid : other = id
    · rw [hid, Function.update_self]
      dsimp only
      rw [AList.lookup_erase]
      rfl
    · rw [Function.update_of_ne (fun h => hid (CacheKey.conversation.inj h))]
      dsimp only
      rw [AList.lookup_erase_ne hid]

theorem view_congr {other : ResponseStore} (hresponses : other.responses = store.responses)
    (hconversations : other.conversations = store.conversations) :
    other.view ofResponse ofConversation = store.view ofResponse ofConversation := by
  unfold view
  rw [hresponses, hconversations]

end Views

theorem view_dropSnapshot {part : Type} {ofResponse : StoredResponse -> Option part}
    {ofConversation : ConversationRecord -> Option part} (hresponse : forall entry state,
      ofResponse { entry with sequenceState := state } = ofResponse entry)
    (hconversation : forall entry state,
      ofConversation { entry with sequenceState := state } = ofConversation entry)
    (store : ResponseStore) (key : CacheKey) :
    (store.dropSnapshot key).view ofResponse ofConversation =
      store.view ofResponse ofConversation := by
  unfold dropSnapshot
  cases key with
  | response id =>
    dsimp only
    cases hid : store.responses.lookup id with
    | none => rfl
    | some entry =>
      refine (view_insertResponse _ _ store id _).trans ?_
      apply Function.update_eq_self_iff.mpr
      unfold view
      dsimp only
      rw [hid]
      exact hresponse entry none
  | conversation id =>
    dsimp only
    cases hid : store.conversations.lookup id with
    | none => rfl
    | some entry =>
      refine (view_insertConversation _ _ store id _).trans ?_
      apply Function.update_eq_self_iff.mpr
      unfold view
      dsimp only
      rw [hid]
      exact hconversation entry none

theorem recordBytes_dropSnapshot (store : ResponseStore) (key : CacheKey) :
    (store.dropSnapshot key).recordBytes = store.recordBytes :=
  view_dropSnapshot (fun _ _ => rfl) (fun _ _ => rfl) store key

theorem heldBytes_dropSnapshot (host : StoreHost) (store : ResponseStore) (key : CacheKey) :
    (store.dropSnapshot key).heldBytes host =
      Function.update (store.heldBytes host) key none := by
  unfold dropSnapshot
  cases key with
  | response id =>
    dsimp only
    cases hid : store.responses.lookup id with
    | none =>
      symm
      apply Function.update_eq_self_iff.mpr
      unfold heldBytes view
      dsimp only
      rw [hid]
      rfl
    | some entry => exact view_insertResponse _ _ store id _
  | conversation id =>
    dsimp only
    cases hid : store.conversations.lookup id with
    | none =>
      symm
      apply Function.update_eq_self_iff.mpr
      unfold heldBytes view
      dsimp only
      rw [hid]
      rfl
    | some entry => exact view_insertConversation _ _ store id _

/-!
# Soundness

`rel` relates what the snapshot policy records to what the maps hold.  A key is
pending while a commit has rewritten its record and not yet touched it.
-/

structure Sound (rel : Option Nat -> Option Nat -> Prop) (host : StoreHost)
    (pending : CacheKey -> Prop) (store : ResponseStore) : Prop where
  records : store.recordsLru.Sound
  snapshots : store.snapshotsLru.Sound
  recordsUnlimited : store.recordsLru.maxBytes = u64Max
  snapshotsUnlimited : store.snapshotsLru.maxBytes = u64Max
  recorded : forall key, ¬ pending key ->
    store.recordsLru.recorded key = store.recordBytes key
  tracked : forall key, ¬ pending key ->
    rel (store.snapshotsLru.recorded key) (store.heldBytes host key)

structure Exact (store : ResponseStore) : Prop where
  records : store.recordsLru.residentBytes = store.recordsLru.totalBytes
  snapshots : store.snapshotsLru.residentBytes = store.snapshotsLru.totalBytes

def nothingPending : CacheKey -> Prop :=
  fun _ => False

section Primitives

variable {rel : Option Nat -> Option Nat -> Prop} {host : StoreHost}
  {pending : CacheKey -> Prop} {store : ResponseStore}

theorem new_sound (hrel : forall bytes, rel bytes bytes) (maxBytes : Nat) :
    (new maxBytes).Sound rel host nothingPending where
  records := ByteLruPolicy.new_sound u64Max
  snapshots := ByteLruPolicy.new_sound u64Max
  recordsUnlimited := rfl
  snapshotsUnlimited := rfl
  recorded := fun key _ => by
    cases key with
    | response id => rfl
    | conversation id => rfl
  tracked := fun key _ => by
    cases key with
    | response id => exact hrel none
    | conversation id => exact hrel none

theorem new_exact (maxBytes : Nat) : (new maxBytes).Exact where
  records := rfl
  snapshots := rfl

theorem touchRecord_eq (h : store.recordsLru.maxBytes = u64Max) (key : CacheKey) (bytes : Nat) :
    store.touchRecord key bytes =
      { store with recordsLru := store.recordsLru.account key bytes } := by
  unfold touchRecord
  rw [ByteLruPolicy.touch_unlimited h]

theorem touchSnapshot_eq (h : store.snapshotsLru.maxBytes = u64Max) (key : CacheKey) (bytes : Nat) :
    store.touchSnapshot key bytes =
      { store with snapshotsLru := store.snapshotsLru.account key bytes } := by
  unfold touchSnapshot
  rw [ByteLruPolicy.touch_unlimited h]

variable {key : CacheKey}

theorem touchRecord_sound {settled : CacheKey -> Prop} {bytes : Nat}
    (h : store.Sound rel host pending) (hbytes : store.recordBytes key = some bytes)
    (hsettled : forall other, ¬ settled other -> other = key ∨ ¬ pending other)
    (htracked : ¬ settled key -> rel (store.snapshotsLru.recorded key) (store.heldBytes host key)) :
    (store.touchRecord key bytes).Sound rel host settled := by
  rw [touchRecord_eq h.recordsUnlimited]
  constructor
  · exact ByteLruPolicy.account_sound h.records key bytes
  · exact h.snapshots
  · exact h.recordsUnlimited
  · exact h.snapshotsUnlimited
  · intro other hother
    change (store.recordsLru.account key bytes).recorded other = store.recordBytes other
    rw [ByteLruPolicy.recorded_account]
    by_cases hkey : other = key
    · rw [hkey, Function.update_self, hbytes]
    · rw [Function.update_of_ne hkey]
      exact h.recorded other ((hsettled other hother).resolve_left hkey)
  · intro other hother
    by_cases hkey : other = key
    · rw [hkey] at hother ⊢
      exact htracked hother
    · exact h.tracked other ((hsettled other hother).resolve_left hkey)

theorem touchSnapshot_sound {bytes : Nat} (hrel : forall bytes, rel bytes bytes)
    (h : store.Sound rel host pending) (hbytes : store.heldBytes host key = some bytes) :
    (store.touchSnapshot key bytes).Sound rel host pending := by
  rw [touchSnapshot_eq h.snapshotsUnlimited]
  refine { h with
    snapshots := ByteLruPolicy.account_sound h.snapshots key bytes
    tracked := ?_ }
  intro other hother
  change rel ((store.snapshotsLru.account key bytes).recorded other)
    (store.heldBytes host other)
  rw [ByteLruPolicy.recorded_account]
  by_cases hkey : other = key
  · rw [hkey, Function.update_self, hbytes]
    exact hrel _
  · rw [Function.update_of_ne hkey]
    exact h.tracked other hother

theorem forget_exact (h : store.Exact) (key : CacheKey) : (store.forget key).Exact where
  records := ByteLruPolicy.resident_removed_eq h.records key
  snapshots := ByteLruPolicy.resident_removed_eq h.snapshots key

theorem forget_sound {erased : ResponseStore} (hrel : forall bytes, rel bytes bytes)
    (h : store.Sound rel host pending) (hrecords : erased.recordsLru = store.recordsLru)
    (hsnapshots : erased.snapshotsLru = store.snapshotsLru)
    (hbytes : erased.recordBytes = Function.update store.recordBytes key none)
    (hheld : erased.heldBytes host = Function.update (store.heldBytes host) key none) :
    (erased.forget key).Sound rel host pending := by
  constructor
  · change (erased.recordsLru.removed key).Sound
    rw [hrecords]
    exact ByteLruPolicy.removed_sound h.records key
  · change (erased.snapshotsLru.removed key).Sound
    rw [hsnapshots]
    exact ByteLruPolicy.removed_sound h.snapshots key
  · change (erased.recordsLru.removed key).maxBytes = u64Max
    rw [ByteLruPolicy.maxBytes_removed, hrecords]
    exact h.recordsUnlimited
  · change (erased.snapshotsLru.removed key).maxBytes = u64Max
    rw [ByteLruPolicy.maxBytes_removed, hsnapshots]
    exact h.snapshotsUnlimited
  · intro other hother
    change (erased.recordsLru.removed key).recorded other = erased.recordBytes other
    rw [ByteLruPolicy.recorded_removed, hrecords, hbytes]
    by_cases hkey : other = key
    · rw [hkey, Function.update_self, Function.update_self]
    · rw [Function.update_of_ne hkey, Function.update_of_ne hkey]
      exact h.recorded other hother
  · intro other hother
    change rel ((erased.snapshotsLru.removed key).recorded other)
      (erased.heldBytes host other)
    rw [ByteLruPolicy.recorded_removed, hsnapshots, hheld]
    by_cases hkey : other = key
    · rw [hkey, Function.update_self, Function.update_self]
      exact hrel none
    · rw [Function.update_of_ne hkey, Function.update_of_ne hkey]
      exact h.tracked other hother

theorem removeResponse_sound
    (hrel : forall bytes, rel bytes bytes) (h : store.Sound rel host pending) (id : String) :
    (store.removeResponse id).Sound rel host pending :=
  forget_sound hrel h rfl rfl (view_eraseResponse _ _ store id)
    (view_eraseResponse _ _ store id)

/-!
# Eviction
-/

inductive Evicts (store : ResponseStore) : Step ResponseStore -> Prop where
  | fits (h : ¬ store.overBudget) :
      Evicts store (.done store)
  | snapshot {key : CacheKey} {snapshots : ByteLruPolicy CacheKey}
      (h : store.overBudget)
      (hpop : store.snapshotsLru.popOldest = (some key, snapshots)) :
      Evicts store (.next ({ store with snapshotsLru := snapshots }.dropSnapshot key))
  | record {key : CacheKey} {snapshots records : ByteLruPolicy CacheKey}
      (h : store.overBudget)
      (hnone : store.snapshotsLru.popOldest = (none, snapshots))
      (hpop : store.recordsLru.popOldest = (some key, records)) :
      Evicts store
        (.next ({ store with snapshotsLru := snapshots, recordsLru := records }.removeRecord
          key))
  | empty {snapshots records : ByteLruPolicy CacheKey}
      (h : store.overBudget)
      (hnone : store.snapshotsLru.popOldest = (none, snapshots))
      (hpop : store.recordsLru.popOldest = (none, records)) :
      Evicts store (.done { store with snapshotsLru := snapshots, recordsLru := records })

theorem evict_evicts (store : ResponseStore) : store.Evicts store.evict := by
  unfold evict
  by_cases hover : store.overBudget
  · rw [if_pos hover]
    cases hsnapshots : store.snapshotsLru.popOldest with
    | mk popped snapshots =>
      cases popped with
      | some key => exact Evicts.snapshot hover hsnapshots
      | none =>
        cases hrecords : store.recordsLru.popOldest with
        | mk poppedRecord records =>
          cases poppedRecord with
          | some key => exact Evicts.record hover hsnapshots hrecords
          | none => exact Evicts.empty hover hsnapshots hrecords
  · rw [if_neg hover]
    exact Evicts.fits hover

section

variable (store : ResponseStore) (key : CacheKey)

theorem dropSnapshot_policies :
    (store.dropSnapshot key).recordsLru = store.recordsLru ∧
      (store.dropSnapshot key).snapshotsLru = store.snapshotsLru ∧
      (store.dropSnapshot key).maxBytes = store.maxBytes := by
  unfold dropSnapshot
  cases key with
  | response id =>
    dsimp only
    split
    · exact ⟨rfl, rfl, rfl⟩
    · exact ⟨rfl, rfl, rfl⟩
  | conversation id =>
    dsimp only
    split
    · exact ⟨rfl, rfl, rfl⟩
    · exact ⟨rfl, rfl, rfl⟩

theorem removeRecord_recordsLru :
    (store.removeRecord key).recordsLru = store.recordsLru := by
  cases key with
  | response id => rfl
  | conversation id => rfl

theorem removeRecord_snapshotsLru :
    (store.removeRecord key).snapshotsLru = store.snapshotsLru.removed key := by
  cases key with
  | response id => rfl
  | conversation id => rfl

theorem removeRecord_maxBytes :
    (store.removeRecord key).maxBytes = store.maxBytes := by
  cases key with
  | response id => rfl
  | conversation id => rfl

end

theorem view_removeRecord {part : Type} (ofResponse : StoredResponse -> Option part)
    (ofConversation : ConversationRecord -> Option part) (store : ResponseStore) (key : CacheKey) :
    (store.removeRecord key).view ofResponse ofConversation =
      Function.update (store.view ofResponse ofConversation) key none := by
  cases key with
  | response id => exact view_eraseResponse ofResponse ofConversation store id
  | conversation id => exact view_eraseConversation ofResponse ofConversation store id

theorem popSnapshot_sound {snapshots : ByteLruPolicy CacheKey}
    (hrel : forall bytes, rel bytes bytes) (h : store.Sound rel host pending)
    (hpop : store.snapshotsLru.Pops key snapshots) :
    ({ store with snapshotsLru := snapshots }.dropSnapshot key).Sound rel host pending := by
  rcases dropSnapshot_policies { store with snapshotsLru := snapshots } key with
    ⟨hrecordsLru, hsnapshotsLru, _⟩
  have hrecordBytes : ({ store with snapshotsLru := snapshots }.dropSnapshot key).recordBytes =
      store.recordBytes := recordBytes_dropSnapshot _ key
  have hheldBytes : ({ store with snapshotsLru := snapshots }.dropSnapshot key).heldBytes host =
      Function.update (store.heldBytes host) key none := heldBytes_dropSnapshot host _ key
  constructor
  · rw [hrecordsLru]
    exact h.records
  · rw [hsnapshotsLru]
    exact hpop.sound
  · rw [hrecordsLru]
    exact h.recordsUnlimited
  · rw [hsnapshotsLru]
    exact hpop.maxBytes.trans h.snapshotsUnlimited
  · intro other hother
    rw [hrecordsLru, hrecordBytes]
    exact h.recorded other hother
  · intro other hother
    rw [hsnapshotsLru, hheldBytes]
    change rel (snapshots.recorded other) _
    rw [hpop.recorded]
    by_cases hkey : other = key
    · rw [hkey, Function.update_self, Function.update_self]
      exact hrel none
    · rw [Function.update_of_ne hkey, Function.update_of_ne hkey]
      exact h.tracked other hother

theorem popRecord_sound {snapshots records : ByteLruPolicy CacheKey}
    (hrel : forall bytes, rel bytes bytes) (h : store.Sound rel host pending)
    (hempty : snapshots = { store.snapshotsLru with oldest := [] })
    (hnone : forall other, store.snapshotsLru.entries.lookup other = none)
    (hpop : store.recordsLru.Pops key records) :
    ({ store with snapshotsLru := snapshots, recordsLru := records }.removeRecord
      key).Sound rel host pending := by
  have hsnapshots : snapshots.Sound := by
    rw [hempty]
    refine { h.snapshots with sorted := List.Pairwise.nil, current := ?_ }
    intro other entry hentry
    rw [hnone other] at hentry
    cases hentry
  have hrecorded : snapshots.recorded = store.snapshotsLru.recorded := by
    rw [hempty]
    rfl
  have hunlimited : snapshots.maxBytes = u64Max := by
    rw [hempty]
    exact h.snapshotsUnlimited
  constructor
  · rw [removeRecord_recordsLru]
    exact hpop.sound
  · rw [removeRecord_snapshotsLru]
    exact ByteLruPolicy.removed_sound hsnapshots key
  · rw [removeRecord_recordsLru]
    exact hpop.maxBytes.trans h.recordsUnlimited
  · rw [removeRecord_snapshotsLru, ByteLruPolicy.maxBytes_removed]
    exact hunlimited
  · intro other hother
    rw [removeRecord_recordsLru]
    unfold recordBytes
    rw [view_removeRecord]
    change records.recorded other = _
    rw [hpop.recorded]
    by_cases hkey : other = key
    · rw [hkey, Function.update_self, Function.update_self]
    · rw [Function.update_of_ne hkey, Function.update_of_ne hkey]
      exact h.recorded other hother
  · intro other hother
    rw [removeRecord_snapshotsLru]
    unfold heldBytes
    rw [view_removeRecord, ByteLruPolicy.recorded_removed]
    change rel (Function.update snapshots.recorded key none other) _
    rw [hrecorded]
    by_cases hkey : other = key
    · rw [hkey, Function.update_self, Function.update_self]
      exact hrel none
    · rw [Function.update_of_ne hkey, Function.update_of_ne hkey]
      exact h.tracked other hother

/-- The number of heap elements, which every round of the loop decreases. -/
def heapSize (store : ResponseStore) : Nat :=
  store.snapshotsLru.oldest.length + store.recordsLru.oldest.length

theorem removed_oldest (policy : ByteLruPolicy CacheKey) (key : CacheKey) :
    (policy.removed key).oldest = policy.oldest := by
  cases hkey : policy.entries.lookup key with
  | none => rw [ByteLruPolicy.removed_of_missing hkey]
  | some entry => rw [ByteLruPolicy.removed_of_lookup hkey]

theorem evict_next_sound
    {next : ResponseStore} (hrel : forall bytes, rel bytes bytes) (h : store.Sound rel host pending)
    (hnext : store.evict = .next next) :
    next.Sound rel host pending ∧ next.heapSize < store.heapSize := by
  have hevicts := evict_evicts store
  rw [hnext] at hevicts
  cases hevicts with
  | snapshot hover hpop =>
    have hpops := ByteLruPolicy.popOldest_some h.snapshots hpop
    refine ⟨popSnapshot_sound hrel h hpops, ?_⟩
    rename_i key snapshots
    rcases dropSnapshot_policies { store with snapshotsLru := snapshots } key with
      ⟨hrecordsLru, hsnapshotsLru, _⟩
    unfold heapSize
    rw [hrecordsLru, hsnapshotsLru]
    exact Nat.add_lt_add_right hpops.shrinks _
  | record hover hnone hpop =>
    rcases ByteLruPolicy.popOldest_none h.snapshots hnone with ⟨hmissing, hempty⟩
    have hpops := ByteLruPolicy.popOldest_some h.records hpop
    refine ⟨popRecord_sound hrel h hempty hmissing hpops, ?_⟩
    unfold heapSize
    rw [removeRecord_recordsLru, removeRecord_snapshotsLru, removed_oldest]
    dsimp only
    rw [hempty]
    exact Nat.lt_of_lt_of_le (Nat.add_lt_add_left hpops.shrinks 0)
      (Nat.add_le_add_right (Nat.zero_le _) _)

theorem evict_done
    {final : ResponseStore} (h : store.Sound rel host pending) (hdone : store.evict = .done final) :
    ¬ store.overBudget ∧ final = store := by
  have hevicts := evict_evicts store
  rw [hdone] at hevicts
  cases hevicts with
  | fits hfits => exact ⟨hfits, rfl⟩
  | empty hover hnone hpop =>
    rcases ByteLruPolicy.popOldest_none h.snapshots hnone with ⟨hsnapshots, _⟩
    rcases ByteLruPolicy.popOldest_none h.records hpop with ⟨hrecords, _⟩
    unfold overBudget at hover
    rw [ByteLruPolicy.resident_eq_zero h.snapshots hsnapshots,
      ByteLruPolicy.resident_eq_zero h.records hrecords] at hover
    exact absurd hover (Nat.not_lt_zero _)

/-- The heads of the eviction loop that started from `start`. -/
def Passes (start store : ResponseStore) : Prop :=
  Reach (Library.total evict) start store

theorem enforceBudget_passes
    (hrel : forall bytes, rel bytes bytes) (h : store.Sound rel host pending) :
    Passes store store.enforceBudget ∧ store.enforceBudget.Sound rel host pending ∧
      ¬ store.enforceBudget.overBudget := by
  rcases iterate_leaves (fun s => s.Sound rel host pending) heapSize
      (fun s following hs hbody => evict_next_sound hrel hs hbody)
      (ReachThrough.start : Reach (Library.total evict) store store) h
      (Nat.lt_succ_self _) with ⟨last, hreach, hlast, hdone⟩
  rcases evict_done hlast hdone with ⟨hfits, hfinal⟩
  change iterate evict (store.heapSize + 1) store = last at hfinal
  unfold enforceBudget
  change Passes store (iterate evict (store.heapSize + 1) store) ∧
    (iterate evict (store.heapSize + 1) store).Sound rel host pending ∧
      ¬ (iterate evict (store.heapSize + 1) store).overBudget
  rw [hfinal]
  exact ⟨hreach, hlast, hfits⟩

theorem passes_invariant
    {start : ResponseStore} (inv : ResponseStore -> Prop) (hstart : inv start)
    (hstep : forall s following, inv s -> s.evict = .next following -> inv following)
    (h : Passes start store) :
    inv store :=
  reach_invariant inv hstart
    (fun s following hs _ hbody => hstep s following hs (Except.ok.inj hbody)) h

/-!
# Calls that insert nothing
-/

inductive Tends (host : StoreHost) (start : ResponseStore) : ResponseStore -> Prop where
  | start : Tends host start start
  | touchRecord {store : ResponseStore} {key : CacheKey} {bytes : Nat}
      (h : Tends host start store)
      (hbytes : store.recordBytes key = some bytes) :
      Tends host start (store.touchRecord key bytes)
  | touchSnapshot {store : ResponseStore} {key : CacheKey} {bytes : Nat}
      (h : Tends host start store)
      (hbytes : store.heldBytes host key = some bytes) :
      Tends host start (store.touchSnapshot key bytes)
  | removeResponse {store : ResponseStore} (id : String)
      (h : Tends host start store) :
      Tends host start (store.removeResponse id)
  | removeConversation {store : ResponseStore} (id : String)
      (h : Tends host start store) :
      Tends host start
        ({ store with conversations := store.conversations.erase id }.forget
          (.conversation id))

theorem Tends.trans
    {first second third : ResponseStore} (h : Tends host first second)
    (hnext : Tends host second third) :
    Tends host first third := by
  induction hnext with
  | start => exact h
  | touchRecord _ hbytes ih => exact Tends.touchRecord ih hbytes
  | touchSnapshot _ hbytes ih => exact Tends.touchSnapshot ih hbytes
  | removeResponse id _ ih => exact Tends.removeResponse id ih
  | removeConversation id _ ih => exact Tends.removeConversation id ih

theorem pruneExpired_tends (store : ResponseStore) (now : Nat) :
    Tends host store (store.pruneExpired now) := by
  have hfold : forall (expired : List String) (current : ResponseStore),
      Tends host store current -> Tends host store (expired.foldl removeResponse current) := by
    intro expired
    induction expired with
    | nil => exact fun _ h => h
    | cons id rest ih => exact fun current h => ih _ (Tends.removeResponse id h)
  exact hfold _ store Tends.start

theorem Tends.sound
    {start : ResponseStore} (hrel : forall bytes, rel bytes bytes) (h : Tends host start store)
    (hstart : start.Sound rel host nothingPending) :
    store.Sound rel host nothingPending := by
  induction h with
  | start => exact hstart
  | touchRecord _ hbytes ih =>
    exact touchRecord_sound ih hbytes (fun other hother => Or.inr hother)
      (fun hkey => ih.tracked _ hkey)
  | touchSnapshot _ hbytes ih => exact touchSnapshot_sound hrel ih hbytes
  | removeResponse id _ ih => exact removeResponse_sound hrel ih id
  | removeConversation id _ ih =>
    exact forget_sound hrel ih rfl rfl (view_eraseConversation _ _ _ id)
      (view_eraseConversation _ _ _ id)

/-!
## The reading calls
-/

variable {id : String}

theorem recordBytes_response {entry : StoredResponse} (h : store.responses.lookup id = some entry) :
    store.recordBytes (.response id) = some entry.bytes := by
  unfold recordBytes view
  dsimp only
  rw [h]
  rfl

theorem recordBytes_conversation {record : ConversationRecord}
    (h : store.conversations.lookup id = some record) :
    store.recordBytes (.conversation id) = some record.bytes := by
  unfold recordBytes view
  dsimp only
  rw [h]
  rfl

theorem heldBytes_response {entry : StoredResponse} (h : store.responses.lookup id = some entry) :
    store.heldBytes host (.response id) =
      entry.sequenceState.map (EngineSequenceState.byteSize host) := by
  unfold heldBytes view
  dsimp only
  rw [h]
  rfl

theorem heldBytes_conversation {record : ConversationRecord}
    (h : store.conversations.lookup id = some record) :
    store.heldBytes host (.conversation id) =
      record.sequenceState.map (EngineSequenceState.byteSize host) := by
  unfold heldBytes view
  dsimp only
  rw [h]
  rfl

theorem readResponse_tends (id : String) (store : ResponseStore) :
    Tends host store (readResponse id store).1 := by
  unfold readResponse
  cases hid : store.responses.lookup id with
  | none => exact Tends.start
  | some entry =>
    dsimp only
    have htouched : Tends host store (store.touchRecord (.response id) entry.bytes) :=
      Tends.touchRecord Tends.start (recordBytes_response hid)
    split
    · exact htouched
    · exact htouched

theorem touchEntry_tends {bytes : Nat} {state : Option EngineSequenceState}
    (hbytes : store.recordBytes key = some bytes)
    (hheld : store.heldBytes host key = state.map (EngineSequenceState.byteSize host)) :
    Tends host store (store.touchEntry host key bytes state) := by
  have htouched := Tends.touchRecord (Tends.start : Tends host store store) hbytes
  unfold touchEntry
  cases state with
  | none => exact htouched
  | some state => exact Tends.touchSnapshot htouched hheld

section

variable (id : String) (store : ResponseStore)

theorem responseContext_tends :
    Tends host store (responseContext id host store).1 := by
  unfold responseContext
  cases hid : store.responses.lookup id with
  | none => exact Tends.start
  | some entry =>
    have htouched := touchEntry_tends (recordBytes_response hid)
      (heldBytes_response hid : store.heldBytes host _ = _)
    dsimp only
    split
    · exact htouched
    · exact htouched

theorem conversationContext_tends :
    Tends host store (conversationContext id host store).1 := by
  unfold conversationContext
  cases hid : store.conversations.lookup id with
  | none => exact Tends.start
  | some record =>
    have htouched := touchEntry_tends (recordBytes_conversation hid)
      (heldBytes_conversation hid : store.heldBytes host _ = _)
    dsimp only
    split
    · exact htouched
    · exact htouched

theorem getConversation_tends :
    Tends host store (getConversation id store).1 := by
  unfold getConversation
  cases hid : store.conversations.lookup id with
  | none => exact Tends.start
  | some record =>
    dsimp only
    have htouched : Tends host store (store.touchRecord (.conversation id) record.bytes) :=
      Tends.touchRecord Tends.start (recordBytes_conversation hid)
    split
    · exact htouched
    · exact htouched

theorem deleteResponse_tends :
    Tends host store (deleteResponse id store).1 := by
  unfold deleteResponse
  split
  · exact Tends.start
  · exact Tends.removeResponse id Tends.start

theorem deleteConversation_tends :
    Tends host store (deleteConversation id store).1 := by
  unfold deleteConversation
  split
  · exact Tends.start
  · exact Tends.removeConversation id Tends.start

end

theorem tends_trans (first second third : ResponseStore)
    (h : Tends host first second) (hnext : Tends host second third) :
    Tends host first third :=
  h.trans hnext

theorem tends_refl (store : ResponseStore) : Tends host store store :=
  Tends.start

theorem pruning_moves (now : Nat) :
    (InPlace.modifying (fun store => store.pruneExpired now) :
      InPlace ApiError ResponseStore Unit).Moves (Tends host) :=
  InPlace.moves_modifying (fun store => pruneExpired_tends store now)

theorem getResponse_tends (id : String) (now : Nat) :
    (getResponse id now).Moves (Tends host) := by
  refine InPlace.moves_bind tends_trans (pruning_moves now) (fun _ => ?_)
  refine InPlace.moves_bind tends_trans (readResponse_tends id) (fun entry => ?_)
  exact InPlace.moves_pure tends_refl _

theorem getInputItems_tends (id : String) (now : Nat) (descending : Bool)
    (after : Option String) (limit : Nat) :
    (getInputItems id now descending after limit).Moves (Tends host) := by
  refine InPlace.moves_bind tends_trans (pruning_moves now) (fun _ => ?_)
  refine InPlace.moves_bind tends_trans (readResponse_tends id) (fun entry => ?_)
  refine InPlace.moves_bind tends_trans (InPlace.moves_reading tends_refl _) (fun start => ?_)
  exact InPlace.moves_pure tends_refl _

theorem continuedContext_tends (previousResponseId conversationId : Option String) :
    (continuedContext host previousResponseId conversationId).Moves (Tends host) := by
  cases previousResponseId with
  | some responseId => exact responseContext_tends responseId
  | none =>
    cases conversationId with
    | some conversationId => exact conversationContext_tends conversationId
    | none => exact InPlace.moves_pure tends_refl _

theorem resolve_tends (request : ResponseRequest) (now : Nat) :
    (resolve host request now).Moves (Tends host) := by
  refine InPlace.moves_bind tends_trans (pruning_moves now) (fun _ => ?_)
  refine InPlace.moves_bind tends_trans (InPlace.moves_reading tends_refl _)
    (fun previousResponseId => ?_)
  refine InPlace.moves_bind tends_trans (InPlace.moves_reading tends_refl _)
    (fun conversationId => ?_)
  refine InPlace.moves_ite (InPlace.moves_failing tends_refl _) ?_
  refine InPlace.moves_bind tends_trans (InPlace.moves_reading tends_refl _) (fun _ => ?_)
  refine InPlace.moves_bind tends_trans
    (continuedContext_tends previousResponseId conversationId) (fun context => ?_)
  exact InPlace.moves_ite (InPlace.moves_failing tends_refl _) (InPlace.moves_pure tends_refl _)

end Primitives

end ResponseStore

end Server
end RunNBurn
