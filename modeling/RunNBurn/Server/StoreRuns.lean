import RunNBurn.Server.StoreCommit

/-!
# Runs of the session store

After every call the two policies record exactly what the two maps hold, their
counters are the sums of what they record, and the budget is kept.
-/

namespace RunNBurn
namespace Server

open Library
open Memory

/-!
# Generated conversation ids

The serial can be read back from the id, so distinct serials give distinct ids.
-/

def hexDigit (digit : Char) : Nat :=
  "0123456789abcdef".toList.idxOf digit

def hexValue (digits : List Char) : Nat :=
  digits.foldl (fun value digit => value * 16 + hexDigit digit) 0

theorem hexDigit_digitChar {d : Nat} (h : d < 16) : hexDigit d.digitChar = d := by
  decide +revert

theorem digitChar_ne_underscore {d : Nat} (h : d < 16) : d.digitChar ≠ '_' := by
  decide +revert

theorem hexValue_toDigits (n : Nat) : hexValue (Nat.toDigits 16 n) = n := by
  induction n using Nat.strong_induction_on with
  | h n ih =>
    by_cases hn : n < 16
    · rw [Nat.toDigits_of_lt_base hn]
      exact (Nat.zero_add _).trans (hexDigit_digitChar hn)
    · have hbase : 16 <= n := Nat.le_of_not_lt hn
      rw [Nat.toDigits_of_base_le (by decide) hbase]
      unfold hexValue
      rw [List.foldl_append]
      change hexValue (Nat.toDigits 16 (n / 16)) * 16 + hexDigit (n % 16).digitChar = n
      rw [ih (n / 16) (Nat.div_lt_self (by omega) (by decide)),
        hexDigit_digitChar (Nat.mod_lt n (by decide))]
      exact Nat.div_add_mod' n 16

theorem underscore_notMem_hex (n : Nat) : '_' ∉ Nat.toDigits 16 n := by
  induction n using Nat.strong_induction_on with
  | h n ih =>
    by_cases hn : n < 16
    · rw [Nat.toDigits_of_lt_base hn, List.mem_singleton]
      exact (digitChar_ne_underscore hn).symm
    · have hbase : 16 <= n := Nat.le_of_not_lt hn
      rw [Nat.toDigits_of_base_le (by decide) hbase, List.mem_append, List.mem_singleton]
      rintro (hrest | hlast)
      · exact ih (n / 16) (Nat.div_lt_self (by omega) (by decide)) hrest
      · exact digitChar_ne_underscore (Nat.mod_lt n (by decide)) hlast.symm

theorem ResponseStore.generatedConversationId_toList (now serial : Nat) :
    (ResponseStore.generatedConversationId now serial).toList =
      "conv_".toList ++ (Nat.toDigits 10 now ++ '_' :: Nat.toDigits 16 serial) := by
  have hserial : (String.ofList (Nat.toDigits 16 serial)).toList = Nat.toDigits 16 serial :=
    String.toList_ofList
  change ("conv_" ++ now.repr ++ "_" ++ String.ofList (Nat.toDigits 16 serial)).toList = _
  rw [String.toList_append, String.toList_append, String.toList_append, Nat.toList_repr,
    hserial, List.append_assoc, List.append_assoc]
  rfl

theorem ResponseStore.generatedConversationId_serial
    {now later serial other : Nat} (h : ResponseStore.generatedConversationId now serial =
      ResponseStore.generatedConversationId later other) :
    serial = other := by
  have htext := congrArg String.toList h
  rw [ResponseStore.generatedConversationId_toList,
    ResponseStore.generatedConversationId_toList] at htext
  have hrest := List.append_cancel_left htext
  have hdigits := ((List.append_cons_inj_of_notMem Nat.underscore_not_in_toDigits
    (underscore_notMem_hex serial)).mp hrest).2.2
  rw [← hexValue_toDigits serial, hdigits, hexValue_toDigits]

namespace ResponseStore

/-!
# Budgets under eviction
-/

section Accounting

variable {rel : Option Nat -> Option Nat -> Prop} {host : StoreHost}
  {pending : CacheKey -> Prop} {store : ResponseStore}

/-- What one round of the eviction loop does to the counters and the maps. -/
structure EvictedFrom (store next : ResponseStore) : Prop where
  exact : store.Exact -> next.Exact
  recordsTotal : next.recordsLru.totalBytes <= store.recordsLru.totalBytes
  snapshotsTotal : next.snapshotsLru.totalBytes <= store.snapshotsLru.totalBytes
  maxBytes : next.maxBytes = store.maxBytes
  keys : forall key, store.recordBytes key = none -> next.recordBytes key = none

theorem evict_next_evictedFrom
    {next : ResponseStore} (h : store.Sound rel host pending) (hnext : store.evict = .next next) :
    EvictedFrom store next := by
  have hevicts := evict_evicts store
  rw [hnext] at hevicts
  cases hevicts with
  | snapshot hover hpop =>
    rename_i key snapshots
    have hpops := ByteLruPolicy.popOldest_some h.snapshots hpop
    rcases dropSnapshot_policies { store with snapshotsLru := snapshots } key with
      ⟨hrecordsLru, hsnapshotsLru, hmax⟩
    constructor
    · intro hexact
      constructor
      · rw [hrecordsLru]
        exact hexact.records
      · rw [hsnapshotsLru]
        exact hpops.resident_eq hexact.snapshots
    · rw [hrecordsLru]
    · rw [hsnapshotsLru]
      exact hpops.totalBytes_le
    · exact hmax
    · intro other hother
      rw [recordBytes_dropSnapshot]
      exact hother
  | record hover hnone hpop =>
    rename_i key snapshots records
    rcases ByteLruPolicy.popOldest_none h.snapshots hnone with ⟨_, hempty⟩
    have hpops := ByteLruPolicy.popOldest_some h.records hpop
    have hsnapshots : snapshots.totalBytes = store.snapshotsLru.totalBytes := by
      rw [hempty]
      rfl
    constructor
    · intro hexact
      constructor
      · rw [removeRecord_recordsLru]
        exact hpops.resident_eq hexact.records
      · rw [removeRecord_snapshotsLru]
        apply ByteLruPolicy.resident_removed_eq
        rw [hempty]
        exact hexact.snapshots
    · rw [removeRecord_recordsLru]
      exact hpops.totalBytes_le
    · rw [removeRecord_snapshotsLru, ← hsnapshots]
      exact ByteLruPolicy.totalBytes_removed_le snapshots key
    · rw [removeRecord_maxBytes]
    · intro other hother
      unfold recordBytes
      rw [view_removeRecord]
      by_cases hkey : other = key
      · rw [hkey]
        exact Function.update_self _ _ _
      · rw [Function.update_of_ne hkey]
        exact hother

theorem EvictedFrom.refl (store : ResponseStore) : EvictedFrom store store where
  exact := id
  recordsTotal := Nat.le_refl _
  snapshotsTotal := Nat.le_refl _
  maxBytes := rfl
  keys := fun _ h => h

theorem EvictedFrom.trans
    {first second third : ResponseStore} (h : EvictedFrom first second)
    (hnext : EvictedFrom second third) :
    EvictedFrom first third where
  exact := fun hexact => hnext.exact (h.exact hexact)
  recordsTotal := Nat.le_trans hnext.recordsTotal h.recordsTotal
  snapshotsTotal := Nat.le_trans hnext.snapshotsTotal h.snapshotsTotal
  maxBytes := hnext.maxBytes.trans h.maxBytes
  keys := fun key hkey => hnext.keys key (h.keys key hkey)

theorem enforceBudget_evictedFrom
    (hrel : forall bytes, rel bytes bytes) (h : store.Sound rel host pending) :
    EvictedFrom store store.enforceBudget := by
  rcases enforceBudget_passes hrel h with ⟨hpasses, _, _⟩
  have hboth := passes_invariant
    (fun reached => reached.Sound rel host pending ∧ EvictedFrom store reached)
    ⟨h, EvictedFrom.refl store⟩
    (fun s following hs hnext =>
      ⟨(evict_next_sound hrel hs.1 hnext).1, hs.2.trans (evict_next_evictedFrom hs.1 hnext)⟩)
    hpasses
  exact hboth.2

theorem enforceBudget_fits
    (hrel : forall bytes, rel bytes bytes) (h : store.Sound rel host pending) (hexact : store.Exact)
    (htotals : store.recordsLru.totalBytes + store.snapshotsLru.totalBytes <= u64Max) :
    store.enforceBudget.recordsLru.residentBytes +
      store.enforceBudget.snapshotsLru.residentBytes <= store.maxBytes := by
  have hevicted := enforceBudget_evictedFrom hrel h
  rcases enforceBudget_passes hrel h with ⟨_, _, hfits⟩
  have hfinal := hevicted.exact hexact
  have hsum : store.enforceBudget.recordsLru.residentBytes +
      store.enforceBudget.snapshotsLru.residentBytes <= u64Max := by
    rw [hfinal.records, hfinal.snapshots]
    exact Nat.le_trans (Nat.add_le_add hevicted.recordsTotal hevicted.snapshotsTotal) htotals
  have hwithin := Nat.le_of_not_lt hfits
  rw [saturatingAdd_of_le hsum, hevicted.maxBytes] at hwithin
  exact hwithin

/-!
# The accounts of the store
-/

structure Accounted (host : StoreHost) (maxBytes : Nat) (store : ResponseStore) : Prop where
  sound : store.Sound Eq host nothingPending
  exact : store.Exact
  budget : store.maxBytes = maxBytes
  fits : store.recordsLru.residentBytes + store.snapshotsLru.residentBytes <= maxBytes

theorem new_accounted (host : StoreHost) (maxBytes : Nat) :
    Accounted host maxBytes (new maxBytes) where
  sound := new_sound (fun _ => rfl) maxBytes
  exact := new_exact maxBytes
  budget := rfl
  fits := Nat.zero_le _

theorem resident_removed_le (policy : ByteLruPolicy CacheKey) (key : CacheKey) :
    (policy.removed key).residentBytes <= policy.residentBytes := by
  cases hkey : policy.entries.lookup key with
  | none => rw [ByteLruPolicy.removed_of_missing hkey]
  | some entry =>
    rw [ByteLruPolicy.removed_of_lookup hkey]
    exact Nat.sub_le _ _

theorem forget_accounted
    {maxBytes : Nat} {erased : ResponseStore} {key : CacheKey}
    (hsound : (erased.forget key).Sound Eq host nothingPending) (h : Accounted host maxBytes store)
    (hrecords : erased.recordsLru = store.recordsLru)
    (hsnapshots : erased.snapshotsLru = store.snapshotsLru)
    (hmax : erased.maxBytes = store.maxBytes) :
    Accounted host maxBytes (erased.forget key) where
  sound := hsound
  exact := by
    apply forget_exact
    constructor
    · rw [hrecords]
      exact h.exact.records
    · rw [hsnapshots]
      exact h.exact.snapshots
  budget := hmax.trans h.budget
  fits := by
    refine Nat.le_trans (Nat.add_le_add (resident_removed_le _ key) (resident_removed_le _ key)) ?_
    rw [hrecords, hsnapshots]
    exact h.fits

theorem Tends.accounted
    {maxBytes : Nat} {start : ResponseStore} (h : Tends host start store)
    (hstart : Accounted host maxBytes start) :
    Accounted host maxBytes store := by
  have hsound := h.sound (fun _ => rfl) hstart.sound
  induction h with
  | start => exact hstart
  | @touchRecord reached key bytes hreached hbytes ih =>
    have hreachedSound := hreached.sound (fun _ => rfl) hstart.sound
    have haccounted := ih hreachedSound
    have hrecorded : reached.recordsLru.recorded key = some bytes :=
      (hreachedSound.recorded key id).trans hbytes
    rw [touchRecord_eq hreachedSound.recordsUnlimited] at hsound ⊢
    have hsame := ByteLruPolicy.resident_account_same hreachedSound.records
      haccounted.exact.records hrecorded
    refine {
      sound := hsound
      exact := ⟨?_, haccounted.exact.snapshots⟩
      budget := haccounted.budget
      fits := ?_ }
    · exact hsame.trans (haccounted.exact.records.trans
        (ByteLruPolicy.totalBytes_account_same hrecorded).symm)
    · dsimp only
      rw [hsame]
      exact haccounted.fits
  | @touchSnapshot reached key bytes hreached hbytes ih =>
    have hreachedSound := hreached.sound (fun _ => rfl) hstart.sound
    have haccounted := ih hreachedSound
    have hrecorded : reached.snapshotsLru.recorded key = some bytes :=
      (hreachedSound.tracked key id).trans hbytes
    rw [touchSnapshot_eq hreachedSound.snapshotsUnlimited] at hsound ⊢
    have hsame := ByteLruPolicy.resident_account_same hreachedSound.snapshots
      haccounted.exact.snapshots hrecorded
    refine {
      sound := hsound
      exact := ⟨haccounted.exact.records, ?_⟩
      budget := haccounted.budget
      fits := ?_ }
    · exact hsame.trans (haccounted.exact.snapshots.trans
        (ByteLruPolicy.totalBytes_account_same hrecorded).symm)
    · dsimp only
      rw [hsame]
      exact haccounted.fits
  | removeResponse id hreached ih =>
    have haccounted := ih (hreached.sound (fun _ => rfl) hstart.sound)
    exact forget_accounted hsound haccounted rfl rfl rfl
  | removeConversation id hreached ih =>
    have haccounted := ih (hreached.sound (fun _ => rfl) hstart.sound)
    exact forget_accounted hsound haccounted rfl rfl rfl

theorem enforceBudget_accounted
    (h : store.Sound Eq host nothingPending) (hexact : store.Exact)
    (htotals : store.recordsLru.totalBytes + store.snapshotsLru.totalBytes <= u64Max) :
    Accounted host store.maxBytes store.enforceBudget where
  sound := (enforceBudget_passes (fun _ => rfl) h).2.1
  exact := (enforceBudget_evictedFrom (fun _ => rfl) h).exact hexact
  budget := (enforceBudget_evictedFrom (fun _ => rfl) h).maxBytes
  fits := enforceBudget_fits (fun _ => rfl) h hexact htotals

theorem insertConversation_recordsLru
    (h : store.recordsLru.maxBytes = u64Max) (id : String) (record : ConversationRecord) :
    (insertConversation id record store).recordsLru =
      store.recordsLru.account (.conversation id) record.bytes :=
  congrArg Prod.snd (ByteLruPolicy.touch_unlimited h _ _)

theorem insertConversation_exact
    {id : String} {record : ConversationRecord} (h : store.Sound Eq host nothingPending)
    (hexact : store.Exact)
    (htotal : (insertConversation id record store).recordsLru.totalBytes <= u64Max) :
    (insertConversation id record store).Exact := by
  constructor
  · rw [insertConversation_recordsLru h.recordsUnlimited] at htotal ⊢
    exact ByteLruPolicy.resident_account_eq hexact.records htotal
  · exact hexact.snapshots

theorem heldBytes_eq_none
    {key : CacheKey} (h : store.recordBytes key = none) :
    store.heldBytes host key = none := by
  unfold recordBytes heldBytes view at *
  cases key with
  | response id =>
    dsimp only at h ⊢
    cases hid : store.responses.lookup id with
    | none => rfl
    | some entry =>
      rw [hid] at h
      cases h
  | conversation id =>
    dsimp only at h ⊢
    cases hid : store.conversations.lookup id with
    | none => rfl
    | some record =>
      rw [hid] at h
      cases h

theorem snapshot_of_fresh
    {key : CacheKey} (h : store.Sound Eq host nothingPending)
    (hfresh : store.recordBytes key = none) :
    store.snapshotsLru.recorded key = none :=
  (h.tracked key id).trans (heldBytes_eq_none hfresh)

theorem stages_maxBytes (host : StoreHost) (request : CommitRequest) (bytes : Option Nat)
    (store : ResponseStore) :
    (stages host request bytes store).maxBytes = store.maxBytes := by
  unfold stages
  rw [(touchStage_maps _).2.2, responseStage_conversations.2]
  unfold conversationStage
  split
  · split
    · rfl
    · rfl
  · rfl

end Accounting

end ResponseStore

/-!
# One call
-/

namespace StoreOp

def responseId : StoreOp -> Option String
  | commit request => some request.responseId
  | _ => none

def serial : StoreOp -> Option Nat
  | createConversation _ _ serial => some serial
  | _ => none

def newKey : StoreOp -> Option CacheKey
  | commit request => some (.response request.responseId)
  | createConversation _ now serial =>
    some (.conversation (ResponseStore.generatedConversationId now serial))
  | _ => none

/-- The bytes that both policies record once the call has written, and before it
evicts, sum up below the counter limit. -/
def SumsFit (host : StoreHost) (store : ResponseStore) : StoreOp -> Prop
  | commit request =>
    forall bytes, ResponseStore.commitSizes host request store = .ok bytes ->
      let written := (ResponseStore.commitWrites host request bytes store).1
      written.recordsLru.totalBytes + written.snapshotsLru.totalBytes <= u64Max
  | createConversation request now serial =>
    forall metadata, normalizeMetadata request.metadata = .ok metadata ->
      let written := ResponseStore.insertConversation
        (ResponseStore.generatedConversationId now serial)
        (ResponseStore.createdRecord host request now metadata) store
      written.recordsLru.totalBytes + written.snapshotsLru.totalBytes <= u64Max
  | _ => True

end StoreOp

namespace ResponseStore

section Calls

variable {host : StoreHost} {maxBytes : Nat} {store : ResponseStore} {request : CommitRequest}

theorem commit_accounted (h : Accounted host maxBytes store)
    (hfresh : store.recordBytes (.response request.responseId) = none)
    (hfits : (StoreOp.commit request).SumsFit host store) :
    Accounted host maxBytes (commit host request store).1 := by
  have hcommits := commit_commits host request store
  generalize commit host request store = result at hcommits
  cases hcommits with
  | refused fault hfault => exact h
  | skipped hkeep hid => exact h
  | @written bytes hsizes hsized hid =>
    have htotals := hfits bytes hsizes
    rw [commitWrites_eq hsized] at htotals
    have hclear : request.keep = true -> request.snapshotBytes host = 0 ->
        store.snapshotsLru.recorded (.response request.responseId) = none :=
      fun _ _ => snapshot_of_fresh h.sound hfresh
    have hsound := stages_sound (fun _ => rfl) h.sound hsized hclear
    have hexact := stages_exact (fun _ => rfl) h.sound h.exact hsized hclear
      (Nat.le_trans (Nat.le_add_right _ _) htotals)
      (Nat.le_trans (Nat.le_add_left _ _) htotals)
    have haccounted := enforceBudget_accounted hsound hexact htotals
    rw [stages_maxBytes, h.budget] at haccounted
    exact haccounted

theorem createConversation_accounted
    {request : ConversationCreateRequest} {now serial : Nat} (h : Accounted host maxBytes store)
    (hfresh : store.recordBytes (.conversation (generatedConversationId now serial)) = none)
    (hfits : (StoreOp.createConversation request now serial).SumsFit host store) :
    Accounted host maxBytes (createConversation host request now serial store).1 := by
  have hcreates := createConversation_creates host request now serial store
  generalize (createConversation host request now serial store).1 = result at hcreates
  cases hcreates with
  | refused => exact h
  | @inserted metadata hmetadata =>
    have htotals := hfits metadata hmetadata
    have hstate : (createdRecord host request now metadata).sequenceState = none := rfl
    have hsound := insertConversation_sound h.sound _ hstate
      (snapshot_of_fresh h.sound hfresh)
    have hexact := insertConversation_exact h.sound h.exact
      (Nat.le_trans (Nat.le_add_right _ _) htotals)
    have haccounted := enforceBudget_accounted hsound hexact htotals
    have hmax : (insertConversation (generatedConversationId now serial)
        (createdRecord host request now metadata) store).maxBytes = maxBytes := h.budget
    rw [hmax] at haccounted
    exact haccounted

variable {key : CacheKey}

theorem Tends.keys {start : ResponseStore} (h : Tends host start store)
    (hkey : start.recordBytes key = none) :
    store.recordBytes key = none := by
  induction h with
  | start => exact hkey
  | touchRecord _ _ ih => exact ih
  | touchSnapshot _ _ ih => exact ih
  | @removeResponse reached id _ ih =>
    have hview : (reached.removeResponse id).recordBytes =
        Function.update reached.recordBytes (.response id) none :=
      view_eraseResponse _ _ reached id
    rw [hview]
    by_cases hsame : key = .response id
    · rw [hsame]
      exact Function.update_self _ _ _
    · rw [Function.update_of_ne hsame]
      exact ih
  | @removeConversation reached id _ ih =>
    have hview : ({ reached with conversations := reached.conversations.erase id }.forget
        (.conversation id)).recordBytes =
        Function.update reached.recordBytes (.conversation id) none :=
      view_eraseConversation _ _ reached id
    rw [hview]
    by_cases hsame : key = .conversation id
    · rw [hsame]
      exact Function.update_self _ _ _
    · rw [Function.update_of_ne hsame]
      exact ih

theorem recordBytes_congr
    {other : ResponseStore} (hresponses : other.responses = store.responses)
    (hconversations : other.conversations = store.conversations) :
    other.recordBytes = store.recordBytes :=
  view_congr _ _ store hresponses hconversations

theorem writeResponse_recordBytes (id : String) (entry : StoredResponse)
    (snapshotBytes : Nat) (store : ResponseStore) :
    (writeResponse id entry snapshotBytes store).recordBytes =
      Function.update store.recordBytes (.response id) (some entry.bytes) := by
  rcases touchBoth_maps { store with responses := store.responses.insert id entry }
    (.response id) entry.bytes snapshotBytes with ⟨hresponses, hconversations, _⟩
  exact (recordBytes_congr hresponses hconversations).trans (view_insertResponse _ _ store id entry)

/-- A commit writes records only under the keys of its response and of a
conversation that exists. -/
theorem stages_keys {bytes : Option Nat} (hsized : Sized host request store bytes)
    (hkey : store.recordBytes key = none) (hresponse : key ≠ .response request.responseId) :
    (stages host request bytes store).recordBytes key = none := by
  have hfirst : (conversationStage request bytes store).recordBytes key = none := by
    cases hid : request.conversationId with
    | none =>
      rw [conversationStage_none hid]
      exact hkey
    | some id =>
      rcases hsized.conversation_some hid with ⟨conversation, hlookup, _⟩
      rw [conversationStage_eq hid hlookup]
      refine (congrFun (view_insertConversation _ _ store id _) key).trans ?_
      have hother : key ≠ .conversation id := by
        intro hsame
        rw [hsame, recordBytes_conversation hlookup] at hkey
        cases hkey
      exact (Function.update_of_ne hother _ _).trans hkey
  have hsecond : (responseStage host request
      (conversationStage request bytes store)).recordBytes key = none := by
    cases hkeep : request.keep with
    | false =>
      rw [responseStage_of_drop hkeep]
      exact hfirst
    | true =>
      rcases responseBytes_of_keep hkeep with ⟨size, hsize⟩
      rw [responseStage_of_keep hsize, writeResponse_recordBytes]
      exact (Function.update_of_ne hresponse _ _).trans hfirst
  rcases touchStage_maps (responseStage host request
    (conversationStage request bytes store)) with ⟨hresponses, hconversations, _⟩
  exact (congrFun (recordBytes_congr hresponses hconversations) key).trans hsecond

theorem createConversation_keys {request : ConversationCreateRequest} {now serial : Nat}
    (h : Accounted host maxBytes store)
    (hfresh : store.recordBytes (.conversation (generatedConversationId now serial)) = none)
    (hkey : store.recordBytes key = none)
    (hother : key ≠ .conversation (generatedConversationId now serial)) :
    (createConversation host request now serial store).1.recordBytes key = none := by
  have hcreates := createConversation_creates host request now serial store
  generalize (createConversation host request now serial store).1 = result at hcreates
  cases hcreates with
  | refused => exact hkey
  | @inserted metadata hmetadata =>
    have hstate : (createdRecord host request now metadata).sequenceState = none := rfl
    have hsound := insertConversation_sound h.sound _ hstate
      (snapshot_of_fresh h.sound hfresh)
    apply (enforceBudget_evictedFrom (fun _ => rfl) hsound).keys
    refine (congrFun (view_insertConversation _ _ store _ _) key).trans ?_
    exact (Function.update_of_ne hother _ _).trans hkey

theorem commit_keys (h : Accounted host maxBytes store)
    (hfresh : store.recordBytes (.response request.responseId) = none)
    (hkey : store.recordBytes key = none) (hother : key ≠ .response request.responseId) :
    (commit host request store).1.recordBytes key = none := by
  have hcommits := commit_commits host request store
  generalize commit host request store = result at hcommits
  cases hcommits with
  | refused fault hfault => exact hkey
  | skipped hkeep hid => exact hkey
  | written hsizes hsized hid =>
    have hsound := stages_sound (fun _ => rfl) h.sound hsized
      (fun _ _ => snapshot_of_fresh h.sound hfresh)
    exact (enforceBudget_evictedFrom (fun _ => rfl) hsound).keys key
      (stages_keys hsized hkey hother)

end Calls

end ResponseStore

/-!
# Runs of calls
-/

namespace StoreOp

variable {host : StoreHost} {maxBytes : Nat} {store : ResponseStore}

theorem call_keeps
    {op : StoreOp} (h : ResponseStore.Accounted host maxBytes store)
    (hfresh : forall key, op.newKey = some key -> store.recordBytes key = none)
    (hfits : op.SumsFit host store) :
    ResponseStore.Accounted host maxBytes (op.call host store) ∧
      forall key, store.recordBytes key = none -> op.newKey ≠ some key ->
        (op.call host store).recordBytes key = none := by
  have hreads : ResponseStore.Tends host store (op.call host store) ->
      ResponseStore.Accounted host maxBytes (op.call host store) ∧
        forall key, store.recordBytes key = none -> op.newKey ≠ some key ->
          (op.call host store).recordBytes key = none :=
    fun htends => ⟨htends.accounted h, fun _ hkey _ => htends.keys hkey⟩
  cases op with
  | resolve request now => exact hreads (ResponseStore.resolve_tends request now store)
  | commit request =>
    have hnew := hfresh _ rfl
    refine ⟨ResponseStore.commit_accounted h hnew hfits, ?_⟩
    intro key hkey hother
    exact ResponseStore.commit_keys h hnew hkey (fun hsame => hother (hsame ▸ rfl))
  | getResponse id now => exact hreads (ResponseStore.getResponse_tends id now store)
  | getInputItems id now descending after limit =>
    exact hreads (ResponseStore.getInputItems_tends id now descending after limit store)
  | deleteResponse id => exact hreads (ResponseStore.deleteResponse_tends id store)
  | createConversation request now serial =>
    have hnew := hfresh _ rfl
    refine ⟨ResponseStore.createConversation_accounted h hnew hfits, ?_⟩
    intro key hkey hother
    exact ResponseStore.createConversation_keys h hnew hkey (fun hsame => hother (hsame ▸ rfl))
  | getConversation id => exact hreads (ResponseStore.getConversation_tends id store)
  | deleteConversation id => exact hreads (ResponseStore.deleteConversation_tends id store)

theorem run_append (host : StoreHost) (store : ResponseStore) (ops : List StoreOp) (op : StoreOp) :
    run host store (ops ++ [op]) = op.call host (run host store ops) := by
  unfold run
  rw [List.foldl_append]
  rfl

theorem newKey_of_nodup
    {before : List StoreOp} {op : StoreOp} {key : CacheKey}
    (hids : ((before ++ [op]).filterMap responseId).Nodup)
    (hserials : ((before ++ [op]).filterMap serial).Nodup) (hkey : op.newKey = some key) :
    forall other, other ∈ before -> other.newKey ≠ some key := by
  intro other hmem hother
  rw [List.filterMap_append] at hids hserials
  have hidsApart := List.disjoint_of_nodup_append hids
  have hserialsApart := List.disjoint_of_nodup_append hserials
  cases op with
  | commit request =>
    cases other with
    | commit earlier =>
      have hsame : earlier.responseId = request.responseId :=
        CacheKey.response.inj (Option.some.inj (hother.trans hkey.symm))
      exact hidsApart (List.mem_filterMap.mpr ⟨_, hmem, rfl⟩) (List.mem_singleton.mpr hsame)
    | createConversation earlier now serial =>
      exact absurd (hother.trans hkey.symm) (by rintro ⟨⟩)
    | _ => cases hother
  | createConversation request now serial =>
    cases other with
    | commit earlier => exact absurd (hother.trans hkey.symm) (by rintro ⟨⟩)
    | createConversation earlier later another =>
      have hsame : another = serial := ResponseStore.generatedConversationId_serial
        (CacheKey.conversation.inj (Option.some.inj (hother.trans hkey.symm)))
      exact hserialsApart (List.mem_filterMap.mpr ⟨_, hmem, rfl⟩) (List.mem_singleton.mpr hsame)
    | _ => cases hother
  | _ => cases hkey

theorem run_keeps
    {ops : List StoreOp} (hids : (ops.filterMap responseId).Nodup)
    (hserials : (ops.filterMap serial).Nodup)
    (hfits : forall before op after, ops = before ++ op :: after ->
      op.SumsFit host (run host (ResponseStore.new maxBytes) before)) :
    ResponseStore.Accounted host maxBytes (run host (ResponseStore.new maxBytes) ops) ∧
      forall key, (forall op, op ∈ ops -> op.newKey ≠ some key) ->
        (run host (ResponseStore.new maxBytes) ops).recordBytes key = none := by
  induction ops using List.reverseRecOn with
  | nil =>
    refine ⟨ResponseStore.new_accounted host maxBytes, fun key _ => ?_⟩
    cases key with
    | response id => rfl
    | conversation id => rfl
  | append_singleton before op ih =>
    have hbefore := ih
      (List.Nodup.of_append_left (List.filterMap_append ▸ hids))
      (List.Nodup.of_append_left (List.filterMap_append ▸ hserials))
      (fun first other rest hsplit => hfits first other (rest ++ [op])
        (by rw [hsplit, List.append_assoc, List.cons_append]))
    have hstep := call_keeps hbefore.1
      (fun key hkey => hbefore.2 key (newKey_of_nodup hids hserials hkey))
      (hfits before op [] rfl)
    rw [run_append]
    refine ⟨hstep.1, fun key hnone => ?_⟩
    apply hstep.2 key
    · exact hbefore.2 key (fun other hmem => hnone other (List.mem_append_left _ hmem))
    · exact hnone op (List.mem_append_right _ (List.mem_singleton_self op))

/-- After every run the policies record exactly what the maps hold, the counters
are the sums of what they record, and the budget is kept. -/
theorem run_accounts_for_maps (host : StoreHost) (maxBytes : Nat) (ops : List StoreOp)
    (hids : (ops.filterMap responseId).Nodup) (hserials : (ops.filterMap serial).Nodup)
    (hfits : forall before op after, ops = before ++ op :: after ->
      op.SumsFit host (run host (ResponseStore.new maxBytes) before)) :
    let store := run host (ResponseStore.new maxBytes) ops
    (forall key, store.recordsLru.recorded key = store.recordBytes key) ∧
      (forall key, store.snapshotsLru.recorded key = store.heldBytes host key) ∧
      store.recordsLru.residentBytes = store.recordsLru.totalBytes ∧
      store.snapshotsLru.residentBytes = store.snapshotsLru.totalBytes ∧
      store.recordsLru.residentBytes + store.snapshotsLru.residentBytes <= maxBytes := by
  have haccounted := (run_keeps hids hserials hfits).1
  exact ⟨fun key => haccounted.sound.recorded key id,
    fun key => haccounted.sound.tracked key id, haccounted.exact.records,
    haccounted.exact.snapshots, haccounted.fits⟩

end StoreOp

def smallHost : StoreHost where
  sizeOfValue := 1
  sizeOfSequenceState := 1
  sizeOfSequenceState_pos := Nat.one_pos
  serializedLen := fun _ => some 0
  normalizeInput := fun _ => .ok ()

def smallCommit (id : String) (conversationId : Option String)
    (state : Option EngineSequenceState) : ResponseStore.CommitRequest where
  historyItems := []
  conversationId := conversationId
  keep := true
  response := .object [("id", .string id)]
  outputItems := [.null]
  sequenceState := state
  now := 0

def smallSession : List StoreOp :=
  [.createConversation { items := [], metadata := none } 0 1,
    .commit (smallCommit "resp_1" (some "conv_0_1") (some { tokenIds := [1], heapBytes := 3 }))]

theorem smallSession_fits (before : List StoreOp) (op : StoreOp) (after : List StoreOp)
    (hsplit : smallSession = before ++ op :: after) :
    op.SumsFit smallHost (StoreOp.run smallHost (ResponseStore.new 100) before) := by
  cases before with
  | nil =>
    cases hsplit
    intro metadata hmetadata
    cases hmetadata
    decide
  | cons first rest =>
    cases rest with
    | nil =>
      cases hsplit
      intro bytes hbytes
      have hsizes : bytes = some 3 := (Except.ok.inj hbytes).symm.trans (by decide)
      rw [hsizes]
      decide
    | cons second others =>
      cases others with
      | nil => cases hsplit
      | cons third others => cases hsplit

theorem smallSession_accounts_for_maps :
    let store := StoreOp.run smallHost (ResponseStore.new 100) smallSession
    (store.responses.lookup "resp_1").isSome = true ∧
      (forall key, store.recordsLru.recorded key = store.recordBytes key) ∧
      (forall key, store.snapshotsLru.recorded key = store.heldBytes smallHost key) ∧
      store.recordsLru.residentBytes + store.snapshotsLru.residentBytes <= 100 := by
  rcases StoreOp.run_accounts_for_maps smallHost 100 smallSession (by decide) (by decide)
    smallSession_fits with ⟨hrecords, hsnapshots, _, _, hfits⟩
  exact ⟨by decide, hrecords, hsnapshots, hfits⟩

end Server
end RunNBurn
