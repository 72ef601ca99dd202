import RunNBurn.Server.StoreRuns

/-!
# What a commit leaves

As long as the record clock has not wrapped around, the records that a commit
writes are the newest, and the eviction loop never reaches them.
-/

namespace RunNBurn
namespace Server

open Library
open Memory

def Covers (recorded held : Option Nat) : Prop :=
  held.isSome = true -> recorded.isSome = true

theorem covers_refl (bytes : Option Nat) : Covers bytes bytes :=
  id

theorem covers_none (recorded : Option Nat) : Covers recorded none := by
  rintro ⟨⟩

namespace ResponseStore

section Covered

variable {host : StoreHost} {store : ResponseStore}

theorem commit_covered
    (h : store.Sound Covers host nothingPending) (request : CommitRequest) :
    (commit host request store).1.Sound Covers host nothingPending := by
  have hcommits := commit_commits host request store
  generalize commit host request store = result at hcommits
  cases hcommits with
  | refused fault hfault => exact h
  | skipped hkeep hid => exact h
  | written hsizes hsized hid =>
    have hsound := stages_sound covers_refl h hsized (fun _ _ => covers_none _)
    exact (enforceBudget_passes covers_refl hsound).2.1

theorem createConversation_covered
    (h : store.Sound Covers host nothingPending) (request : ConversationCreateRequest)
    (now serial : Nat) :
    (createConversation host request now serial store).1.Sound Covers host
      nothingPending := by
  have hcreates := createConversation_creates host request now serial store
  generalize (createConversation host request now serial store).1 = result at hcreates
  cases hcreates with
  | refused => exact h
  | @inserted metadata hmetadata =>
    have hstate : (createdRecord host request now metadata).sequenceState = none := rfl
    have hsound := insertConversation_sound h
      (generatedConversationId now serial) hstate (covers_none _)
    exact (enforceBudget_passes covers_refl hsound).2.1

end Covered

end ResponseStore

namespace StoreOp

theorem call_covered
    {host : StoreHost} {store : ResponseStore}
    (h : store.Sound Covers host ResponseStore.nothingPending) (op : StoreOp) :
    (op.call host store).Sound Covers host ResponseStore.nothingPending := by
  cases op with
  | resolve request now => exact (ResponseStore.resolve_tends request now store).sound covers_refl h
  | commit request => exact ResponseStore.commit_covered h request
  | getResponse id now => exact (ResponseStore.getResponse_tends id now store).sound covers_refl h
  | getInputItems id now descending after limit =>
    exact (ResponseStore.getInputItems_tends id now descending after limit store).sound
      covers_refl h
  | deleteResponse id => exact (ResponseStore.deleteResponse_tends id store).sound covers_refl h
  | createConversation request now serial =>
    exact ResponseStore.createConversation_covered h request now serial
  | getConversation id => exact (ResponseStore.getConversation_tends id store).sound covers_refl h
  | deleteConversation id =>
    exact (ResponseStore.deleteConversation_tends id store).sound covers_refl h

theorem run_covered (host : StoreHost) (maxBytes : Nat) (ops : List StoreOp) :
    (run host (ResponseStore.new maxBytes) ops).Sound Covers host
      ResponseStore.nothingPending := by
  have hruns : forall (rest : List StoreOp) (store : ResponseStore),
      store.Sound Covers host ResponseStore.nothingPending ->
      (run host store rest).Sound Covers host ResponseStore.nothingPending := by
    intro rest
    induction rest with
    | nil => exact fun store h => h
    | cons op others ih => exact fun store h => ih _ (call_covered h op)
  exact hruns ops _ (ResponseStore.new_sound covers_refl maxBytes)

end StoreOp

namespace ResponseStore

section Surviving

variable {rel : Option Nat -> Option Nat -> Prop} {host : StoreHost}
  {pending : CacheKey -> Prop} {store : ResponseStore}

/-!
# What the eviction loop spares
-/

structure Protects (keys : List CacheKey) (store : ResponseStore) : Prop where
  newest : ByteLruPolicy.Newest keys store.recordsLru
  fits : (keys.map (store.recordsLru.entries.weightAt ByteLruEntry.bytes)).sum <=
    store.maxBytes

variable {keys : List CacheKey} {key : CacheKey}

theorem popped_notMem {records : ByteLruPolicy CacheKey} (h : store.Sound rel host pending)
    (hprotects : Protects keys store) (hover : store.overBudget)
    (hnone : forall other, store.snapshotsLru.entries.lookup other = none)
    (hpops : store.recordsLru.Pops key records) :
    key ∉ keys := by
  intro hkey
  have htotal : store.recordsLru.totalBytes <= _ :=
    KeyedMap.total_le_of_keys (hpops.only_newest hprotects.newest hkey)
  have hresident := Nat.le_trans h.records.resident_le_total
    (Nat.le_trans htotal hprotects.fits)
  have hsnapshots := ByteLruPolicy.resident_eq_zero h.snapshots hnone
  unfold overBudget at hover
  rw [hsnapshots] at hover
  exact absurd (Nat.lt_of_lt_of_le hover (saturatingAdd_le_add _ _)) (Nat.not_lt_of_le hresident)

variable {next : ResponseStore}

theorem evict_next_protects (h : store.Sound rel host pending) (hprotects : Protects keys store)
    (hnext : store.evict = .next next) :
    Protects keys next := by
  have hevicts := evict_evicts store
  rw [hnext] at hevicts
  cases hevicts with
  | snapshot hover hpop =>
    rename_i key snapshots
    rcases dropSnapshot_policies { store with snapshotsLru := snapshots } key with
      ⟨hrecords, _, hmax⟩
    constructor
    · rw [hrecords]
      exact hprotects.newest
    · rw [hrecords, hmax]
      exact hprotects.fits
  | record hover hnone hpop =>
    rename_i key snapshots records
    rcases ByteLruPolicy.popOldest_none h.snapshots hnone with ⟨hmissing, _⟩
    have hpops := ByteLruPolicy.popOldest_some h.records hpop
    have hkey := popped_notMem h hprotects hover hmissing hpops
    constructor
    · rw [removeRecord_recordsLru]
      exact hpops.newest hprotects.newest hkey
    · rw [removeRecord_recordsLru, removeRecord_maxBytes]
      refine Nat.le_trans (Nat.le_of_eq ?_) hprotects.fits
      congr 1
      apply List.map_congr_left
      intro other hother
      unfold KeyedMap.weightAt
      rw [hpops.keeps other (fun hsame => hkey (hsame ▸ hother))]

section

variable {part : Type} {ofResponse : StoredResponse -> Option part}
  {ofConversation : ConversationRecord -> Option part}
  (hresponse : forall entry state,
    ofResponse { entry with sequenceState := state } = ofResponse entry)
  (hconversation : forall entry state,
    ofConversation { entry with sequenceState := state } = ofConversation entry)
include hresponse hconversation

theorem evict_next_view (h : store.Sound rel host pending) (hprotects : Protects keys store)
    (hnext : store.evict = .next next) (hkey : key ∈ keys) :
    next.view ofResponse ofConversation key = store.view ofResponse ofConversation key := by
  have hevicts := evict_evicts store
  rw [hnext] at hevicts
  cases hevicts with
  | snapshot hover hpop =>
    rw [view_dropSnapshot hresponse hconversation]
    rfl
  | record hover hnone hpop =>
    rename_i popped snapshots records
    rcases ByteLruPolicy.popOldest_none h.snapshots hnone with ⟨hmissing, _⟩
    have hpops := ByteLruPolicy.popOldest_some h.records hpop
    have hpopped := popped_notMem h hprotects hover hmissing hpops
    rw [view_removeRecord]
    have hother : key ≠ popped := fun hsame => hpopped (hsame ▸ hkey)
    exact Function.update_of_ne hother _ _

theorem enforceBudget_view (hrel : forall bytes, rel bytes bytes) (h : store.Sound rel host pending)
    (hprotects : Protects keys store) (hkey : key ∈ keys) :
    store.enforceBudget.view ofResponse ofConversation key =
      store.view ofResponse ofConversation key := by
  rcases enforceBudget_passes hrel h with ⟨hpasses, _, _⟩
  have hall := passes_invariant
    (fun reached => reached.Sound rel host pending ∧ Protects keys reached ∧
      reached.view ofResponse ofConversation key = store.view ofResponse ofConversation key)
    ⟨h, hprotects, rfl⟩
    (fun s following hs hnext => ⟨(evict_next_sound hrel hs.1 hnext).1,
      evict_next_protects hs.1 hs.2.1 hnext,
      (evict_next_view hresponse hconversation hs.1 hs.2.1 hnext hkey).trans hs.2.2⟩) hpasses
  exact hall.2.2

end

theorem evict_record_holds_nothing (h : store.Sound Covers host nothingPending)
    (hnext : store.evict = .next next) (hstored : store.recordBytes key ≠ none)
    (hremoved : next.recordBytes key = none) :
    forall other, store.heldBytes host other = none := by
  have hevicts := evict_evicts store
  rw [hnext] at hevicts
  cases hevicts with
  | snapshot hover hpop =>
    rw [recordBytes_dropSnapshot] at hremoved
    exact absurd hremoved hstored
  | record hover hnone hpop =>
    rcases ByteLruPolicy.popOldest_none h.snapshots hnone with ⟨hmissing, _⟩
    intro other
    have hcovers := h.tracked other id
    have hunknown : store.snapshotsLru.recorded other = none := by
      unfold ByteLruPolicy.recorded
      rw [hmissing other]
      rfl
    rw [hunknown] at hcovers
    cases hheld : store.heldBytes host other with
    | none => rfl
    | some bytes =>
      rw [hheld] at hcovers
      exact absurd (hcovers rfl) (by rintro ⟨⟩)

theorem passes_sound
    {start : ResponseStore} (hrel : forall bytes, rel bytes bytes)
    (hstart : start.Sound rel host pending) (h : Passes start store) :
    store.Sound rel host pending :=
  passes_invariant (fun reached => reached.Sound rel host pending) hstart
    (fun _ _ hs hnext => (evict_next_sound hrel hs hnext).1) h

/-!
# The records of a commit are the newest
-/

variable {request : CommitRequest} {bytes : Option Nat}

def CommitRequest.writtenKeys (request : CommitRequest) : List CacheKey :=
  (request.conversationId.map CacheKey.conversation).toList ++
    (if request.keep then [.response request.responseId] else [])

theorem conversationStage_ahead
    (hahead : store.recordsLru.ClockAhead) :
    (conversationStage request bytes store).recordsLru.ClockAhead ∧
      (conversationStage request bytes store).recordsLru.clock = store.recordsLru.clock := by
  unfold conversationStage
  cases request.conversationId with
  | none => exact ⟨hahead, rfl⟩
  | some id =>
    dsimp only
    cases store.conversations.lookup id with
    | none => exact ⟨hahead, rfl⟩
    | some conversation =>
      exact ⟨ByteLruPolicy.removed_clockAhead hahead _, ByteLruPolicy.clock_removed _ _⟩

theorem responseStage_newest
    (h : store.Sound rel host pending) (hahead : store.recordsLru.ClockAhead)
    (hclock : store.recordsLru.clock + 1 < usizeLimit) :
    let keys := if request.keep then [CacheKey.response request.responseId] else []
    let written := responseStage host request store
    ByteLruPolicy.Newest keys written.recordsLru ∧ written.recordsLru.ClockAhead ∧
      written.recordsLru.clock <= store.recordsLru.clock + 1 ∧
      (keys.map (written.recordsLru.entries.weightAt ByteLruEntry.bytes)).sum =
        (request.responseBytes host).getD 0 := by
  cases hkeep : request.keep with
  | false =>
    rw [responseStage_of_drop hkeep, responseBytes_of_drop hkeep]
    exact ⟨ByteLruPolicy.newest_nil _, hahead, Nat.le_succ _, rfl⟩
  | true =>
    rcases responseBytes_of_keep hkeep with ⟨size, hsize⟩
    rw [responseStage_of_keep hsize, hsize]
    have hinserted := insertResponse_sound h request.responseId
      (request.storedResponse size)
    have hpolicy : (writeResponse request.responseId (request.storedResponse size)
        (request.snapshotBytes host) store).recordsLru =
        store.recordsLru.account (.response request.responseId) size :=
      touchBoth_recordsLru hinserted _ _ _
    dsimp only
    rw [hpolicy]
    refine ⟨ByteLruPolicy.account_newest hahead hclock (ByteLruPolicy.newest_nil _) _ _,
      ByteLruPolicy.account_clockAhead hahead hclock _ _,
      Nat.le_of_eq (ByteLruPolicy.account_clock hclock _ _), ?_⟩
    exact ByteLruPolicy.sum_weightAt_account List.not_mem_nil size

theorem stages_protects
    (h : store.Sound Covers host nothingPending) (hsized : Sized host request store bytes)
    (hahead : store.recordsLru.ClockAhead) (hclock : store.recordsLru.clock + 2 < usizeLimit)
    (hmax : store.maxBytes < u64Max) :
    Protects request.writtenKeys (stages host request bytes store) := by
  have hfirst := conversationStage_sound h hsized
  have hsecond := responseStage_sound_of_sized covers_refl h hsized
    (fun _ _ => covers_none _)
  have hfirstAhead : (conversationStage request bytes store).recordsLru.ClockAhead :=
    (conversationStage_ahead hahead).1
  have hfirstClock : (conversationStage request bytes store).recordsLru.clock =
      store.recordsLru.clock := (conversationStage_ahead hahead).2
  have hroom : (conversationStage request bytes store).recordsLru.clock + 1 < usizeLimit := by
    rw [hfirstClock]
    exact Nat.lt_of_succ_lt hclock
  rcases responseStage_newest hfirst hfirstAhead hroom with
    ⟨hnewest, hsecondAhead, hsecondClock, hweight⟩
  have hfits := le_saturatingAdd hsized.fits hmax
  unfold CommitRequest.writtenKeys
  cases hid : request.conversationId with
  | none =>
    rw [hsized.conversation_none hid] at hfits
    constructor
    · unfold stages
      rw [touchStage_none hid]
      exact hnewest
    · rw [stages_maxBytes]
      unfold stages
      rw [touchStage_none hid]
      exact Nat.le_trans (Nat.le_of_eq hweight) hfits
  | some id =>
    rcases responseStage_stored h hsized hid with ⟨record, hlookup, _, _, hbytes, _⟩
    have hpolicy : (stages host request bytes store).recordsLru = _ :=
      (congrArg ResponseStore.recordsLru (touchStage_eq hid hlookup)).trans
        (touchBoth_recordsLru hsecond _ _ _)
    have hapart : CacheKey.conversation id ∉
        (if request.keep then [CacheKey.response request.responseId] else []) := by
      split
      · rw [List.mem_singleton]
        rintro ⟨⟩
      · exact List.not_mem_nil
    constructor
    · rw [hpolicy]
      exact ByteLruPolicy.account_newest hsecondAhead (by omega) hnewest _ _
    · rw [hpolicy, stages_maxBytes]
      refine Nat.le_trans (Nat.le_of_eq (ByteLruPolicy.sum_weightAt_account hapart _)) ?_
      rw [hweight, hbytes, Nat.add_comm]
      exact hfits

theorem enforceBudget_of_fits (h : ¬ store.overBudget) : store.enforceBudget = store := by
  have hdone : store.evict = .done store := by
    unfold evict
    rw [if_neg h]
  unfold enforceBudget
  rw [iterate, hdone]

theorem stages_survive {part : Type} {ofResponse : StoredResponse -> Option part}
    {ofConversation : ConversationRecord -> Option part} (hresponse : forall entry state,
      ofResponse { entry with sequenceState := state } = ofResponse entry)
    (hconversation : forall entry state,
      ofConversation { entry with sequenceState := state } = ofConversation entry)
    (h : store.Sound Covers host nothingPending) (hsized : Sized host request store bytes)
    (hahead : store.recordsLru.ClockAhead) (hclock : store.recordsLru.clock + 2 < usizeLimit)
    (hkey : key ∈ request.writtenKeys) :
    (stages host request bytes store).enforceBudget.view ofResponse ofConversation key =
      (stages host request bytes store).view ofResponse ofConversation key := by
  by_cases hmax : store.maxBytes < u64Max
  · exact enforceBudget_view hresponse hconversation covers_refl
      (stages_sound covers_refl h hsized (fun _ _ => covers_none _))
      (stages_protects h hsized hahead hclock hmax) hkey
  · have hfits : ¬ (stages host request bytes store).overBudget := by
      unfold overBudget
      rw [stages_maxBytes]
      exact Nat.not_lt_of_le (Nat.le_trans (saturatingAdd_le_u64Max _ _) (Nat.le_of_not_lt hmax))
    rw [enforceBudget_of_fits hfits]

theorem stages_responses (hkeep : request.keep = true) :
    exists size, (stages host request bytes store).responses.lookup request.responseId =
      some (request.storedResponse size) := by
  rcases responseBytes_of_keep hkeep with ⟨size, hsize⟩
  refine ⟨size, ?_⟩
  unfold stages
  rw [(touchStage_maps _).1, responseStage_of_keep hsize]
  unfold writeResponse
  rw [(touchBoth_maps _ _ _ _).1]
  exact AList.lookup_insert _

variable {id : String}

section

variable (h : store.Sound Covers host nothingPending) (hsized : Sized host request store bytes)
include h hsized

theorem stages_conversations (hid : request.conversationId = some id) :
    exists record, (stages host request bytes store).conversations.lookup id = some record ∧
      record.historyItems = request.nextHistoryItems := by
  rcases responseStage_stored h hsized hid with ⟨record, hlookup, _, hhistory, _⟩
  refine ⟨record, ?_, hhistory⟩
  unfold stages
  rw [(touchStage_maps _).2.1]
  exact hlookup

theorem response_survives (hahead : store.recordsLru.ClockAhead)
    (hclock : store.recordsLru.clock + 2 < usizeLimit) (hkeep : request.keep = true) :
    exists entry, (stages host request bytes store).enforceBudget.responses.lookup
        request.responseId = some entry ∧
      entry.response = request.response ∧ entry.historyItems = request.nextHistoryItems ∧
      entry.expiresAt = saturatingAdd request.now responseTtlSeconds := by
  have hkey : CacheKey.response request.responseId ∈ request.writtenKeys := by
    unfold CommitRequest.writtenKeys
    rw [if_pos hkeep]
    exact List.mem_append_right _ (List.mem_singleton_self _)
  have hsame : (stages host request bytes store).enforceBudget.view
      (fun entry => some (entry.response, entry.historyItems, entry.expiresAt))
      (fun _ => none) (.response request.responseId) = _ :=
    stages_survive (fun _ _ => rfl) (fun _ _ => rfl) h hsized hahead hclock hkey
  have hstored : exists size, (stages host request bytes store).responses.lookup
      request.responseId = some (request.storedResponse size) := stages_responses hkeep
  rcases hstored with ⟨size, hstored⟩
  unfold view at hsame
  dsimp only at hsame
  rw [hstored] at hsame
  rcases Option.bind_eq_some_iff.mp hsame with ⟨entry, hentry, hparts⟩
  rcases Prod.mk.inj (Option.some.inj hparts) with ⟨hresponse, hrest⟩
  rcases Prod.mk.inj hrest with ⟨hhistory, hexpires⟩
  exact ⟨entry, hentry, hresponse, hhistory, hexpires⟩

theorem conversation_survives (hahead : store.recordsLru.ClockAhead)
    (hclock : store.recordsLru.clock + 2 < usizeLimit) (hid : request.conversationId = some id) :
    exists record, (stages host request bytes store).enforceBudget.conversations.lookup id =
        some record ∧
      record.historyItems = request.nextHistoryItems := by
  have hkey : CacheKey.conversation id ∈ request.writtenKeys := by
    unfold CommitRequest.writtenKeys
    rw [hid]
    exact List.mem_append_left _ (List.mem_singleton_self _)
  have hsame : (stages host request bytes store).enforceBudget.view
      (fun _ => none) (fun record => some record.historyItems) (.conversation id) = _ :=
    stages_survive (fun _ _ => rfl) (fun _ _ => rfl) h hsized hahead hclock hkey
  rcases stages_conversations h hsized hid with ⟨written, hwritten, hhistory⟩
  unfold view at hsame
  dsimp only at hsame
  rw [hwritten] at hsame
  rcases Option.bind_eq_some_iff.mp hsame with ⟨record, hrecord, hparts⟩
  exact ⟨record, hrecord, (Option.some.inj hparts).trans hhistory⟩

end

/-!
# Reading back
-/

theorem touchEntry_maps (store : ResponseStore) (key : CacheKey) (size : Nat)
    (state : Option EngineSequenceState) :
    (store.touchEntry host key size state).responses = store.responses ∧
      (store.touchEntry host key size state).conversations = store.conversations := by
  unfold touchEntry
  cases state with
  | none => exact ⟨rfl, rfl⟩
  | some state => exact ⟨rfl, rfl⟩

variable {entry : StoredResponse}

theorem responseContext_of_lookup (h : store.responses.lookup id = some entry) :
    (responseContext id host store).2 = .ok (entry.historyItems, entry.sequenceState) := by
  unfold responseContext
  rw [h]
  dsimp only
  rw [(touchEntry_maps store _ _ _).1, h]
  rfl

theorem conversationContext_of_lookup {record : ConversationRecord}
    (h : store.conversations.lookup id = some record) :
    (conversationContext id host store).2 = .ok (record.historyItems, record.sequenceState) := by
  unfold conversationContext
  rw [h]
  dsimp only
  rw [(touchEntry_maps store _ _ _).2, h]
  rfl

theorem pruneExpired_lookup {now : Nat} (h : store.responses.lookup id = some entry)
    (hlater : now < entry.expiresAt) :
    (store.pruneExpired now).responses.lookup id = some entry := by
  have hkept : forall (expired : List String) (current : ResponseStore), id ∉ expired ->
      current.responses.lookup id = some entry ->
      (expired.foldl removeResponse current).responses.lookup id = some entry := by
    intro expired
    induction expired with
    | nil => exact fun _ _ hcurrent => hcurrent
    | cons other rest ih =>
      intro current hid hcurrent
      rcases not_or.mp (List.mem_cons.not.mp hid) with ⟨hother, hrest⟩
      exact ih _ hrest ((AList.lookup_erase_ne hother).trans hcurrent)
  apply hkept _ store _ h
  intro hexpired
  rcases List.mem_filterMap.mp hexpired with ⟨⟨other, found⟩, hmem, hfound⟩
  split at hfound
  · rename_i hpast
    cases hfound
    have hsame := (KeyedMap.mem_entries_iff _ _ _).mp hmem
    rw [h] at hsame
    cases hsame
    exact Nat.not_lt_of_le hpast hlater
  · cases hfound

theorem getResponse_of_lookup {now : Nat} (h : store.responses.lookup id = some entry)
    (hlater : now < entry.expiresAt) :
    (getResponse id now store).2 = .ok entry.response := by
  have hpruned := pruneExpired_lookup h hlater
  have hread : readResponse id (store.pruneExpired now) =
      ((store.pruneExpired now).touchRecord (.response id) entry.bytes, .ok entry) := by
    unfold readResponse
    rw [hpruned]
    dsimp only
    rw [if_neg]
    unfold touchRecord
    dsimp only
    rw [hpruned]
    exact Bool.false_ne_true
  unfold getResponse
  rw [InPlace.modifying_bind, InPlace.bind_of_ok hread]
  rfl

/-!
# The commit as a whole
-/

theorem commit_ok
    (h : store.Sound Covers host nothingPending) (hahead : store.recordsLru.ClockAhead)
    (hclock : store.recordsLru.clock + 2 < usizeLimit) (hsized : Sized host request store bytes) :
    checkCommitted request.keep request.responseId request.conversationId
      (stages host request bytes store).enforceBudget = .ok () := by
  unfold checkCommitted
  have hresponse : ¬ (request.keep && ((stages host request bytes
      store).enforceBudget.responses.lookup request.responseId).isNone) = true := by
    intro hlost
    rcases Bool.and_eq_true_iff.mp hlost with ⟨hkeep, hnone⟩
    rcases response_survives h hsized hahead hclock hkeep with ⟨entry, hentry, _⟩
    rw [hentry] at hnone
    cases hnone
  rw [if_neg hresponse]
  cases hid : request.conversationId with
  | none => rfl
  | some id =>
    rcases conversation_survives h hsized hahead hclock hid with ⟨record, hrecord, _⟩
    dsimp only
    rw [hrecord]
    rfl

theorem commit_error
    {fault : ApiError} (h : store.Sound Covers host nothingPending)
    (hahead : store.recordsLru.ClockAhead) (hclock : store.recordsLru.clock + 2 < usizeLimit)
    (hfault : (commit host request store).2 = .error fault) :
    (commit host request store).1 = store ∧ fault ≠ responseEvicted ∧
      fault ≠ conversationEvicted := by
  have hcommits := commit_commits host request store
  generalize commit host request store = result at hcommits hfault ⊢
  cases hcommits with
  | refused other hother =>
    cases hfault
    exact ⟨rfl, hother⟩
  | skipped hkeep hid => cases hfault
  | written hsizes hsized hid =>
    exact absurd ((commit_ok h hahead hclock hsized).symm.trans hfault) (by rintro ⟨⟩)

section

variable (h : store.Sound Covers host nothingPending) (hahead : store.recordsLru.ClockAhead)
  (hclock : store.recordsLru.clock + 2 < usizeLimit) (hok : (commit host request store).2 = .ok ())
include h hahead hclock hok

theorem commit_response (hkeep : request.keep = true) :
    exists entry, (commit host request store).1.responses.lookup request.responseId =
        some entry ∧
      entry.response = request.response ∧ entry.historyItems = request.nextHistoryItems ∧
      entry.expiresAt = saturatingAdd request.now responseTtlSeconds := by
  have hcommits := commit_commits host request store
  generalize commit host request store = result at hcommits hok ⊢
  cases hcommits with
  | refused other hother => cases hok
  | skipped hdrop hid =>
    rw [hkeep] at hdrop
    cases hdrop
  | written hsizes hsized hid => exact response_survives h hsized hahead hclock hkeep

theorem commit_conversation (hid : request.conversationId = some id) :
    exists record, (commit host request store).1.conversations.lookup id = some record ∧
      record.historyItems = request.nextHistoryItems := by
  have hcommits := commit_commits host request store
  generalize commit host request store = result at hcommits hok ⊢
  cases hcommits with
  | refused other hother => cases hok
  | skipped hdrop hnone =>
    rw [hid] at hnone
    cases hnone
  | written hsizes hsized hempty => exact conversation_survives h hsized hahead hclock hid

end

end Surviving

/-- The stores that an eviction loop runs on after the writes of a commit or of a
new conversation. -/
inductive Evicting (host : StoreHost) (store : ResponseStore) : ResponseStore -> Prop where
  | commit {request : CommitRequest} {bytes : Option Nat} {head : ResponseStore}
      (hsizes : commitSizes host request store = .ok bytes)
      (hpasses : Passes (commitWrites host request bytes store).1 head) :
      Evicting host store head
  | create {request : ConversationCreateRequest} {now serial : Nat} {metadata : Value}
      {head : ResponseStore}
      (hmetadata : normalizeMetadata request.metadata = .ok metadata)
      (hpasses : Passes (insertConversation (generatedConversationId now serial)
        (createdRecord host request now metadata) store) head) :
      Evicting host store head

theorem Evicting.sound
    {host : StoreHost} {store head : ResponseStore} (h : Evicting host store head)
    (hstore : store.Sound Covers host nothingPending) :
    head.Sound Covers host nothingPending := by
  cases h with
  | commit hsizes hpasses =>
    have hsized := commitSizes_ok hsizes
    rw [commitWrites_eq hsized] at hpasses
    exact passes_sound covers_refl
      (stages_sound covers_refl hstore hsized (fun _ _ => covers_none _)) hpasses
  | @create request now serial metadata _ hmetadata hpasses =>
    have hstate : (createdRecord host request now metadata).sequenceState = none := rfl
    exact passes_sound covers_refl
      (insertConversation_sound hstore _ hstate (covers_none _)) hpasses

/-- What a commit does to a reachable store whose record clock has not wrapped
around, and what the eviction loops of every reachable store spare. -/
theorem commit_exact (host : StoreHost) (maxBytes : Nat) (ops : List StoreOp) :
    let store := StoreOp.run host (new maxBytes) ops
    (forall request, store.recordsLru.ClockAhead -> store.recordsLru.clock + 2 < usizeLimit ->
      let result := commit host request store
      (forall fault, result.2 = .error fault ->
        result.1 = store ∧ fault ≠ responseEvicted ∧ fault ≠ conversationEvicted) ∧
      (result.2 = .ok () -> request.keep = true ->
        (exists state, (responseContext request.responseId host result.1).2 =
          .ok (request.historyItems ++ request.outputItems, state)) ∧
        forall later, later < saturatingAdd request.now responseTtlSeconds ->
          (getResponse request.responseId later result.1).2 = .ok request.response) ∧
      (result.2 = .ok () -> forall id, request.conversationId = some id ->
        exists state, (conversationContext id host result.1).2 =
          .ok (request.historyItems ++ request.outputItems, state))) ∧
    (forall head next key, Evicting host store head -> head.evict = .next next ->
      head.recordBytes key ≠ none -> next.recordBytes key = none ->
      forall other, head.heldBytes host other = none) := by
  have hsound := StoreOp.run_covered host maxBytes ops
  constructor
  · intro request hahead hclock
    refine ⟨?_, ?_, ?_⟩
    · intro fault hfault
      exact commit_error hsound hahead hclock hfault
    · intro hok hkeep
      rcases commit_response hsound hahead hclock hok hkeep with
        ⟨entry, hentry, hresponse, hhistory, hexpires⟩
      constructor
      · refine ⟨entry.sequenceState, ?_⟩
        rw [responseContext_of_lookup hentry, hhistory]
        rfl
      · intro later hlater
        rw [getResponse_of_lookup hentry (hexpires ▸ hlater), hresponse]
    · intro hok id hid
      rcases commit_conversation hsound hahead hclock hok hid with ⟨record, hrecord, hhistory⟩
      refine ⟨record.sequenceState, ?_⟩
      rw [conversationContext_of_lookup hrecord, hhistory]
      rfl
  · intro head next key hevicting hnext hstored hremoved
    exact evict_record_holds_nothing (hevicting.sound hsound) hnext hstored hremoved

/-- A commit to a conversation that was just created. -/
theorem commit_exact_to_conversation :
    let store := StoreOp.run smallHost (new 100)
      [.createConversation { items := [], metadata := none } 0 1]
    let request := smallCommit "resp_1" (some "conv_0_1") none
    let result := commit smallHost request store
    (exists state, (responseContext "resp_1" smallHost result.1).2 = .ok ([.null], state)) ∧
      exists state, (conversationContext "conv_0_1" smallHost result.1).2 =
        .ok ([.null], state) := by
  have hahead : (StoreOp.run smallHost (new 100)
      [.createConversation { items := [], metadata := none } 0 1]).recordsLru.ClockAhead := by
    intro key entry hentry
    have hmem := (KeyedMap.mem_entries_iff _ _ _).mpr hentry
    cases List.mem_singleton.mp hmem
    exact Nat.le_refl _
  have hexact := (commit_exact smallHost 100
    [.createConversation { items := [], metadata := none } 0 1]).1
    (smallCommit "resp_1" (some "conv_0_1") none) hahead (by decide)
  exact ⟨(hexact.2.1 rfl rfl).1, hexact.2.2 rfl "conv_0_1" rfl⟩

/-!
# The wrapped clock
-/

def soleRecords (clock touch : Nat) (id : String) : ByteLruPolicy CacheKey where
  maxBytes := u64Max
  residentBytes := 3
  clock := clock
  entries := AList.singleton (.response id) { bytes := 3, lastTouch := touch }
  oldest := [(touch, .response id)]

/-- A store that holds one response of three bytes, which fill its budget. -/
def soleStore (clock touch : Nat) (id : String) : ResponseStore where
  responses := AList.singleton id ((smallCommit id none none).storedResponse 3)
  conversations := ∅
  maxBytes := 3
  recordsLru := soleRecords clock touch id
  snapshotsLru := ByteLruPolicy.new u64Max

def crowdedStore (clock touch : Nat) (id other : String) : ResponseStore where
  responses := (soleStore clock touch id).responses.insert other
    ((smallCommit other none none).storedResponse 3)
  conversations := ∅
  maxBytes := 3
  recordsLru := (soleRecords clock touch id).account (.response other) 3
  snapshotsLru := ByteLruPolicy.new u64Max

section Crowded

variable {clock touch : Nat} {id other : String}

theorem residentBytes_account_sole (hother : other ≠ id) :
    ((soleRecords clock touch id).account (.response other) 3).residentBytes = 6 := by
  have hkey : CacheKey.response other ≠ .response id :=
    fun hsame => hother (CacheKey.response.inj hsame)
  have h := ByteLruPolicy.account_sole u64Max 3 clock touch hkey
  exact congrArg ByteLruPolicy.residentBytes h

theorem popOldest_crowded
    (hother : other ≠ id) (hnew : touch < wrappingAdd clock 1) :
    ((soleRecords clock touch id).account (.response other) 3).popOldest =
      (some (.response id), soleRecords (wrappingAdd clock 1) (wrappingAdd clock 1) other) :=
  ByteLruPolicy.popOldest_sole_ahead u64Max 3
    (fun hsame => hother (CacheKey.response.inj hsame)) (by decide) hnew

theorem popOldest_wrapped
    (hother : other ≠ id) (hnew : wrappingAdd clock 1 < touch) :
    ((soleRecords clock touch id).account (.response other) 3).popOldest =
      (some (.response other), soleRecords (wrappingAdd clock 1) touch id) :=
  ByteLruPolicy.popOldest_sole_wrapped u64Max 3
    (fun hsame => hother (CacheKey.response.inj hsame)) (by decide) hnew

theorem crowded_overBudget (hother : other ≠ id) :
    (crowdedStore clock touch id other).overBudget := by
  unfold overBudget crowdedStore
  dsimp only
  rw [residentBytes_account_sole hother]
  change saturatingAdd 6 0 > 3
  decide

theorem sole_fits (clock touch : Nat) (id : String) :
    ¬ (soleStore clock touch id).overBudget := by
  change ¬ saturatingAdd 3 0 > 3
  decide

theorem enforceBudget_crowded
    {key : CacheKey} {records : ByteLruPolicy CacheKey} {newClock newTouch : Nat} {kept : String}
    (hother : other ≠ id)
    (hpop : ((soleRecords clock touch id).account (.response other) 3).popOldest =
      (some key, records))
    (hkept : ({ crowdedStore clock touch id other with
      recordsLru := records }.removeRecord key) = soleStore newClock newTouch kept) :
    (crowdedStore clock touch id other).enforceBudget = soleStore newClock newTouch kept := by
  have hfirst : (crowdedStore clock touch id other).evict =
      .next (soleStore newClock newTouch kept) := by
    unfold evict
    rw [if_pos (crowded_overBudget hother)]
    have hsnapshots : (crowdedStore clock touch id other).snapshotsLru.popOldest =
        (none, ByteLruPolicy.new u64Max) := rfl
    rw [hsnapshots]
    dsimp only
    have hrecords : (crowdedStore clock touch id other).recordsLru.popOldest =
        (some key, records) := hpop
    rw [hrecords, ← hkept]
    rfl
  have hsecond : (soleStore newClock newTouch kept).evict =
      .done (soleStore newClock newTouch kept) := by
    unfold evict
    rw [if_neg (sole_fits _ _ _)]
  have hrounds : exists rounds, (crowdedStore clock touch id other).snapshotsLru.oldest.length +
      (crowdedStore clock touch id other).recordsLru.oldest.length = rounds + 1 := by
    refine ⟨1, ?_⟩
    change 0 + (ByteLruPolicy.push _ [_]).length = 2
    unfold ByteLruPolicy.push
    rw [List.orderedInsert_length]
    rfl
  rcases hrounds with ⟨rounds, hrounds⟩
  unfold enforceBudget
  rw [hrounds, iterate, hfirst]
  dsimp only
  rw [iterate, hsecond]

theorem commit_sole (hempty : other.isEmpty = false) :
    commit smallHost (smallCommit other none none) (soleStore clock touch id) =
      ((crowdedStore clock touch id other).enforceBudget,
        checkCommitted true other none (crowdedStore clock touch id other).enforceBudget) := by
  have hsizes : commitSizes smallHost (smallCommit other none none)
      (soleStore clock touch id) = .ok none := rfl
  have hid : (smallCommit other none none).responseId = other := rfl
  unfold commit
  have hskip : ¬ (!(smallCommit other none none).keep &&
      (smallCommit other none none).conversationId.isNone) = true := Bool.false_ne_true
  rw [hid, if_neg (Bool.not_eq_true _ ▸ hempty), if_neg hskip,
    InPlace.bind_of_ok (InPlace.reading_of_eq hsizes),
    InPlace.bind_of_ok (commitWrites_eq (commitSizes_ok hsizes))]
  have hwritten : stages smallHost (smallCommit other none none) none
      (soleStore clock touch id) = crowdedStore clock touch id other := by
    exact touchRecord_eq (rfl : (soleRecords clock touch id).maxBytes = u64Max) (.response other) 3
  rw [hwritten]
  rfl

theorem commit_sole_ahead
    (hempty : other.isEmpty = false) (hother : other ≠ id) (hnew : touch < wrappingAdd clock 1) :
    commit smallHost (smallCommit other none none) (soleStore clock touch id) =
      (soleStore (wrappingAdd clock 1) (wrappingAdd clock 1) other, .ok ()) := by
  have hleft : (crowdedStore clock touch id other).enforceBudget =
      soleStore (wrappingAdd clock 1) (wrappingAdd clock 1) other :=
    enforceBudget_crowded hother (popOldest_crowded hother hnew) (congrArg
      (fun responses => { soleStore (wrappingAdd clock 1) (wrappingAdd clock 1) other with
        responses := responses }) (KeyedMap.erase_old _ _ hother))
  rw [commit_sole hempty, hleft]
  unfold checkCommitted soleStore
  dsimp only
  rw [KeyedMap.lookup_singleton]
  rfl

theorem commit_sole_wrapped
    (hempty : other.isEmpty = false) (hother : other ≠ id) (hnew : wrappingAdd clock 1 < touch) :
    (commit smallHost (smallCommit other none none) (soleStore clock touch id)).2 =
      .error responseEvicted := by
  have hleft : (crowdedStore clock touch id other).enforceBudget =
      soleStore (wrappingAdd clock 1) touch id :=
    enforceBudget_crowded hother (popOldest_wrapped hother hnew) (congrArg
      (fun responses => { soleStore (wrappingAdd clock 1) touch id with
        responses := responses }) (KeyedMap.erase_new _ _ hother))
  rw [commit_sole hempty, hleft]
  unfold checkCommitted soleStore
  dsimp only
  rw [KeyedMap.lookup_singleton_ne _ hother]
  rfl

end Crowded

def turn (n : Nat) : String :=
  if n % 2 = 0 then "resp_a" else "resp_b"

theorem turn_isEmpty (n : Nat) : (turn n).isEmpty = false := by
  unfold turn
  split
  · decide
  · decide

theorem turn_succ_ne (n : Nat) : turn (n + 1) ≠ turn n := by
  unfold turn
  by_cases heven : n % 2 = 0
  · rw [if_pos heven, if_neg (by omega)]
    decide
  · rw [if_neg heven, if_pos (by omega)]
    decide

def alternating (n : Nat) : List StoreOp :=
  (List.range n).map (fun i => .commit (smallCommit (turn i) none none))

theorem run_alternating (n : Nat) (h : n + 1 < usizeLimit) :
    StoreOp.run smallHost (new 3) (alternating (n + 1)) = soleStore (n + 1) (n + 1) (turn n) := by
  have hsucc : forall m, alternating (m + 1) =
      alternating m ++ [.commit (smallCommit (turn m) none none)] := by
    intro m
    unfold alternating
    rw [List.range_succ, List.map_append]
    rfl
  induction n with
  | zero => rfl
  | succ n ih =>
    have hwrap : wrappingAdd (n + 1) 1 = n + 2 := wrappingAdd_of_lt h
    have hnew : n + 1 < wrappingAdd (n + 1) 1 := hwrap ▸ Nat.lt_succ_self _
    have hstep := commit_sole_ahead (turn_isEmpty (n + 1)) (turn_succ_ne n) hnew
    rw [hwrap] at hstep
    rw [hsucc, StoreOp.run_append, ih (Nat.lt_of_succ_lt h)]
    exact congrArg Prod.fst hstep

/-- After as many commits as the clock can count, the next one evicts what it
has just written. -/
theorem commit_evicted_after_wrap :
    (commit smallHost (smallCommit (turn (usizeLimit - 1)) none none)
      (StoreOp.run smallHost (new 3) (alternating (usizeLimit - 1)))).2 =
        .error responseEvicted := by
  have hclock : usizeLimit - 1 = usizeLimit - 2 + 1 := by decide
  have hwrap : wrappingAdd (usizeLimit - 2 + 1) 1 < usizeLimit - 2 + 1 := by decide
  rw [hclock, run_alternating _ (by decide)]
  exact commit_sole_wrapped (turn_isEmpty _) (turn_succ_ne _) hwrap

end ResponseStore

end Server
end RunNBurn
