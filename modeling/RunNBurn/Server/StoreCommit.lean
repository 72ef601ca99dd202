import RunNBurn.Server.StoreInvariants

/-!
# What a commit does

A commit is refused before it writes anything, has nothing to write, or writes
in three stages: the conversation is rewritten and forgotten by both policies,
the response is stored and touched, and the conversation is touched again.
-/

namespace RunNBurn
namespace Server

open Library
open Memory

namespace ResponseStore

/-!
# The stages
-/

/-- The conversation with the history and the state of the commit. -/
def CommitRequest.rewritten (request : CommitRequest) (bytes : Nat)
    (conversation : ConversationRecord) : ConversationRecord :=
  { conversation with
    historyItems := request.nextHistoryItems
    sequenceState := request.sequenceState
    bytes := bytes }

def conversationStage (request : CommitRequest) (bytes : Option Nat)
    (store : ResponseStore) : ResponseStore :=
  match request.conversationId with
  | some id =>
    match store.conversations.lookup id with
    | some conversation =>
      let rewritten := request.rewritten (bytes.getD 0) conversation
      { store with conversations := store.conversations.insert id rewritten }.forget
        (.conversation id)
    | none => store
  | none => store

section

variable (host : StoreHost) (request : CommitRequest)

def responseStage (store : ResponseStore) :
    ResponseStore :=
  match request.responseBytes host with
  | some bytes =>
    writeResponse request.responseId (request.storedResponse bytes)
      (request.snapshotBytes host) store
  | none => store

def touchStage (store : ResponseStore) :
    ResponseStore :=
  match request.conversationId with
  | some id => touchConversation id (request.snapshotBytes host) store
  | none => store

def stages (bytes : Option Nat)
    (store : ResponseStore) : ResponseStore :=
  touchStage host request (responseStage host request (conversationStage request bytes store))

end

structure Sized (host : StoreHost) (request : CommitRequest) (store : ResponseStore)
    (bytes : Option Nat) : Prop where
  conversation : conversationBytes host store request.conversationId
    request.nextHistoryItems = .ok bytes
  fits : saturatingAdd ((request.responseBytes host).getD 0) (bytes.getD 0) <=
    store.maxBytes

section Stages

variable {host : StoreHost} {request : CommitRequest} {store : ResponseStore}
  {bytes : Option Nat}

theorem commitSizes_ok (h : commitSizes host request store = .ok bytes) :
    Sized host request store bytes := by
  unfold commitSizes at h
  cases hconversation : conversationBytes host store request.conversationId
      request.nextHistoryItems with
  | error fault =>
    rw [hconversation] at h
    cases h
  | ok found =>
    rw [hconversation] at h
    by_cases hfits : saturatingAdd ((request.responseBytes host).getD 0)
        (found.getD 0) > store.maxBytes
    · exact absurd ((if_pos hfits).symm.trans h) (by rintro ⟨⟩)
    · cases (if_neg hfits).symm.trans h
      exact { conversation := hconversation, fits := Nat.le_of_not_lt hfits }

variable {fault : ApiError}

theorem conversationBytes_error {id : Option String} {items : List Value}
    (h : conversationBytes host store id items = .error fault) :
    fault.status = 404 := by
  unfold conversationBytes at h
  cases id with
  | none => cases h
  | some id =>
    dsimp only at h
    split at h
    · cases h
    · cases h
      rfl

theorem commitSizes_error (h : commitSizes host request store = .error fault) :
    fault.status ≠ 500 := by
  unfold commitSizes at h
  cases hconversation : conversationBytes host store request.conversationId
      request.nextHistoryItems with
  | error refusal =>
    rw [hconversation] at h
    cases h
    rw [conversationBytes_error hconversation]
    decide
  | ok found =>
    rw [hconversation] at h
    by_cases hfits : saturatingAdd ((request.responseBytes host).getD 0)
        (found.getD 0) > store.maxBytes
    · cases (if_pos hfits).symm.trans h
      decide
    · exact absurd ((if_neg hfits).symm.trans h) (by rintro ⟨⟩)

theorem not_evicted_of_status (h : fault.status ≠ 500) :
    fault ≠ responseEvicted ∧ fault ≠ conversationEvicted :=
  ⟨fun hsame => h (congrArg ApiError.status hsame), fun hsame => h (congrArg ApiError.status hsame)⟩

theorem Sized.conversation_none
    (h : Sized host request store bytes) (hid : request.conversationId = none) :
    bytes = none := by
  have hbytes := h.conversation
  rw [hid] at hbytes
  exact (Except.ok.inj hbytes).symm

theorem Sized.conversation_some
    (h : Sized host request store bytes) {id : String} (hid : request.conversationId = some id) :
    exists conversation, store.conversations.lookup id = some conversation ∧
      bytes = some (saturatingAdd (valueBytes host conversation.metadata)
        (valuesBytes host request.nextHistoryItems)) := by
  have hbytes := h.conversation
  rw [hid] at hbytes
  unfold conversationBytes at hbytes
  cases hlookup : store.conversations.lookup id with
  | none =>
    dsimp only at hbytes
    rw [hlookup] at hbytes
    cases hbytes
  | some conversation =>
    dsimp only at hbytes
    rw [hlookup] at hbytes
    exact ⟨conversation, rfl, (Except.ok.inj hbytes).symm⟩

theorem writeConversation_eq
    {id : String} {conversation : ConversationRecord}
    (h : store.conversations.lookup id = some conversation)
    (items : List Value) (state : Option EngineSequenceState) (size : Nat) :
    writeConversation id items state size store =
      ({ store with conversations := store.conversations.insert id { conversation with
          historyItems := items
          sequenceState := state
          bytes := size } }.forget (.conversation id), .ok ()) := by
  have hforgotten : (store.forget (.conversation id)).conversations.lookup id =
      some conversation := h
  unfold writeConversation
  dsimp only
  rw [hforgotten]
  rfl

theorem commitWrites_eq (h : Sized host request store bytes) :
    commitWrites host request bytes store = (stages host request bytes store, .ok ()) := by
  unfold commitWrites stages touchStage responseStage conversationStage
  cases hid : request.conversationId with
  | none =>
    cases request.responseBytes host with
    | none => rfl
    | some size => rfl
  | some id =>
    rcases h.conversation_some hid with ⟨conversation, hlookup, _⟩
    dsimp only
    rw [hlookup]
    refine (InPlace.bind_of_ok (writeConversation_eq hlookup _ _ _)).trans ?_
    cases request.responseBytes host with
    | none => rfl
    | some size => rfl

inductive Commits (host : StoreHost) (request : CommitRequest) (store : ResponseStore) :
    ResponseStore × Except ApiError Unit -> Prop where
  | refused (fault : ApiError)
      (hfault : fault ≠ responseEvicted ∧ fault ≠ conversationEvicted) :
      Commits host request store (store, .error fault)
  | skipped (hkeep : request.keep = false) (hid : request.conversationId = none) :
      Commits host request store (store, .ok ())
  | written {bytes : Option Nat}
      (hsizes : commitSizes host request store = .ok bytes)
      (hsized : Sized host request store bytes)
      (hid : request.responseId.isEmpty = false) :
      Commits host request store
        ((stages host request bytes store).enforceBudget,
          checkCommitted request.keep request.responseId request.conversationId
            (stages host request bytes store).enforceBudget)

theorem commit_commits (host : StoreHost) (request : CommitRequest) (store : ResponseStore) :
    Commits host request store (commit host request store) := by
  unfold commit
  by_cases hempty : request.responseId.isEmpty = true
  · rw [if_pos hempty]
    exact Commits.refused _ (by decide)
  · rw [if_neg hempty]
    by_cases hskip : (!request.keep && request.conversationId.isNone) = true
    · rw [if_pos hskip]
      rcases Bool.and_eq_true_iff.mp hskip with ⟨hkeep, hid⟩
      exact Commits.skipped (Bool.not_eq_true' _ ▸ hkeep) (Option.isNone_iff_eq_none.mp hid)
    · rw [if_neg hskip]
      cases hsizes : commitSizes host request store with
      | error fault =>
        rw [InPlace.bind_of_error (InPlace.reading_of_eq hsizes)]
        exact Commits.refused fault (not_evicted_of_status (commitSizes_error hsizes))
      | ok bytes =>
        have hsized := commitSizes_ok hsizes
        rw [InPlace.bind_of_ok (InPlace.reading_of_eq hsizes),
          InPlace.bind_of_ok (commitWrites_eq hsized)]
        exact Commits.written hsizes hsized (Bool.not_eq_true _ ▸ hempty)

end Stages

/-!
# Soundness of the stages
-/

section Soundness

variable {rel : Option Nat -> Option Nat -> Prop} {host : StoreHost}
  {pending : CacheKey -> Prop} {store : ResponseStore} {request : CommitRequest}
  {bytes : Option Nat} {key : CacheKey}

theorem rewrite_sound (rewritten : ResponseStore) {weight held : Option Nat}
    (h : store.Sound rel host pending) (hrecords : rewritten.recordsLru = store.recordsLru)
    (hsnapshots : rewritten.snapshotsLru = store.snapshotsLru)
    (hbytes : rewritten.recordBytes = Function.update store.recordBytes key weight)
    (hheld : rewritten.heldBytes host = Function.update (store.heldBytes host) key held) :
    rewritten.Sound rel host (fun other => pending other ∨ other = key) := by
  constructor
  · rw [hrecords]
    exact h.records
  · rw [hsnapshots]
    exact h.snapshots
  · rw [hrecords]
    exact h.recordsUnlimited
  · rw [hsnapshots]
    exact h.snapshotsUnlimited
  · intro other hother
    rcases not_or.mp hother with ⟨hsettled, hkey⟩
    rw [hrecords, hbytes, Function.update_of_ne hkey]
    exact h.recorded other hsettled
  · intro other hother
    rcases not_or.mp hother with ⟨hsettled, hkey⟩
    rw [hsnapshots, hheld, Function.update_of_ne hkey]
    exact h.tracked other hsettled

theorem forget_pending_sound (h : store.Sound rel host pending) (hkey : pending key) :
    (store.forget key).Sound rel host pending := by
  have hother : forall other, ¬ pending other -> other ≠ key :=
    fun other hsettled hsame => hsettled (hsame ▸ hkey)
  constructor
  · exact ByteLruPolicy.removed_sound h.records key
  · exact ByteLruPolicy.removed_sound h.snapshots key
  · exact (ByteLruPolicy.maxBytes_removed _ key).trans h.recordsUnlimited
  · exact (ByteLruPolicy.maxBytes_removed _ key).trans h.snapshotsUnlimited
  · intro other hsettled
    refine Eq.trans ?_ (h.recorded other hsettled)
    exact (congrFun (ByteLruPolicy.recorded_removed _ key) other).trans
      (Function.update_of_ne (hother other hsettled) _ _)
  · intro other hsettled
    have hsame : (store.forget key).snapshotsLru.recorded other =
        store.snapshotsLru.recorded other :=
      (congrFun (ByteLruPolicy.recorded_removed _ key) other).trans
        (Function.update_of_ne (hother other hsettled) _ _)
    rw [hsame]
    exact h.tracked other hsettled

theorem touchBoth_sound {settled : CacheKey -> Prop} {size snapshotBytes : Nat}
    (hrel : forall bytes, rel bytes bytes) (h : store.Sound rel host pending)
    (hbytes : store.recordBytes key = some size) (hheld : store.heldBytes host key =
      if snapshotBytes = 0 then none else some snapshotBytes)
    (hclear : snapshotBytes = 0 -> rel (store.snapshotsLru.recorded key) none)
    (hsettled : forall other, ¬ settled other -> other = key ∨ ¬ pending other) :
    (store.touchBoth key size snapshotBytes).Sound rel host settled := by
  unfold touchBoth
  by_cases hzero : snapshotBytes = 0
  · rw [if_neg (not_not.mpr hzero)]
    rw [if_pos hzero] at hheld
    exact touchRecord_sound h hbytes hsettled (fun _ => hheld ▸ hclear hzero)
  · rw [if_pos hzero]
    rw [if_neg hzero] at hheld
    have hsnapshot := touchSnapshot_sound hrel h hheld
    refine touchRecord_sound hsnapshot hbytes hsettled (fun _ => ?_)
    have hrecorded : (store.touchSnapshot key snapshotBytes).snapshotsLru.recorded key =
        some snapshotBytes := by
      rw [touchSnapshot_eq h.snapshotsUnlimited]
      exact (congrFun (ByteLruPolicy.recorded_account _ key snapshotBytes) key).trans
        (Function.update_self _ _ _)
    rw [hrecorded]
    exact hheld ▸ hrel _

theorem byteSize_pos (host : StoreHost) (state : EngineSequenceState) :
    0 < state.byteSize host := by
  unfold EngineSequenceState.byteSize saturatingAdd
  have hpos := host.sizeOfSequenceState_pos
  unfold usizeLimit
  omega

theorem CommitRequest.held_eq (request : CommitRequest) :
    request.sequenceState.map (EngineSequenceState.byteSize host) =
      if request.snapshotBytes host = 0 then none else some (request.snapshotBytes host) := by
  unfold CommitRequest.snapshotBytes
  cases request.sequenceState with
  | none => rfl
  | some state => exact (if_neg (Nat.ne_of_gt (byteSize_pos host state))).symm

def CommitRequest.continues (request : CommitRequest) (key : CacheKey) : Prop :=
  exists id, request.conversationId = some id ∧ key = .conversation id

variable {id : String}

theorem conversationStage_eq {conversation : ConversationRecord}
    (hid : request.conversationId = some id)
    (hlookup : store.conversations.lookup id = some conversation) :
    conversationStage request bytes store =
      { store with
        conversations := store.conversations.insert id
          (request.rewritten (bytes.getD 0) conversation) }.forget (.conversation id) := by
  unfold conversationStage
  rw [hid]
  dsimp only
  rw [hlookup]

theorem conversationStage_none (hid : request.conversationId = none) :
    conversationStage request bytes store = store := by
  unfold conversationStage
  rw [hid]

theorem conversationStage_sound
    (h : store.Sound rel host nothingPending) (hsized : Sized host request store bytes) :
    (conversationStage request bytes store).Sound rel host request.continues := by
  cases hid : request.conversationId with
  | none =>
    rw [conversationStage_none hid]
    exact { h with
      recorded := fun key _ => h.recorded key id
      tracked := fun key _ => h.tracked key id }
  | some id =>
    rcases hsized.conversation_some hid with ⟨conversation, hlookup, _⟩
    rw [conversationStage_eq hid hlookup]
    have hrewritten := rewrite_sound { store with
        conversations := store.conversations.insert id
          (request.rewritten (bytes.getD 0) conversation) } h rfl rfl
      (view_insertConversation _ _ store id _) (view_insertConversation _ _ store id _)
    have hforgotten := forget_pending_sound hrewritten (Or.inr rfl)
    have hcontinues : forall key, ¬ request.continues key ->
        ¬ (nothingPending key ∨ key = .conversation id) := by
      rintro key hkey (hnothing | hsame)
      · exact hnothing
      · exact hkey ⟨id, hid, hsame⟩
    exact { hforgotten with
      recorded := fun key hkey => hforgotten.recorded key (hcontinues key hkey)
      tracked := fun key hkey => hforgotten.tracked key (hcontinues key hkey) }

theorem touchBoth_maps (store : ResponseStore) (key : CacheKey) (size snapshotBytes : Nat) :
    (store.touchBoth key size snapshotBytes).responses = store.responses ∧
      (store.touchBoth key size snapshotBytes).conversations = store.conversations ∧
      (store.touchBoth key size snapshotBytes).maxBytes = store.maxBytes := by
  unfold touchBoth
  dsimp only
  split
  · exact ⟨rfl, rfl, rfl⟩
  · exact ⟨rfl, rfl, rfl⟩

theorem responseBytes_of_keep (hkeep : request.keep = true) :
    exists size, request.responseBytes host = some size := by
  unfold CommitRequest.responseBytes
  rw [if_pos hkeep]
  exact ⟨_, rfl⟩

theorem responseBytes_of_drop (hkeep : request.keep = false) :
    request.responseBytes host = none := by
  unfold CommitRequest.responseBytes
  rw [if_neg (Bool.not_eq_true _ ▸ hkeep)]

theorem responseStage_of_keep
    {size : Nat} (hsize : request.responseBytes host = some size) :
    responseStage host request store =
      writeResponse request.responseId (request.storedResponse size)
        (request.snapshotBytes host) store := by
  unfold responseStage
  rw [hsize]

theorem responseStage_of_drop (hkeep : request.keep = false) :
    responseStage host request store = store := by
  unfold responseStage
  rw [responseBytes_of_drop hkeep]

theorem responseStage_conversations :
    (responseStage host request store).conversations = store.conversations ∧
      (responseStage host request store).maxBytes = store.maxBytes := by
  unfold responseStage
  cases request.responseBytes host with
  | none => exact ⟨rfl, rfl⟩
  | some size =>
    rcases touchBoth_maps _ _ _ _ with ⟨_, hconversations, hmax⟩
    exact ⟨hconversations, hmax⟩

theorem insertResponse_sound
    (h : store.Sound rel host pending) (id : String) (entry : StoredResponse) :
    ({ store with responses := store.responses.insert id entry } : ResponseStore).Sound rel
      host (fun other => pending other ∨ other = .response id) :=
  rewrite_sound _ h rfl rfl (view_insertResponse _ _ store _ _)
    (view_insertResponse _ _ store _ _)

theorem responseStage_sound
    (hrel : forall bytes, rel bytes bytes) (h : store.Sound rel host pending)
    (hclear : request.keep = true -> request.snapshotBytes host = 0 ->
      rel (store.snapshotsLru.recorded (.response request.responseId)) none) :
    (responseStage host request store).Sound rel host pending := by
  cases hkeep : request.keep with
  | false =>
    rw [responseStage_of_drop hkeep]
    exact h
  | true =>
    rcases responseBytes_of_keep hkeep with ⟨size, hsize⟩
    rw [responseStage_of_keep hsize]
    refine touchBoth_sound hrel (insertResponse_sound h _ _) ?_ ?_ (hclear hkeep) ?_
    · exact recordBytes_response (AList.lookup_insert _)
    · exact (heldBytes_response (AList.lookup_insert _)).trans request.held_eq
    · intro other hother
      by_cases hkey : other = .response request.responseId
      · exact Or.inl hkey
      · exact Or.inr (not_or.mpr ⟨hother, hkey⟩)

theorem touchStage_eq {record : ConversationRecord} (hid : request.conversationId = some id)
    (hlookup : store.conversations.lookup id = some record) :
    touchStage host request store =
      store.touchBoth (.conversation id) record.bytes (request.snapshotBytes host) := by
  unfold touchStage touchConversation
  rw [hid]
  dsimp only
  rw [hlookup]

theorem touchStage_none (hid : request.conversationId = none) :
    touchStage host request store = store := by
  unfold touchStage
  rw [hid]

theorem touchStage_maps (store : ResponseStore) :
    (touchStage host request store).responses = store.responses ∧
      (touchStage host request store).conversations = store.conversations ∧
      (touchStage host request store).maxBytes = store.maxBytes := by
  unfold touchStage
  cases request.conversationId with
  | none => exact ⟨rfl, rfl, rfl⟩
  | some id =>
    dsimp only
    unfold touchConversation
    cases store.conversations.lookup id with
    | none => exact ⟨rfl, rfl, rfl⟩
    | some record => exact touchBoth_maps _ _ _ _

theorem touchStage_sound
    (hrel : forall bytes, rel bytes bytes) (h : store.Sound rel host request.continues)
    (hstored : forall id, request.conversationId = some id -> exists record,
      store.conversations.lookup id = some record ∧
        record.sequenceState = request.sequenceState)
    (hclear : forall id, request.conversationId = some id ->
      store.snapshotsLru.recorded (.conversation id) = none) :
    (touchStage host request store).Sound rel host nothingPending := by
  cases hid : request.conversationId with
  | none =>
    rw [touchStage_none hid]
    have hnone : forall key, ¬ request.continues key := by
      rintro key ⟨id, hsome, _⟩
      rw [hid] at hsome
      cases hsome
    exact { h with
      recorded := fun key _ => h.recorded key (hnone key)
      tracked := fun key _ => h.tracked key (hnone key) }
  | some id =>
    rcases hstored id hid with ⟨record, hlookup, hstate⟩
    rw [touchStage_eq hid hlookup]
    refine touchBoth_sound hrel h (recordBytes_conversation hlookup) ?_ ?_ ?_
    · rw [heldBytes_conversation hlookup, hstate]
      exact request.held_eq
    · intro _
      rw [hclear id hid]
      exact hrel none
    · intro other _
      by_cases hkey : other = .conversation id
      · exact Or.inl hkey
      · right
        rintro ⟨another, hanother, hother⟩
        rw [hid] at hanother
        cases hanother
        exact hkey hother

/-!
# The store that a commit has written
-/

theorem conversationStage_stored (hsized : Sized host request store bytes)
    (hid : request.conversationId = some id) :
    exists conversation, store.conversations.lookup id = some conversation ∧
      (conversationStage request bytes store).conversations.lookup id =
        some (request.rewritten (bytes.getD 0) conversation) := by
  rcases hsized.conversation_some hid with ⟨conversation, hlookup, _⟩
  refine ⟨conversation, hlookup, ?_⟩
  rw [conversationStage_eq hid hlookup]
  exact AList.lookup_insert _

theorem conversationStage_recorded (hsized : Sized host request store bytes)
    (hid : request.conversationId = some id) :
    (conversationStage request bytes store).recordsLru.recorded =
        Function.update store.recordsLru.recorded (.conversation id) none ∧
      (conversationStage request bytes store).snapshotsLru.recorded =
        Function.update store.snapshotsLru.recorded (.conversation id) none := by
  rcases hsized.conversation_some hid with ⟨conversation, hlookup, _⟩
  rw [conversationStage_eq hid hlookup]
  exact ⟨ByteLruPolicy.recorded_removed _ _, ByteLruPolicy.recorded_removed _ _⟩

theorem conversationStage_response_recorded
    (hsized : Sized host request store bytes) (id : String) :
    (conversationStage request bytes store).snapshotsLru.recorded (.response id) =
      store.snapshotsLru.recorded (.response id) := by
  cases hid : request.conversationId with
  | none => rw [conversationStage_none hid]
  | some other =>
    rw [(conversationStage_recorded hsized hid).2]
    exact Function.update_of_ne (fun hkey => by cases hkey) _ _

section

variable (h : store.Sound rel host pending)
include h

theorem touchBoth_recordsLru (key : CacheKey) (size snapshotBytes : Nat) :
    (store.touchBoth key size snapshotBytes).recordsLru = store.recordsLru.account key size := by
  unfold touchBoth
  rw [touchRecord_eq h.recordsUnlimited]
  dsimp only
  split
  · rfl
  · rfl

theorem touchBoth_snapshotsLru (key : CacheKey) (size snapshotBytes : Nat) :
    (store.touchBoth key size snapshotBytes).snapshotsLru =
      if snapshotBytes = 0 then store.snapshotsLru
      else store.snapshotsLru.account key snapshotBytes := by
  unfold touchBoth
  by_cases hzero : snapshotBytes = 0
  · rw [if_neg (not_not.mpr hzero), if_pos hzero]
    rfl
  · rw [if_pos hzero, if_neg hzero, touchRecord_eq h.recordsUnlimited]
    exact congrArg ResponseStore.snapshotsLru (touchSnapshot_eq h.snapshotsUnlimited _ _)

theorem touchBoth_recorded_ne {key other : CacheKey} (hother : other ≠ key)
    (size snapshotBytes : Nat) :
    (store.touchBoth key size snapshotBytes).recordsLru.recorded other =
        store.recordsLru.recorded other ∧
      (store.touchBoth key size snapshotBytes).snapshotsLru.recorded other =
        store.snapshotsLru.recorded other := by
  rw [touchBoth_recordsLru h, touchBoth_snapshotsLru h, ByteLruPolicy.recorded_account]
  constructor
  · exact Function.update_of_ne hother _ _
  · split
    · rfl
    · rw [ByteLruPolicy.recorded_account]
      exact Function.update_of_ne hother _ _

theorem responseStage_conversation_recorded (id : String) :
    (responseStage host request store).recordsLru.recorded (.conversation id) =
        store.recordsLru.recorded (.conversation id) ∧
      (responseStage host request store).snapshotsLru.recorded (.conversation id) =
        store.snapshotsLru.recorded (.conversation id) := by
  cases hkeep : request.keep with
  | false =>
    rw [responseStage_of_drop hkeep]
    exact ⟨rfl, rfl⟩
  | true =>
    rcases responseBytes_of_keep hkeep with ⟨size, hsize⟩
    rw [responseStage_of_keep hsize]
    exact touchBoth_recorded_ne (insertResponse_sound h _ _) (fun hkey => by cases hkey) _ _

end

theorem responseStage_sound_of_sized
    (hrel : forall bytes, rel bytes bytes) (h : store.Sound rel host nothingPending)
    (hsized : Sized host request store bytes)
    (hclear : request.keep = true -> request.snapshotBytes host = 0 ->
      rel (store.snapshotsLru.recorded (.response request.responseId)) none) :
    (responseStage host request (conversationStage request bytes store)).Sound rel host
      request.continues := by
  apply responseStage_sound hrel (conversationStage_sound h hsized)
  intro hkeep hzero
  rw [conversationStage_response_recorded hsized]
  exact hclear hkeep hzero

theorem responseStage_stored (h : store.Sound rel host nothingPending)
    (hsized : Sized host request store bytes) (hid : request.conversationId = some id) :
    exists record,
      (responseStage host request
        (conversationStage request bytes store)).conversations.lookup id = some record ∧
      record.sequenceState = request.sequenceState ∧
      record.historyItems = request.nextHistoryItems ∧
      record.bytes = bytes.getD 0 ∧
      (responseStage host request
        (conversationStage request bytes store)).recordsLru.recorded (.conversation id) =
        none ∧
      (responseStage host request
        (conversationStage request bytes store)).snapshotsLru.recorded (.conversation id) =
        none := by
  have hfirst := conversationStage_sound h hsized
  rcases conversationStage_stored hsized hid with ⟨conversation, _, hstored⟩
  rcases conversationStage_recorded hsized hid with ⟨hrecords, hsnapshots⟩
  refine ⟨request.rewritten (bytes.getD 0) conversation, ?_, rfl, rfl, rfl, ?_, ?_⟩
  · rw [responseStage_conversations.1]
    exact hstored
  · rw [(responseStage_conversation_recorded hfirst id).1, hrecords]
    exact Function.update_self _ _ _
  · rw [(responseStage_conversation_recorded hfirst id).2, hsnapshots]
    exact Function.update_self _ _ _

theorem stages_sound
    (hrel : forall bytes, rel bytes bytes) (h : store.Sound rel host nothingPending)
    (hsized : Sized host request store bytes)
    (hclear : request.keep = true -> request.snapshotBytes host = 0 ->
      rel (store.snapshotsLru.recorded (.response request.responseId)) none) :
    (stages host request bytes store).Sound rel host nothingPending := by
  apply touchStage_sound hrel (responseStage_sound_of_sized hrel h hsized hclear)
  · intro id hid
    rcases responseStage_stored h hsized hid with ⟨record, hlookup, hstate, _⟩
    exact ⟨record, hlookup, hstate⟩
  · intro id hid
    rcases responseStage_stored h hsized hid with ⟨_, _, _, _, _, _, hclear⟩
    exact hclear

/-!
# Exactness of the stages
-/

theorem touchBoth_exact (h : store.Sound rel host pending) (hexact : store.Exact)
    {size snapshotBytes : Nat}
    (hrecords : (store.touchBoth key size snapshotBytes).recordsLru.totalBytes <= u64Max)
    (hsnapshots : (store.touchBoth key size snapshotBytes).snapshotsLru.totalBytes <= u64Max) :
    (store.touchBoth key size snapshotBytes).Exact := by
  constructor
  · rw [touchBoth_recordsLru h] at hrecords ⊢
    exact ByteLruPolicy.resident_account_eq hexact.records hrecords
  · rw [touchBoth_snapshotsLru h] at hsnapshots ⊢
    by_cases hzero : snapshotBytes = 0
    · rw [if_pos hzero]
      exact hexact.snapshots
    · rw [if_neg hzero] at hsnapshots ⊢
      exact ByteLruPolicy.resident_account_eq hexact.snapshots hsnapshots

theorem touchBoth_totalBytes_ge (h : store.Sound rel host pending)
    (hrecords : store.recordsLru.recorded key = none)
    (hsnapshots : store.snapshotsLru.recorded key = none) (size snapshotBytes : Nat) :
    store.recordsLru.totalBytes <=
        (store.touchBoth key size snapshotBytes).recordsLru.totalBytes ∧
      store.snapshotsLru.totalBytes <=
        (store.touchBoth key size snapshotBytes).snapshotsLru.totalBytes := by
  rw [touchBoth_recordsLru h, touchBoth_snapshotsLru h, ByteLruPolicy.totalBytes_account_of_missing
      (ByteLruPolicy.lookup_of_recorded_eq_none hrecords)]
  constructor
  · exact Nat.le_add_left _ _
  · split
    · exact Nat.le_refl _
    · rw [ByteLruPolicy.totalBytes_account_of_missing
        (ByteLruPolicy.lookup_of_recorded_eq_none hsnapshots)]
      exact Nat.le_add_left _ _

theorem conversationStage_exact (hexact : store.Exact) :
    (conversationStage request bytes store).Exact := by
  unfold conversationStage
  cases request.conversationId with
  | none => exact hexact
  | some id =>
    dsimp only
    cases store.conversations.lookup id with
    | none => exact hexact
    | some conversation =>
      have hrewritten : ({ store with
          conversations := store.conversations.insert id
            (request.rewritten (bytes.getD 0) conversation) } : ResponseStore).Exact :=
        { records := hexact.records, snapshots := hexact.snapshots }
      exact forget_exact hrewritten (.conversation id)

theorem responseStage_exact
    (h : store.Sound rel host pending) (hexact : store.Exact)
    (hrecords : (responseStage host request store).recordsLru.totalBytes <= u64Max)
    (hsnapshots : (responseStage host request store).snapshotsLru.totalBytes <= u64Max) :
    (responseStage host request store).Exact := by
  cases hkeep : request.keep with
  | false =>
    rw [responseStage_of_drop hkeep]
    exact hexact
  | true =>
    rcases responseBytes_of_keep hkeep with ⟨size, hsize⟩
    rw [responseStage_of_keep hsize] at hrecords hsnapshots ⊢
    exact touchBoth_exact (insertResponse_sound h _ _)
      { records := hexact.records, snapshots := hexact.snapshots } hrecords hsnapshots

theorem stages_exact
    (hrel : forall bytes, rel bytes bytes) (h : store.Sound rel host nothingPending)
    (hexact : store.Exact) (hsized : Sized host request store bytes)
    (hclear : request.keep = true -> request.snapshotBytes host = 0 ->
      rel (store.snapshotsLru.recorded (.response request.responseId)) none)
    (hrecords : (stages host request bytes store).recordsLru.totalBytes <= u64Max)
    (hsnapshots : (stages host request bytes store).snapshotsLru.totalBytes <= u64Max) :
    (stages host request bytes store).Exact := by
  have hfirst := conversationStage_sound h hsized
  have hsecond := responseStage_sound_of_sized hrel h hsized hclear
  have hfirstExact : (conversationStage request bytes store).Exact :=
    conversationStage_exact hexact
  unfold stages at hrecords hsnapshots ⊢
  cases hid : request.conversationId with
  | none =>
    rw [touchStage_none hid] at hrecords hsnapshots ⊢
    exact responseStage_exact hfirst hfirstExact hrecords hsnapshots
  | some id =>
    rcases responseStage_stored h hsized hid with
      ⟨record, hlookup, _, _, _, hnoRecord, hnoSnapshot⟩
    rw [touchStage_eq hid hlookup] at hrecords hsnapshots ⊢
    rcases touchBoth_totalBytes_ge hsecond hnoRecord hnoSnapshot record.bytes
        (request.snapshotBytes host) with ⟨hmoreRecords, hmoreSnapshots⟩
    exact touchBoth_exact hsecond
      (responseStage_exact hfirst hfirstExact (Nat.le_trans hmoreRecords hrecords)
        (Nat.le_trans hmoreSnapshots hsnapshots)) hrecords hsnapshots

/-!
# Creating a conversation
-/

theorem insertConversation_sound
    (h : store.Sound rel host nothingPending) (id : String) {record : ConversationRecord}
    (hstate : record.sequenceState = none)
    (hclear : rel (store.snapshotsLru.recorded (.conversation id)) none) :
    (insertConversation id record store).Sound rel host nothingPending := by
  have hinserted := rewrite_sound
    { store with conversations := store.conversations.insert id record } h rfl rfl
    (view_insertConversation _ _ store _ _) (view_insertConversation _ _ store _ _)
  refine touchRecord_sound hinserted
    (recordBytes_conversation (AList.lookup_insert _)) ?_ (fun _ => ?_)
  · intro other _
    by_cases hkey : other = .conversation id
    · exact Or.inl hkey
    · exact Or.inr (not_or.mpr ⟨fun hnothing => hnothing, hkey⟩)
  · rw [heldBytes_conversation (AList.lookup_insert _), hstate]
    exact hclear

inductive Creates (host : StoreHost) (request : ConversationCreateRequest)
    (now serial : Nat) (store : ResponseStore) : ResponseStore -> Prop where
  | refused :
      Creates host request now serial store store
  | inserted {metadata : Value}
      (hmetadata : normalizeMetadata request.metadata = .ok metadata) :
      Creates host request now serial store
        (insertConversation (generatedConversationId now serial)
          (createdRecord host request now metadata) store).enforceBudget

theorem createConversation_creates (host : StoreHost) (request : ConversationCreateRequest)
    (now serial : Nat) (store : ResponseStore) :
    Creates host request now serial store
      (createConversation host request now serial store).1 := by
  unfold createConversation
  by_cases hmany : request.items.length > 20
  · rw [if_pos hmany]
    exact Creates.refused
  · rw [if_neg hmany]
    refine InPlace.left_reading_bind (Creates host request now serial store)
      Creates.refused (fun _ _ => ?_)
    refine InPlace.left_reading_bind (Creates host request now serial store)
      Creates.refused (fun metadata hmetadata => ?_)
    refine InPlace.left_reading_bind (Creates host request now serial store)
      Creates.refused (fun maxBytes _ => ?_)
    split
    · exact Creates.refused
    · rw [InPlace.modifying_bind, InPlace.modifying_bind]
      exact InPlace.left_reading_bind (Creates host request now serial store)
        (Creates.inserted hmetadata) (fun _ _ => Creates.inserted hmetadata)

end Soundness

end ResponseStore

end Server
end RunNBurn
