import RunNBurn.Server.SessionStore

/-!
# The calls on the session store

Each call runs in place: what it did to the store stays, also when it returns
an error.
-/

namespace RunNBurn
namespace Server

open Library
open Memory

namespace ResponseStore

def continuedContext (host : StoreHost) (previousResponseId conversationId : Option String) :
    InPlace ApiError ResponseStore (List Value × Option EngineSequenceState) :=
  match previousResponseId, conversationId with
  | some responseId, _ => responseContext responseId host
  | none, some conversationId => conversationContext conversationId host
  | none, none => pure ([], none)

def resolve (host : StoreHost) (request : ResponseRequest) (now : Nat) :
    InPlace ApiError ResponseStore ResolvedResponseContext := do
  InPlace.modifying fun store => store.pruneExpired now
  let previousResponseId <-
    InPlace.reading fun _ => optionalId request.previousResponseId "previous_response_id"
  let conversationId <- InPlace.reading fun _ => optionalConversationId request.conversation
  if previousResponseId.isSome && conversationId.isSome then
    InPlace.failing (ApiError.invalid
      "previous_response_id and conversation cannot be used together"
      (some "previous_response_id") (some "invalid_value"))
  else do
    let currentInputItems := (request.input.map ResponseInput.intoItems).getD []
    InPlace.reading fun _ =>
      if currentInputItems.isEmpty then .ok () else host.normalizeInput currentInputItems
    let (historyItems, resumeState) <-
      continuedContext host previousResponseId conversationId
    let historyItems := historyItems ++ currentInputItems
    if historyItems.isEmpty then
      InPlace.failing (ApiError.invalid
        "input is required when no previous response or conversation items exist"
        (some "input") (some "missing_required_parameter"))
    else
      return {
        historyItems := historyItems
        previousResponseId := previousResponseId
        conversationId := conversationId
        resumeState := resumeState }

/-!
# Committing a response
-/

/-- The bytes of the conversation record once it holds the next history. -/
def conversationBytes (host : StoreHost) (store : ResponseStore)
    (conversationId : Option String) (nextHistoryItems : List Value) :
    Except ApiError (Option Nat) :=
  match conversationId with
  | none => .ok none
  | some id =>
    match store.conversations.lookup id with
    | some conversation =>
      .ok (some (saturatingAdd (valueBytes host conversation.metadata)
        (valuesBytes host nextHistoryItems)))
    | none => .error (conversationNotFound id)

def writeConversation (id : String) (nextHistoryItems : List Value)
    (sequenceState : Option EngineSequenceState) (bytes : Nat) :
    InPlace ApiError ResponseStore Unit :=
  fun store =>
    let forgotten := store.forget (.conversation id)
    match forgotten.conversations.lookup id with
    | none => (forgotten, .error (conversationNotFound id))
    | some conversation =>
      ({ forgotten with
        conversations := forgotten.conversations.insert id { conversation with
          historyItems := nextHistoryItems
          sequenceState := sequenceState
          bytes := bytes } }, .ok ())

def touchBoth (store : ResponseStore) (key : CacheKey) (bytes snapshotBytes : Nat) :
    ResponseStore :=
  let touched := store.touchRecord key bytes
  if snapshotBytes ≠ 0 then touched.touchSnapshot key snapshotBytes else touched

def writeResponse (id : String) (entry : StoredResponse) (snapshotBytes : Nat)
    (store : ResponseStore) : ResponseStore :=
  { store with responses := store.responses.insert id entry }.touchBoth (.response id)
    entry.bytes snapshotBytes

def touchConversation (id : String) (snapshotBytes : Nat) (store : ResponseStore) :
    ResponseStore :=
  match store.conversations.lookup id with
  | some conversation => store.touchBoth (.conversation id) conversation.bytes snapshotBytes
  | none => store

def responseEvicted : ApiError :=
  ApiError.internal "stored response was evicted during commit"

def conversationEvicted : ApiError :=
  ApiError.internal "conversation was evicted during response commit"

def checkCommitted (keep : Bool) (responseId : String) (conversationId : Option String)
    (store : ResponseStore) : Except ApiError Unit :=
  if keep && (store.responses.lookup responseId).isNone then
    .error responseEvicted
  else
    match conversationId with
    | some id =>
      if (store.conversations.lookup id).isNone then .error conversationEvicted else .ok ()
    | none => .ok ()

/-- The arguments of `commit`; `keep` is its `store` flag. -/
structure CommitRequest where
  historyItems : List Value
  conversationId : Option String
  keep : Bool
  response : Value
  outputItems : List Value
  sequenceState : Option EngineSequenceState
  now : Nat

namespace CommitRequest

def responseId (request : CommitRequest) : String :=
  ((request.response.field "id").asStr).getD ""

def nextHistoryItems (request : CommitRequest) : List Value :=
  request.historyItems ++ request.outputItems

def snapshotBytes (host : StoreHost) (request : CommitRequest) : Nat :=
  match request.sequenceState with
  | some state => state.byteSize host
  | none => 0

def responseBytes (host : StoreHost) (request : CommitRequest) : Option Nat :=
  if request.keep then
    some (saturatingAdd (saturatingAdd (valueBytes host request.response)
        (valuesBytes host request.historyItems)) (valuesBytes host request.nextHistoryItems))
  else
    none

def storedResponse (request : CommitRequest) (bytes : Nat) : StoredResponse where
  response := request.response
  modelInputItems := storedInputItems request.historyItems request.responseId
  historyItems := request.nextHistoryItems
  sequenceState := request.sequenceState
  expiresAt := saturatingAdd request.now responseTtlSeconds
  bytes := bytes

end CommitRequest

section

variable (host : StoreHost) (request : CommitRequest)

/-- The writes of `commit`, with the sizes that it has checked. -/
def commitWrites (conversationBytes : Option Nat) : InPlace ApiError ResponseStore Unit := do
  match request.conversationId with
  | some id =>
    writeConversation id request.nextHistoryItems request.sequenceState
      (conversationBytes.getD 0)
  | none => pure ()
  match request.responseBytes host with
  | some bytes =>
    InPlace.modifying (writeResponse request.responseId (request.storedResponse bytes)
      (request.snapshotBytes host))
  | none => pure ()
  match request.conversationId with
  | some id => InPlace.modifying (touchConversation id (request.snapshotBytes host))
  | none => pure ()

/-- The size check of `commit`, which gives the bytes of the conversation. -/
def commitSizes (store : ResponseStore) :
    Except ApiError (Option Nat) := do
  let conversationBytes <-
    conversationBytes host store request.conversationId request.nextHistoryItems
  let requiredBytes :=
    saturatingAdd ((request.responseBytes host).getD 0) (conversationBytes.getD 0)
  if requiredBytes > store.maxBytes then
    .error (ApiError.invalid
      "response history exceeds the configured session memory budget" (some "input")
      (some "context_length_exceeded"))
  else
    return conversationBytes

def commit :
    InPlace ApiError ResponseStore Unit := do
  if request.responseId.isEmpty then
    InPlace.failing (ApiError.internal "generated response has no id")
  else if !request.keep && request.conversationId.isNone then
    return ()
  else do
    let conversationBytes <- InPlace.reading (commitSizes host request)
    commitWrites host request conversationBytes
    InPlace.modifying enforceBudget
    InPlace.reading (checkCommitted request.keep request.responseId request.conversationId)

end

/-!
# Stored responses
-/

def getResponse (id : String) (now : Nat) : InPlace ApiError ResponseStore Value := do
  InPlace.modifying fun store => store.pruneExpired now
  let entry <- readResponse id
  return entry.response

def itemId (item : Value) : Option String :=
  (item.field "id").asStr

/-- The position behind the cursor, or an error that names it. -/
def startAfter (after : Option String) (items : List Value) : Except ApiError Nat :=
  match after with
  | none => .ok 0
  | some cursor =>
    match items.findIdx? (fun item => itemId item == some cursor) with
    | some position => .ok (position + 1)
    | none =>
      .error (ApiError.invalid s!"after cursor '{cursor}' was not found" (some "after")
        (some "invalid_value"))

def optionalString (text : Option String) : Value :=
  match text with
  | some text => .string text
  | none => .null

def getInputItems (id : String) (now : Nat) (descending : Bool) (after : Option String)
    (limit : Nat) : InPlace ApiError ResponseStore Value := do
  InPlace.modifying fun store => store.pruneExpired now
  let entry <- readResponse id
  let items := if descending then entry.modelInputItems.reverse else entry.modelInputItems
  let start <- InPlace.reading fun _ => startAfter after items
  let remaining := items.length - start
  let take := min remaining limit
  let data := (items.drop start).take take
  return .object [("object", .string "list"), ("data", .array data),
    ("first_id", optionalString (data.head?.bind itemId)),
    ("last_id", optionalString (data.getLast?.bind itemId)), ("has_more", .bool (remaining > take))]

def deleteResponse (id : String) : InPlace ApiError ResponseStore Value :=
  fun store =>
    if (store.responses.lookup id).isNone then
      (store, .error (responseNotFound id))
    else
      (store.removeResponse id, .ok (.object [("id", .string id),
        ("object", .string "response"), ("deleted", .bool true)]))

/-!
# Conversations
-/

def hexDigits (n : Nat) : String :=
  String.ofList (Nat.toDigits 16 n)

/-- `serial` is what the process-wide counter handed out. -/
def generatedConversationId (now serial : Nat) : String :=
  s!"conv_{now}_{hexDigits serial}"

def conversationTooLarge : ApiError :=
  ApiError.invalid "conversation exceeds the configured session memory budget"
    (some "items") (some "context_length_exceeded")

def insertConversation (id : String) (record : ConversationRecord) (store : ResponseStore) :
    ResponseStore :=
  { store with conversations := store.conversations.insert id record }.touchRecord
    (.conversation id) record.bytes

section

variable (host : StoreHost) (request : ConversationCreateRequest)

def createdBytes (metadata : Value) : Nat :=
  saturatingAdd (valuesBytes host request.items) (valueBytes host metadata)

def createdRecord (now : Nat) (metadata : Value) : ConversationRecord where
  createdAt := now
  metadata := metadata
  historyItems := request.items
  sequenceState := none
  bytes := createdBytes host request metadata

def createConversation (now serial : Nat) : InPlace ApiError ResponseStore Value := do
  if request.items.length > 20 then
    InPlace.failing (ApiError.invalid "items may contain at most 20 entries" (some "items")
      (some "array_above_max_length"))
  else do
    InPlace.reading fun _ =>
      if request.items.isEmpty then .ok () else host.normalizeInput request.items
    let metadata <- InPlace.reading fun _ => normalizeMetadata request.metadata
    let id := generatedConversationId now serial
    let maxBytes <- InPlace.reading fun store => .ok store.maxBytes
    if createdBytes host request metadata > maxBytes then
      InPlace.failing conversationTooLarge
    else do
      InPlace.modifying (insertConversation id (createdRecord host request now metadata))
      InPlace.modifying enforceBudget
      InPlace.reading fun store =>
        if (store.conversations.lookup id).isNone then .error conversationTooLarge else .ok ()
      return conversationValue id now metadata

end

def getConversation (id : String) : InPlace ApiError ResponseStore Value :=
  fun store =>
    match store.conversations.lookup id with
    | none => (store, .error (conversationNotFound id))
    | some conversation =>
      let touched := store.touchRecord (.conversation id) conversation.bytes
      if (touched.conversations.lookup id).isNone then
        (touched, .error (conversationNotFound id))
      else
        (touched, .ok (conversationValue id conversation.createdAt conversation.metadata))

def deleteConversation (id : String) : InPlace ApiError ResponseStore Value :=
  fun store =>
    if (store.conversations.lookup id).isNone then
      (store, .error (conversationNotFound id))
    else
      ({ store with conversations := store.conversations.erase id }.forget (.conversation id),
        .ok (.object [("id", .string id), ("object", .string "conversation.deleted"),
          ("deleted", .bool true)]))

/-!
# Runs of calls
-/

end ResponseStore

inductive StoreOp where
  | resolve (request : ResponseRequest) (now : Nat)
  | commit (request : ResponseStore.CommitRequest)
  | getResponse (id : String) (now : Nat)
  | getInputItems (id : String) (now : Nat) (descending : Bool) (after : Option String)
      (limit : Nat)
  | deleteResponse (id : String)
  | createConversation (request : ConversationCreateRequest) (now serial : Nat)
  | getConversation (id : String)
  | deleteConversation (id : String)

namespace StoreOp

def call (host : StoreHost) (store : ResponseStore) : StoreOp -> ResponseStore
  | resolve request now => (ResponseStore.resolve host request now store).1
  | commit request => (ResponseStore.commit host request store).1
  | getResponse id now => (ResponseStore.getResponse id now store).1
  | getInputItems id now descending after limit =>
    (ResponseStore.getInputItems id now descending after limit store).1
  | deleteResponse id => (ResponseStore.deleteResponse id store).1
  | createConversation request now serial =>
    (ResponseStore.createConversation host request now serial store).1
  | getConversation id => (ResponseStore.getConversation id store).1
  | deleteConversation id => (ResponseStore.deleteConversation id store).1

def run (host : StoreHost) (store : ResponseStore) (ops : List StoreOp) : ResponseStore :=
  ops.foldl (call host) store

end StoreOp

end Server
end RunNBurn
