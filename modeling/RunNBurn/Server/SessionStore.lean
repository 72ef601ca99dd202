import Mathlib.Data.Prod.Lex
import Mathlib.Data.String.Basic
import RunNBurn.Library.InPlace
import RunNBurn.Library.Loop
import RunNBurn.Memory.ByteLru
import RunNBurn.Server.Json

/-!
# The session store

Stored responses and conversations, the two recency policies that account for
their bytes, and the calls of the server on them.
-/

namespace RunNBurn
namespace Server

open Library
open Memory

/-- What the store takes from outside: the sizes of two types, the length of a
serialized value, and the validation of input items. -/
structure StoreHost where
  sizeOfValue : Nat
  sizeOfSequenceState : Nat
  sizeOfSequenceState_pos : 0 < sizeOfSequenceState
  serializedLen : Value -> Option Nat
  normalizeInput : List Value -> Except ApiError Unit

structure EngineSequenceState where
  tokenIds : List Nat
  heapBytes : Nat
deriving DecidableEq, Repr

def EngineSequenceState.byteSize (host : StoreHost) (state : EngineSequenceState) : Nat :=
  saturatingAdd host.sizeOfSequenceState state.heapBytes

inductive CacheKey where
  | response (id : String)
  | conversation (id : String)
deriving Repr

namespace CacheKey

/-- The derived order: responses before conversations, then by id. -/
def rank : CacheKey -> Nat ×ₗ String
  | response id => toLex (0, id)
  | conversation id => toLex (1, id)

theorem rank_injective : Function.Injective rank := by
  intro a b h
  cases a with
  | response id =>
    cases b with
    | response other =>
      cases h
      rfl
    | conversation other => cases h
  | conversation id =>
    cases b with
    | response other => cases h
    | conversation other =>
      cases h
      rfl

instance : LinearOrder CacheKey :=
  LinearOrder.lift' rank rank_injective

end CacheKey

structure StoredResponse where
  response : Value
  modelInputItems : List Value
  historyItems : List Value
  sequenceState : Option EngineSequenceState
  expiresAt : Nat
  bytes : Nat

structure ConversationRecord where
  createdAt : Nat
  metadata : Value
  historyItems : List Value
  sequenceState : Option EngineSequenceState
  bytes : Nat

structure ResponseStore where
  responses : KeyedMap String StoredResponse
  conversations : KeyedMap String ConversationRecord
  maxBytes : Nat
  recordsLru : ByteLruPolicy CacheKey
  snapshotsLru : ByteLruPolicy CacheKey

inductive ResponseInput where
  | text (content : String)
  | items (items : List Value)

structure ResponseRequest where
  input : Option ResponseInput
  previousResponseId : Option Value
  conversation : Option Value

structure ResolvedResponseContext where
  historyItems : List Value
  previousResponseId : Option String
  conversationId : Option String
  resumeState : Option EngineSequenceState

structure ConversationCreateRequest where
  items : List Value
  metadata : Option Value

/-!
# Sizes and messages
-/

def saturatingMul (a b : Nat) : Nat :=
  min (a * b) u64Max

def valueBytes (host : StoreHost) (value : Value) : Nat :=
  match host.serializedLen value with
  | none => host.sizeOfValue
  | some len => saturatingAdd host.sizeOfValue (saturatingMul len 2)

def valuesBytes (host : StoreHost) (values : List Value) : Nat :=
  (values.map (valueBytes host)).foldl saturatingAdd
    (saturatingMul values.length host.sizeOfValue)

def responseNotFound (id : String) : ApiError :=
  ApiError.resourceNotFound s!"Response '{id}' was not found" (some "response_id")

def conversationNotFound (id : String) : ApiError :=
  ApiError.resourceNotFound s!"Conversation '{id}' was not found" (some "conversation_id")

def conversationValue (id : String) (createdAt : Nat) (metadata : Value) : Value :=
  .object [("id", .string id), ("object", .string "conversation"),
    ("created_at", .number (toString createdAt)), ("metadata", metadata)]

def ResponseInput.intoItems : ResponseInput -> List Value
  | .text content =>
    [.object [("type", .string "message"), ("role", .string "user"),
      ("content", .array [.object [("type", .string "input_text"), ("text", .string content)]])]]
  | .items given => given

def optionalId (value : Option Value) (param : String) : Except ApiError (Option String) :=
  match value.filter (fun value => !value.isNull) with
  | none => .ok none
  | some value =>
    match value.asStr.filter (fun id => !id.isEmpty) with
    | some id => .ok (some id)
    | none =>
      .error (ApiError.invalid s!"{param} must be a non-empty string" (some param)
        (some "invalid_value"))

def optionalConversationId (value : Option Value) : Except ApiError (Option String) :=
  match value.filter (fun value => !value.isNull) with
  | none => .ok none
  | some value =>
    let id := value.asStr.orElse (fun _ => (value.get "id").bind Value.asStr)
    match id.filter (fun id => !id.isEmpty) with
    | some id => .ok (some id)
    | none =>
      .error (ApiError.invalid "conversation must be a non-empty ID or an object containing id"
        (some "conversation") (some "invalid_value"))

def normalizeMetadata (metadata : Option Value) : Except ApiError Value :=
  match metadata.filter (fun value => !value.isNull) with
  | none => .ok .null
  | some metadata =>
    match metadata.asObject with
    | none =>
      .error (ApiError.invalid "metadata must be an object" (some "metadata")
        (some "invalid_value"))
    | some fields =>
      if fields.length > 16 then
        .error (ApiError.invalid "metadata may contain at most 16 entries"
          (some "metadata") (some "invalid_value"))
      else if fields.any (fun entry => entry.1.utf8ByteSize > 64 ||
          (entry.2.asStr.all fun text => text.utf8ByteSize > 512)) then
        .error (ApiError.invalid
          "metadata keys must be at most 64 characters and values must be strings of at most 512 characters"
          (some "metadata") (some "invalid_value"))
      else
        .ok metadata

def itemSuffix (responseId : String) : String :=
  if "resp_".isPrefixOf responseId then String.ofList (responseId.toList.drop 5)
  else responseId

def storedInputItem (responseId : String) (position : Nat) (item : Value) : Value :=
  match item with
  | .object fields =>
    let kind := (fields.lookup "type").bind Value.asStr
    let isMessage := kind.isNone || kind == some "message"
    let itemPrefix :=
      if isMessage then "msg"
      else if kind == some "function_call" || kind == some "function_call_output" then "fc"
      else "item"
    let fields := entryOrInsert fields "id"
      (.string s!"{itemPrefix}_{itemSuffix responseId}_{position}")
    if isMessage then
      let fields := entryOrInsert fields "type" (.string "message")
      let fields :=
        match (fields.lookup "content").bind Value.asStr with
        | some text => insertField fields "content"
            (.array [.object [("type", .string "input_text"), ("text", .string text)]])
        | none => fields
      .object (entryOrInsert fields "status" (.string "completed"))
    else
      .object fields
  | other => other

def storedInputItems (items : List Value) (responseId : String) : List Value :=
  items.mapIdx (storedInputItem responseId)

def responseTtlSeconds : Nat :=
  30 * 24 * 60 * 60

namespace ResponseStore

def new (maxBytes : Nat) : ResponseStore where
  responses := ∅
  conversations := ∅
  maxBytes := maxBytes
  recordsLru := ByteLruPolicy.new u64Max
  snapshotsLru := ByteLruPolicy.new u64Max

/-!
# The two policies
-/

section

variable (store : ResponseStore)

def touchRecord (key : CacheKey) (bytes : Nat) : ResponseStore :=
  { store with recordsLru := (store.recordsLru.touch key bytes).2 }

def touchSnapshot (key : CacheKey) (bytes : Nat) : ResponseStore :=
  { store with snapshotsLru := (store.snapshotsLru.touch key bytes).2 }

def forget (key : CacheKey) : ResponseStore :=
  { store with
    recordsLru := (store.recordsLru.remove key).2
    snapshotsLru := (store.snapshotsLru.remove key).2 }

def dropSnapshot : CacheKey -> ResponseStore
  | .response id =>
    match store.responses.lookup id with
    | some entry => { store with
        responses := store.responses.insert id { entry with sequenceState := none } }
    | none => store
  | .conversation id =>
    match store.conversations.lookup id with
    | some entry => { store with
        conversations := store.conversations.insert id { entry with sequenceState := none } }
    | none => store

def removeRecord (key : CacheKey) : ResponseStore :=
  let store := { store with snapshotsLru := (store.snapshotsLru.remove key).2 }
  match key with
  | .response id => { store with responses := store.responses.erase id }
  | .conversation id => { store with conversations := store.conversations.erase id }

def removeResponse (id : String) : ResponseStore :=
  { store with responses := store.responses.erase id }.forget (.response id)

def pruneExpired (now : Nat) : ResponseStore :=
  let expired := store.responses.entries.filterMap fun entry =>
    if entry.2.expiresAt <= now then some entry.1 else none
  expired.foldl removeResponse store

def overBudget : Prop :=
  saturatingAdd store.recordsLru.residentBytes store.snapshotsLru.residentBytes >
    store.maxBytes

end

instance (store : ResponseStore) : Decidable store.overBudget :=
  inferInstanceAs (Decidable (_ > _))

def evict (store : ResponseStore) : Step ResponseStore :=
  if store.overBudget then
    match store.snapshotsLru.popOldest with
    | (some key, snapshots) => .next ({ store with snapshotsLru := snapshots }.dropSnapshot key)
    | (none, snapshots) =>
      match store.recordsLru.popOldest with
      | (some key, records) =>
        .next ({ store with snapshotsLru := snapshots, recordsLru := records }.removeRecord
          key)
      | (none, records) => .done { store with snapshotsLru := snapshots, recordsLru := records }
  else
    .done store

/-- Every round of the loop pops a heap element of one of the policies. -/
def enforceBudget (store : ResponseStore) : ResponseStore :=
  iterate evict (store.snapshotsLru.oldest.length + store.recordsLru.oldest.length + 1) store

/-!
# Reading a record
-/

def touchEntry (host : StoreHost) (store : ResponseStore) (key : CacheKey) (bytes : Nat)
    (sequenceState : Option EngineSequenceState) : ResponseStore :=
  let touched := store.touchRecord key bytes
  match sequenceState with
  | some state => touched.touchSnapshot key (state.byteSize host)
  | none => touched

def responseContext (responseId : String) (host : StoreHost) :
    InPlace ApiError ResponseStore (List Value × Option EngineSequenceState) :=
  fun store =>
    match store.responses.lookup responseId with
    | none => (store, .error (responseNotFound responseId))
    | some entry =>
      let key := CacheKey.response responseId
      let touched := store.touchEntry host key entry.bytes entry.sequenceState
      if (touched.responses.lookup responseId).isNone then
        (touched, .error (responseNotFound responseId))
      else
        (touched, .ok (entry.historyItems, entry.sequenceState))

def conversationContext (conversationId : String) (host : StoreHost) :
    InPlace ApiError ResponseStore (List Value × Option EngineSequenceState) :=
  fun store =>
    match store.conversations.lookup conversationId with
    | none => (store, .error (conversationNotFound conversationId))
    | some entry =>
      let key := CacheKey.conversation conversationId
      let touched := store.touchEntry host key entry.bytes entry.sequenceState
      if (touched.conversations.lookup conversationId).isNone then
        (touched, .error (conversationNotFound conversationId))
      else
        (touched, .ok (entry.historyItems, entry.sequenceState))

def readResponse (id : String) : InPlace ApiError ResponseStore StoredResponse :=
  fun store =>
    match store.responses.lookup id with
    | none => (store, .error (responseNotFound id))
    | some entry =>
      let touched := store.touchRecord (.response id) entry.bytes
      if (touched.responses.lookup id).isNone then
        (touched, .error (responseNotFound id))
      else
        (touched, .ok entry)

end ResponseStore

end Server
end RunNBurn
