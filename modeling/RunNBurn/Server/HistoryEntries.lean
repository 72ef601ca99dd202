import RunNBurn.Server.ResponseInput
import RunNBurn.Server.ResponseOutput

/-!
# The history of a session

The items that the answers of a session are stored as, with the items of the client behind
each of them, and what each item does to the messages that are read back.
-/

namespace RunNBurn
namespace Server

open Library
open Assistant

variable {image : Type}

/-!
# Client items
-/

/-- A user's message or the output of a call, with the message that it is read as. -/
inductive ClientItem (host : InputHost image) (item : Value) (message : ChatMessage) :
    Option image -> Prop where
  | user {decoded : Option image} {index : Nat} :
      isObject item = true ->
      (stringField item "type" = none ∨ stringField item "type" = some "message") ->
      stringField item "role" = some "user" ->
      normalizeMessage host item index = .ok (message, decoded) ->
      ClientItem host item message decoded
  | output {index : Nat} :
      isObject item = true ->
      stringField item "type" = some "function_call_output" ->
      normalizeFunctionOutput item index = .ok message ->
      ClientItem host item message none

structure ClientEntry (host : InputHost image) where
  item : Value
  message : ChatMessage
  image : Option image
  accepted : ClientItem host item message image

structure StoredTurn (host : InputHost image) where
  identity : ResponseIdentity
  status : String
  output : ParsedAssistantOutput
  client : List (ClientEntry host)

namespace StoredTurn

variable {host : InputHost image}

def items (turn : StoredTurn host) : List Value :=
  outputItems turn.identity turn.output turn.status ++ turn.client.map ClientEntry.item

def images (turn : StoredTurn host) : List image :=
  turn.client.filterMap ClientEntry.image

end StoredTurn

/-!
# What is carried
-/

inductive Carried where
  | reasoning (text : String)
  | content (text : String)
  | call (id name arguments : String)
  | client (message : ChatMessage)

def carriedReasoning : Option String -> List Carried
  | none => []
  | some text => if text = "" then [] else [.reasoning text]

def carriedText (text : String) : List Carried :=
  if text = "" then [] else [.content text]

def ChatContentPart.written : ChatContentPart -> String
  | .text words => words
  | .image => ""

def carriedContent : Option ChatContent -> List Carried
  | none => []
  | some (.text text) => carriedText text
  | some (.parts parts) => carriedText (String.join (parts.map ChatContentPart.written))

def carriedCall (call : Value) : Carried :=
  .call ((call.field "id").asStr.getD "") (((call.field "function").field "name").asStr.getD "")
    (((call.field "function").field "arguments").asStr.getD "")

def carriedCalls : Option Value -> List Carried
  | some (.array calls) => calls.map carriedCall
  | _ => []

def carriedBy (message : ChatMessage) : List Carried :=
  if message.role = "assistant" then
    carriedReasoning message.reasoningContent ++ carriedContent message.content ++
      carriedCalls message.toolCalls
  else
    [.client message]

namespace StoredTurn

variable {host : InputHost image}

/-- The calls of the answer, under the ids that they are stored with. -/
def calls (turn : StoredTurn host) : List Value :=
  turn.output.toolCalls.mapIdx fun position call =>
    functionCall
      (turn.identity.callId
        ((outputMessages turn.identity turn.output turn.status).length + position))
      (String.ofList call.name) (String.ofList call.arguments)

def reasoning (turn : StoredTurn host) : Option String :=
  turn.output.reasoningContent.map String.ofList

/-- Everything that the answer says and the client answers, each once. -/
def carried (turn : StoredTurn host) : List Carried :=
  carriedReasoning turn.reasoning ++ carriedText (String.ofList turn.output.content) ++
    turn.calls.map carriedCall ++ turn.client.map fun entry => .client entry.message

end StoredTurn

def openingMessages : Option String -> List ChatMessage
  | none => []
  | some instructions => [ChatMessage.new "system" instructions]

/-- The history is read, and its messages carry every turn, each part once and in order. -/
def HistoryCarries (host : InputHost image) (instructions : Option String)
    (turns : List (StoredTurn host)) : Prop :=
  exists messages decoded,
    normalizeInput host (turns.flatMap StoredTurn.items) instructions = .ok (messages, decoded) ∧
      messages.flatMap carriedBy =
        (openingMessages instructions).map .client ++ turns.flatMap StoredTurn.carried

/-!
# The condition
-/

structure CallAccepted (host : InputHost image) (call : ParsedToolCall) : Prop where
  name : validName (String.ofList call.name) = true
  nonempty : call.arguments ≠ []
  object : exists parsed, host.serde.fromStr call.arguments = .ok parsed ∧
    isObject parsed = true

namespace StoredTurn

variable {host : InputHost image}

def speaks (turn : StoredTurn host) : Prop :=
  turn.output.content ≠ [] ∨ turn.output.toolCalls = []

def reasons (turn : StoredTurn host) : Prop :=
  carriedReasoning turn.reasoning ≠ []

end StoredTurn

/-- A turn that reasons does not both speak and call, and when it only calls, no calls stand
directly in front of it. -/
def KeepsReasoning {host : InputHost image} : Bool -> List (StoredTurn host) -> Prop
  | _, [] => True
  | calling, turn :: turns =>
    (turn.reasons ->
      ¬ (turn.speaks ∧ turn.output.toolCalls ≠ []) ∧ ¬ (calling = true ∧ ¬ turn.speaks)) ∧
    KeepsReasoning (turn.client.isEmpty && !turn.output.toolCalls.isEmpty) turns

structure HistoryFits (host : InputHost image) (turns : List (StoredTurn host)) : Prop where
  nonempty : turns ≠ []
  calls : forall turn, turn ∈ turns -> forall call, call ∈ turn.output.toolCalls ->
    CallAccepted host call
  images : (turns.flatMap StoredTurn.images).length <= 1
  reasoning : KeepsReasoning false turns

/-!
# What an item does
-/

inductive Entry (image : Type) where
  | message (message : ChatMessage) (decoded : Option image)
  | call (call : Value) (reasoning : Option String)

namespace Entry

def apply (state : Normalizing image) : Entry image -> Except ApiError (Normalizing image)
  | .message read decoded => state.flushFunctionCalls.pushMessage read decoded
  | .call read reasoning =>
    .ok
      { state with
        pendingCalls := state.pendingCalls ++ [read]
        pendingReasoning := reasoning.or state.pendingReasoning }

end Entry

def Denotes (host : InputHost image) (item : Value) (entry : Entry image) : Prop :=
  forall index state, Normalizing.normalizeItem host index state item = entry.apply state

def assistantMessage (text : Text) (reasoning : Option String) : ChatMessage where
  role := "assistant"
  content := some (.parts [.text (String.ofList text)])
  toolCalls := none
  toolCallId := none
  name := none
  reasoningContent := reasoning
  recipient := some "user"
  endTurn := some true

section Items

variable {host : InputHost image}

theorem messageItem_denotes (id status : String) (text : Text) (reasoning : Option Text) :
    Denotes host (messageItem id status text reasoning)
      (.message (assistantMessage text (reasoning.map String.ofList)) none) := by
  intro index state
  cases reasoning with
  | none => rfl
  | some reasoning => rfl

theorem ClientEntry.denotes (entry : ClientEntry host) :
    Denotes host entry.item (.message entry.message entry.image) := by
  intro index state
  rcases entry with ⟨item, message, decoded, accepted⟩
  dsimp only
  cases item with
  | object fields =>
    unfold Normalizing.normalizeItem
    cases accepted with
    | user hobject hkind hrole hread =>
      have hplace := normalizeMessage_place index hread
      cases hkind with
      | inl hnone =>
        rw [hnone, hplace]
        rfl
      | inr hmessage =>
        rw [hmessage, hplace]
        rfl
    | output hobject hkind hread =>
      rw [hkind, normalizeFunctionOutput_place index hread]
      rfl
  | null =>
    cases accepted with
    | user hobject => cases hobject
    | output hobject => cases hobject
  | bool value =>
    cases accepted with
    | user hobject => cases hobject
    | output hobject => cases hobject
  | number literal =>
    cases accepted with
    | user hobject => cases hobject
    | output hobject => cases hobject
  | string text =>
    cases accepted with
    | user hobject => cases hobject
    | output hobject => cases hobject
  | array items =>
    cases accepted with
    | user hobject => cases hobject
    | output hobject => cases hobject

theorem callId_ne_empty (identity : ResponseIdentity) (index : Nat) :
    identity.callId index ≠ "" := by
  unfold ResponseIdentity.callId
  simp

theorem ofList_ne_empty {text : Text} : String.ofList text ≠ "" ↔ text ≠ [] := by
  rw [Ne, Ne, not_iff_not, ← String.ofList_nil, String.ofList_inj]

theorem requiredNonemptyString_ok {object : Value} {field text : String} (index : Nat)
    (hfield : stringField object field = some text) (hne : text ≠ "") :
    requiredNonemptyString object field index = .ok text := by
  unfold requiredNonemptyString
  rw [hfield]
  exact if_pos hne

theorem requiredNonemptyString_empty {object : Value} {field : String} (index : Nat)
    (hfield : stringField object field = some "") :
    exists error, requiredNonemptyString object field index = .error error := by
  unfold requiredNonemptyString
  rw [hfield]
  exact ⟨_, if_neg (fun hne => hne rfl)⟩

section Calls

variable {call : ParsedToolCall} (identity : ResponseIdentity) (position : Nat)
  (status : String) (reasoning : Option Text) (index : Nat)

theorem normalizeFunctionCall_accepted (h : CallAccepted host call) :
    normalizeFunctionCall host (functionItem identity position call status reasoning) index =
      .ok (functionCall (identity.callId position) (String.ofList call.name)
        (String.ofList call.arguments)) := by
  rcases h.object with ⟨parsed, hparsed, hobject⟩
  have hname : String.ofList call.name ≠ "" := by
    intro hempty
    have hvalid := h.name
    rw [hempty] at hvalid
    exact absurd hvalid (by decide)
  have hread : host.serde.fromStr (String.ofList call.arguments).toList = .ok parsed := by
    rw [String.toList_ofList]
    exact hparsed
  unfold normalizeFunctionCall validateName
  rw [requiredNonemptyString_ok index rfl (callId_ne_empty identity position),
    requiredNonemptyString_ok index rfl hname,
    requiredNonemptyString_ok index rfl (ofList_ne_empty.mpr h.nonempty)]
  dsimp only [Bind.bind, Except.bind]
  rw [if_pos h.name]
  dsimp only
  rw [hread]
  exact if_pos hobject

theorem normalizeFunctionCall_rejected (h : ¬ CallAccepted host call) :
    exists error,
      normalizeFunctionCall host (functionItem identity position call status reasoning) index =
        .error error := by
  unfold normalizeFunctionCall validateName
  rw [requiredNonemptyString_ok index rfl (callId_ne_empty identity position)]
  dsimp only [Bind.bind, Except.bind]
  by_cases hname : String.ofList call.name = ""
  · have hempty : stringField (functionItem identity position call status reasoning) "name" =
        some "" := congrArg some hname
    rcases requiredNonemptyString_empty index hempty with ⟨error, herror⟩
    rw [herror]
    exact ⟨error, rfl⟩
  · rw [requiredNonemptyString_ok index rfl hname]
    dsimp only
    by_cases hvalid : validName (String.ofList call.name) = true
    · rw [if_pos hvalid]
      dsimp only
      by_cases harguments : String.ofList call.arguments = ""
      · have hempty : stringField (functionItem identity position call status reasoning)
            "arguments" = some "" := congrArg some harguments
        rcases requiredNonemptyString_empty index hempty with ⟨error, herror⟩
        rw [herror]
        exact ⟨error, rfl⟩
      · rw [requiredNonemptyString_ok index rfl harguments]
        dsimp only
        rw [String.toList_ofList]
        cases hparsed : host.serde.fromStr call.arguments with
        | error complaint => exact ⟨_, rfl⟩
        | ok parsed =>
          refine ⟨_, if_neg ?_⟩
          intro hobject
          exact h {
            name := hvalid
            nonempty := ofList_ne_empty.mp harguments
            object := ⟨parsed, hparsed, hobject⟩ }
    · rw [if_neg hvalid]
      exact ⟨_, rfl⟩

theorem normalizeItem_functionItem (state : Normalizing image) (call : ParsedToolCall) :
    Normalizing.normalizeItem host index state
        (functionItem identity position call status reasoning) =
      match normalizeFunctionCall host (functionItem identity position call status reasoning)
        index with
      | .error error => .error error
      | .ok read =>
        .ok
          { state with
            pendingCalls := state.pendingCalls ++ [read]
            pendingReasoning :=
              (Normalizing.callReasoning (functionItem identity position call status reasoning)).or
                state.pendingReasoning } := rfl

theorem functionItem_denotes (h : CallAccepted host call) :
    Denotes host (functionItem identity position call status reasoning)
      (.call (functionCall (identity.callId position) (String.ofList call.name)
          (String.ofList call.arguments))
        ((reasoning.map String.ofList).filter fun reasoning => reasoning ≠ "")) := by
  intro index state
  have hreasoning : Normalizing.callReasoning
      (functionItem identity position call status reasoning) =
      (reasoning.map String.ofList).filter fun reasoning => reasoning ≠ "" := by
    cases reasoning with
    | none => rfl
    | some reasoning => rfl
  rw [normalizeItem_functionItem,
    normalizeFunctionCall_accepted identity position status reasoning index h, hreasoning]
  rfl

theorem functionItem_rejected (state : Normalizing image) (h : ¬ CallAccepted host call) :
    exists error,
      Normalizing.normalizeItem host index state
        (functionItem identity position call status reasoning) = .error error := by
  rcases normalizeFunctionCall_rejected identity position status reasoning index h with
    ⟨error, herror⟩
  refine ⟨error, ?_⟩
  rw [normalizeItem_functionItem, herror]

end Calls

end Items

/-!
# The entries of a history
-/

namespace StoredTurn

variable {host : InputHost image}

section

variable (turn : StoredTurn host)

/-- The reasoning that every call of the answer is stored with, when there is any. -/
def callReasoning : Option String :=
  turn.reasoning.filter fun reasoning => reasoning ≠ ""

def messageEntries : List (Entry image) :=
  if turn.output.content ≠ [] ∨ turn.output.toolCalls = [] then
    [.message (assistantMessage turn.output.content turn.reasoning) none]
  else []

def callEntries : List (Entry image) :=
  turn.calls.map fun call => .call call turn.callReasoning

def clientEntries : List (Entry image) :=
  turn.client.map fun entry => .message entry.message entry.image

def entries : List (Entry image) :=
  turn.messageEntries ++ turn.callEntries ++ turn.clientEntries

end

variable (turn : StoredTurn host)

theorem messages_denote :
    List.Forall₂ (Denotes host) (outputMessages turn.identity turn.output turn.status)
      turn.messageEntries := by
  unfold outputMessages messageEntries
  split
  · exact .cons (messageItem_denotes _ _ _ _) .nil
  · exact .nil

theorem calls_denote (h : forall call, call ∈ turn.output.toolCalls -> CallAccepted host call) :
    List.Forall₂ (Denotes host)
      (turn.output.toolCalls.mapIdx fun position call =>
        functionItem turn.identity
          ((outputMessages turn.identity turn.output turn.status).length + position) call
          turn.status turn.output.reasoningContent)
      turn.callEntries := by
  unfold callEntries calls
  rw [List.forall₂_iff_get]
  refine ⟨by simp, ?_⟩
  intro place hitem hentry
  simp only [List.get_eq_getElem, List.getElem_map, List.getElem_mapIdx]
  exact functionItem_denotes _ _ _ _ (h _ (List.getElem_mem _))

theorem items_denote (h : forall call, call ∈ turn.output.toolCalls -> CallAccepted host call) :
    List.Forall₂ (Denotes host) turn.items turn.entries := by
  unfold items entries outputItems clientEntries
  refine List.rel_append (List.rel_append turn.messages_denote (turn.calls_denote h)) ?_
  rw [List.forall₂_map_left_iff, List.forall₂_map_right_iff, List.forall₂_same]
  intro entry hentry
  exact entry.denotes

end StoredTurn

/-!
# The run over the items
-/

section Run

variable {host : InputHost image}

theorem normalizeItems_denotes {items : List Value} {entries : List (Entry image)}
    (h : List.Forall₂ (Denotes host) items entries) (index : Nat) (state : Normalizing image) :
    Normalizing.normalizeItems host index state items =
      entries.foldlM Entry.apply state := by
  induction h generalizing index state with
  | nil => rfl
  | cons hitem _ ih =>
    unfold Normalizing.normalizeItems
    rw [hitem index state, List.foldlM_cons]
    cases Entry.apply state _ with
    | error error => rfl
    | ok state => exact ih (index + 1) state

theorem normalizeItems_rejected {items : List Value} {item : Value} (hitem : item ∈ items)
    (hrejected : forall index state, exists error,
      Normalizing.normalizeItem host index state item = .error error)
    (index : Nat) (state : Normalizing image) :
    exists error, Normalizing.normalizeItems host index state items = .error error := by
  induction items generalizing index state with
  | nil => cases hitem
  | cons first items ih =>
    unfold Normalizing.normalizeItems
    cases hfirst : Normalizing.normalizeItem host index state first with
    | error error => exact ⟨error, rfl⟩
    | ok next =>
      cases hitem with
      | head =>
        rcases hrejected index state with ⟨error, herror⟩
        rw [herror] at hfirst
        cases hfirst
      | tail _ hlater => exact ih hlater (index + 1) next

def Entry.decoded : Entry image -> Option image
  | .message _ found => found
  | .call _ _ => none

section

variable (state : Normalizing image)

def absorb (entry : Entry image) : Normalizing image :=
  match entry with
  | .message read decoded =>
    { state.flushFunctionCalls with
      messages := state.flushFunctionCalls.messages ++ [read]
      image := decoded.or state.image }
  | .call read reasoning =>
    { state with
      pendingCalls := state.pendingCalls ++ [read]
      pendingReasoning := reasoning.or state.pendingReasoning }

theorem image_flushFunctionCalls :
    state.flushFunctionCalls.image = state.image := by
  unfold Normalizing.flushFunctionCalls
  split <;> rfl

theorem image_absorb (entry : Entry image) :
    (absorb state entry).image = entry.decoded.or state.image := by
  cases entry with
  | message read decoded => rfl
  | call read reasoning => rfl

theorem apply_absorbs (entry : Entry image)
    (h : entry.decoded = none ∨ state.image = none) :
    Entry.apply state entry = .ok (absorb state entry) := by
  have hflushed := image_flushFunctionCalls state
  cases entry with
  | call read reasoning => rfl
  | message read decoded =>
    unfold Entry.apply absorb Normalizing.pushMessage
    cases decoded with
    | none =>
      rw [← hflushed]
      rfl
    | some decoded =>
      cases h with
      | inl hnone => cases hnone
      | inr hnone =>
        rw [hnone] at hflushed
        dsimp only
        rw [hflushed]
        rfl

end

variable {state : Normalizing image}

theorem apply_second {entry : Entry image} (hentry : entry.decoded ≠ none)
    (hstate : state.image ≠ none) :
    exists error, Entry.apply state entry = .error error := by
  rcases Option.ne_none_iff_exists'.mp hstate with ⟨first, hfirst⟩
  have hflushed := image_flushFunctionCalls state
  cases entry with
  | call read reasoning => exact absurd rfl hentry
  | message read decoded =>
    cases decoded with
    | none => exact absurd rfl hentry
    | some decoded =>
      unfold Entry.apply Normalizing.pushMessage
      dsimp only
      rw [hflushed, hfirst]
      exact ⟨_, rfl⟩

def imagesOf (state : Normalizing image) (entries : List (Entry image)) : List image :=
  state.image.toList ++ entries.filterMap Entry.decoded

theorem imagesOf_absorb {entry : Entry image} (h : entry.decoded = none ∨ state.image = none)
    (entries : List (Entry image)) :
    imagesOf (absorb state entry) entries = imagesOf state (entry :: entries) := by
  unfold imagesOf
  rw [image_absorb, List.filterMap_cons]
  cases hentry : entry.decoded with
  | none => rfl
  | some decoded =>
    rw [hentry] at h
    rw [h.resolve_left (Option.some_ne_none decoded)]
    rfl

variable (entries : List (Entry image))

theorem foldlM_absorbs (state : Normalizing image) (h : (imagesOf state entries).length <= 1) :
    entries.foldlM Entry.apply state = .ok (entries.foldl absorb state) := by
  induction entries generalizing state with
  | nil => rfl
  | cons entry entries ih =>
    have hfree : entry.decoded = none ∨ state.image = none := by
      cases hentry : entry.decoded with
      | none => exact Or.inl rfl
      | some decoded =>
        cases hstate : state.image with
        | none => exact Or.inr rfl
        | some first =>
          unfold imagesOf at h
          rw [hstate, List.filterMap_cons, hentry] at h
          simp at h
    rw [List.foldlM_cons, List.foldl_cons, apply_absorbs state entry hfree]
    apply ih
    rw [imagesOf_absorb hfree]
    exact h

theorem foldlM_second (state : Normalizing image) (h : 1 < (imagesOf state entries).length) :
    exists error, entries.foldlM Entry.apply state = .error error := by
  induction entries generalizing state with
  | nil =>
    unfold imagesOf at h
    cases hstate : state.image with
    | none =>
      rw [hstate] at h
      simp at h
    | some first =>
      rw [hstate] at h
      simp at h
  | cons entry entries ih =>
    rw [List.foldlM_cons]
    by_cases hfree : entry.decoded = none ∨ state.image = none
    · rw [apply_absorbs state entry hfree]
      apply ih
      rw [imagesOf_absorb hfree]
      exact h
    · rw [not_or] at hfree
      rcases apply_second hfree.1 hfree.2 with ⟨error, herror⟩
      rw [herror]
      exact ⟨error, rfl⟩

/-!
# The messages
-/

def flushed (calls : List Value) (reasoning : Option String) : List ChatMessage :=
  if calls = [] then [] else [Normalizing.callsMessage calls reasoning]

def assemble : List Value -> Option String -> List (Entry image) -> List ChatMessage
  | calls, reasoning, [] => flushed calls reasoning
  | calls, reasoning, .message read _ :: entries =>
    flushed calls reasoning ++ read :: assemble [] none entries
  | calls, reasoning, .call read more :: entries =>
    assemble (calls ++ [read]) (more.or reasoning) entries

theorem messages_flushFunctionCalls (state : Normalizing image) :
    state.flushFunctionCalls.messages =
      state.messages ++ flushed state.pendingCalls state.pendingReasoning := by
  unfold Normalizing.flushFunctionCalls flushed
  split
  · exact (List.append_nil _).symm
  · rfl

def Idle (calls : List Value) (reasoning : Option String) : Prop :=
  calls = [] -> reasoning = none

theorem pending_flushFunctionCalls (hidle : Idle state.pendingCalls state.pendingReasoning) :
    state.flushFunctionCalls.pendingCalls = [] ∧
      state.flushFunctionCalls.pendingReasoning = none := by
  unfold Normalizing.flushFunctionCalls
  split
  · rename_i hcalls
    exact ⟨hcalls, hidle hcalls⟩
  · exact ⟨rfl, rfl⟩

theorem messages_foldl_absorb (state : Normalizing image)
    (hidle : Idle state.pendingCalls state.pendingReasoning) :
    (entries.foldl absorb state).flushFunctionCalls.messages =
      state.messages ++ assemble state.pendingCalls state.pendingReasoning entries := by
  induction entries generalizing state with
  | nil => exact messages_flushFunctionCalls state
  | cons entry entries ih =>
    rw [List.foldl_cons]
    cases entry with
    | message read decoded =>
      have hpending := pending_flushFunctionCalls hidle
      have hnext := ih (absorb state (.message read decoded))
        (fun _ => hpending.2)
      rw [hnext]
      show (state.flushFunctionCalls.messages ++ [read]) ++
        assemble state.flushFunctionCalls.pendingCalls
          state.flushFunctionCalls.pendingReasoning entries = _
      have hassemble : assemble state.pendingCalls state.pendingReasoning
          (.message read decoded :: entries) =
          flushed state.pendingCalls state.pendingReasoning ++
            read :: assemble [] none entries := rfl
      rw [hpending.1, hpending.2, messages_flushFunctionCalls, hassemble]
      simp
    | call read reasoning =>
      rw [ih]
      · rfl
      · intro hempty
        exact absurd hempty (by simp [absorb])

end Run

end Server
end RunNBurn
