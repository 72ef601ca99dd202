import RunNBurn.Assistant.ToolCall

/-!
# The input of a response

The items of a stored history and of a request become the messages of a chat.  Calls that
follow one another are gathered into one message.
-/

namespace RunNBurn
namespace Server

open Assistant (SerdeJson isObject)

inductive ChatContentPart where
  | text (text : String)
  | image
deriving DecidableEq, Repr

inductive ChatContent where
  | text (text : String)
  | parts (parts : List ChatContentPart)
deriving DecidableEq, Repr

structure ChatMessage where
  role : String
  content : Option ChatContent
  toolCalls : Option Value
  toolCallId : Option String
  name : Option String
  reasoningContent : Option String
  recipient : Option String
  endTurn : Option Bool

def ChatMessage.new (role content : String) : ChatMessage where
  role := role
  content := some (.text content)
  toolCalls := none
  toolCallId := none
  name := none
  reasoningContent := none
  recipient := none
  endTurn := none

/-- What is used of `serde_json` and of the image decoder. -/
structure InputHost (image : Type) where
  serde : SerdeJson
  decodeDataImage : String -> String -> String -> Except ApiError image

def invalidInput (message : String) : ApiError :=
  ApiError.invalid message (some "input") (some "invalid_value")

def unsupportedInput (message : String) : ApiError :=
  ApiError.invalid message (some "input") (some "unsupported_value")

variable {image : Type}

def stringField (object : Value) (field : String) : Option String :=
  (object.get field).bind Value.asStr

/-- `kind.unwrap_or_default()`. -/
def kindName (kind : Option String) : String :=
  kind.getD ""

/-!
# Messages
-/

def normalizePart (host : InputHost image) (itemIndex partIndex : Nat) (role : String)
    (part : Value) : Except ApiError (ChatContentPart × Option image) :=
  match stringField part "type" with
  | some "input_text" | some "output_text" =>
    match stringField part "text" with
    | some text => .ok (.text text, none)
    | none => .error (invalidInput s!"input[{itemIndex}].content[{partIndex}].text is required")
  | some "input_image" =>
    if role ≠ "user" then
      .error (invalidInput
        s!"input[{itemIndex}].content[{partIndex}] input_image is only valid for user messages")
    else
      match stringField part "image_url" with
      | none =>
        .error (invalidInput s!"input[{itemIndex}].content[{partIndex}].image_url is required")
      | some url =>
        match host.decodeDataImage url "input" "input_image.image_url" with
        | .error error => .error error
        | .ok decoded => .ok (.image, some decoded)
  | kind =>
    .error (unsupportedInput
      s!"input[{itemIndex}].content[{partIndex}] type '{kindName kind}' is not supported")

/-- The parts from `partIndex` on, behind the parts and the image that are already read. -/
def normalizeParts (host : InputHost image) (itemIndex : Nat) (role : String) :
    Nat -> List ChatContentPart -> Option image -> List Value ->
      Except ApiError (ChatContent × Option image)
  | _, normalized, image, [] => .ok (.parts normalized, image)
  | partIndex, normalized, image, part :: parts =>
    match normalizePart host itemIndex partIndex role part with
    | .error error => .error error
    | .ok (read, none) =>
      normalizeParts host itemIndex role (partIndex + 1) (normalized ++ [read]) image parts
    | .ok (read, some decoded) =>
      match image with
      | some _ => .error (unsupportedInput "only one image is supported per response message")
      | none =>
        normalizeParts host itemIndex role (partIndex + 1) (normalized ++ [read])
          (some decoded) parts

def normalizeMessageContent (host : InputHost image) (content : Value) (itemIndex : Nat)
    (role : String) : Except ApiError (ChatContent × Option image) :=
  match content with
  | .string text => .ok (.text text, none)
  | .array parts => normalizeParts host itemIndex role 0 [] none parts
  | _ => .error (invalidInput s!"input[{itemIndex}].content must be text or an array")

def normalizeMessage (host : InputHost image) (object : Value) (index : Nat) :
    Except ApiError (ChatMessage × Option image) :=
  match stringField object "role" with
  | none => .error (invalidInput s!"input[{index}].role is required")
  | some role =>
    if role ∉ ["system", "developer", "user", "assistant"] then
      .error (unsupportedInput s!"input[{index}].role '{role}' is not supported")
    else
      match object.get "content" with
      | none => .error (invalidInput s!"input[{index}].content is required")
      | some content =>
        match normalizeMessageContent host content index role with
        | .error error => .error error
        | .ok (content, image) =>
          .ok
            ({ role := role
               content := some content
               toolCalls := none
               toolCallId := none
               name := none
               reasoningContent := stringField object "reasoning_content"
               recipient := stringField object "recipient"
               endTurn := (object.get "end_turn").bind Value.asBool }, image)

/-!
# Calls and their outputs
-/

def requiredNonemptyString (object : Value) (field : String) (index : Nat) :
    Except ApiError String :=
  match stringField object field with
  | some text =>
    if text ≠ "" then .ok text
    else .error (invalidInput s!"input[{index}].{field} must be a non-empty string")
  | none => .error (invalidInput s!"input[{index}].{field} must be a non-empty string")

def validName (name : String) : Bool :=
  decide (name ≠ "") && decide (name.utf8ByteSize <= 64) &&
    name.toList.all fun c => c.isAlphanum || c == '_' || c == '-'

def validateName (name : String) : Except ApiError Unit :=
  if validName name then .ok ()
  else
    .error (invalidInput
      "function names must contain 1-64 alphanumeric, underscore, or hyphen characters")

def functionCall (callId name arguments : String) : Value :=
  .object
    [("id", .string callId), ("type", .string "function"),
      ("function", .object [("name", .string name), ("arguments", .string arguments)])]

def normalizeFunctionCall (host : InputHost image) (object : Value) (index : Nat) :
    Except ApiError Value := do
  let callId <- requiredNonemptyString object "call_id" index
  let name <- requiredNonemptyString object "name" index
  validateName name
  let arguments <- requiredNonemptyString object "arguments" index
  match host.serde.fromStr arguments.toList with
  | .error complaint =>
    .error (invalidInput s!"input[{index}].arguments must contain valid JSON: {complaint}")
  | .ok parsed =>
    if isObject parsed then .ok (functionCall callId name arguments)
    else .error (invalidInput s!"input[{index}].arguments must encode a JSON object")

/-- The parts from `partIndex` on, behind the text that is already read. -/
def normalizeTextParts (itemIndex : Nat) (field : String) :
    Nat -> String -> List Value -> Except ApiError String
  | _, text, [] => .ok text
  | partIndex, text, part :: parts =>
    let kind := stringField part "type"
    if kind ≠ some "input_text" ∧ kind ≠ some "output_text" then
      .error (unsupportedInput
        s!"input[{itemIndex}].{field}[{partIndex}] type '{kindName kind}' is not supported")
    else
      match stringField part "text" with
      | none => .error (invalidInput s!"input[{itemIndex}].{field}[{partIndex}].text is required")
      | some more => normalizeTextParts itemIndex field (partIndex + 1) (text ++ more) parts

def normalizeTextContent (content : Value) (itemIndex : Nat) (field : String) :
    Except ApiError String :=
  match content with
  | .string text => .ok text
  | .array parts => normalizeTextParts itemIndex field 0 "" parts
  | _ => .error (invalidInput s!"input[{itemIndex}].{field} must be text or an array")

def normalizeFunctionOutput (object : Value) (index : Nat) : Except ApiError ChatMessage := do
  let callId <- requiredNonemptyString object "call_id" index
  match object.get "output" with
  | none => .error (invalidInput s!"input[{index}].output is required")
  | some output =>
    let content <- normalizeTextContent output index "output"
    .ok
      { role := "tool"
        content := some (.text content)
        toolCalls := none
        toolCallId := some callId
        name := none
        reasoningContent := none
        recipient := none
        endTurn := none }

/-!
# The items
-/

structure Normalizing (image : Type) where
  messages : List ChatMessage
  image : Option image
  pendingCalls : List Value
  pendingReasoning : Option String

namespace Normalizing

/-- The calls that are pending become one message, with the reasoning that is pending. -/
def callsMessage (calls : List Value) (reasoning : Option String) : ChatMessage where
  role := "assistant"
  content := none
  toolCalls := some (.array calls)
  toolCallId := none
  name := none
  reasoningContent := reasoning
  recipient := none
  endTurn := none

def flushFunctionCalls (state : Normalizing image) : Normalizing image :=
  if state.pendingCalls = [] then state
  else
    { state with
      messages := state.messages ++ [callsMessage state.pendingCalls state.pendingReasoning]
      pendingCalls := []
      pendingReasoning := none }

def pushMessage (state : Normalizing image) (message : ChatMessage)
    (messageImage : Option image) : Except ApiError (Normalizing image) :=
  match messageImage with
  | none => .ok { state with messages := state.messages ++ [message] }
  | some decoded =>
    match state.image with
    | some _ => .error (unsupportedInput "only one image is supported per response input")
    | none =>
      .ok
        { state with
          messages := state.messages ++ [message]
          image := some decoded }

def callReasoning (object : Value) : Option String :=
  (stringField object "reasoning_content").filter fun reasoning => reasoning ≠ ""

def normalizeItem (host : InputHost image) (index : Nat) (state : Normalizing image)
    (item : Value) : Except ApiError (Normalizing image) :=
  match item with
  | .object _ =>
    match stringField item "type" with
    | none | some "message" =>
      match normalizeMessage host item index with
      | .error error => .error error
      | .ok (message, messageImage) => state.flushFunctionCalls.pushMessage message messageImage
    | some "function_call" =>
      match normalizeFunctionCall host item index with
      | .error error => .error error
      | .ok call =>
        .ok
          { state with
            pendingCalls := state.pendingCalls ++ [call]
            pendingReasoning := (callReasoning item).or state.pendingReasoning }
    | some "function_call_output" =>
      match normalizeFunctionOutput item index with
      | .error error => .error error
      | .ok message => state.flushFunctionCalls.pushMessage message none
    | some kind => .error (unsupportedInput s!"input[{index}] type '{kind}' is not supported")
  | _ => .error (invalidInput s!"input[{index}] must be an object")

def normalizeItems (host : InputHost image) :
    Nat -> Normalizing image -> List Value -> Except ApiError (Normalizing image)
  | _, state, [] => .ok state
  | index, state, item :: items =>
    match normalizeItem host index state item with
    | .error error => .error error
    | .ok state => normalizeItems host (index + 1) state items

end Normalizing

/-- `normalize_input` of a list of items. -/
def normalizeInput (host : InputHost image) (items : List Value)
    (instructions : Option String) : Except ApiError (List ChatMessage × Option image) :=
  let opening :=
    match instructions with
    | none => []
    | some instructions => [ChatMessage.new "system" instructions]
  if items = [] then .error (invalidInput "input must not be empty")
  else
    match Normalizing.normalizeItems host 0
      { messages := opening
        image := none
        pendingCalls := []
        pendingReasoning := none } items with
    | .error error => .error error
    | .ok state => .ok (state.flushFunctionCalls.messages, state.image)

/-!
# The place of an item does not matter
-/

section Places

variable {host : InputHost image} {item : Value} (other otherPlace : Nat)

theorem normalizePart_place {role : String} {part : Value} {read : ChatContentPart × Option image}
    {index place : Nat} (h : normalizePart host index place role part = .ok read) :
    normalizePart host other otherPlace role part = .ok read := by
  unfold normalizePart at h ⊢
  split at h
  · split at h
    · exact h
    · cases h
  · split at h
    · exact h
    · cases h
  · split at h
    · cases h
    · rename_i hrole
      rw [if_neg hrole]
      split at h
      · cases h
      · exact h
  · cases h

theorem normalizeParts_place {role : String} {parts : List Value}
    {normalized : List ChatContentPart} {decoded : Option image}
    {read : ChatContent × Option image} {index place : Nat}
    (h : normalizeParts host index role place normalized decoded parts = .ok read) :
    normalizeParts host other role otherPlace normalized decoded parts = .ok read := by
  induction parts generalizing place otherPlace normalized decoded with
  | nil => exact h
  | cons part parts ih =>
    unfold normalizeParts at h ⊢
    cases hpart : normalizePart host index place role part with
    | error error =>
      rw [hpart] at h
      cases h
    | ok answer =>
      rw [hpart] at h
      rw [normalizePart_place other otherPlace hpart]
      rcases answer with ⟨part, found⟩
      cases found with
      | none => exact ih (otherPlace + 1) h
      | some found =>
        cases decoded with
        | none => exact ih (otherPlace + 1) h
        | some decoded => cases h

variable {index : Nat}

theorem normalizeMessage_place {read : ChatMessage × Option image} (other : Nat)
    (h : normalizeMessage host item index = .ok read) :
    normalizeMessage host item other = .ok read := by
  unfold normalizeMessage at h ⊢
  split at h
  · cases h
  · rename_i role hroleField
    split at h
    · cases h
    · rename_i hrole
      rw [if_neg hrole]
      split at h
      · cases h
      · rename_i content hcontentField
        cases hcontent : normalizeMessageContent host content index role with
        | error error =>
          rw [hcontent] at h
          cases h
        | ok answer =>
          have hother : normalizeMessageContent host content other role = .ok answer := by
            unfold normalizeMessageContent at hcontent ⊢
            split at hcontent
            · exact hcontent
            · exact normalizeParts_place other 0 hcontent
            · cases hcontent
          rw [hcontent] at h
          rw [hother]
          exact h

theorem requiredNonemptyString_place {field text : String} (other : Nat)
    (h : requiredNonemptyString item field index = .ok text) :
    requiredNonemptyString item field other = .ok text := by
  unfold requiredNonemptyString at h ⊢
  split at h
  · split at h
    · rename_i hne
      rw [if_pos hne]
      exact h
    · cases h
  · cases h

theorem normalizeTextParts_place {field : String} {parts : List Value} {text read : String}
    {index place : Nat} (h : normalizeTextParts index field place text parts = .ok read) :
    normalizeTextParts other field otherPlace text parts = .ok read := by
  induction parts generalizing place otherPlace text with
  | nil => exact h
  | cons part parts ih =>
    unfold normalizeTextParts at h ⊢
    dsimp only at h ⊢
    split at h
    · cases h
    · rename_i hkind
      rw [if_neg hkind]
      split at h
      · cases h
      · exact ih (otherPlace + 1) h

theorem normalizeFunctionOutput_place {message : ChatMessage} (other : Nat)
    (h : normalizeFunctionOutput item index = .ok message) :
    normalizeFunctionOutput item other = .ok message := by
  unfold normalizeFunctionOutput at h ⊢
  cases hid : requiredNonemptyString item "call_id" index with
  | error error =>
    rw [hid] at h
    cases h
  | ok callId =>
    rw [hid] at h
    rw [requiredNonemptyString_place other hid]
    dsimp only [Bind.bind, Except.bind] at h ⊢
    split at h
    · cases h
    · rename_i output houtputField
      cases houtput : normalizeTextContent output index "output" with
      | error error =>
        rw [houtput] at h
        cases h
      | ok content =>
        have hother : normalizeTextContent output other "output" = .ok content := by
          unfold normalizeTextContent at houtput ⊢
          split at houtput
          · exact houtput
          · exact normalizeTextParts_place other 0 houtput
          · cases houtput
        rw [houtput] at h
        rw [hother]
        exact h

theorem role_of_normalizeMessage {role : String} {read : ChatMessage × Option image}
    (hrole : stringField item "role" = some role)
    (h : normalizeMessage host item index = .ok read) :
    read.1.role = role := by
  unfold normalizeMessage at h
  rw [hrole] at h
  dsimp only at h
  split at h
  · cases h
  · split at h
    · cases h
    · split at h
      · cases h
      · cases h
        rfl

theorem role_of_normalizeFunctionOutput {message : ChatMessage}
    (h : normalizeFunctionOutput item index = .ok message) :
    message.role = "tool" := by
  unfold normalizeFunctionOutput at h
  cases hid : requiredNonemptyString item "call_id" index with
  | error error =>
    rw [hid] at h
    cases h
  | ok callId =>
    rw [hid] at h
    dsimp only [Bind.bind, Except.bind] at h
    split at h
    · cases h
    · split at h
      · cases h
      · cases h
        rfl

end Places

end Server
end RunNBurn
