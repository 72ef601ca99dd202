import RunNBurn.Server.Generation

/-!
# The output of a response

The items that a parsed answer becomes, and the events of the one text item that is
streamed while it is generated.
-/

namespace RunNBurn
namespace Server

open Library
open Assistant

structure ResponseIdentity where
  id : String
  suffix : String

namespace ResponseIdentity

section

variable (identity : ResponseIdentity) (index : Nat)

def messageId : String :=
  s!"msg_{identity.suffix}_{index + 1}"

def functionId : String :=
  s!"fc_{identity.suffix}_{index + 1}"

def callId : String :=
  s!"call_{identity.suffix}_{index + 1}"

end

end ResponseIdentity

def textValue (text : Text) : Value :=
  .string (String.ofList text)

def optionalTextValue : Option Text -> Value
  | none => .null
  | some text => textValue text

def indexValue (index : Nat) : Value :=
  .number (toString index)

def outputTextPart (text : Text) : Value :=
  .object
    [("type", .string "output_text"), ("annotations", .array []), ("text", textValue text),
      ("logprobs", .array [])]

def messageStartedItem (id : String) : Value :=
  .object
    [("id", .string id), ("type", .string "message"), ("status", .string "in_progress"),
      ("role", .string "assistant"), ("content", .array [])]

def messageItem (id status : String) (text : Text) (reasoningContent : Option Text) : Value :=
  .object
    [("id", .string id), ("type", .string "message"), ("status", .string status),
      ("role", .string "assistant"), ("content", .array [outputTextPart text]),
      ("reasoning_content", optionalTextValue reasoningContent), ("recipient", .string "user"),
      ("end_turn", .bool true)]

def functionItem (identity : ResponseIdentity) (index : Nat) (call : ParsedToolCall)
    (status : String) (reasoningContent : Option Text) : Value :=
  .object
    [("id", .string (identity.functionId index)), ("type", .string "function_call"),
      ("status", .string status), ("call_id", .string (identity.callId index)),
      ("name", textValue call.name), ("arguments", textValue call.arguments),
      ("reasoning_content", optionalTextValue reasoningContent)]

/-- The message of an answer, when it says something or calls nothing. -/
def outputMessages (identity : ResponseIdentity) (output : ParsedAssistantOutput)
    (status : String) : List Value :=
  if output.content ≠ [] ∨ output.toolCalls = [] then
    [messageItem (identity.messageId 0) status output.content output.reasoningContent]
  else []

def outputItems (identity : ResponseIdentity) (output : ParsedAssistantOutput)
    (status : String) : List Value :=
  let items := outputMessages identity output status
  items ++ output.toolCalls.mapIdx fun position call =>
    functionItem identity (items.length + position) call status output.reasoningContent

def finalStatus (result : GeneratedCompletion) : String :=
  if result.incomplete then "incomplete" else "completed"

/-!
# The events of a streamed text
-/

def startedEvents (itemId : String) : List Value :=
  [.object
      [("type", .string "response.output_item.added"), ("output_index", indexValue 0),
        ("item", messageStartedItem itemId)], .object
      [("type", .string "response.content_part.added"), ("item_id", .string itemId),
        ("output_index", indexValue 0), ("content_index", indexValue 0),
        ("part", outputTextPart [])]]

def deltaEvent (itemId : String) (text : Text) : Value :=
  .object
    [("type", .string "response.output_text.delta"), ("item_id", .string itemId),
      ("output_index", indexValue 0), ("content_index", indexValue 0), ("delta", textValue text),
      ("logprobs", .array [])]

def doneEvents (itemId : String) (result : GeneratedCompletion) : List Value :=
  let text := result.output.content
  [.object
      [("type", .string "response.output_text.done"), ("item_id", .string itemId),
        ("output_index", indexValue 0), ("content_index", indexValue 0), ("text", textValue text),
        ("logprobs", .array [])], .object
      [("type", .string "response.content_part.done"), ("item_id", .string itemId),
        ("output_index", indexValue 0), ("content_index", indexValue 0),
        ("part", outputTextPart text)], .object
      [("type", .string "response.output_item.done"), ("output_index", indexValue 0), ("item",
          messageItem itemId (finalStatus result) text result.output.reasoningContent)]]

def errorEvent (error : ApiError) : Value :=
  .object
    [("type", .string "error"), ("code", (error.code.map Value.string).getD .null),
      ("message", .string error.message), ("param", (error.param.map Value.string).getD .null)]

/-- The events of a response without tools from its first item on, and the output of the
response that is stored.  A client that leaves is sent nothing more. -/
def streamResponse (serde : SerdeJson) (identity : ResponseIdentity)
    (request : PreparedGenerationRequest) (onText : List Text -> Bool)
    (generated : Generated) : List Value × Option (List Value) :=
  let itemId := identity.messageId 0
  let run := runGeneration serde request (some onText) generated
  let started := startedEvents itemId ++ run.1.map (deltaEvent itemId)
  match run.2 with
  | .error error => (started ++ [errorEvent error], none)
  | .ok result =>
    if result.callbackStopped then (started, none)
    else
      (started ++ doneEvents itemId result,
        some (outputItems identity result.output (finalStatus result)))

/-!
# What a client reads in the events
-/

/-- The texts that the events of a kind carry, each read by `text`. -/
def textsOf (kind : String) (text : Value -> Value) (events : List Value) : List Text :=
  events.filterMap fun event =>
    if (event.field "type").asStr = some kind then (text event).asStr.map String.toList
    else none

/-- `item["content"][0]["text"]`. -/
def itemText (item : Value) : Value :=
  match item.field "content" with
  | .array (part :: _) => part.field "text"
  | _ => .null

def deltaTexts (events : List Value) : List Text :=
  textsOf "response.output_text.delta" (fun event => event.field "delta") events

def doneTexts (events : List Value) : List Text :=
  textsOf "response.output_text.done" (fun event => event.field "text") events

def itemTexts (events : List Value) : List Text :=
  textsOf "response.output_item.done" (fun event => itemText (event.field "item")) events

section Texts

variable (kind : String) (text : Value -> Value)

theorem textsOf_append (front behind : List Value) :
    textsOf kind text (front ++ behind) = textsOf kind text front ++ textsOf kind text behind :=
  List.filterMap_append

theorem textsOf_cons_of_ne {event : Value} {events : List Value}
    (h : (event.field "type").asStr ≠ some kind) :
    textsOf kind text (event :: events) = textsOf kind text events := by
  unfold textsOf
  rw [List.filterMap_cons, if_neg h]

theorem textsOf_deltaEvents (itemId : String) (seen : List Text)
    (h : kind ≠ "response.output_text.delta") :
    textsOf kind text (seen.map (deltaEvent itemId)) = [] := by
  induction seen with
  | nil => rfl
  | cons visible seen ih =>
    rw [List.map_cons, textsOf_cons_of_ne, ih]
    intro hkind
    exact h (Option.some.inj hkind).symm

theorem deltaTexts_deltaEvents (itemId : String) (seen : List Text) :
    deltaTexts (seen.map (deltaEvent itemId)) = seen := by
  induction seen with
  | nil => rfl
  | cons visible seen ih =>
    have hfirst : deltaTexts (deltaEvent itemId visible :: seen.map (deltaEvent itemId)) =
        (String.ofList visible).toList :: deltaTexts (seen.map (deltaEvent itemId)) := rfl
    rw [List.map_cons, hfirst, ih, String.toList_ofList]

end Texts

end Server
end RunNBurn
