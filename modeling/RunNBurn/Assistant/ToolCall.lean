import RunNBurn.Library.Occurrence
import RunNBurn.Library.Text
import RunNBurn.Server.Json

/-!
# What an assistant writes

The text of an assistant turn holds reasoning, content for the user and tool calls, in one
of three formats.  This module is the parser of the whole text and the filter that a
streamed text goes through.
-/

namespace RunNBurn
namespace Assistant

open Library
open Server (Value)

def gemmaCallOpen : Text := "<|tool_call>call:".toList
def gemmaCallClose : Text := "<tool_call|>".toList
def jsonCallOpen : Text := "<tool_call>".toList
def jsonCallClose : Text := "</tool_call>".toList
def gemmaQuote : Text := "<|\"|>".toList

def museEndMessage : Text := "<|eom|>".toList
def museEndTurn : Text := "<|eot|>".toList
def museMessage : Text := "<|message|>".toList
def museNextAssistant : Text := "<|eom|><|start|>assistant".toList
def museNextUser : Text := "<|eom|><|start|>assistant to=user<|message|>".toList
def atemCallsOpen : Text := "<atem:function_calls>".toList
def atemCallsClose : Text := "</atem:function_calls>".toList
def atemInvokeOpen : Text := "<atem:invoke name=\"".toList
def atemInvokeClose : Text := "</atem:invoke>".toList
def atemParameterOpen : Text := "<atem:parameter name=\"".toList
def atemParameterClose : Text := "</atem:parameter>".toList

/-- What is used of `serde_json`. -/
structure SerdeJson where
  fromStr : Text -> Except String Value
  toString : Value -> Text

/-!
# The stream filter
-/

inductive AssistantTurnStreamState where
  | detecting
  | museProtocol
  | passthrough
deriving DecidableEq, Repr

structure AssistantTurnStreamFilter where
  museProtocol : Bool
  state : AssistantTurnStreamState
  pending : Text
deriving DecidableEq, Repr

namespace AssistantTurnStreamFilter

def new (museProtocol : Bool) : AssistantTurnStreamFilter where
  museProtocol := museProtocol
  state := .detecting
  pending := []

/-- The filter with the text that it hands on, for a receiver that never stops. -/
def emitMuseUserTurn (filter : AssistantTurnStreamFilter) : AssistantTurnStreamFilter × Text :=
  match splitAtWord museNextUser filter.pending with
  | none => (filter, [])
  | some (_, body) => ({ filter with state := .passthrough, pending := [] }, body)

def push (filter : AssistantTurnStreamFilter) (text : Text) :
    AssistantTurnStreamFilter × Text :=
  if filter.museProtocol then
    match filter.state with
    | .detecting =>
      let pending := filter.pending ++ text
      let candidate := trimStart pending
      if candidate <+: "to=".toList then
        ({ filter with pending := pending }, [])
      else if "to=".toList <+: candidate then
        match splitAtWord museMessage candidate with
        | none => ({ filter with pending := pending }, [])
        | some (header, body) =>
          if trim (header.drop 3) = "user".toList then
            ({ filter with state := .passthrough, pending := [] }, body)
          else
            emitMuseUserTurn { filter with state := .museProtocol, pending := pending }
      else
        ({ filter with state := .passthrough, pending := [] }, pending)
    | .museProtocol => emitMuseUserTurn { filter with pending := filter.pending ++ text }
    | .passthrough => (filter, text)
  else
    (filter, text)

def finish (filter : AssistantTurnStreamFilter) : AssistantTurnStreamFilter × Text :=
  match filter.state with
  | .detecting =>
    let candidate := trimStart filter.pending
    ({ filter with state := .passthrough, pending := [] },
      if "to=".toList <+: candidate ∧ candidate ≠ "to=".toList then [] else filter.pending)
  | .museProtocol => ({ filter with pending := [] }, [])
  | .passthrough => (filter, [])

def pushAll : AssistantTurnStreamFilter -> List Text -> AssistantTurnStreamFilter × Text
  | filter, [] => (filter, [])
  | filter, piece :: pieces =>
    ((pushAll (filter.push piece).1 pieces).1,
      (filter.push piece).2 ++ (pushAll (filter.push piece).1 pieces).2)

def streamed (museProtocol : Bool) (pieces : List Text) : Text :=
  ((new museProtocol).pushAll pieces).2 ++ ((new museProtocol).pushAll pieces).1.finish.2

end AssistantTurnStreamFilter

/-!
# The parser
-/

inductive ToolCallFormat where
  | gemma
  | muse
  | json
deriving DecidableEq, Repr

structure ParsedToolCall where
  name : Text
  arguments : Text
deriving DecidableEq, Repr

structure ParsedAssistantOutput where
  content : Text
  reasoningContent : Option Text
  toolCalls : List ParsedToolCall
deriving DecidableEq, Repr

def stripBlocksLoop (opening closing : Text) : Nat -> Text -> Text
  | 0, remaining => remaining
  | rounds + 1, remaining =>
    match splitAtWord opening remaining with
    | none => remaining
    | some (front, afterOpen) =>
      match splitAtWord closing afterOpen with
      | none => front
      | some (_, behind) => front ++ stripBlocksLoop opening closing rounds behind

/-- Every block from `opening` to `closing` is left out, and an open one to the end. -/
def stripBlocks (text opening closing : Text) : Text :=
  stripBlocksLoop opening closing text.length text

def stripReasoning (text : Text) : Text :=
  let withoutGemma := stripBlocks text "<|channel>thought".toList "<channel|>".toList
  stripBlocks withoutGemma "<think>".toList "</think>".toList

mutual

def sortObjectKeys : Value -> Value
  | .array items => .array (sortItems items)
  | .object fields => .object ((sortFields fields).mergeSort (fun left right => left.1 <= right.1))
  | value => value

def sortItems : List Value -> List Value
  | [] => []
  | item :: items => sortObjectKeys item :: sortItems items

def sortFields : List (String × Value) -> List (String × Value)
  | [] => []
  | (name, value) :: fields => (name, sortObjectKeys value) :: sortFields fields

end

def validateName (name : Text) : Except String Unit :=
  if name ≠ [] ∧ name.all (fun c => c.isAlphanum || c == '_' || c == '-') then .ok ()
  else .error s!"invalid tool name '{String.ofList name}'"

def isObject : Value -> Bool
  | .object _ => true
  | _ => false

/-!
## The arguments of a Gemma call
-/

namespace GemmaValueParser

/-- `u8::is_ascii_whitespace`, which leaves the vertical tab out. -/
def isAsciiWhitespace (c : Char) : Bool :=
  c == ' ' || c == '\t' || c == '\n' || c == Char.ofNat 12 || c == '\r'

def skipWhitespace (rest : Text) : Text :=
  rest.dropWhile isAsciiWhitespace

def expectByte (expected : Char) : Text -> Except String Text
  | c :: rest =>
    if c = expected then .ok rest
    else .error s!"expected '{expected}' in Gemma tool arguments"
  | [] => .error s!"expected '{expected}' in Gemma tool arguments"

def parseString (rest : Text) : Except String (Value × Text) :=
  match splitAtWord gemmaQuote (rest.drop gemmaQuote.length) with
  | none => .error "unterminated Gemma string argument"
  | some (value, behind) => .ok (.string (String.ofList value), behind)

def parseScalar (serde : SerdeJson) (rest : Text) : Except String (Value × Text) :=
  let scalar := rest.takeWhile (fun c => c != ',' && c != '}' && c != ']')
  let raw := trim scalar
  if raw = [] then .error "empty Gemma tool argument"
  else
    match serde.fromStr raw with
    | .error complaint => .error s!"invalid Gemma scalar '{String.ofList raw}': {complaint}"
    | .ok (.string _) | .ok (.array _) | .ok (.object _) =>
      .error s!"invalid Gemma scalar '{String.ofList raw}'"
    | .ok value => .ok (value, rest.drop scalar.length)

mutual

/-- Every value and every separator takes a character, so the length of the text is fuel
enough. -/
def parseValue (serde : SerdeJson) : Nat -> Text -> Except String (Value × Text)
  | 0, _ => .error "unexpected end of Gemma tool arguments"
  | fuel + 1, text =>
    let rest := skipWhitespace text
    if gemmaQuote <+: rest then parseString rest
    else
      match rest with
      | [] => .error "unexpected end of Gemma tool arguments"
      | '{' :: inside =>
        match skipWhitespace inside with
        | '}' :: behind => .ok (.object [], behind)
        | other => parseMembers serde fuel [] other
      | '[' :: inside =>
        match skipWhitespace inside with
        | ']' :: behind => .ok (.array [], behind)
        | other => parseItems serde fuel [] other
      | other => parseScalar serde other

def parseMembers (serde : SerdeJson) :
    Nat -> List (String × Value) -> Text -> Except String (Value × Text)
  | 0, _, _ => .error "unexpected end of Gemma tool arguments"
  | fuel + 1, object, text =>
    match splitAtWord [':'] text with
    | none => .error "Gemma object key is missing ':'"
    | some (header, behind) => do
        let key := trim header
        validateName key
        let (value, rest) <- parseValue serde fuel behind
        match object.lookup (String.ofList key) with
        | some _ => .error s!"duplicate Gemma tool argument '{String.ofList key}'"
        | none =>
          let object := Server.insertField object (String.ofList key) value
          match skipWhitespace rest with
          | '}' :: behind => .ok (.object object, behind)
          | other =>
            let next <- expectByte ',' other
            parseMembers serde fuel object (skipWhitespace next)

def parseItems (serde : SerdeJson) :
    Nat -> List Value -> Text -> Except String (Value × Text)
  | 0, _, _ => .error "unexpected end of Gemma tool arguments"
  | fuel + 1, values, text => do
      let (value, rest) <- parseValue serde fuel text
      match skipWhitespace rest with
      | ']' :: behind => .ok (.array (values ++ [value]), behind)
      | other =>
        let next <- expectByte ',' other
        parseItems serde fuel (values ++ [value]) next

end

def parseComplete (serde : SerdeJson) (input : Text) : Except String Value := do
  let (value, rest) <- parseValue serde (input.length + 1) input
  match skipWhitespace rest with
  | [] => .ok value
  | suffix => .error s!"unexpected Gemma tool argument suffix '{String.ofList suffix}'"

end GemmaValueParser

/-!
## Calls
-/

def parsedCall (serde : SerdeJson) (name : Text) (arguments : Value) : ParsedToolCall where
  name := name
  arguments := serde.toString (sortObjectKeys arguments)

def parseGemmaCall (serde : SerdeJson) (body : Text) : Except String ParsedToolCall :=
  match splitAtWord ['{'] body with
  | none => .error "Gemma tool call is missing arguments"
  | some (header, inside) => do
      let name := trim header
      validateName name
      let arguments <-
        match serde.fromStr ('{' :: inside) with
        | .ok arguments => .ok arguments
        | .error _ => GemmaValueParser.parseComplete serde ('{' :: inside)
      if isObject arguments then
        .ok (parsedCall serde name arguments)
      else
        .error "Gemma tool arguments must be an object"

def parseJsonArguments (serde : SerdeJson) : Value -> Except String Value
  | .string raw =>
    match serde.fromStr raw.toList with
    | .ok arguments => .ok arguments
    | .error complaint => .error s!"invalid JSON tool arguments: {complaint}"
  | value => .ok value

def parseJsonCall (serde : SerdeJson) (body : Text) : Except String ParsedToolCall :=
  match serde.fromStr body with
  | .error complaint => .error s!"invalid JSON tool call: {complaint}"
  | .ok value =>
    let function := (value.get "function").getD value
    match (function.get "name").bind Value.asStr with
    | none => .error "JSON tool call is missing function name"
    | some name => do
        validateName name.toList
        match function.get "arguments" with
        | none => .error "JSON tool call is missing arguments"
        | some arguments =>
          let arguments <- parseJsonArguments serde arguments
          if isObject arguments then
            .ok (parsedCall serde name.toList arguments)
          else
            .error "tool arguments must be a JSON object"

/-!
## Muse turns
-/

def atemParameters (serde : SerdeJson) :
    Nat -> List (String × Value) -> Text -> Except String (List (String × Value))
  | 0, arguments, _ => .ok arguments
  | rounds + 1, arguments, parameters =>
    match splitAtWord atemParameterOpen parameters with
    | none => .ok arguments
    | some (_, parameter) =>
      match splitAtWord "\">".toList parameter with
      | none => .error "Muse ATEM parameter is missing a name terminator"
      | some (name, valueAndRest) => do
          validateName name
          match splitAtWord atemParameterClose valueAndRest with
          | none => .error "Muse ATEM parameter is not terminated"
          | some (rawValue, rest) =>
            let value :=
              match serde.fromStr rawValue with
              | .ok value => value
              | .error _ => .string (String.ofList rawValue)
            match arguments.lookup (String.ofList name) with
            | some _ => .error s!"duplicate Muse ATEM tool argument '{String.ofList name}'"
            | none =>
              atemParameters serde rounds
                (Server.insertField arguments (String.ofList name) value) rest

def atemInvokes (serde : SerdeJson) (recipient : Text) (allowedTools : List Text) :
    Nat -> List ParsedToolCall -> Text -> Except String (List ParsedToolCall)
  | 0, calls, _ => .ok calls
  | rounds + 1, calls, remaining =>
    match splitAtWord atemInvokeOpen remaining with
    | none => .ok calls
    | some (_, invoke) =>
      match splitAtWord "\">".toList invoke with
      | none => .error "Muse ATEM invoke is missing a name terminator"
      | some (name, invokeBody) =>
        if name ≠ recipient then
          .error s!"Muse tool recipient '{String.ofList recipient}' does not match invoke '{String.ofList name}'"
        else if name ∉ allowedTools then
          .error s!"model requested undeclared tool '{String.ofList name}'"
        else
          match splitAtWord atemInvokeClose invokeBody with
          | none => .error "Muse ATEM invoke is not terminated"
          | some (parameters, rest) => do
              let arguments <- atemParameters serde parameters.length [] parameters
              atemInvokes serde recipient allowedTools rounds
                (calls ++ [parsedCall serde name (.object arguments)]) rest

def parseAtemCalls (serde : SerdeJson) (text recipient : Text) (allowedTools : List Text) :
    Except String (List ParsedToolCall) :=
  match splitAtWord atemCallsOpen text with
  | none => .error s!"Muse tool turn '{String.ofList recipient}' is missing ATEM calls"
  | some (_, callsBody) =>
    match splitAtWord atemCallsClose callsBody with
    | none => .error "Muse ATEM calls are not terminated"
    | some (remaining, _) => do
        let calls <- atemInvokes serde recipient allowedTools remaining.length [] remaining
        if calls = [] then .error "Muse ATEM block contains no invokes" else .ok calls

/-- `MuseOutput`, with the bodies of the reasoning before they are joined. -/
structure MuseOutput where
  reasoning : List Text
  content : Text
  toolCalls : List ParsedToolCall
deriving DecidableEq, Repr

def MuseOutput.reasoningContent (output : MuseOutput) : Option Text :=
  if output.reasoning = [] then none
  else some ("\n\n".toList.intercalate output.reasoning)

def turnBody (body : Text) : Text :=
  ((stripSuffix museEndTurn body).or (stripSuffix museEndMessage body)).getD body

def absorbTurn (serde : SerdeJson) (allowedTools : List Text) (output : MuseOutput)
    (recipient body : Text) : Except String MuseOutput :=
  if recipient = "self".toList then
    .ok (if trim body = [] then output
      else { output with reasoning := output.reasoning ++ [trim body] })
  else if recipient = "user".toList then
    .ok { output with content := output.content ++ body }
  else if recipient ∉ allowedTools then
    .error s!"model requested undeclared tool '{String.ofList recipient}'"
  else do
    let calls <- parseAtemCalls serde body recipient allowedTools
    .ok { output with toolCalls := output.toolCalls ++ calls }

def museTurns (serde : SerdeJson) (allowedTools : List Text) :
    Nat -> MuseOutput -> Text -> Except String (Option MuseOutput)
  | 0, output, _ => .ok (some output)
  | rounds + 1, output, remaining =>
    match splitAtWord museMessage remaining with
    | none => .ok (some output)
    | some (header, bodyAndRest) =>
      let recipient := trim (header.drop 3)
      if recipient = [] then .ok none
      else
        match splitAtWord museNextAssistant bodyAndRest with
        | none => do
            let output <- absorbTurn serde allowedTools output recipient
              (turnBody bodyAndRest)
            .ok (some output)
        | some (body, next) => do
            let output <- absorbTurn serde allowedTools output recipient (turnBody body)
            let remaining := trimStart next
            if "to=".toList <+: remaining then
              museTurns serde allowedTools rounds output remaining
            else
              .error "Muse assistant turn is missing a recipient"

def parseMuseOutput (serde : SerdeJson) (text : Text) (allowedTools : List Text) :
    Except String (Option MuseOutput) :=
  let remaining := trimStart text
  if ¬ "to=".toList <+: remaining ∨ remaining = "to=".toList then .ok none
  else
    museTurns serde allowedTools (remaining.length + 1)
      { reasoning := []
        content := []
        toolCalls := [] } remaining

/-!
## The whole text
-/

/-- The opening marker that comes first, the text in front of it and the text behind. -/
def nextCall (remaining : Text) : Option (Bool × Text × Text) :=
  match splitAtWord gemmaCallOpen remaining, splitAtWord jsonCallOpen remaining with
  | none, none => none
  | some parts, none => some (true, parts)
  | none, some parts => some (false, parts)
  | some gemma, some json =>
    if json.1.length < gemma.1.length then some (false, json) else some (true, gemma)

def takeCalls (serde : SerdeJson) (allowedTools : List Text) :
    Nat -> Text -> List ParsedToolCall -> Text -> Except String (Text × List ParsedToolCall)
  | 0, content, calls, _ => .ok (content, calls)
  | rounds + 1, content, calls, remaining =>
    match nextCall remaining with
    | none => .ok (content ++ remaining, calls)
    | some (gemma, front, behind) =>
      match splitAtWord (if gemma then gemmaCallClose else jsonCallClose) behind with
      | none => .ok (content ++ front, calls)
      | some (body, rest) => do
          let call <-
            if gemma then parseGemmaCall serde (trim body)
            else parseJsonCall serde (trim body)
          if call.name ∈ allowedTools then
            takeCalls serde allowedTools rounds (content ++ front) (calls ++ [call]) rest
          else
            .error s!"model requested undeclared tool '{String.ofList call.name}'"

/-- What is done with the visible text, whether it comes out of Muse turns or not. -/
def parseVisible (serde : SerdeJson) (allowedTools : List Text) (isMuse : Bool)
    (reasoningContent : Option Text) (visible : Text) (calls : List ParsedToolCall) :
    Except String ParsedAssistantOutput := do
  let text := stripReasoning visible
  let (content, toolCalls) <- takeCalls serde allowedTools (text.length + 1) [] calls text
  .ok
    { content := if isMuse ∨ allowedTools ≠ [] then trim content else content
      reasoningContent := reasoningContent
      toolCalls := toolCalls }

def parseAssistantOutputWithFormat (serde : SerdeJson) (text : Text)
    (allowedTools : List Text) (format : ToolCallFormat) :
    Except String ParsedAssistantOutput := do
  let museOutput <-
    if format = .muse then parseMuseOutput serde text allowedTools else .ok none
  match museOutput with
  | some output =>
    parseVisible serde allowedTools true output.reasoningContent output.content
      output.toolCalls
  | none => parseVisible serde allowedTools false none text []

end Assistant
end RunNBurn
