import RunNBurn.Assistant.TurnFilter
import RunNBurn.Generate.TextStop

/-!
# The text of a generation

The pieces that the engine decodes go through the stop filter into the content of the
answer, and without tools through the turn filter to the client.  The content is parsed as
a whole at the end.
-/

namespace RunNBurn
namespace Server

open Library
open Assistant
open Generate (TextStopFilter)

structure PreparedGenerationRequest where
  stopSequences : List Text
  toolNames : List Text
  parallelToolCalls : Bool
  museProtocol : Bool
  maxTokens : Nat

/-- What the engine generates: the pieces it calls back with for as long as the callback
goes on, and the number of tokens. -/
structure Generated where
  pieces : List Text
  tokensGenerated : Nat

structure GeneratedCompletion where
  output : ParsedAssistantOutput
  outputTokens : Nat
  maxTokens : Nat
  matchedStop : Bool
  callbackStopped : Bool

def GeneratedCompletion.incomplete (result : GeneratedCompletion) : Bool :=
  result.output.toolCalls.isEmpty && !result.matchedStop &&
    decide (result.maxTokens <= result.outputTokens)

def appendGeneratedText (content text : Text) (stopOnToolCall : Bool) : Text × Bool :=
  let content := content ++ text
  if stopOnToolCall then
    match ([gemmaCallClose, jsonCallClose].filterMap fun marker =>
      (findWord marker content).map (· + marker.length)).min? with
    | some ending => (content.take ending, false)
    | none => (content, true)
  else
    (content, true)

def parseGeneratedOutput (serde : SerdeJson) (content : Text) (toolNames : List Text)
    (parallelToolCalls museProtocol : Bool) : Except ApiError ParsedAssistantOutput :=
  let format := if museProtocol then ToolCallFormat.muse else ToolCallFormat.json
  match parseAssistantOutputWithFormat serde content toolNames format with
  | .error complaint => .error (ApiError.internal s!"invalid assistant output: {complaint}")
  | .ok parsed =>
    if ¬ parallelToolCalls ∧ 1 < parsed.toolCalls.length then
      .error (ApiError.internal
        "model generated parallel tool calls when parallel_tool_calls is false")
    else
      .ok parsed

/-- What the callback of the engine changes; `seen` is what the client was given. -/
structure TextReceiver where
  content : Text
  turnFilter : AssistantTurnStreamFilter
  seen : List Text
  callbackStopped : Bool

namespace TextReceiver

def new (museProtocol : Bool) : TextReceiver where
  content := []
  turnFilter := AssistantTurnStreamFilter.new museProtocol
  seen := []
  callbackStopped := false

/-- The client answers, from everything it has seen, whether it goes on.  The turn filter
hands nothing on when it has no text. -/
def handOn (onText : Option (List Text -> Bool)) (receiver : TextReceiver) (visible : Text) :
    TextReceiver × Bool :=
  match onText with
  | none => (receiver, true)
  | some goesOn =>
    if visible = [] then (receiver, true)
    else if goesOn (receiver.seen ++ [visible]) then
      ({ receiver with seen := receiver.seen ++ [visible] }, true)
    else
      ({ receiver with
          seen := receiver.seen ++ [visible]
          callbackStopped := true }, false)

def receive (request : PreparedGenerationRequest) (onText : Option (List Text -> Bool))
    (receiver : TextReceiver) (text : Text) : TextReceiver × Bool :=
  let stopOnToolCall := request.toolNames ≠ [] ∧ ¬ request.parallelToolCalls
  let appended := appendGeneratedText receiver.content text stopOnToolCall
  let receiver := { receiver with content := appended.1 }
  if request.toolNames = [] ∧ text ≠ [] then
    let pushed := receiver.turnFilter.push text
    let answer := handOn onText { receiver with turnFilter := pushed.1 } pushed.2
    (answer.1, appended.2 && answer.2)
  else
    (receiver, appended.2)

end TextReceiver

def finishText (request : PreparedGenerationRequest) (onText : Option (List Text -> Bool))
    (filter : TextStopFilter) (receiver : TextReceiver) : TextReceiver :=
  if receiver.callbackStopped then receiver
  else
    let receiver := (filter.finish (TextReceiver.receive request onText) receiver).2.1
    if ¬ receiver.callbackStopped ∧ request.toolNames = [] then
      let finished := receiver.turnFilter.finish
      (TextReceiver.handOn onText { receiver with turnFilter := finished.1 } finished.2).1
    else
      receiver

def runGeneration (serde : SerdeJson) (request : PreparedGenerationRequest)
    (onText : Option (List Text -> Bool)) (generated : Generated) :
    List Text × Except ApiError GeneratedCompletion :=
  let streamed := TextStopFilter.pushAll (TextReceiver.receive request onText)
    (TextStopFilter.new request.stopSequences) (TextReceiver.new request.museProtocol)
    generated.pieces
  let receiver := finishText request onText streamed.1 streamed.2.1
  (receiver.seen,
    match parseGeneratedOutput serde receiver.content request.toolNames
      request.parallelToolCalls request.museProtocol with
    | .error error => .error error
    | .ok output =>
      .ok
        { output := output
          outputTokens := generated.tokensGenerated
          maxTokens := request.maxTokens
          matchedStop := streamed.1.matched
          callbackStopped := receiver.callbackStopped })

/-!
# Without tools
-/

section Untooled

variable {request : PreparedGenerationRequest}

def stays (_seen : List Text) : Bool :=
  true

theorem handOn_stays (receiver : TextReceiver) (visible : Text) :
    (receiver.handOn (some stays) visible).2 = true ∧
      (receiver.handOn (some stays) visible).1.content = receiver.content ∧
      (receiver.handOn (some stays) visible).1.turnFilter = receiver.turnFilter ∧
      (receiver.handOn (some stays) visible).1.callbackStopped = receiver.callbackStopped ∧
      (receiver.handOn (some stays) visible).1.seen.flatten =
        receiver.seen.flatten ++ visible := by
  unfold TextReceiver.handOn
  dsimp only
  by_cases hempty : visible = []
  · rw [if_pos hempty, hempty, List.append_nil]
    exact ⟨rfl, rfl, rfl, rfl, rfl⟩
  · rw [if_neg hempty, if_pos (show stays _ = true from rfl)]
    refine ⟨rfl, rfl, rfl, rfl, ?_⟩
    rw [List.flatten_append, List.flatten_singleton]

/-- What one text, or several, add to the content and to what the client has seen. -/
structure Received (before : TextReceiver) (text : Text) (pushed : AssistantTurnStreamFilter × Text)
    (after : TextReceiver) : Prop where
  content : after.content = before.content ++ text
  callbackStopped : after.callbackStopped = before.callbackStopped
  turnFilter : after.turnFilter = pushed.1
  seen : after.seen.flatten = before.seen.flatten ++ pushed.2

section

variable (htools : request.toolNames = [])
include htools

theorem appendGeneratedText_untooled (content text : Text) :
    appendGeneratedText content text
        (decide (request.toolNames ≠ [] ∧ ¬ request.parallelToolCalls)) =
      (content ++ text, true) := by
  rw [decide_eq_false (fun h => h.1 htools)]
  rfl

section

variable (receiver : TextReceiver)

theorem receive_goes_on (text : Text) :
    (receiver.receive request (some stays) text).2 = true := by
  unfold TextReceiver.receive
  dsimp only
  rw [appendGeneratedText_untooled htools]
  split
  · rw [(handOn_stays _ _).1]
    rfl
  · rfl

theorem receive_nil :
    Received receiver [] (receiver.turnFilter, [])
      (receiver.receive request (some stays) []).1 := by
  unfold TextReceiver.receive
  dsimp only
  rw [appendGeneratedText_untooled htools, if_neg (fun h => h.2 rfl)]
  exact {
    content := rfl
    callbackStopped := rfl
    turnFilter := rfl
    seen := (List.append_nil _).symm }

theorem receive_text {text : Text} (htext : text ≠ []) :
    Received receiver text (receiver.turnFilter.push text)
      (receiver.receive request (some stays) text).1 := by
  unfold TextReceiver.receive
  dsimp only
  rw [appendGeneratedText_untooled htools, if_pos ⟨htools, htext⟩]
  have h := handOn_stays
    { receiver with
      content := receiver.content ++ text
      turnFilter := (receiver.turnFilter.push text).1 } (receiver.turnFilter.push text).2
  exact {
    content := h.2.1
    callbackStopped := h.2.2.2.1
    turnFilter := h.2.2.1
    seen := h.2.2.2.2 }

theorem foldl_receive (texts : List Text) :
    Received receiver texts.flatten
      (receiver.turnFilter.pushAll (texts.filter fun text => !text.isEmpty))
      (texts.foldl (fun receiver text => (receiver.receive request (some stays) text).1)
        receiver) := by
  induction texts generalizing receiver with
  | nil =>
    exact {
      content := (List.append_nil _).symm
      callbackStopped := rfl
      turnFilter := rfl
      seen := (List.append_nil _).symm }
  | cons text texts ih =>
    have hrest := ih (receiver.receive request (some stays) text).1
    rw [List.foldl_cons]
    cases text with
    | nil =>
      have hfirst := receive_nil htools receiver
      rw [hfirst.turnFilter] at hrest
      exact {
        content := by
          rw [hrest.content, hfirst.content, List.append_nil]
          rfl
        callbackStopped := hrest.callbackStopped.trans hfirst.callbackStopped
        turnFilter := hrest.turnFilter
        seen := by
          rw [hrest.seen, hfirst.seen, List.append_nil]
          rfl }
    | cons c text =>
      have hfirst := receive_text htools receiver (List.cons_ne_nil c text)
      rw [hfirst.turnFilter] at hrest
      exact {
        content := by
          rw [hrest.content, hfirst.content, List.append_assoc]
          rfl
        callbackStopped := hrest.callbackStopped.trans hfirst.callbackStopped
        turnFilter := hrest.turnFilter
        seen := by
          rw [hrest.seen, hfirst.seen, List.append_assoc]
          rfl }

end

theorem finishText_untooled {filter : TextStopFilter} {receiver finished : TextReceiver}
    (hreceiver : receiver.callbackStopped = false)
    (hfinished : (filter.finish (TextReceiver.receive request (some stays)) receiver).2.1 =
      finished)
    (hstopped : finished.callbackStopped = false) :
    (finishText request (some stays) filter receiver).content = finished.content ∧
      (finishText request (some stays) filter receiver).callbackStopped = false ∧
      (finishText request (some stays) filter receiver).seen.flatten =
        finished.seen.flatten ++ finished.turnFilter.finish.2 := by
  unfold finishText
  rw [hreceiver, if_neg Bool.false_ne_true]
  dsimp only
  rw [hfinished, if_pos ⟨by rw [hstopped]; exact Bool.false_ne_true, htools⟩]
  have h := handOn_stays { finished with turnFilter := finished.turnFilter.finish.1 }
    finished.turnFilter.finish.2
  exact ⟨h.2.1, h.2.2.2.1.trans hstopped, h.2.2.2.2⟩

end

theorem pushAll_nonempty_flatten (museProtocol : Bool) {texts pieces : List Text}
    (h : texts.flatten = pieces.flatten) :
    AssistantTurnStreamFilter.streamed museProtocol (texts.filter fun text => !text.isEmpty) =
      AssistantTurnStreamFilter.streamed museProtocol pieces := by
  rw [AssistantTurnStreamFilter.streamed_eq, AssistantTurnStreamFilter.streamed_eq,
    List.flatten_filter_not_isEmpty, h]

/-- Without tools and without a stop sequence in the text, a client that stays sees what the
turn filter makes of the text, and the whole text is parsed. -/
theorem runGeneration_untooled (serde : SerdeJson) (htools : request.toolNames = [])
    {generated : Generated} (hfree : forall stop, stop ∈ request.stopSequences ->
      ¬ stop <:+: generated.pieces.flatten) :
    (runGeneration serde request (some stays) generated).1.flatten =
        AssistantTurnStreamFilter.streamed request.museProtocol generated.pieces ∧
      (runGeneration serde request (some stays) generated).2 =
        match parseGeneratedOutput serde generated.pieces.flatten []
          request.parallelToolCalls request.museProtocol with
        | .error error => .error error
        | .ok output =>
          .ok
            { output := output
              outputTokens := generated.tokensGenerated
              maxTokens := request.maxTokens
              matchedStop := false
              callbackStopped := false } := by
  rcases TextStopFilter.pushAll_finish (TextReceiver.new request.museProtocol)
    (receive_goes_on htools) hfree with ⟨texts, last, hmatched, hgiven, hfinished, hwhole⟩
  have hpushed := foldl_receive htools (TextReceiver.new request.museProtocol) texts
  have hall := foldl_receive htools (TextReceiver.new request.museProtocol) (texts ++ last)
  rw [← hgiven] at hpushed
  have hfinish := finishText_untooled htools hpushed.callbackStopped hfinished
    hall.callbackStopped
  unfold runGeneration
  dsimp only
  constructor
  · rw [hfinish.2.2, hall.seen, hall.turnFilter, ← pushAll_nonempty_flatten _ hwhole]
    rfl
  · rw [hfinish.1, hfinish.2.1, hall.content, hmatched, htools, hwhole]
    rfl

end Untooled

end Server
end RunNBurn
