import RunNBurn.Assistant.StreamedContent
import RunNBurn.Server.ResponseOutput

/-!
# The deltas of a streamed response and its text

A response without tools is streamed in deltas; its done event and its item carry the text
that is parsed at the end.
-/

namespace RunNBurn
namespace Server

open Library
open Assistant

/-- The done event, the item and the stored output carry the text that the deltas make up. -/
structure TextsAgree (response : List Value × Option (List Value)) : Prop where
  done : doneTexts response.1 = [(deltaTexts response.1).flatten]
  item : itemTexts response.1 = [(deltaTexts response.1).flatten]
  stored : exists items, response.2 = some items ∧
    items.map (fun item => (itemText item).asStr.map String.toList) =
      [some (deltaTexts response.1).flatten]

section Response

variable {serde : SerdeJson} {request : PreparedGenerationRequest} (itemId : String)

section

variable (seen : List Text) (events : List Value)

theorem doneTexts_started :
    doneTexts (startedEvents itemId ++ seen.map (deltaEvent itemId) ++ events) =
      doneTexts events := by
  have hdelta : "response.output_text.done" ≠ "response.output_text.delta" := by
    decide
  unfold doneTexts
  rw [textsOf_append, textsOf_append, textsOf_deltaEvents _ _ itemId seen hdelta]
  rfl

theorem itemTexts_started :
    itemTexts (startedEvents itemId ++ seen.map (deltaEvent itemId) ++ events) =
      itemTexts events := by
  have hdelta : "response.output_item.done" ≠ "response.output_text.delta" := by
    decide
  unfold itemTexts
  rw [textsOf_append, textsOf_append, textsOf_deltaEvents _ _ itemId seen hdelta]
  rfl

theorem deltaTexts_started :
    deltaTexts (startedEvents itemId ++ seen.map (deltaEvent itemId) ++ events) =
      seen ++ deltaTexts events := by
  have hstarted : deltaTexts (startedEvents itemId) = [] := rfl
  have hseen := deltaTexts_deltaEvents itemId seen
  unfold deltaTexts at hstarted hseen ⊢
  rw [textsOf_append, textsOf_append, hstarted, hseen]
  rfl

end

theorem texts_doneEvents (result : GeneratedCompletion) :
    doneTexts (doneEvents itemId result) = [result.output.content] ∧
      itemTexts (doneEvents itemId result) = [result.output.content] ∧
      deltaTexts (doneEvents itemId result) = [] := by
  have hdone : doneTexts (doneEvents itemId result) =
      [(String.ofList result.output.content).toList] := rfl
  have hitem : itemTexts (doneEvents itemId result) =
      [(String.ofList result.output.content).toList] := rfl
  rw [hdone, hitem, String.toList_ofList]
  exact ⟨rfl, rfl, rfl⟩

theorem itemText_outputItems (identity : ResponseIdentity) {output : ParsedAssistantOutput}
    (status : String) (hcalls : output.toolCalls = []) :
    (outputItems identity output status).map
        (fun item => (itemText item).asStr.map String.toList) =
      [some output.content] := by
  have hitems : outputItems identity output status =
      [messageItem (identity.messageId 0) status output.content output.reasoningContent] := by
    unfold outputItems outputMessages
    dsimp only
    rw [hcalls, if_pos (Or.inr rfl)]
    rfl
  have hitem : (itemText (messageItem (identity.messageId 0) status output.content
      output.reasoningContent)).asStr.map String.toList =
      some (String.ofList output.content).toList := rfl
  rw [hitems, List.map_singleton, hitem, String.toList_ofList]

section Run

variable {identity : ResponseIdentity} {seen : List Text} {generated : Generated}

theorem not_textsAgree_of_error {error : ApiError}
    (hrun : runGeneration serde request (some stays) generated = (seen, .error error)) :
    ¬ TextsAgree (streamResponse serde identity request stays generated) := by
  intro h
  rcases h.stored with ⟨items, hitems, _⟩
  unfold streamResponse at hitems
  rw [hrun] at hitems
  cases hitems

theorem textsAgree_of_ok {result : GeneratedCompletion}
    (hrun : runGeneration serde request (some stays) generated = (seen, .ok result))
    (hstopped : result.callbackStopped = false) (hcalls : result.output.toolCalls = []) :
    TextsAgree (streamResponse serde identity request stays generated) ↔
      result.output.content = seen.flatten := by
  have hresponse : streamResponse serde identity request stays generated =
      (startedEvents (identity.messageId 0) ++ seen.map (deltaEvent (identity.messageId 0)) ++
          doneEvents (identity.messageId 0) result,
        some (outputItems identity result.output (finalStatus result))) := by
    unfold streamResponse
    rw [hrun]
    dsimp only
    rw [hstopped]
    rfl
  have htexts := texts_doneEvents (identity.messageId 0) result
  have hdeltas := deltaTexts_started (identity.messageId 0) seen
    (doneEvents (identity.messageId 0) result)
  rw [htexts.2.2, List.append_nil] at hdeltas
  constructor
  · intro h
    have hdone := h.done
    rw [hresponse] at hdone
    dsimp only at hdone
    rw [hdeltas, doneTexts_started, htexts.1] at hdone
    exact List.singleton_inj.mp hdone
  · intro h
    rw [hresponse]
    exact {
      done := by
        dsimp only
        rw [hdeltas, doneTexts_started, htexts.1, h]
      item := by
        dsimp only
        rw [hdeltas, itemTexts_started, htexts.2.1, h]
      stored := by
        refine ⟨_, rfl, ?_⟩
        dsimp only
        rw [hdeltas, itemText_outputItems _ _ hcalls, h] }

end Run

theorem textsAgree_iff_streamsWhole (identity : ResponseIdentity)
    (htools : request.toolNames = []) {generated : Generated}
    (hfree : forall stop, stop ∈ request.stopSequences ->
      ¬ stop <:+: generated.pieces.flatten) :
    TextsAgree (streamResponse serde identity request stays generated) ↔
      StreamsWhole serde request.museProtocol generated.pieces := by
  have hrun := runGeneration_untooled serde htools hfree
  generalize hgenerated : runGeneration serde request (some stays) generated = run at hrun
  rcases run with ⟨seen, result⟩
  dsimp only at hrun
  rcases hrun with ⟨hseen, hresult⟩
  unfold parseGeneratedOutput at hresult
  unfold StreamsWhole
  rw [← hseen]
  cases hparse : parseAssistantOutputWithFormat serde generated.pieces.flatten []
      (if request.museProtocol then .muse else .json) with
  | error complaint =>
    dsimp only at hresult
    rw [hparse] at hresult
    rw [hresult] at hgenerated
    apply iff_of_false (not_textsAgree_of_error hgenerated)
    rintro ⟨output, houtput, _⟩
    cases houtput
  | ok output =>
    have hcalls := toolCalls_untooled hparse
    dsimp only at hresult
    rw [hparse] at hresult
    dsimp only at hresult
    rw [if_neg (by rw [hcalls]; simp)] at hresult
    rw [hresult] at hgenerated
    rw [textsAgree_of_ok hgenerated rfl hcalls]
    simp

end Response

/-- The deltas are the text of the response when the parser finds nothing to leave out of
what is streamed, and otherwise only where the two read the turns apart. -/
theorem deltas_agree (serde : SerdeJson) (identity : ResponseIdentity)
    (request : PreparedGenerationRequest) (generated : Generated) (htools : request.toolNames = [])
    (hfree : forall stop, stop ∈ request.stopSequences ->
      ¬ stop <:+: generated.pieces.flatten) :
    (ReadsAlike request.museProtocol generated.pieces.flatten ->
        TextsAgree (streamResponse serde identity request stays generated)) ∧
      (TextsAgree (streamResponse serde identity request stays generated) ->
        ReadsAlike request.museProtocol generated.pieces.flatten ∨
          TurnsReadApart request.museProtocol generated.pieces.flatten) := by
  rw [textsAgree_iff_streamsWhole identity htools hfree]
  by_cases hapart : TurnsReadApart request.museProtocol generated.pieces.flatten
  · constructor
    · intro hreads
      exact absurd hreads (not_readsAlike_of_readApart hapart)
    · intro _
      exact Or.inr hapart
  · have hwhole := streamsWhole_of_readsAlike serde hapart
    exact ⟨hwhole.mpr, fun h => Or.inl (hwhole.mp h)⟩

def plainRequest : PreparedGenerationRequest where
  stopSequences := []
  toolNames := []
  parallelToolCalls := true
  museProtocol := false
  maxTokens := 16

def firstIdentity : ResponseIdentity where
  id := "resp_0_1"
  suffix := "0_1"

def museRequest : PreparedGenerationRequest :=
  { plainRequest with museProtocol := true }

/-- A thought, an empty turn for the user with a space too many, and an answer. -/
def answered : Generated where
  pieces :=
    [" to=self<|message|>think<|eom|><|start|>assistant to= user<|message|><|eom|><|sta".toList,
      "rt|>assistant to=user<|message|>h".toList, "i".toList]
  tokensGenerated := 3

theorem deltas_agree_answered :
    TextsAgree (streamResponse unusedSerde firstIdentity museRequest stays answered) := by
  have hspeech : textSpeech answered.pieces.flatten = .answer "hi".toList := by
    decide +kernel
  have hagree := deltas_agree unusedSerde firstIdentity museRequest answered rfl
    (fun _ hstop => absurd hstop List.not_mem_nil)
  apply hagree.1
  unfold ReadsAlike
  rw [if_pos (by decide +kernel), hspeech]
  exact {
    last := by decide
    unended := by decide
    unmarked := by decide
    trimmed := by decide }

/-- The reasoning is streamed, and it is left out of the text at the end. -/
theorem reasoning_is_streamed :
    ¬ TextsAgree (streamResponse unusedSerde firstIdentity plainRequest stays
      { pieces := ["<think>a</th".toList, "ink>b".toList]
        tokensGenerated := 2 }) := by
  intro h
  exact absurd h.done (by decide)

end Server
end RunNBurn
