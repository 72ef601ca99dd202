import RunNBurn.Generate.Plain
import RunNBurn.Generate.WindowSampling

/-!
# The drafter loops

Generation with a drafter for a request that samples: the DFlash, DSpark and
external-drafter loops.  A round verifies the drafts in one window, samples the
window, emits what was accepted and then the token behind it.
-/

namespace RunNBurn
namespace Generate

open Library
open Inference

/-- The target's logits behind the tokens generated, as the engine forwards them:
for the next token, and for a window of drafts. -/
structure TargetForward (Score : Type) where
  forward : List TokenId -> Checked (List Score)
  verify : List TokenId -> List TokenId -> Checked (OutputLogits Score)
  lastBackendArgmaxToken : List TokenId -> Option TokenId

structure DrafterState extends SampleState where
  tokensRemaining : Nat
  currentToken : TokenId
  rounds : Nat
  finishWithTarget : Bool

structure EmitState where
  round : GreedyRound
  generatedTokens : List TokenId
  tokensRemaining : Nat

namespace GenerateParams

def mtpSampledVerifyAllowed (params : GenerateParams) : Bool :=
  decide (0 < params.temperature) && !params.mirostat

end GenerateParams

/-- The DFlash drafter proposes as many tokens as it is asked for, or fewer. -/
structure DflashDrafter where
  draft : List TokenId -> TokenId -> Nat -> List TokenId
  adaptiveTarget : Bool
  adaptiveBurstRounds : Nat

structure DsparkDraft where
  tokens : List TokenId
  confidences : List Rat

structure DsparkDrafter where
  draft : List TokenId -> TokenId -> DsparkDraft

structure ExternalDrafter where
  draft : List TokenId -> TokenId -> List TokenId

inductive Drafter where
  | dflash (drafter : DflashDrafter)
  | dspark (drafter : DsparkDrafter)
  | external (drafter : ExternalDrafter)

def dsparkDraftConfidenceFloor : Rat :=
  1 / 2

def dsparkConfidentPrefixLen (confidences : List Rat) (maxTokens : Nat) : Nat :=
  let available := min confidences.length maxTokens
  if available = 0 then 0
  else
    max ((confidences.take available).takeWhile
      (fun confidence => decide (dsparkDraftConfidenceFloor <= confidence))).length 1

variable {Row Rec Score : Type} [LinearOrder Score] [OrderBot Score]

namespace Session

variable (session : Session Row Rec Score) (target : TargetForward Score)
  (chain : SamplerChain)

def targetSampler : TargetSampler Score where
  backend := session.backend
  chain := chain
  params := session.params
  eos := session.eos

def nextTokenFromCurrentLogits (logits : List Score) (s : SampleState) :
    Checked (TokenId × SampleState) :=
  let backendArgmax :=
    if session.params.temperature = 0 then target.lastBackendArgmaxToken s.generatedTokens
    else none
  match backendArgmax.filter
      (fun token => !session.params.ignoreEos || token != session.eos) with
  | some token => .ok (token, s)
  | none => do
      ensure (logits.length ≠ 0) "MTP generate missing target logits"
      let suppressed <- suppressEosLogit session.params logits session.eos
      let (token, drawn) :=
        chain.sample session.backend suppressed s.generatedTokens s.drawn
      return (token, { s with drawn := drawn })

/-- `for index in 0..accepted`, over the drafts up to there. -/
def emitAccepted (accepted : Nat) : Nat -> List TokenId -> EmitState -> Checked EmitState
  | _, [], s => .ok s
  | index, token :: rest, s =>
    match s.round.observe index token token accepted session.params session.eos with
    | (round, .reject) => .ok { s with round := round }
    | (round, .stop) => .ok { s with round := round }
    | (round, .acceptWithoutEmit) =>
      emitAccepted accepted (index + 1) rest { s with round := round }
    | (round, .emit) => do
        let generated := s.generatedTokens ++ [token]
        let (round, remaining, goesOn) <-
          round.afterEmit (session.callback generated) s.tokensRemaining
        let following : EmitState := {
          round := round
          generatedTokens := generated
          tokensRemaining := remaining }
        if goesOn then emitAccepted accepted (index + 1) rest following
        else return following

def targetWindow (outputLogits : OutputLogits Score) (drafts : List TokenId) :
    TargetWindow Score where
  outputLogits := outputLogits
  draftTokens := drafts
  vocabSize := session.model.vocab.size

/-- A verified window: what was sampled from it, and the emission of the accepted
drafts. -/
def sampleAndEmit (drafts : List TokenId) (s : DrafterState) :
    Checked (SampledPrefix × EmitState × DrafterState) := do
  let outputLogits <- target.verify s.generatedTokens drafts
  let (outcome, sampledState) :=
    (session.targetWindow outputLogits drafts).sampleTargetWindowPrefix
      (session.targetSampler chain) s.toSampleState
  let sampled <- outcome
  let emitted <- session.emitAccepted sampled.accepted 0 (drafts.take sampled.accepted) {
    round := GreedyRound.new
    generatedTokens := sampledState.generatedTokens
    tokensRemaining := s.tokensRemaining }
  return (sampled, emitted, {
    s with
    generatedTokens := emitted.generatedTokens
    drawn := sampledState.drawn
    tokensRemaining := emitted.tokensRemaining
    rounds := s.rounds + 1 })

def verifyRound (noCorrection : String) (drafts : List TokenId) (s : DrafterState) :
    Checked (Step DrafterState) := do
  let (sampled, emitted, s) <- session.sampleAndEmit target chain drafts s
  let stopped := sampled.stopped || emitted.round.stopped
  if stopped = true ∨ s.tokensRemaining = 0 then
    return .done s
  else
    match sampled.nextToken with
    | none => report noCorrection
    | some correction =>
      if session.shouldStop correction then
        return .done s
      else
        let pushed := { s with generatedTokens := s.generatedTokens ++ [correction] }
        if session.callback pushed.generatedTokens = false then
          return .done pushed
        else
          return .next {
            pushed with
            tokensRemaining := s.tokensRemaining - 1
            currentToken := correction }

/-- A sampled request has no confidence cutoff, so all drafts are verified. -/
def dflashRound (drafter : DflashDrafter) (s : DrafterState) :
    Checked (Step DrafterState) :=
  if s.tokensRemaining = 0 then
    .ok (.done s)
  else
    let maxDraftTokens := min (min (max session.params.specK 1) s.tokensRemaining) 15
    let drafts := drafter.draft s.generatedTokens s.currentToken maxDraftTokens
    if drafts.length = 0 then
      .ok (.done s)
    else do
      match <- session.verifyRound target chain
          "Muse DFlash sampled verify did not produce a correction token" drafts s with
      | .done final => return .done final
      | .next following =>
        if drafter.adaptiveTarget
            && decide (drafter.adaptiveBurstRounds <= following.rounds) then
          return .done { following with finishWithTarget := true }
        else
          return .next following

def dsparkRound (drafter : DsparkDrafter) (s : DrafterState) :
    Checked (Step DrafterState) :=
  if s.tokensRemaining = 0 then
    .ok (.done s)
  else
    let draft := drafter.draft s.generatedTokens s.currentToken
    let draftLimit := min (min draft.tokens.length (max session.params.specK 1)) s.tokensRemaining
    let effectiveN := dsparkConfidentPrefixLen draft.confidences draftLimit
    if effectiveN = 0 then
      .ok (.done s)
    else
      session.verifyRound target chain
        "DSpark sampled verify did not produce a correction token"
        (draft.tokens.take effectiveN) s

/-- The device and the batch verification, which sample the window. -/
def externalRound (drafter : ExternalDrafter) (s : DrafterState) :
    Checked (Step DrafterState) :=
  if s.tokensRemaining = 0 then
    .ok (.done s)
  else
    let drafts := drafter.draft s.generatedTokens s.currentToken
    let effectiveN := min drafts.length s.tokensRemaining
    if effectiveN = 0 then
      .ok (.done s)
    else do
      let (sampled, emitted, s) <-
        session.sampleAndEmit target chain (drafts.take effectiveN) s
      let stopped := sampled.stopped || emitted.round.stopped || s.tokensRemaining == 0
      if stopped = true ∨ s.tokensRemaining = 0 then
        return .done s
      else
        match sampled.nextToken with
        | none => report "external drafter verify did not produce target token"
        | some targetTok =>
          if session.shouldStop targetTok then
            return .done s
          else
            let following := {
              s with
              generatedTokens := s.generatedTokens ++ [targetTok]
              tokensRemaining := s.tokensRemaining - 1
              currentToken := targetTok }
            if session.callback following.generatedTokens = false
                ∨ following.tokensRemaining = 0 then
              return .done following
            else
              return .next following

def drafterRound : Drafter -> DrafterState -> Checked (Step DrafterState)
  | .dflash drafter => session.dflashRound target chain drafter
  | .dspark drafter => session.dsparkRound target chain drafter
  | .external drafter => session.externalRound target chain drafter

/-- The target alone behind the adaptive rounds, with the logits for its next
token. -/
structure TargetState (Score : Type) extends DrafterState where
  targetLogits : List Score

def targetRound (s : TargetState Score) : Checked (Step (TargetState Score)) :=
  if s.tokensRemaining = 0 then
    .ok (.done s)
  else do
    let (token, sampled) <-
      session.nextTokenFromCurrentLogits target chain s.targetLogits s.toSampleState
    let s := { s with toSampleState := sampled }
    if session.shouldStop token then
      return .done s
    else
      let pushed := { s with generatedTokens := s.generatedTokens ++ [token] }
      if session.callback pushed.generatedTokens = false then
        return .done pushed
      else
        let following := {
          pushed with
          tokensRemaining := s.tokensRemaining - 1
          currentToken := token }
        if following.tokensRemaining = 0 then
          return .done following
        else do
          let targetLogits <- target.forward following.generatedTokens
          return .next { following with targetLogits := targetLogits }

def finishWithTarget (s : DrafterState) : Checked DrafterState := do
  let targetLogits <- target.forward s.generatedTokens
  let final <- loop (session.targetRound target chain) (s.tokensRemaining + 1)
    { s with targetLogits := targetLogits }
  return final.toDrafterState

/-- Generation behind the prompt, from the logits of its last token. -/
def generateWithDrafter (drafter : Drafter) : Checked DrafterState := do
  let start : DrafterState := {
    generatedTokens := []
    drawn := 0
    tokensRemaining := session.params.maxTokens
    currentToken := 0
    rounds := 0
    finishWithTarget := false }
  let logits <- target.forward []
  if session.params.maxTokens = 0 then
    return start
  else do
    let (firstToken, sampled) <-
      session.nextTokenFromCurrentLogits target chain logits start.toSampleState
    let s := { start with toSampleState := sampled }
    if session.shouldStop firstToken then
      return s
    else
      let pushed := { s with generatedTokens := [firstToken] }
      if session.callback pushed.generatedTokens = false then
        return pushed
      else do
        let decoded <- loop (session.drafterRound target chain drafter)
          (session.params.maxTokens + 1) {
            pushed with
            tokensRemaining := session.params.maxTokens - 1
            currentToken := firstToken }
        if decoded.finishWithTarget then
          session.finishWithTarget target chain decoded
        else
          return decoded

end Session

end Generate
end RunNBurn
