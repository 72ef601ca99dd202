import RunNBurn.Generate.AcceptLoop
import RunNBurn.Generate.Verify

/-!
# Early-exit speculation

`generate_stream_speculative`: a round emits one token, drafts more with an
early exit of the same model, goes back to its checkpoint, and verifies the
drafts on one of three paths.
-/

namespace RunNBurn
namespace Generate

open Library
open Inference

/-- The early-exit forward.  It leaves the layers from `maxLayer` on unwritten, so
its row depends on what the slot held. -/
structure EarlyExit (Row Rec Score : Type) where
  maxLayer : Nat
  forward : List Row -> Row -> Rec -> TokenId -> ForwardOutput Row Rec Score

/-- What a round starts from: a token fixed by the previous round, or logits to
sample it from. -/
inductive NextToken (Score : Type) where
  | forced (token : TokenId)
  | logits (logits : List Score)

structure SpecSession (Row Rec Score : Type) [LinearOrder Score] [OrderBot Score]
    extends Session Row Rec Score where
  earlyExit : EarlyExit Row Rec Score
  forceBatchVerify : Bool
  decodeFastWindow : Bool
  batchNoBonusRequested : Bool

structure SpecState (Row Rec Score : Type) where
  engine : Engine Row Rec
  next : NextToken Score
  generated : List TokenId
  remaining : Nat
  drawn : Nat

structure VerifyEnv (Row Rec : Type) where
  engine : Engine Row Rec
  drawn : Nat

variable {Row Rec Score : Type} [LinearOrder Score] [OrderBot Score]

/-!
# Drafting
-/

def forwardDecodeDraft (model : Model Row Rec Score) (exit : EarlyExit Row Rec Score)
    (engine : Engine Row Rec) (token : TokenId) :
    Checked (Engine Row Rec × List Score) :=
  if engine.currentLen < model.maxSeqLen then
    let output := exit.forward engine.rows (engine.slots engine.currentLen)
      engine.recState token
    .ok (engine.writeRow output.row output.recState, output.logits)
  else
    .error Engine.overflow

def draftTokens (forward : Engine Row Rec -> TokenId -> Checked (Engine Row Rec × List Score)) :
    Nat -> Engine Row Rec -> TokenId -> Checked (Engine Row Rec × List TokenId)
  | 0, engine, _ => .ok (engine, [])
  | k + 1, engine, lastToken => do
      let (stepped, logits) <- forward engine lastToken
      let (final, rest) <- draftTokens forward k stepped (greedySample logits)
      return (final, greedySample logits :: rest)

/-!
# What the two speculative loops share
-/

/-- A round either leaves the loop before it drafts, or goes on to speculate
behind its first token. -/
inductive Opening (state : Type) where
  | ended (final : state)
  | speculate (first : TokenId) (s : state)

namespace Session

/-- The stop test of the speculative loops does not look at `ignore_eos`. -/
def stops (session : Session Row Rec Score) (token : TokenId) : Bool :=
  session.params.stopTokens.contains token || token == session.eos

def verifyLogits (session : Session Row Rec Score) (chain : SamplerChain)
    (allLogits : List (List Score)) (drawn : Nat) (generated : List TokenId) (i : Nat) :
    Checked (Verdict Nat Unit) := do
  let logits <- index allLogits i
  let (target, drawn) := chain.sample session.backend logits generated drawn
  return { env := drawn, target := target, carry := () }

end Session

namespace SpecSession

section

variable (session : SpecSession Row Rec Score)

/-- `spec_argmax_verify_allowed`. -/
def argmaxVerify : Bool :=
  session.params.backendArgmaxAllowed

def needsSequential : Bool :=
  architectureVerifyNeedsSequential session.model.architecture

def verifyMode : SpecVerifyMode :=
  specVerifyMode session.needsSequential session.forceBatchVerify

def batchArgmaxNoBonus : Bool :=
  session.verifyMode == .batch && session.argmaxVerify && session.batchNoBonusRequested

end

/-!
# The first token of a round
-/

def firstToken (session : SpecSession Row Rec Score) (chain : SamplerChain)
    (s : SpecState Row Rec Score) : TokenId × Nat :=
  match s.next with
  | .forced token => (token, s.drawn)
  | .logits logits => chain.sample session.backend logits s.generated s.drawn

def openRound (session : SpecSession Row Rec Score) (chain : SamplerChain)
    (s : SpecState Row Rec Score) : Opening (SpecState Row Rec Score) :=
  if s.remaining = 0 then
    .ended s
  else
    let (first, drawn) := session.firstToken chain s
    match emitFirst session.stops session.callback first s.generated s.remaining with
    | .ended generated remaining =>
      .ended { s with drawn := drawn, generated := generated, remaining := remaining }
    | .goesOn generated remaining =>
      .speculate first
        { s with drawn := drawn, generated := generated, remaining := remaining }

/-!
# The sequential path
-/

section

variable (session : SpecSession Row Rec Score)

/-- The diagnostic window of the fast-window switch, forwarded and undone. -/
def diagnosticWindow (engine : Engine Row Rec)
    (verifyInput : List TokenId) : Checked (Engine Row Rec) :=
  if session.decodeFastWindow && session.argmaxVerify then do
    let (forwarded, _) <-
      forwardArgmaxWindow session.model session.excluded engine verifyInput
    return forwarded.restore session.model.layers engine.save
  else
    .ok engine

def verifySequential (chain : SamplerChain)
    (verifyInput : List TokenId) (env : VerifyEnv Row Rec) (generated : List TokenId)
    (i : Nat) : Checked (Verdict (VerifyEnv Row Rec) (NextToken Score)) := do
  let token <- index verifyInput i
  if session.argmaxVerify then do
    let (engine, target) <-
      forwardArgmax session.model session.excluded env.engine token
    return { env := { env with engine := engine }, target := target, carry := .forced target }
  else do
    let (engine, logits) <- env.engine.forwardToken session.model token
    let (target, drawn) := chain.sample session.backend logits generated env.drawn
    return {
      env := { engine := engine, drawn := drawn }
      target := target
      carry := .logits logits }

/-- The row behind the last draft, forwarded when every draft was accepted. -/
def bonusToken (verifyInput : List TokenId)
    (k : Nat) (engine : Engine Row Rec) : Checked (Engine Row Rec × NextToken Score) := do
  let token <- index verifyInput k
  if session.argmaxVerify then do
    let (final, target) <- forwardArgmax session.model session.excluded engine token
    return (final, .forced target)
  else do
    let (final, logits) <- engine.forwardToken session.model token
    return (final, .logits logits)

/-- The engine and the next token behind a sequential accept loop. -/
def sequentialNext (verifyInput : List TokenId)
    (k : Nat) (result : AcceptState (VerifyEnv Row Rec) (NextToken Score)) :
    Checked (Engine Row Rec × Option (NextToken Score)) :=
  if result.stopped = false ∧ 0 < result.remaining ∧ result.accepted = k then do
    let (engine, next) <- session.bonusToken verifyInput k result.env.engine
    return (engine, some next)
  else
    .ok (result.env.engine, result.mismatch)

def verifySequentialRound (chain : SamplerChain)
    (first : TokenId) (drafts : List TokenId) (s : SpecState Row Rec Score) :
    Checked (Step (SpecState Row Rec Score)) := do
  let verifyInput := specBatchVerifyInputTokens first drafts true
  let k := drafts.length
  let engine <- session.diagnosticWindow s.engine verifyInput
  let result <- acceptLoop session.stops session.callback
    (session.verifySequential chain verifyInput) drafts
    (AcceptState.start { engine := engine, drawn := s.drawn } s.generated s.remaining)
  let (final, next) <- session.sequentialNext verifyInput k result
  let settled := {
    s with
    engine := final
    generated := result.generated
    remaining := result.remaining
    drawn := result.env.drawn }
  if result.stopped = true ∨ result.remaining = 0 then
    return .done settled
  else
    match next with
    | some token => return .next { settled with next := token }
    | none => report "incremental spec verify did not produce next logits"

end

/-!
# The batch path with argmax targets
-/

def verifyTargets (targets : List TokenId) (_ : Unit) (_ : List TokenId) (i : Nat) :
    Checked (Verdict Unit Unit) :=
  match targets[i]? with
  | some target => .ok { env := (), target := target, carry := () }
  | none => report s!"batch argmax verify missing target token at {i}"

def nextTarget (targets : List TokenId) (committed : Nat) : Checked TokenId :=
  match targets[committed - 1]? with
  | some target => .ok target
  | none => report "batch argmax verify missing next token"

def commitBatchArgmax (session : SpecSession Row Rec Score) (k nAccepted : Nat)
    (checkpoint : Engine.Checkpoint Rec) (verifyInput targets : List TokenId)
    (engine : Engine Row Rec) : Checked (Engine Row Rec × TokenId) :=
  let committed := 1 + nAccepted
  let currentStateMatchesCommitted :=
    session.batchArgmaxNoBonus && committed == targets.length
  let plan := verifyStatePlanAfterSpecRoundWithPrefixSnapshot session.needsSequential
    .batch k nAccepted currentStateMatchesCommitted
  if plan.replayCommittedPrefix then
    replayCommittedVerifyPrefixArgmax session.model session.excluded engine checkpoint
      verifyInput plan.committedVerifyTokens
  else if session.needsSequential && decide (nAccepted < k)
      && !currentStateMatchesCommitted then
    report "batch argmax verify missing prefix state snapshot"
  else do
    let finalLen := checkpoint.kvLen + plan.committedVerifyTokens
    let next <- nextTarget targets plan.committedVerifyTokens
    return (engine.setLen session.model.layers (min finalLen session.model.maxSeqLen), next)

def verifyBatchArgmaxRound (session : SpecSession Row Rec Score)
    (checkpoint : Engine.Checkpoint Rec) (first : TokenId) (drafts : List TokenId)
    (s : SpecState Row Rec Score) : Checked (Step (SpecState Row Rec Score)) := do
  let noBonus := session.batchArgmaxNoBonus
  let verifyInput := specBatchVerifyInputTokens first drafts (!noBonus)
  let k := drafts.length
  let (forwarded, allLogits) <- s.engine.forwardWindow session.model verifyInput
  let targets := allLogits.map greedySample
  let result <- acceptLoop session.stops session.callback (verifyTargets targets) drafts
    (AcceptState.start () s.generated s.remaining)
  let settled := {
    s with
    engine := forwarded
    generated := result.generated
    remaining := result.remaining }
  if noBonus = true ∧ result.accepted = k ∧ result.remaining = 0 then
    return .done settled
  else if noBonus = true ∧ result.accepted = k ∧ result.stopped = false then
    match drafts.getLast? with
    | none => report "batch no-bonus verify missing last draft token"
    | some lastDraft => do
        let (final, next) <-
          forwardArgmax session.model session.excluded forwarded lastDraft
        return .next { settled with engine := final, next := .forced next }
  else do
    let (final, next) <-
      session.commitBatchArgmax k result.accepted checkpoint verifyInput targets forwarded
    if result.stopped = true ∨ result.remaining = 0 then
      return .done { settled with engine := final }
    else
      return .next { settled with engine := final, next := .forced next }

/-!
# The batch path with logits
-/

def commitBatchLogits (session : SpecSession Row Rec Score) (k nAccepted : Nat)
    (checkpoint : Engine.Checkpoint Rec) (verifyInput : List TokenId)
    (allLogits : List (List Score)) (engine : Engine Row Rec) :
    Checked (Engine Row Rec × List Score) :=
  commitLogits session.model session.needsSequential .batch k nAccepted checkpoint verifyInput
    allLogits engine

def verifyBatchLogitsRound (session : SpecSession Row Rec Score) (chain : SamplerChain)
    (checkpoint : Engine.Checkpoint Rec) (first : TokenId) (drafts : List TokenId)
    (s : SpecState Row Rec Score) : Checked (Step (SpecState Row Rec Score)) := do
  let verifyInput := specBatchVerifyInputTokens first drafts true
  let k := drafts.length
  let (forwarded, allLogits) <- s.engine.forwardWindow session.model verifyInput
  let result <- acceptLoop session.stops session.callback
    (session.verifyLogits chain allLogits) drafts
    (AcceptState.start s.drawn s.generated s.remaining)
  let (final, logits) <-
    session.commitBatchLogits k result.accepted checkpoint verifyInput allLogits forwarded
  let settled := {
    s with
    engine := final
    next := .logits logits
    generated := result.generated
    remaining := result.remaining
    drawn := result.env }
  if result.stopped then return .done settled else return .next settled

/-!
# Rounds and runs
-/

section

variable (session : SpecSession Row Rec Score)

def speculate (chain : SamplerChain)
    (first : TokenId) (s : SpecState Row Rec Score) :
    Checked (Step (SpecState Row Rec Score)) := do
  let k := min session.params.specK s.remaining
  let checkpoint := s.engine.save
  let (drafted, drafts) <-
    draftTokens (forwardDecodeDraft session.model session.earlyExit) k s.engine first
  let writtenLayers := session.model.layers.take session.earlyExit.maxLayer
  let restored := { s with engine := drafted.restore writtenLayers checkpoint }
  match session.verifyMode with
  | .sequentialIncremental => session.verifySequentialRound chain first drafts restored
  | .batch =>
    if session.argmaxVerify then
      session.verifyBatchArgmaxRound checkpoint first drafts restored
    else
      session.verifyBatchLogitsRound chain checkpoint first drafts restored

def round (chain : SamplerChain)
    (s : SpecState Row Rec Score) : Checked (Step (SpecState Row Rec Score)) :=
  match session.openRound chain s with
  | .ended final => .ok (.done final)
  | .speculate first counted => session.speculate chain first counted

def prefill (engine : Engine Row Rec)
    (prompt : List TokenId) : Checked (SpecState Row Rec Score) := do
  let (prefilled, logits) <-
    (engine.clearSequenceState session.model).forwardPrompt session.model prompt
  return {
    engine := prefilled
    next := .logits logits
    generated := []
    remaining := session.params.maxTokens
    drawn := 0 }

end

end SpecSession

def generateStreamSpeculative (session : SpecSession Row Rec Score)
    (engine : Engine Row Rec) (prompt : List TokenId) :
    Checked (SpecState Row Rec Score) := do
  let chain <- SamplerChain.fromParams session.params
  let start <- session.prefill engine prompt
  loop (session.round chain) (session.params.maxTokens + 1) start

end Generate
end RunNBurn
