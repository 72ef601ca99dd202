import RunNBurn.Generate.SpeculativeRounds

/-!
# Two-model speculation

`generate_stream_two_model`: the drafts come from the full forward pass of a
second engine, which is brought in step with the target by its length alone.
-/

namespace RunNBurn
namespace Generate

open Library
open Inference

structure TwoModelSession (DraftRow DraftRec Row Rec Score : Type)
    [LinearOrder Score] [OrderBot Score] extends Session Row Rec Score where
  draftModel : Model DraftRow DraftRec Score

structure TwoModelState (DraftRow DraftRec Row Rec Score : Type) where
  target : Engine Row Rec
  draft : Engine DraftRow DraftRec
  logits : List Score
  generated : List TokenId
  remaining : Nat
  drawn : Nat

variable {DraftRow DraftRec Row Rec Score : Type} [LinearOrder Score] [OrderBot Score]

namespace TwoModelSession

section

variable (session : TwoModelSession DraftRow DraftRec Row Rec Score)

/-- `target_verify_needs_sequential`. -/
def needsSequential : Bool :=
  architectureVerifyNeedsSequential session.model.architecture

def openRound (chain : SamplerChain) (s : TwoModelState DraftRow DraftRec Row Rec Score) :
    Opening (TwoModelState DraftRow DraftRec Row Rec Score) :=
  if s.remaining = 0 then
    .ended s
  else
    let (first, drawn) := chain.sample session.backend s.logits s.generated s.drawn
    match emitFirst session.stops session.callback first s.generated s.remaining with
    | .ended generated remaining =>
      .ended { s with drawn := drawn, generated := generated, remaining := remaining }
    | .goesOn generated remaining =>
      .speculate first
        { s with drawn := drawn, generated := generated, remaining := remaining }

def forwardDraft (engine : Engine DraftRow DraftRec) (token : TokenId) :
    Checked (Engine DraftRow DraftRec × List Score) :=
  engine.forwardToken session.draftModel token

/-- The state behind the accept loop.  The window has been forwarded in either
verify mode, and the mode of the plan is never batch for a target that needs
sequential verification. -/
def settle (k : Nat) (checkpoint : Engine.Checkpoint Rec) (verifyInput : List TokenId)
    (allLogits : List (List Score)) (result : AcceptState Nat Unit)
    (s : TwoModelState DraftRow DraftRec Row Rec Score) :
    Checked (TwoModelState DraftRow DraftRec Row Rec Score) := do
  let (target, logits) <- commitLogits session.model session.needsSequential
    (specVerifyMode session.needsSequential false) k result.accepted checkpoint verifyInput
    allLogits s.target
  let draftFinalLen := checkpoint.kvLen + (1 + result.accepted)
  return {
    target := target
    draft := s.draft.setLen session.draftModel.layers
      (min draftFinalLen session.draftModel.maxSeqLen)
    logits := logits
    generated := result.generated
    remaining := result.remaining
    drawn := result.env }

def verifyRound (chain : SamplerChain) (checkpoint : Engine.Checkpoint Rec) (first : TokenId)
    (drafts : List TokenId) (s : TwoModelState DraftRow DraftRec Row Rec Score) :
    Checked (Step (TwoModelState DraftRow DraftRec Row Rec Score)) := do
  let verifyInput := first :: drafts
  let (forwarded, allLogits) <- s.target.forwardWindow session.model verifyInput
  let result <- acceptLoop session.stops session.callback
    (session.verifyLogits chain allLogits) drafts
    (AcceptState.start s.drawn s.generated s.remaining)
  let settled <- session.settle drafts.length checkpoint verifyInput allLogits result
    { s with target := forwarded }
  if result.stopped then return .done settled else return .next settled

def speculate (chain : SamplerChain) (first : TokenId)
    (s : TwoModelState DraftRow DraftRec Row Rec Score) :
    Checked (Step (TwoModelState DraftRow DraftRec Row Rec Score)) := do
  let k := min session.params.specK s.remaining
  let checkpoint := s.target.save
  let (draft, drafts) <- draftTokens session.forwardDraft k s.draft first
  session.verifyRound chain checkpoint first drafts
    { s with target := s.target.restore session.model.layers checkpoint, draft := draft }

def round (chain : SamplerChain) (s : TwoModelState DraftRow DraftRec Row Rec Score) :
    Checked (Step (TwoModelState DraftRow DraftRec Row Rec Score)) :=
  match session.openRound chain s with
  | .ended final => .ok (.done final)
  | .speculate first counted => session.speculate chain first counted

def prefill (draft : Engine DraftRow DraftRec) (target : Engine Row Rec) (prompt : List TokenId) :
    Checked (TwoModelState DraftRow DraftRec Row Rec Score) := do
  let (draftPrefilled, _) <-
    (draft.clearSequenceState session.draftModel).forwardPrompt session.draftModel prompt
  let (prefilled, logits) <-
    (target.clearSequenceState session.model).forwardPrompt session.model prompt
  return {
    target := prefilled
    draft := draftPrefilled
    logits := logits
    generated := []
    remaining := session.params.maxTokens
    drawn := 0 }

end

end TwoModelSession

def generateStreamTwoModel (session : TwoModelSession DraftRow DraftRec Row Rec Score)
    (draft : Engine DraftRow DraftRec) (target : Engine Row Rec) (prompt : List TokenId) :
    Checked (TwoModelState DraftRow DraftRec Row Rec Score) := do
  let chain <- SamplerChain.fromParams session.params
  let start <- session.prefill draft target prompt
  loop (session.round chain) (session.params.maxTokens + 1) start

namespace TwoModelSession

/-!
# Heads of rounds
-/

structure Head (session : TwoModelSession DraftRow DraftRec Row Rec Score)
    (view : EngineView session.model) (prompt : List TokenId) (kept : Prop)
    (s : TwoModelState DraftRow DraftRec Row Rec Score) : Prop where
  tracks : view.Tracks s.target (prompt ++ s.generated)
  logits : view.Logits (prompt ++ s.generated) s.logits
  draftLen : s.draft.currentLen <= (prompt ++ s.generated).length
  draft : kept -> s.draft.Holds session.draftModel (prompt ++ s.generated)
  count : s.generated.length + s.remaining = session.params.maxTokens

structure Drafted (session : TwoModelSession DraftRow DraftRec Row Rec Score)
    (chain : SamplerChain) (s : TwoModelState DraftRow DraftRec Row Rec Score)
    (first : TokenId) (counted : TwoModelState DraftRow DraftRec Row Rec Score)
    (drafts : List TokenId) (allLogits : List (List Score)) : Prop where
  opens : session.openRound chain s = .speculate first counted
  drafted : exists draft, draftTokens session.forwardDraft
    (min session.params.specK counted.remaining) counted.draft first = .ok (draft, drafts)
  forwarded : exists forwarded,
    counted.target.forwardWindow session.model (first :: drafts) = .ok (forwarded, allLogits)

section

variable (session : TwoModelSession DraftRow DraftRec Row Rec Score) (chain : SamplerChain)
  (counted : TwoModelState DraftRow DraftRec Row Rec Score) (drafts : List TokenId)
  (allLogits : List (List Score))

def Judged : Nat -> TokenId -> Prop :=
  session.SampledAt chain allLogits counted.generated drafts counted.drawn

/-- Position `i` is where the round rejects its draft. -/
def RejectsAt (i : Nat) : Prop :=
  Rejects session.stops session.callback (session.Judged chain counted drafts allLogits)
    drafts counted.generated i

/-- The round ends behind the first `n` drafts. -/
def EndsAfter (n : Nat) : Prop :=
  EndsBehind session.stops session.callback (session.Judged chain counted drafts allLogits)
    drafts counted.generated n

end

end TwoModelSession

end Generate
end RunNBurn
