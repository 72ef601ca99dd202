import RunNBurn.Generate.GreedyRound

/-!
# Sampling a verified window

The target's logits for a window of drafts are sampled position by position, each
draw in the context that the drafts before it leave, as far as the draws follow
the drafts.  The context is lent by the caller and handed back as it was.
-/

namespace RunNBurn
namespace Generate

open Library
open Inference

variable {Score : Type} [LinearOrder Score] [OrderBot Score]

/-- `Vec<f32>`, whose length is a machine word. -/
structure OutputLogits (Score : Type) where
  values : List Score
  length_lt : values.length < usizeLimit

structure TargetSampler (Score : Type) [LinearOrder Score] [OrderBot Score] where
  backend : SamplingBackend Score
  chain : SamplerChain
  params : GenerateParams
  eos : TokenId

structure TargetWindow (Score : Type) where
  outputLogits : OutputLogits Score
  draftTokens : List TokenId
  vocabSize : Nat

structure SampleState where
  generatedTokens : List TokenId
  drawn : Nat
deriving DecidableEq, Repr

/-- `(accepted, next_token, stopped)` -/
structure SampledPrefix where
  accepted : Nat
  nextToken : Option TokenId
  stopped : Bool
deriving DecidableEq, Repr

/-- The row of one position, with the checks made on the way to it. -/
def targetRow (outputLogits : OutputLogits Score) (index vocabSize : Nat) :
    Checked (List Score) := do
  ensure (vocabSize ≠ 0) "MTP sampled verify requires non-zero vocab size"
  let start <- checkedMul s!"MTP sampled verify logits offset overflow at {index}" index vocabSize
  require (start + vocabSize < usizeLimit) "attempt to add with overflow"
  let limit := start + vocabSize
  let available := outputLogits.values.length
  ensure (limit <= available)
    s!"MTP sampled verify missing target logits at {index}: have {available} values, need {limit}"
  return (outputLogits.values.drop start).take vocabSize

def sampleTargetFromLogits (outputLogits : OutputLogits Score) (index vocabSize : Nat)
    (sampler : TargetSampler Score) (s : SampleState) : Checked (TokenId × SampleState) := do
  let row <- targetRow outputLogits index vocabSize
  let logits <- suppressEosLogit sampler.params row sampler.eos
  let (token, drawn) :=
    sampler.chain.sample sampler.backend logits s.generatedTokens s.drawn
  return (token, { s with drawn := drawn })

namespace TargetWindow

variable (window : TargetWindow Score) (sampler : TargetSampler Score)

/-- The loop over the drafts.  An error leaves the context as the drafts before it
have made it. -/
def observeFrom : Nat -> List TokenId -> GreedyRound -> SampleState ->
    Checked GreedyRound × SampleState
  | _, [], round, s => (.ok round, s)
  | index, draftToken :: rest, round, s =>
    match sampleTargetFromLogits window.outputLogits index window.vocabSize sampler s with
    | .error fault => (.error fault, s)
    | .ok (targetToken, s) =>
      match round.observe index draftToken targetToken window.draftTokens.length
          sampler.params sampler.eos with
      | (round, .reject) => (.ok round, s)
      | (round, .stop) => (.ok round, s)
      | (round, .acceptWithoutEmit) => observeFrom (index + 1) rest round s
      | (round, .emit) =>
        observeFrom (index + 1) rest round
          { s with generatedTokens := s.generatedTokens ++ [draftToken] }

def nextToken (round : GreedyRound) (s : SampleState) :
    Checked (Option TokenId) × SampleState :=
  if round.stopped then (.ok none, s)
  else if round.accepted = window.draftTokens.length then
    match sampleTargetFromLogits window.outputLogits window.draftTokens.length window.vocabSize
        sampler s with
    | .error fault => (.error fault, s)
    | .ok (token, s) => (.ok (some token), s)
  else (.ok round.mismatchTarget, s)

def samplePrefix (s : SampleState) : Checked SampledPrefix × SampleState :=
  match window.observeFrom sampler 0 window.draftTokens GreedyRound.new s with
  | (.error fault, s) => (.error fault, s)
  | (.ok round, s) =>
    match window.nextToken sampler round s with
    | (.error fault, s) => (.error fault, s)
    | (.ok nextToken, s) =>
      (.ok {
        accepted := round.accepted
        nextToken := nextToken
        stopped := round.stopped }, s)

def sampleTargetWindowPrefix (s : SampleState) : Checked SampledPrefix × SampleState :=
  let contextLen := s.generatedTokens.length
  let (outcome, s) := window.samplePrefix sampler s
  (outcome, { s with generatedTokens := s.generatedTokens.take contextLen })

/-!
# The sequential draws

At a position the sampler is in the context of the accepted drafts, and has drawn
once for each of them.
-/

variable (s : SampleState)

def stateAt (i : Nat) : SampleState where
  generatedTokens := s.generatedTokens ++ window.draftTokens.take i
  drawn := if sampler.chain.greedy then s.drawn else s.drawn + i

/-- What the sampler draws at position `i`. -/
def drawAt (i : Nat) : Checked TokenId :=
  (sampleTargetFromLogits window.outputLogits i window.vocabSize sampler
    (window.stateAt sampler s i)).map Prod.fst

/-- The draws follow the first `n` drafts, none of them a stop token. -/
structure Follows (n : Nat) : Prop where
  le_length : n <= window.draftTokens.length
  drawn : forall i, i < n -> exists token, window.draftTokens[i]? = some token ∧
    window.drawAt sampler s i = .ok token ∧
    sampler.params.shouldStop token sampler.eos = false

/-- What ends the sampling at position `n`, and how many draws were made. -/
inductive EndsWith (n : Nat) : Checked SampledPrefix -> Nat -> Prop where
  | fault {fault : Fault} :
      window.drawAt sampler s n = .error fault ->
      EndsWith n (.error fault) n
  | stop {token : TokenId} :
      window.drawAt sampler s n = .ok token ->
      window.draftTokens[n]? = some token ->
      sampler.params.shouldStop token sampler.eos = true ->
      EndsWith n (.ok { accepted := n, nextToken := none, stopped := true }) (n + 1)
  | answer {token : TokenId} :
      window.drawAt sampler s n = .ok token ->
      window.draftTokens[n]? ≠ some token ->
      EndsWith n (.ok { accepted := n, nextToken := some token, stopped := false }) (n + 1)

/-- A state with the context of position `n` and the draws made before `drawn`. -/
def contextAt (n drawn : Nat) : SampleState where
  generatedTokens := (window.stateAt sampler s n).generatedTokens
  drawn := (window.stateAt sampler s drawn).drawn

/-- What the loop over the drafts comes to at position `n`. -/
inductive Observed (n : Nat) : Checked GreedyRound × SampleState -> Prop where
  | fault {fault : Fault} :
      window.drawAt sampler s n = .error fault ->
      Observed n (.error fault, window.contextAt sampler s n n)
  | stop {token : TokenId} :
      window.drawAt sampler s n = .ok token ->
      window.draftTokens[n]? = some token ->
      sampler.params.shouldStop token sampler.eos = true ->
      Observed n
        (.ok {
          accepted := n
          emitted := n
          stopped := true
          mismatchTarget := none }, window.contextAt sampler s n (n + 1))
  | reject {token : TokenId} :
      window.drawAt sampler s n = .ok token ->
      n < window.draftTokens.length ->
      window.draftTokens[n]? ≠ some token ->
      Observed n
        (.ok {
          accepted := n
          emitted := n
          stopped := false
          mismatchTarget := some token }, window.contextAt sampler s n (n + 1))
  | through :
      n = window.draftTokens.length ->
      Observed n
        (.ok {
          accepted := n
          emitted := n
          stopped := false
          mismatchTarget := none }, window.contextAt sampler s n n)

theorem sampleTargetFromLogits_stateAt (i : Nat) :
    sampleTargetFromLogits window.outputLogits i window.vocabSize sampler
        (window.stateAt sampler s i) =
      (window.drawAt sampler s i).map
        (fun token => (token, window.contextAt sampler s i (i + 1))) := by
  unfold drawAt sampleTargetFromLogits
  cases targetRow window.outputLogits i window.vocabSize with
  | error fault => rfl
  | ok row =>
    rw [ok_bind]
    cases suppressEosLogit sampler.params row sampler.eos with
    | error fault => rfl
    | ok logits =>
      unfold SamplerChain.sample contextAt stateAt
      cases hgreedy : sampler.chain.greedy with
      | true => simp [Except.map, ok_bind, pure, Except.pure]
      | false => simp [Except.map, ok_bind, pure, Except.pure, Nat.add_assoc]

variable {window sampler s}

theorem follows_zero : window.Follows sampler s 0 where
  le_length := Nat.zero_le _
  drawn i hi := absurd hi (Nat.not_lt_zero i)

theorem Follows.next {n : Nat} {token : TokenId} (h : window.Follows sampler s n)
    (hdraft : window.draftTokens[n]? = some token) (hdraw : window.drawAt sampler s n = .ok token)
    (hstop : sampler.params.shouldStop token sampler.eos = false) :
    window.Follows sampler s (n + 1) where
  le_length := (List.getElem?_eq_some_iff.mp hdraft).1
  drawn i hi := by
    rcases Nat.lt_succ_iff_lt_or_eq.mp hi with hlt | heq
    · exact h.drawn i hlt
    · subst heq
      exists token

theorem contextAt_push {n : Nat} {token : TokenId} (drawn : Nat)
    (hdraft : window.draftTokens[n]? = some token) :
    (window.contextAt sampler s n drawn).generatedTokens ++ [token] =
      (window.contextAt sampler s (n + 1) drawn).generatedTokens := by
  unfold contextAt stateAt
  dsimp only
  rw [List.take_add_one, hdraft, List.append_assoc]
  rfl

variable (window sampler s)

theorem observeFrom_observed (n : Nat) (rest : List TokenId)
    (hrest : rest = window.draftTokens.drop n) (hfollows : window.Follows sampler s n) :
    exists m, window.Follows sampler s m ∧ window.Observed sampler s m
      (window.observeFrom sampler n rest
        { accepted := n, emitted := n, stopped := false, mismatchTarget := none }
        (window.stateAt sampler s n)) := by
  induction rest generalizing n with
  | nil =>
    have hall : n = window.draftTokens.length :=
      Nat.le_antisymm hfollows.le_length (List.drop_eq_nil_iff.mp hrest.symm)
    exact ⟨n, hfollows, Observed.through hall⟩
  | cons draftToken rest ih =>
    have hlt : n < window.draftTokens.length := by
      by_contra hge
      rw [List.drop_eq_nil_of_le (Nat.le_of_not_lt hge)] at hrest
      cases hrest
    have hdraft : window.draftTokens[n]? = some draftToken := by
      rw [← Nat.add_zero n, ← List.getElem?_drop, ← hrest]
      rfl
    have htail : rest = window.draftTokens.drop (n + 1) := by
      rw [← List.tail_drop, ← hrest]
      rfl
    unfold observeFrom
    rw [window.sampleTargetFromLogits_stateAt sampler s n]
    cases hdraw : window.drawAt sampler s n with
    | error fault => exact ⟨n, hfollows, Observed.fault hdraw⟩
    | ok targetToken =>
      dsimp only [Except.map, GreedyRound.observe]
      by_cases hmatch : targetToken = draftToken
      · subst hmatch
        rw [if_neg (not_not_intro rfl)]
        cases hstop : sampler.params.shouldStop targetToken sampler.eos with
        | true => exact ⟨n, hfollows, Observed.stop hdraw hdraft hstop⟩
        | false =>
          rw [if_neg Bool.false_ne_true, if_neg (Nat.not_le_of_lt hlt)]
          dsimp only
          rw [contextAt_push _ hdraft]
          exact ih (n + 1) htail (hfollows.next hdraft hdraw hstop)
      · rw [if_pos hmatch]
        refine ⟨n, hfollows, Observed.reject hdraw hlt ?_⟩
        rw [hdraft]
        intro heq
        exact hmatch (Option.some.inj heq).symm

theorem samplePrefix_endsWith :
    exists n draws, window.Follows sampler s n ∧
      window.EndsWith sampler s n (window.samplePrefix sampler s).1 draws ∧
        (window.samplePrefix sampler s).2 = window.contextAt sampler s n draws := by
  have hstart : window.stateAt sampler s 0 = s := by
    unfold stateAt
    rw [List.take_zero, List.append_nil, Nat.add_zero, ite_self]
  obtain ⟨n, hfollows, hobserved⟩ :=
    window.observeFrom_observed sampler s 0 window.draftTokens rfl follows_zero
  rw [hstart] at hobserved
  unfold samplePrefix
  change window.Observed sampler s n
    (window.observeFrom sampler 0 window.draftTokens GreedyRound.new s) at hobserved
  generalize window.observeFrom sampler 0 window.draftTokens GreedyRound.new s = observed
    at hobserved
  cases hobserved with
  | fault hdraw => exact ⟨n, n, hfollows, EndsWith.fault hdraw, rfl⟩
  | stop hdraw hdraft hstop => exact ⟨n, n + 1, hfollows, EndsWith.stop hdraw hdraft hstop, rfl⟩
  | reject hdraw hlt hdraft =>
    have hnot : ¬ n = window.draftTokens.length := Nat.ne_of_lt hlt
    refine ⟨n, n + 1, hfollows, ?_⟩
    unfold nextToken
    dsimp only
    rw [if_neg Bool.false_ne_true, if_neg hnot]
    exact ⟨EndsWith.answer hdraw hdraft, rfl⟩
  | through hall =>
    have hnone : window.draftTokens[n]? = none :=
      List.getElem?_eq_none (Nat.le_of_eq hall.symm)
    unfold nextToken
    dsimp only
    rw [if_neg Bool.false_ne_true, if_pos hall, ← hall]
    have hsample := window.sampleTargetFromLogits_stateAt sampler s n
    change sampleTargetFromLogits window.outputLogits n window.vocabSize sampler
      (window.contextAt sampler s n n) = _ at hsample
    rw [hsample]
    cases hdraw : window.drawAt sampler s n with
    | error fault => exact ⟨n, n, hfollows, EndsWith.fault hdraw, rfl⟩
    | ok token =>
      refine ⟨n, n + 1, hfollows, EndsWith.answer hdraw ?_, rfl⟩
      rw [hnone]
      intro h
      cases h

theorem sampleTargetWindowPrefix_endsWith :
    exists n draws, window.Follows sampler s n ∧
      window.EndsWith sampler s n (window.sampleTargetWindowPrefix sampler s).1 draws ∧
        (window.sampleTargetWindowPrefix sampler s).2 =
          { s with drawn := (window.stateAt sampler s draws).drawn } := by
  obtain ⟨n, draws, hfollows, hends, hstate⟩ :=
    window.samplePrefix_endsWith sampler s
  refine ⟨n, draws, hfollows, hends, ?_⟩
  unfold sampleTargetWindowPrefix
  dsimp only
  rw [hstate]
  unfold contextAt stateAt
  dsimp only
  rw [List.take_left]

end TargetWindow

end Generate
end RunNBurn
