import RunNBurn.Generate.DrafterLoops
import RunNBurn.Generate.SpeculativeRounds
import RunNBurn.Library.TokenRows

/-!
# The drafter loops sample as the plain loop does

A window that shows the target's logits is sampled with the draws of plain decoding,
so whatever the drafter proposes, the tokens emitted are those of plain decoding with
the same random stream.
-/

namespace RunNBurn
namespace Generate

open Library
open Inference

theorem targetRow_eq {Score : Type} {outputLogits : OutputLogits Score}
    {vocabSize rows i : Nat} {make : Nat -> List Score} (hvocab : vocabSize ≠ 0)
    (hmake : forall i, i < rows -> (make i).length = vocabSize)
    (hvalues : outputLogits.values = (List.range rows).flatMap make) (hi : i < rows) :
    targetRow outputLogits i vocabSize = .ok (make i) := by
  have hlength : outputLogits.values.length = rows * vocabSize := by
    rw [hvalues]
    exact length_flatMap_range hmake
  have hroom : i * vocabSize + vocabSize <= outputLogits.values.length := by
    rw [hlength, ← Nat.succ_mul]
    exact Nat.mul_le_mul_right vocabSize hi
  have hlimit : i * vocabSize + vocabSize < usizeLimit :=
    Nat.lt_of_le_of_lt hroom outputLogits.length_lt
  have hstart : i * vocabSize < usizeLimit :=
    Nat.lt_of_le_of_lt (Nat.le_add_right _ _) hlimit
  have hrow := rowAt_flatMap_range hmake hi
  rw [← hvalues] at hrow
  unfold targetRow checkedMul
  rw [ensure_of_true _ hvocab, ok_bind, if_pos hstart, ok_bind, require_of_true _ hlimit, ok_bind]
  dsimp only
  rw [ensure_of_true _ hroom, ok_bind]
  exact congrArg Except.ok hrow

variable {Row Rec Score : Type} [LinearOrder Score] [OrderBot Score]

/-- What the engine returns are the target's logits; only its own calls may fail. -/
structure ShowsTarget (session : Session Row Rec Score) (prompt : List TokenId)
    (allowed : Fault -> Prop) (target : TargetForward Score) : Prop where
  forward : forall out, Triple allowed (target.forward out) (fun logits =>
    logits = session.model.logitsAfter (prompt ++ out))
  verify : forall out drafts, Triple allowed (target.verify out drafts) (fun logits =>
    logits.values = (List.range (drafts.length + 1)).flatMap
      (fun i => session.model.logitsAfter (prompt ++ (out ++ drafts.take i))))

namespace Session

variable {session : Session Row Rec Score} {target : TargetForward Score}
  {chain : SamplerChain} {prompt : List TokenId} {allowed : Fault -> Prop}

structure Samples (session : Session Row Rec Score) (chain : SamplerChain)
    (prompt : List TokenId) : Prop where
  temperature : session.params.temperature ≠ 0
  greedy : chain.greedy = false
  prompt_ne_nil : prompt ≠ []

theorem samples_of_allowed (hchain : SamplerChain.fromParams session.params = .ok chain)
    (hallowed : session.params.mtpSampledVerifyAllowed = true) (hprompt : prompt ≠ []) :
    session.Samples chain prompt := by
  unfold GenerateParams.mtpSampledVerifyAllowed at hallowed
  have hpos : 0 < session.params.temperature :=
    of_decide_eq_true (Bool.and_eq_true_iff.mp hallowed).1
  have hne : session.params.temperature ≠ 0 := by
    intro hzero
    rw [hzero] at hpos
    exact Rat.lt_irrefl hpos
  constructor
  · exact hne
  · unfold SamplerChain.fromParams at hchain
    rcases bind_eq_ok hchain with ⟨repetition, _, hrest⟩
    cases hrest
    exact beq_eq_false_iff_ne.mpr hne
  · exact hprompt

namespace Samples

variable (h : session.Samples chain prompt)
include h

variable (out : List TokenId)

theorem plainChoice_eq :
    plainChoice session chain prompt out =
      (chain.sample session.backend
        (suppressed session.params (session.model.logitsAfter (prompt ++ out)) session.eos)
        out out.length).1 := by
  have hnot : ¬ (session.params.backendArgmaxAllowed = true ∧ out ≠ []) := by
    intro hboth
    have hargmax := hboth.1
    unfold GenerateParams.backendArgmaxAllowed at hargmax
    simp only [Bool.and_eq_true, beq_iff_eq] at hargmax
    exact h.temperature hargmax.1.1.1.1
  unfold plainChoice
  exact if_neg hnot

theorem length_logitsAfter :
    (session.model.logitsAfter (prompt ++ out)).length = session.model.vocab.size :=
  session.model.length_logitsAfter (List.append_ne_nil_of_left_ne_nil h.prompt_ne_nil out)

theorem suppressEosLogit_eq :
    suppressEosLogit session.params (session.model.logitsAfter (prompt ++ out)) session.eos =
      .ok (suppressed session.params (session.model.logitsAfter (prompt ++ out))
        session.eos) := by
  apply suppressEosLogit_of_lt
  rw [h.length_logitsAfter out]
  exact session.model.vocab.eos_lt

theorem sample_eq (s : SampleState) (hdrawn : s.drawn = s.generatedTokens.length) :
    chain.sample session.backend
        (suppressed session.params
          (session.model.logitsAfter (prompt ++ s.generatedTokens)) session.eos)
        s.generatedTokens s.drawn =
      (plainChoice session chain prompt s.generatedTokens, s.drawn + 1) := by
  rw [h.plainChoice_eq, hdrawn]
  unfold SamplerChain.sample
  rw [h.greedy]
  rfl

theorem nextTokenFromCurrentLogits_eq (s : SampleState)
    (hdrawn : s.drawn = s.generatedTokens.length) :
    session.nextTokenFromCurrentLogits target chain
        (session.model.logitsAfter (prompt ++ s.generatedTokens)) s =
      .ok (plainChoice session chain prompt s.generatedTokens,
        { s with drawn := s.drawn + 1 }) := by
  have hlength : (session.model.logitsAfter (prompt ++ s.generatedTokens)).length ≠ 0 := by
    rw [h.length_logitsAfter]
    exact Nat.ne_of_gt (Nat.lt_trans Nat.one_pos session.model.vocab.one_lt)
  unfold nextTokenFromCurrentLogits
  dsimp only
  rw [if_neg h.temperature]
  dsimp only [Option.filter]
  rw [ensure_of_true _ hlength, ok_bind, h.suppressEosLogit_eq, ok_bind, h.sample_eq s hdrawn]
  rfl

/-!
# The draws of a window
-/

theorem drawAt_eq {window : TargetWindow Score} {s : SampleState} {i : Nat}
    (hvocab : window.vocabSize = session.model.vocab.size) (hvalues : window.outputLogits.values =
      (List.range (window.draftTokens.length + 1)).flatMap (fun i =>
        session.model.logitsAfter
          (prompt ++ (s.generatedTokens ++ window.draftTokens.take i))))
    (hdrawn : s.drawn = s.generatedTokens.length) (hi : i <= window.draftTokens.length) :
    window.drawAt (session.targetSampler chain) s i =
      .ok (plainChoice session chain prompt
        (s.generatedTokens ++ window.draftTokens.take i)) := by
  have hpos : window.vocabSize ≠ 0 := by
    rw [hvocab]
    exact Nat.ne_of_gt (Nat.lt_trans Nat.one_pos session.model.vocab.one_lt)
  have hrow := targetRow_eq hpos
    (fun j _ => (h.length_logitsAfter (s.generatedTokens ++ window.draftTokens.take j)).trans
      hvocab.symm) hvalues (Nat.lt_succ_of_le hi)
  have hgreedy : (session.targetSampler chain).chain.greedy = false := h.greedy
  have hat : (window.stateAt (session.targetSampler chain) s i).drawn =
      (window.stateAt (session.targetSampler chain) s i).generatedTokens.length := by
    unfold TargetWindow.stateAt
    rw [hgreedy, List.length_append, List.length_take, Nat.min_eq_left hi, hdrawn]
    rfl
  have hsample := h.sample_eq (window.stateAt (session.targetSampler chain) s i) hat
  unfold TargetWindow.drawAt sampleTargetFromLogits
  rw [hrow, ok_bind]
  have hsuppress := h.suppressEosLogit_eq (s.generatedTokens ++ window.draftTokens.take i)
  change Except.map Prod.fst
    (suppressEosLogit session.params _ session.eos >>= _) = _
  rw [hsuppress, ok_bind]
  exact congrArg (fun sampled => Except.ok sampled.1) hsample

end Samples

/-!
# The emission of the accepted drafts
-/

/-- The first `n` drafts are what plain decoding emits from `out`. -/
structure PlainDrafts (session : Session Row Rec Score) (chain : SamplerChain)
    (prompt out drafts : List TokenId) (n : Nat) : Prop where
  le_length : n <= drafts.length
  chosen : forall i, i < n -> exists token, drafts[i]? = some token ∧
    plainChoice session chain prompt (out ++ drafts.take i) = token ∧
    session.shouldStop token = false

/-- The emission ends the generation, or comes through with budget left. -/
inductive Emitted (session : Session Row Rec Score) (chain : SamplerChain)
    (prompt goal out drafts : List TokenId) (n budget : Nat) (s : EmitState) : Prop where
  | ended :
      s.round.stopped = true ∨ s.tokensRemaining = 0 ->
      s.generatedTokens = goal ->
      Emitted session chain prompt goal out drafts n budget s
  | through :
      s.round.stopped = false ->
      0 < s.tokensRemaining ->
      s.tokensRemaining <= budget ->
      s.generatedTokens = out ++ drafts.take n ->
      (plainDecoder session chain prompt).emit s.tokensRemaining s.generatedTokens = goal ->
      Emitted session chain prompt goal out drafts n budget s

theorem emitAccepted_emitted {goal out drafts : List TokenId} {n : Nat} (budget : Nat)
    (hplain : session.PlainDrafts chain prompt out drafts n)
    (i : Nat) (rest : List TokenId) (hrest : rest = (drafts.take n).drop i) (hi : i <= n)
    (s : EmitState) (hstopped : s.round.stopped = false) (hpos : 0 < s.tokensRemaining)
    (hbudget : s.tokensRemaining <= budget) (hgenerated : s.generatedTokens = out ++ drafts.take i)
    (hgoal : (plainDecoder session chain prompt).emit s.tokensRemaining s.generatedTokens = goal) :
    exists final, session.emitAccepted n i rest s = .ok final ∧
      session.Emitted chain prompt goal out drafts n budget final := by
  induction rest generalizing i s with
  | nil =>
    have hlength := congrArg List.length hrest
    rw [List.length_nil, List.length_drop, List.length_take,
      Nat.min_eq_left hplain.le_length] at hlength
    have hall : i = n := Nat.le_antisymm hi (Nat.le_of_sub_eq_zero hlength.symm)
    refine ⟨s, rfl, Emitted.through hstopped hpos hbudget ?_ hgoal⟩
    rw [hgenerated, hall]
  | cons token rest ih =>
    have hlt : i < n := by
      by_contra hge
      rw [List.drop_eq_nil_of_le] at hrest
      · cases hrest
      · exact Nat.le_trans (List.length_take_le n drafts) (Nat.le_of_not_lt hge)
    have hhead : drafts[i]? = some token := by
      rw [← List.getElem?_take_of_lt hlt, ← Nat.add_zero i, ← List.getElem?_drop, ← hrest]
      rfl
    have htail : rest = (drafts.take n).drop (i + 1) := by
      rw [← List.tail_drop, ← hrest]
      rfl
    rcases hplain.chosen i hlt with ⟨chosen, hchosen, hchoice, hstop⟩
    cases hhead.symm.trans hchosen
    rw [← hgenerated] at hchoice
    have hagree : (plainDecoder session chain prompt).Agrees session.shouldStop
        s.generatedTokens token := by
      rw [← hchoice]
      exact Decoder.agrees_choose (plainDecoder session chain prompt) s.generatedTokens
    have hspent : s.tokensRemaining - 1 + 1 = s.tokensRemaining :=
      Nat.sub_add_cancel hpos
    rw [← hspent] at hgoal
    have hpushed : s.generatedTokens ++ [token] = out ++ drafts.take (i + 1) := by
      rw [hgenerated, List.append_assoc, List.take_add_one, hhead]
      rfl
    have hcheck : ¬ session.params.shouldStop token session.eos = true :=
      Bool.eq_false_iff.mp hstop
    unfold emitAccepted
    dsimp only [GreedyRound.observe]
    rw [if_neg (not_not_intro rfl), if_neg hcheck, if_neg (Nat.not_le_of_lt hlt)]
    dsimp only [GreedyRound.afterEmit]
    rw [if_neg (Nat.ne_of_gt hpos)]
    cases hkeep : session.callback (s.generatedTokens ++ [token]) with
    | false =>
      rw [if_pos rfl, ok_bind]
      refine ⟨_, rfl, Emitted.ended (Or.inl rfl) ?_⟩
      rw [← hgoal]
      exact (hagree.emit_of_refused _ hstop hkeep).symm
    | true =>
      rw [if_neg Bool.false_ne_true.symm, ok_bind]
      rw [hagree.emit_of_pushed _ hstop hkeep] at hgoal
      dsimp only
      by_cases hlast : s.tokensRemaining - 1 = 0
      · rw [decide_eq_false (not_not_intro hlast), if_neg Bool.false_ne_true]
        rw [hlast] at hgoal
        exact ⟨_, rfl, Emitted.ended (Or.inr hlast) hgoal⟩
      · rw [decide_eq_true hlast, if_pos rfl]
        exact ih (i + 1) htail hlt _ hstopped (Nat.pos_of_ne_zero hlast)
          (Nat.le_trans (Nat.sub_le _ _) hbudget) hpushed hgoal

/-!
# One verified window
-/

/-- The state in which a round begins: one draw for each token emitted, and plain
decoding from here comes to the goal. -/
structure DrafterHead (session : Session Row Rec Score) (chain : SamplerChain)
    (prompt goal : List TokenId) (s : DrafterState) : Prop where
  drawn : s.drawn = s.generatedTokens.length
  emits : (plainDecoder session chain prompt).emit s.tokensRemaining s.generatedTokens = goal
  alone : s.finishWithTarget = false

/-- What a verified window leaves: the generation is over, or the next token is the plain
choice. -/
inductive Verified (session : Session Row Rec Score) (chain : SamplerChain)
    (prompt goal : List TokenId) (budget : Nat) :
    SampledPrefix × EmitState × DrafterState -> Prop where
  | finished {sampled : SampledPrefix} {emitted : EmitState} {s : DrafterState} :
      (sampled.stopped || emitted.round.stopped) = true ∨ s.tokensRemaining = 0 ->
      s.generatedTokens = goal ->
      s.finishWithTarget = false ->
      Verified session chain prompt goal budget (sampled, emitted, s)
  | answer {sampled : SampledPrefix} {emitted : EmitState} {s : DrafterState} :
      sampled.stopped = false ->
      emitted.round.stopped = false ->
      0 < s.tokensRemaining ->
      s.tokensRemaining <= budget ->
      sampled.nextToken = some (plainChoice session chain prompt s.generatedTokens) ->
      s.drawn = s.generatedTokens.length + 1 ->
      (plainDecoder session chain prompt).emit s.tokensRemaining s.generatedTokens = goal ->
      s.finishWithTarget = false ->
      Verified session chain prompt goal budget (sampled, emitted, s)

theorem plainDrafts_of_follows {window : TargetWindow Score} {s : SampleState} {n : Nat}
    (hdraw : forall i, i <= window.draftTokens.length ->
      window.drawAt (session.targetSampler chain) s i = .ok (plainChoice session chain prompt
          (s.generatedTokens ++ window.draftTokens.take i)))
    (hfollows : window.Follows (session.targetSampler chain) s n) :
    session.PlainDrafts chain prompt s.generatedTokens window.draftTokens n where
  le_length := hfollows.le_length
  chosen i hi := by
    rcases hfollows.drawn i hi with ⟨token, hdraft, hdrawn, hstop⟩
    rw [hdraw i (Nat.le_trans (Nat.le_of_lt hi) hfollows.le_length)] at hdrawn
    cases hdrawn
    exact ⟨_, hdraft, rfl, hstop⟩

theorem sampleAndEmit_triple {goal : List TokenId} {s : DrafterState}
    (h : session.Samples chain prompt) (hshows : ShowsTarget session prompt allowed target)
    (hhead : session.DrafterHead chain prompt goal s) (hpos : 0 < s.tokensRemaining)
    (drafts : List TokenId) :
    Triple allowed (session.sampleAndEmit target chain drafts s)
      (session.Verified chain prompt goal s.tokensRemaining) := by
  unfold sampleAndEmit
  refine (hshows.verify s.generatedTokens drafts).bind ?_
  intro outputLogits hvalues
  dsimp only
  generalize hwindow : session.targetWindow outputLogits drafts = window
  have hdrafts : window.draftTokens = drafts := by
    rw [← hwindow]
    rfl
  have hdraw : forall i, i <= window.draftTokens.length ->
      window.drawAt (session.targetSampler chain) s.toSampleState i =
        .ok (plainChoice session chain prompt
          (s.generatedTokens ++ window.draftTokens.take i)) := by
    intro i hi
    rw [← hwindow] at hi ⊢
    exact h.drawAt_eq rfl hvalues hhead.drawn hi
  rcases window.sampleTargetWindowPrefix_endsWith (session.targetSampler chain) s.toSampleState
    with ⟨n, draws, hfollows, hends, hstate⟩
  generalize window.sampleTargetWindowPrefix (session.targetSampler chain) s.toSampleState = result
    at hends hstate ⊢
  rcases result with ⟨outcome, sampledState⟩
  have hplain := plainDrafts_of_follows hdraw hfollows
  have hchoice := hdraw n hfollows.le_length
  rw [hdrafts] at hplain hchoice
  rcases emitAccepted_emitted s.tokensRemaining hplain 0 (drafts.take n) rfl (Nat.zero_le n)
    { round := GreedyRound.new
      generatedTokens := s.generatedTokens
      tokensRemaining := s.tokensRemaining }
    rfl hpos (Nat.le_refl _) (List.append_nil _).symm hhead.emits with
    ⟨emitted, hemit, hemitted⟩
  have hgreedy : (session.targetSampler chain).chain.greedy = false := h.greedy
  cases hstate
  dsimp only at hends ⊢
  cases hends with
  | fault hfault =>
    rw [hfault] at hchoice
    cases hchoice
  | stop hdrawn hdraft hstop =>
    rw [hdrawn] at hchoice
    cases hchoice
    rw [ok_bind, hemit, ok_bind]
    apply triple_pure
    cases hemitted with
    | ended hover hgoal =>
      refine Verified.finished (hover.imp_left ?_) hgoal hhead.alone
      intro hstopped
      rw [hstopped, Bool.or_true]
    | through hrunning hleft hbudget hgenerated hgoal =>
      refine Verified.finished (Or.inl (Bool.true_or _)) ?_ hhead.alone
      rw [← hgoal]
      apply Eq.symm
      apply Decoder.emit_stop
      rw [hgenerated]
      exact hstop
  | answer hdrawn hdraft =>
    rw [hdrawn] at hchoice
    cases hchoice
    rw [ok_bind, hemit, ok_bind]
    apply triple_pure
    cases hemitted with
    | ended hover hgoal =>
      refine Verified.finished (hover.imp_left ?_) hgoal hhead.alone
      intro hstopped
      rw [hstopped, Bool.or_true]
    | through hrunning hleft hbudget hgenerated hgoal =>
      refine Verified.answer rfl hrunning hleft hbudget ?_ ?_ hgoal hhead.alone
      · rw [hgenerated]
      · have hlength : emitted.generatedTokens.length = s.generatedTokens.length + n := by
          rw [hgenerated, List.length_append, List.length_take, Nat.min_eq_left hplain.le_length]
        unfold TargetWindow.stateAt
        dsimp only
        rw [hgreedy, if_neg Bool.false_ne_true, hlength, hhead.drawn, Nat.add_assoc]

/-!
# Rounds
-/

def verifyLen (session : Session Row Rec Score) (s : DrafterState) : Drafter -> Nat
  | .dflash drafter =>
    (drafter.draft s.generatedTokens s.currentToken
      (min (min (max session.params.specK 1) s.tokensRemaining) 15)).length
  | .dspark drafter =>
    let draft := drafter.draft s.generatedTokens s.currentToken
    dsparkConfidentPrefixLen draft.confidences
      (min (min draft.tokens.length (max session.params.specK 1)) s.tokensRemaining)
  | .external drafter =>
    min (drafter.draft s.generatedTokens s.currentToken).length s.tokensRemaining

/-- What the rounds leave behind: all of plain decoding, or the rest of it for the
target alone, or for nobody once the drafter proposes nothing. -/
inductive Finished (session : Session Row Rec Score) (chain : SamplerChain)
    (prompt goal : List TokenId) (drafter : Drafter) (s : DrafterState) : Prop where
  | whole :
      s.generatedTokens = goal ->
      s.finishWithTarget = false ->
      Finished session chain prompt goal drafter s
  | target :
      s.drawn = s.generatedTokens.length ->
      (plainDecoder session chain prompt).emit s.tokensRemaining s.generatedTokens = goal ->
      s.finishWithTarget = true ->
      Finished session chain prompt goal drafter s
  | undrafted :
      session.verifyLen s drafter = 0 ->
      (plainDecoder session chain prompt).emit s.tokensRemaining s.generatedTokens = goal ->
      s.finishWithTarget = false ->
      Finished session chain prompt goal drafter s

section Rounds

variable {goal : List TokenId} {s : DrafterState}

inductive Corrected (session : Session Row Rec Score) (chain : SamplerChain)
    (prompt goal : List TokenId) (budget : Nat) (out : List TokenId) (token : TokenId) :
    Prop where
  | stop :
      session.shouldStop token = true ->
      out = goal ->
      Corrected session chain prompt goal budget out token
  | refused :
      session.shouldStop token = false ->
      session.callback (out ++ [token]) = false ->
      out ++ [token] = goal ->
      Corrected session chain prompt goal budget out token
  | pushed :
      session.shouldStop token = false ->
      session.callback (out ++ [token]) = true ->
      (plainDecoder session chain prompt).emit (budget - 1) (out ++ [token]) = goal ->
      Corrected session chain prompt goal budget out token

theorem corrected_plainChoice {budget : Nat} {out : List TokenId} (hpos : 0 < budget)
    (hgoal : (plainDecoder session chain prompt).emit budget out = goal) :
    session.Corrected chain prompt goal budget out (plainChoice session chain prompt out) := by
  have hagree : (plainDecoder session chain prompt).Agrees session.shouldStop out
      (plainChoice session chain prompt out) :=
    Decoder.agrees_choose (plainDecoder session chain prompt) out
  rw [← Nat.sub_add_cancel hpos] at hgoal
  cases hstop : session.shouldStop (plainChoice session chain prompt out) with
  | true => exact Corrected.stop hstop ((hagree.emit_of_stops _ hstop).symm.trans hgoal)
  | false =>
    cases hkeep : session.callback (out ++ [plainChoice session chain prompt out]) with
    | false =>
      exact Corrected.refused hstop hkeep ((hagree.emit_of_refused _ hstop hkeep).symm.trans hgoal)
    | true =>
      exact Corrected.pushed hstop hkeep ((hagree.emit_of_pushed _ hstop hkeep).symm.trans hgoal)

section

variable (h : session.Samples chain prompt) (hshows : ShowsTarget session prompt allowed target)
include h hshows

theorem verifyRound_triple
    (hhead : session.DrafterHead chain prompt goal s) (hpos : 0 < s.tokensRemaining)
    (noCorrection : String) (drafts : List TokenId) :
    Triple allowed (session.verifyRound target chain noCorrection drafts s)
      (Step.Satisfies (fun following => session.DrafterHead chain prompt goal following ∧
          following.tokensRemaining < s.tokensRemaining)
        (fun final => final.generatedTokens = goal ∧ final.finishWithTarget = false)) := by
  unfold verifyRound
  refine (sampleAndEmit_triple h hshows hhead hpos drafts).bind ?_
  intro result hverified
  cases hverified with
  | finished hends hgoal halone =>
    dsimp only
    rw [if_pos hends]
    exact triple_pure ⟨hgoal, halone⟩
  | @answer sampled emitted following hrunning hkept hleft hbudget hnext hdrawn hgoal halone =>
    have hgoesOn : ¬ ((sampled.stopped || emitted.round.stopped) = true ∨
        following.tokensRemaining = 0) := by
      rw [hrunning, hkept]
      intro hends
      rcases hends with hstopped | hspent
      · cases hstopped
      · exact Nat.ne_of_gt hleft hspent
    have hcorrected := corrected_plainChoice hleft hgoal
    dsimp only
    rw [if_neg hgoesOn, hnext]
    dsimp only
    cases hcorrected with
    | stop hstop hover =>
      rw [if_pos hstop]
      exact triple_pure ⟨hover, halone⟩
    | refused hstop hkeep hover =>
      rw [if_neg (Bool.eq_false_iff.mp hstop), if_pos hkeep]
      exact triple_pure ⟨hover, halone⟩
    | pushed hstop hkeep hemits =>
      rw [if_neg (Bool.eq_false_iff.mp hstop), if_neg (ne_false_of_eq_true hkeep)]
      refine triple_pure ⟨?_, ?_⟩
      · constructor
        · rw [List.length_append]
          exact hdrawn
        · exact hemits
        · exact halone
      · exact Nat.lt_of_lt_of_le (Nat.sub_lt hleft Nat.one_pos) hbudget

theorem externalRound_triple
    (hhead : session.DrafterHead chain prompt goal s) (hpos : 0 < s.tokensRemaining)
    (drafter : ExternalDrafter) (hdrafts : session.verifyLen s (.external drafter) ≠ 0) :
    Triple allowed (session.externalRound target chain drafter s)
      (Step.Satisfies (fun following => session.DrafterHead chain prompt goal following ∧
          following.tokensRemaining < s.tokensRemaining)
        (fun final => final.generatedTokens = goal ∧ final.finishWithTarget = false)) := by
  unfold verifyLen at hdrafts
  unfold externalRound
  dsimp only
  rw [if_neg (Nat.ne_of_gt hpos), if_neg hdrafts]
  refine (sampleAndEmit_triple h hshows hhead hpos _).bind ?_
  intro result hverified
  cases hverified with
  | finished hends hgoal halone =>
    dsimp only
    rw [if_pos (hends.imp_left fun hstopped => by rw [hstopped, Bool.true_or])]
    exact triple_pure ⟨hgoal, halone⟩
  | @answer sampled emitted following hrunning hkept hleft hbudget hnext hdrawn hgoal halone =>
    have hgoesOn : ¬ ((sampled.stopped || emitted.round.stopped
        || following.tokensRemaining == 0) = true ∨ following.tokensRemaining = 0) := by
      rw [hrunning, hkept, beq_eq_false_iff_ne.mpr (Nat.ne_of_gt hleft)]
      intro hends
      rcases hends with hstopped | hspent
      · cases hstopped
      · exact Nat.ne_of_gt hleft hspent
    have hcorrected := corrected_plainChoice hleft hgoal
    dsimp only
    rw [if_neg hgoesOn, hnext]
    dsimp only
    cases hcorrected with
    | stop hstop hover =>
      rw [if_pos hstop]
      exact triple_pure ⟨hover, halone⟩
    | refused hstop hkeep hover =>
      rw [if_neg (Bool.eq_false_iff.mp hstop), if_pos (Or.inl hkeep)]
      exact triple_pure ⟨hover, halone⟩
    | pushed hstop hkeep hemits =>
      rw [if_neg (Bool.eq_false_iff.mp hstop)]
      by_cases hlast : following.tokensRemaining - 1 = 0
      · rw [if_pos (Or.inr hlast)]
        rw [hlast] at hemits
        exact triple_pure ⟨hemits, halone⟩
      · rw [if_neg (not_or_intro (ne_false_of_eq_true hkeep) hlast)]
        refine triple_pure ⟨?_, ?_⟩
        · constructor
          · rw [List.length_append]
            exact hdrawn
          · exact hemits
          · exact halone
        · exact Nat.lt_of_lt_of_le (Nat.sub_lt hleft Nat.one_pos) hbudget

theorem drafterRound_triple (drafter : Drafter) (hhead : session.DrafterHead chain prompt goal s) :
    Triple allowed (session.drafterRound target chain drafter s)
      (Step.Satisfies (fun following => session.DrafterHead chain prompt goal following ∧
          following.tokensRemaining < s.tokensRemaining)
        (session.Finished chain prompt goal drafter)) := by
  have hwhole : forall {call : Checked (Step DrafterState)},
      Triple allowed call (Step.Satisfies
        (fun following => session.DrafterHead chain prompt goal following ∧
          following.tokensRemaining < s.tokensRemaining)
        (fun final => final.generatedTokens = goal ∧ final.finishWithTarget = false)) ->
      Triple allowed call (Step.Satisfies
        (fun following => session.DrafterHead chain prompt goal following ∧
          following.tokensRemaining < s.tokensRemaining)
        (session.Finished chain prompt goal drafter)) := by
    intro call hcall
    apply hcall.mono
    intro step hstep
    cases step with
    | next following => exact hstep
    | done final => exact Finished.whole hstep.1 hstep.2
  have hemits := hhead.emits
  by_cases hspent : s.tokensRemaining = 0
  · rw [hspent] at hemits
    cases drafter with
    | dflash drafter =>
      unfold drafterRound dflashRound
      dsimp only
      rw [if_pos hspent]
      exact triple_ok (Finished.whole hemits hhead.alone)
    | dspark drafter =>
      unfold drafterRound dsparkRound
      dsimp only
      rw [if_pos hspent]
      exact triple_ok (Finished.whole hemits hhead.alone)
    | external drafter =>
      unfold drafterRound externalRound
      dsimp only
      rw [if_pos hspent]
      exact triple_ok (Finished.whole hemits hhead.alone)
  have hpos : 0 < s.tokensRemaining := Nat.pos_of_ne_zero hspent
  by_cases hdrafts : session.verifyLen s drafter = 0
  · have hdone := Finished.undrafted hdrafts hemits hhead.alone
    cases drafter with
    | dflash drafter =>
      have hempty := hdrafts
      unfold verifyLen at hempty
      unfold drafterRound dflashRound
      dsimp only
      rw [if_neg hspent, if_pos hempty]
      exact triple_ok hdone
    | dspark drafter =>
      have hempty := hdrafts
      unfold verifyLen at hempty
      unfold drafterRound dsparkRound
      dsimp only at hempty ⊢
      rw [if_neg hspent, if_pos hempty]
      exact triple_ok hdone
    | external drafter =>
      have hempty := hdrafts
      unfold verifyLen at hempty
      unfold drafterRound externalRound
      dsimp only
      rw [if_neg hspent, if_pos hempty]
      exact triple_ok hdone
  · cases drafter with
    | dflash drafter =>
      have hsome := hdrafts
      unfold verifyLen at hsome
      unfold drafterRound dflashRound
      dsimp only
      rw [if_neg hspent, if_neg hsome]
      refine (verifyRound_triple h hshows hhead hpos _ _).bind ?_
      intro step hstep
      cases step with
      | done final => exact triple_pure (Finished.whole hstep.1 hstep.2)
      | next following =>
        dsimp only
        split
        · exact triple_pure (Finished.target hstep.1.drawn hstep.1.emits rfl)
        · exact triple_pure hstep
    | dspark drafter =>
      have hsome := hdrafts
      unfold verifyLen at hsome
      unfold drafterRound dsparkRound
      dsimp only at hsome ⊢
      rw [if_neg hspent, if_neg hsome]
      exact hwhole (verifyRound_triple h hshows hhead hpos _ _)
    | external drafter => exact hwhole (externalRound_triple h hshows hhead hpos drafter hdrafts)

end

/-!
# The target alone
-/

structure TargetHead (session : Session Row Rec Score) (chain : SamplerChain)
    (prompt goal : List TokenId) (s : TargetState Score) : Prop where
  drawn : s.drawn = s.generatedTokens.length
  logits : s.targetLogits = session.model.logitsAfter (prompt ++ s.generatedTokens)
  emits : (plainDecoder session chain prompt).emit s.tokensRemaining s.generatedTokens = goal

theorem targetRound_triple {s : TargetState Score}
    (h : session.Samples chain prompt) (hshows : ShowsTarget session prompt allowed target)
    (hhead : session.TargetHead chain prompt goal s) :
    Triple allowed (session.targetRound target chain s)
      (Step.Satisfies (fun following => session.TargetHead chain prompt goal following ∧
          following.tokensRemaining < s.tokensRemaining)
        (fun final => final.generatedTokens = goal)) := by
  have hgoal := hhead.emits
  unfold targetRound
  by_cases hspent : s.tokensRemaining = 0
  · rw [hspent] at hgoal
    rw [if_pos hspent]
    exact triple_ok hgoal
  have hpos : 0 < s.tokensRemaining := Nat.pos_of_ne_zero hspent
  have hcorrected := corrected_plainChoice hpos hgoal
  rw [if_neg hspent, hhead.logits, h.nextTokenFromCurrentLogits_eq s.toSampleState hhead.drawn,
    ok_bind]
  dsimp only
  cases hcorrected with
  | stop hstop hover =>
    rw [if_pos hstop]
    exact triple_pure hover
  | refused hstop hkeep hover =>
    rw [if_neg (Bool.eq_false_iff.mp hstop), if_pos hkeep]
    exact triple_pure hover
  | pushed hstop hkeep hemits =>
    rw [if_neg (Bool.eq_false_iff.mp hstop), if_neg (ne_false_of_eq_true hkeep)]
    by_cases hlast : s.tokensRemaining - 1 = 0
    · rw [if_pos hlast]
      rw [hlast] at hemits
      exact triple_pure hemits
    · rw [if_neg hlast]
      refine (hshows.forward _).bind ?_
      intro logits hlogits
      refine triple_pure ⟨?_, Nat.sub_lt hpos Nat.one_pos⟩
      constructor
      · rw [List.length_append]
        exact congrArg (· + 1) hhead.drawn
      · exact hlogits
      · exact hemits

theorem finishWithTarget_triple
    (h : session.Samples chain prompt) (hshows : ShowsTarget session prompt allowed target)
    (hdrawn : s.drawn = s.generatedTokens.length)
    (hgoal : (plainDecoder session chain prompt).emit s.tokensRemaining s.generatedTokens = goal) :
    Triple allowed (session.finishWithTarget target chain s) (fun final =>
      final.generatedTokens = goal) := by
  unfold finishWithTarget
  refine (hshows.forward s.generatedTokens).bind ?_
  intro logits hlogits
  refine (loop_triple (session.TargetHead chain prompt goal)
    (fun final => final.generatedTokens = goal) (fun s => s.tokensRemaining)
    (fun s hs => targetRound_triple h hshows hs) ?_ (Nat.lt_succ_self _)).bind ?_
  · constructor
    · exact hdrawn
    · exact hlogits
    · exact hgoal
  · intro final hfinal
    exact triple_pure hfinal

/-!
# Whole generations
-/

/-- The whole of plain decoding, or as much of it as the drafter proposed for. -/
def EmitsAsPlain (session : Session Row Rec Score) (chain : SamplerChain)
    (prompt : List TokenId) (drafter : Drafter) (s : DrafterState) : Prop :=
  s.generatedTokens = plainTokens session chain prompt ∨
    (session.verifyLen s drafter = 0 ∧
      (plainDecoder session chain prompt).emit s.tokensRemaining s.generatedTokens =
        plainTokens session chain prompt)

theorem generateWithDrafter_triple
    (h : session.Samples chain prompt) (hshows : ShowsTarget session prompt allowed target)
    (drafter : Drafter) :
    Triple allowed (session.generateWithDrafter target chain drafter)
      (session.EmitsAsPlain chain prompt drafter) := by
  unfold generateWithDrafter
  refine (hshows.forward []).bind ?_
  intro logits hlogits
  by_cases hbudget : session.params.maxTokens = 0
  · rw [if_pos hbudget]
    refine triple_pure (Or.inl ?_)
    unfold plainTokens
    rw [hbudget]
    rfl
  have hpos : 0 < session.params.maxTokens := Nat.pos_of_ne_zero hbudget
  have hcorrected : session.Corrected chain prompt (plainTokens session chain prompt)
      session.params.maxTokens [] (plainChoice session chain prompt []) :=
    corrected_plainChoice hpos rfl
  have hfirst : session.nextTokenFromCurrentLogits target chain
        (session.model.logitsAfter (prompt ++ [])) { generatedTokens := [], drawn := 0 } =
      .ok (plainChoice session chain prompt [], { generatedTokens := [], drawn := 1 }) :=
    h.nextTokenFromCurrentLogits_eq { generatedTokens := [], drawn := 0 } rfl
  rw [if_neg hbudget, hlogits, hfirst, ok_bind]
  dsimp only
  cases hcorrected with
  | stop hstop hover =>
    rw [if_pos hstop]
    exact triple_pure (Or.inl hover)
  | refused hstop hkeep hover =>
    rw [if_neg (Bool.eq_false_iff.mp hstop)]
    rw [List.nil_append] at hkeep hover
    rw [if_pos hkeep]
    exact triple_pure (Or.inl hover)
  | pushed hstop hkeep hemits =>
    rw [List.nil_append] at hkeep hemits
    rw [if_neg (Bool.eq_false_iff.mp hstop), if_neg (ne_false_of_eq_true hkeep)]
    refine (loop_triple (session.DrafterHead chain prompt (plainTokens session chain prompt))
      (session.Finished chain prompt (plainTokens session chain prompt) drafter)
      (fun s => s.tokensRemaining)
      (fun s hs => drafterRound_triple h hshows drafter hs) ?_ ?_).bind ?_
    · constructor
      · rfl
      · exact hemits
      · rfl
    · exact Nat.lt_succ_of_le (Nat.sub_le _ _)
    · intro decoded hdecoded
      cases hdecoded with
      | whole hover halone =>
        rw [if_neg (Bool.eq_false_iff.mp halone)]
        exact triple_pure (Or.inl hover)
      | target hdrawn hrest hfinish =>
        rw [if_pos hfinish]
        apply (finishWithTarget_triple h hshows hdrawn hrest).mono
        intro final hfinal
        exact Or.inl hfinal
      | undrafted hnone hrest halone =>
        rw [if_neg (Bool.eq_false_iff.mp halone)]
        exact triple_pure (Or.inr ⟨hnone, hrest⟩)

end Rounds

/-- An engine that returns the target's logits, as far as a vector holds them. -/
def exactTarget (session : Session Row Rec Score) (prompt : List TokenId) :
    TargetForward Score where
  forward out := .ok (session.model.logitsAfter (prompt ++ out))
  verify out drafts :=
    let values := (List.range (drafts.length + 1)).flatMap
      (fun i => session.model.logitsAfter (prompt ++ (out ++ drafts.take i)))
    if h : values.length < usizeLimit then .ok { values := values, length_lt := h }
    else abort "capacity overflow"
  lastBackendArgmaxToken _ := none

theorem showsTarget_exactTarget (session : Session Row Rec Score) (prompt : List TokenId) :
    ShowsTarget session prompt (fun fault => fault = .panicked "capacity overflow")
      (session.exactTarget prompt) where
  forward _ := triple_ok rfl
  verify out drafts := by
    unfold exactTarget
    dsimp only
    split
    · exact triple_ok rfl
    · exact triple_error _ rfl

/-- The window is sampled with the draws of a sequential sampler, whose context is
handed back; and each loop, with any drafter, emits what plain decoding emits with
the same stream. -/
theorem sampled_windows_emit_plain_tokens (session : Session Row Rec Score)
    (target : TargetForward Score) (chain : SamplerChain) (prompt : List TokenId)
    (allowed : Fault -> Prop) (drafter : Drafter)
    (hchain : SamplerChain.fromParams session.params = .ok chain)
    (hsampled : session.params.mtpSampledVerifyAllowed = true) (hprompt : prompt ≠ [])
    (hshows : ShowsTarget session prompt allowed target) :
    (forall (window : TargetWindow Score) (sampler : TargetSampler Score) (s : SampleState),
      exists n draws, window.Follows sampler s n ∧
        window.EndsWith sampler s n (window.sampleTargetWindowPrefix sampler s).1 draws ∧
          (window.sampleTargetWindowPrefix sampler s).2 =
            { s with drawn := (window.stateAt sampler s draws).drawn }) ∧
      Triple allowed (session.generateWithDrafter target chain drafter)
        (session.EmitsAsPlain chain prompt drafter) := by
  constructor
  · intro window sampler s
    exact window.sampleTargetWindowPrefix_endsWith sampler s
  · exact generateWithDrafter_triple (samples_of_allowed hchain hsampled hprompt) hshows drafter

def countingSession : Session TokenId Nat Nat where
  model := scriptedModel .llama (fun _ => 1)
  params := { greedyParams 3 2 with temperature := 1 }
  backend := { scriptedBackend with
    choose := fun _ draw => draw }
  callback := fun _ => true

def countingChain : SamplerChain where
  repetition := none
  presence := none
  frequency := none
  greedy := false

def halfRightDrafter : DflashDrafter where
  draft _ _ _ := [1, 0]
  adaptiveTarget := false
  adaptiveBurstRounds := 2

theorem sampled_windows_emit_plain_tokens_counting :
    exists final,
      countingSession.generateWithDrafter (countingSession.exactTarget [0]) countingChain
          (.dflash halfRightDrafter) = .ok final ∧
        final.generatedTokens = [0, 1, 2] ∧
        countingSession.EmitsAsPlain countingChain [0] (.dflash halfRightDrafter) final := by
  have hrun : exists final,
      countingSession.generateWithDrafter (countingSession.exactTarget [0]) countingChain
          (.dflash halfRightDrafter) = .ok final ∧ final.generatedTokens = [0, 1, 2] :=
    ⟨_, rfl, rfl⟩
  rcases hrun with ⟨final, hfinal, htokens⟩
  have htriple := (sampled_windows_emit_plain_tokens countingSession
    (countingSession.exactTarget [0]) countingChain [0] _ (.dflash halfRightDrafter)
    rfl rfl (List.cons_ne_nil _ _) (showsTarget_exactTarget countingSession [0])).2
  rw [hfinal] at htriple
  exact ⟨final, hfinal, htokens, htriple⟩

end Session

end Generate
end RunNBurn
