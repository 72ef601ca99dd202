import RunNBurn.Generate.SpeculativeRounds

/-!
# How the early-exit loop returns

The rounds without a bonus row have nothing to commit to when every draft is accepted
and the callback refuses the last one, and no last draft when none was asked for.
Outside of these the loop returns whatever the drafts and the callback do.
-/

namespace RunNBurn
namespace Generate

open Library
open Inference

variable {Row Rec Score : Type} [LinearOrder Score] [OrderBot Score]

namespace SpecSession

/-- On the path without a bonus row, some draft is asked for, and it is not the last of
all accepted drafts that the callback refuses. -/
def Commits (session : SpecSession Row Rec Score) (chain : SamplerChain)
    (s : SpecState Row Rec Score) : Prop :=
  session.batchArgmaxNoBonus = true ->
    forall first drafts restored, DraftedBy session chain s first drafts restored ->
      session.params.specK ≠ 0 ∧
        forall engine allLogits,
          restored.engine.forwardWindow session.model
              (specBatchVerifyInputTokens first drafts false) = .ok (engine, allLogits) ->
          ¬ LastRefused session (allLogits.map greedySample) drafts restored

section Returns

variable {session : SpecSession Row Rec Score} {chain : SamplerChain}
  {prompt drafts : List TokenId} {first : TokenId} {s counted : SpecState Row Rec Score}

def EngineFault (fault : Fault) : Prop :=
  fault = Engine.overflow

theorem openRound_pos (h : session.openRound chain s = .speculate first counted) :
    0 < counted.remaining := by
  unfold openRound at h
  split at h
  · cases h
  · dsimp only at h
    cases hemission : emitFirst session.stops session.callback (session.firstToken chain s).1
        s.generated s.remaining with
    | ended generated remaining =>
      rw [hemission] at h
      cases h
    | goesOn generated remaining =>
      rw [hemission] at h
      cases h
      unfold emitFirst at hemission
      split at hemission
      · cases hemission
      · split at hemission
        · cases hemission
        · split at hemission
          · cases hemission
          · rename_i hzero
            cases hemission
            exact Nat.pos_of_ne_zero hzero

theorem length_of_draftTokens {k : Nat} {engine : Engine Row Rec} {token : TokenId}
    {result : Engine Row Rec × List TokenId}
    (h : draftTokens (forwardDecodeDraft session.model session.earlyExit) k engine token =
      .ok result) :
    result.2.length = k := by
  have hroom : engine.Room (fun _ => True) session.model k := Or.inr trivial
  exact ((draftTokens_triple token hroom).returns _ h).2

theorem length_of_forwardWindow {engine : Engine Row Rec} {window : List TokenId}
    {result : Engine Row Rec × List (List Score)}
    (h : engine.forwardWindow session.model window = .ok result) :
    result.2.length = window.length := by
  have hroom : engine.Room (fun _ => True) session.model window.length := Or.inr trivial
  have htracks : session.model.lengthView.Tracks engine
      (List.replicate engine.currentLen 0) :=
    List.length_replicate.symm
  exact ((EngineView.forwardWindow_triple window htracks hroom).returns _ h).2.2.1

theorem faults_of_commits {restored : SpecState Row Rec Score} (h : session.Commits chain s)
    (hdrafted : DraftedBy session chain s first drafts restored) :
    NoBonusFaults session EngineFault first drafts restored := by
  constructor
  · intro hbonus hempty
    rcases hdrafted with ⟨counted, drafted, hopen, hdrafts, hrestored⟩
    have hspecK := (h hbonus first drafts restored
      ⟨counted, drafted, hopen, hdrafts, hrestored⟩).1
    have hremaining := openRound_pos hopen
    have hcount : drafts.length = min session.params.specK counted.remaining :=
      length_of_draftTokens hdrafts
    rw [hempty, List.length_nil] at hcount
    omega
  · intro hbonus engine allLogits hwindow hrefused
    exact absurd hrefused ((h hbonus first drafts restored hdrafted).2 engine allLogits hwindow)

theorem round_returns
    (hchain : SamplerChain.fromParams session.params = .ok chain)
    (hhead : Head session chain session.model.computedView prompt s)
    (hcommits : session.Commits chain s) :
    Triple EngineFault (session.round chain s)
      (Step.Satisfies (fun following =>
          Head session chain session.model.computedView prompt following ∧
            following.remaining < s.remaining)
        (Left session session.model.computedView prompt)) :=
  round_triple hchain (Or.inr rfl) hhead
    (fun _ _ _ hdrafted => {
      undone := undone_of_goesBack hhead (goesBack_computedView session.model) hdrafted
      diagnostic := fun _ _ _ _ _ hbase hextends _ =>
        (goesBack_computedView session.model).restores (List.Subset.refl _) hbase hextends
      keeps := fun _ _ _ => CommitKeeps.of_goesBack (goesBack_computedView session.model) _ _ _ _
      faults := faults_of_commits hcommits hdrafted })

/-!
# Rounds that do not commit
-/

theorem acceptLoop_lastRefused {targets : List TokenId} (h : LastRefused session targets drafts s)
    (hne : drafts ≠ []) {result : AcceptState Unit Unit}
    (hresult : acceptLoop session.stops session.callback (verifyTargets targets) drafts
      (AcceptState.start () s.generated s.remaining) = .ok result) :
    result.accepted = drafts.length ∧ result.stopped = true ∧ result.remaining ≠ 0 := by
  have hbudget := h.budget
  have hjudged : Triple (fun _ => True)
      (acceptLoop session.stops session.callback (verifyTargets targets) drafts
        (AcceptState.start () s.generated s.remaining))
      (AcceptExit session.stops session.callback (fun i target => targets[i]? = some target)
        (fun _ _ => True) (fun _ _ _ => True) drafts s.generated s.remaining) := by
    apply acceptLoop_triple
    · intro env i draft _ _ _ _
      unfold verifyTargets
      split
      · rename_i target htarget
        exact triple_ok ⟨htarget, trivial⟩
      · exact triple_error _ trivial
    · intro env carry i draft _ _ _
      trivial
    · exact Nat.lt_of_le_of_lt (Nat.zero_le _) hbudget
    · trivial
  have hexit := hjudged.returns _ hresult
  have hlast : forall i, i + 1 = drafts.length ->
      session.callback (s.generated ++ drafts.take (i + 1)) = false := by
    intro i hi
    rw [hi, List.take_length]
    exact h.refuses
  cases hexit with
  | stopped hdraft _ _ _ _ hstops =>
    rw [h.passes _ (List.mem_of_getElem? hdraft)] at hstops
    cases hstops
  | @refused env carry i draft hdraft _ _ _ _ _ hkeep =>
    have hle := succ_le_length_of_getElem? hdraft
    by_cases hend : i + 1 = drafts.length
    · refine ⟨hend, rfl, ?_⟩
      dsimp only
      omega
    · rw [h.goesOn i (Nat.lt_of_le_of_ne hle hend)] at hkeep
      cases hkeep
  | spent hdraft hspent _ _ =>
    have hle := succ_le_length_of_getElem? hdraft
    omega
  | @rejected env carry i draft target hdraft _ _ htarget _ hdiffers =>
    rw [h.agree, hdraft] at htarget
    cases htarget
    exact absurd rfl hdiffers
  | exhausted _ hpassed _ =>
    have hpos := List.length_pos_of_ne_nil hne
    have hindex : drafts.length - 1 + 1 = drafts.length := by
      omega
    have hget := List.getElem?_eq_getElem (show drafts.length - 1 < drafts.length by omega)
    have hkeep := (hpassed _ _ (by omega) hget).2.2
    rw [hlast _ hindex] at hkeep
    cases hkeep

theorem commits_of_round {step : Step (SpecState Row Rec Score)}
    (h : session.round chain s = .ok step) :
    session.Commits chain s := by
  intro hbonus first drafts restored hdrafted
  rcases hdrafted with ⟨counted, drafted, hopen, hdraft, rfl⟩
  have hpath : session.verifyMode = .batch ∧ session.argmaxVerify = true := by
    have hboth := hbonus
    unfold batchArgmaxNoBonus at hboth
    simp only [Bool.and_eq_true, beq_iff_eq] at hboth
    exact hboth.1
  unfold round at h
  rw [hopen] at h
  dsimp only at h
  unfold speculate at h
  dsimp only at h
  rw [hdraft, ok_bind, hpath.1] at h
  dsimp only at h
  rw [if_pos hpath.2] at h
  unfold verifyBatchArgmaxRound at h
  rw [hbonus] at h
  rcases bind_eq_ok h with ⟨⟨engine, allLogits⟩, hwindow, h⟩
  rcases bind_eq_ok h with ⟨result, hresult, h⟩
  dsimp only at h
  constructor
  · intro hzero
    rw [hzero, Nat.zero_min] at hdraft
    cases hdraft
    cases hresult
    have hremaining := openRound_pos hopen
    rw [if_neg (fun hspent => Nat.ne_of_gt hremaining hspent.2.2), if_pos ⟨rfl, rfl, rfl⟩] at h
    cases h
  · intro others otherLogits hother hrefused
    have hsame := hwindow.symm.trans hother
    cases hsame
    have hne : drafts ≠ [] := by
      intro hempty
      have hagree := congrArg List.length hrefused.agree
      rw [List.length_map, length_of_forwardWindow hwindow, length_verifyInput, hempty] at hagree
      cases hagree
    rcases acceptLoop_lastRefused hrefused hne hresult with ⟨haccepted, hstopped, hremaining⟩
    have hshort : (allLogits.map greedySample).length <= drafts.length :=
      Nat.le_of_eq (congrArg List.length hrefused.agree)
    rw [if_neg (fun hspent => hremaining hspent.2.2),
      if_neg (fun hfull => by
        rw [hstopped] at hfull
        cases hfull.2.2),
      haccepted, commitBatchArgmax_past _ _ _ _ hshort] at h
    cases h

/-!
# Runs
-/

theorem run_returns
    (engine : Engine Row Rec) {start : SpecState Row Rec Score}
    (hchain : SamplerChain.fromParams session.params = .ok chain)
    (hstart : session.prefill engine prompt = .ok start)
    (hcommits : forall s, Reach (session.round chain) start s -> session.Commits chain s) :
    Triple EngineFault (loop (session.round chain) (session.params.maxTokens + 1) start)
      (fun final =>
        session.model.computedView.TracksPrefix final.engine (prompt ++ final.generated)) := by
  have hprefill : Triple EngineFault (session.prefill engine prompt)
      (Head session chain session.model.computedView prompt) :=
    prefill_triple session.model.computedView engine (prompt_ne_nil_of_prefill hstart)
      (Or.inr rfl)
  have hhead : Head session chain session.model.computedView prompt start :=
    hprefill.returns start hstart
  apply loop_triple (fun s => Head session chain session.model.computedView prompt s ∧
      Reach (session.round chain) start s)
    _ SpecState.remaining
  · intro s hs
    apply ((round_returns hchain hs.1 (hcommits s hs.2)).and_returns (returns_self _)).mono
    intro step hstep
    rcases hstep with ⟨hpost, hround⟩
    cases step with
    | next following => exact ⟨⟨hpost.1, reach_next hs.2 hround⟩, hpost.2⟩
    | done final => exact hpost (goesBack_computedView session.model)
  · exact ⟨hhead, ReachThrough.start⟩
  · have hcount := hhead.count
    omega

/-- The call returns, with computed rows only, exactly when every round commits. -/
theorem speculative_returns_iff
    (session : SpecSession Row Rec Score) (chain : SamplerChain) (engine : Engine Row Rec)
    (prompt : List TokenId) (start : SpecState Row Rec Score)
    (hchain : SamplerChain.fromParams session.params = .ok chain)
    (hstart : session.prefill engine prompt = .ok start)
    (hcalls : generateStreamSpeculative session engine prompt ≠ .error Engine.overflow) :
    (exists final, generateStreamSpeculative session engine prompt = .ok final ∧
        session.model.computedView.TracksPrefix final.engine (prompt ++ final.generated)) ↔
      forall s, Reach (session.round chain) start s -> session.Commits chain s := by
  have hcall : generateStreamSpeculative session engine prompt =
      loop (session.round chain) (session.params.maxTokens + 1) start := by
    unfold generateStreamSpeculative
    rw [hchain, ok_bind, hstart, ok_bind]
  constructor
  · intro hreturns s hreach
    rcases hreturns with ⟨final, hfinal, _⟩
    rw [hcall] at hfinal
    rcases loop_of_reach hreach hfinal with ⟨rest, hrest⟩
    cases rest with
    | zero => cases hrest
    | succ rest =>
      rcases bind_eq_ok hrest with ⟨step, hround, _⟩
      exact commits_of_round hround
  · intro hcommits
    have hrun := run_returns engine hchain hstart hcommits
    rw [← hcall] at hrun
    cases hresult : generateStreamSpeculative session engine prompt with
    | error fault =>
      rw [hresult] at hrun hcalls
      exact absurd (congrArg Except.error hrun) hcalls
    | ok final =>
      rw [hresult] at hrun
      exact ⟨final, rfl, hrun⟩

end Returns

/-- The target and the draft always go on with token 1; the rounds have no bonus row, and
the callback refuses the text of so many tokens. -/
def noBonusSession (specK refused : Nat) : SpecSession TokenId Nat Nat where
  model := scriptedModel .nemotronHMoE (fun _ => 1)
  params := greedyParams 4 specK
  backend := scriptedBackend
  callback := fun out => out.length != refused
  earlyExit := scriptedExit (fun _ => 1)
  forceBatchVerify := false
  decodeFastWindow := false
  batchNoBonusRequested := true

/-- The callback refuses the only draft of the first round; then no draft is asked for. -/
theorem refused_last_draft_is_an_error :
    generateStreamSpeculative (noBonusSession 1 2) (Engine.fresh (noBonusSession 1 2).model) [0] =
        report "batch argmax verify missing next token" ∧
      generateStreamSpeculative (noBonusSession 0 9) (Engine.fresh (noBonusSession 0 9).model)
          [0] =
        report "batch no-bonus verify missing last draft token" := by
  constructor
  · rfl
  · rfl

theorem speculative_returns_iff_refused :
    exists start, (noBonusSession 1 2).prefill (Engine.fresh (noBonusSession 1 2).model) [0] =
        .ok start ∧
      ((exists final, generateStreamSpeculative (noBonusSession 1 2)
            (Engine.fresh (noBonusSession 1 2).model) [0] = .ok final ∧
          (noBonusSession 1 2).model.computedView.TracksPrefix final.engine
            ([0] ++ final.generated)) ↔
        forall s, Reach ((noBonusSession 1 2).round greedyChain) start s ->
          (noBonusSession 1 2).Commits greedyChain s) := by
  refine ⟨_, rfl, ?_⟩
  apply speculative_returns_iff (noBonusSession 1 2) greedyChain
    (Engine.fresh (noBonusSession 1 2).model) [0] _ rfl rfl
  intro h
  have hfault : Fault.reported "batch argmax verify missing next token" = Engine.overflow :=
    Except.error.inj h
  cases hfault

end SpecSession

end Generate
end RunNBurn
