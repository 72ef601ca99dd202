import Mathlib.Order.Nat
import RunNBurn.Generate.Speculative

/-!
# Speculative rounds

What one round of the early-exit loop preserves, over an arbitrary view of the
engine: the engine stands behind the prompt and the emitted tokens.
-/

namespace RunNBurn
namespace Generate

open Library
open Inference

section SpeculativeRounds

/-!
# Drafting
-/

section Drafting

variable {Row Rec Score : Type}

theorem forwardDecodeDraft_triple
    {allowed : Fault -> Prop} {model : Model Row Rec Score}
    {exit : EarlyExit Row Rec Score} {engine : Engine Row Rec} (token : TokenId)
    (hroom : engine.Room allowed model 1) :
    Triple allowed (forwardDecodeDraft model exit engine token) (fun result =>
      engine.Extends result.1 ∧ result.1.currentLen = engine.currentLen + 1) := by
  unfold forwardDecodeDraft
  split
  · exact triple_ok ⟨Engine.extends_writeRow _ _ _, rfl⟩
  · rename_i hfull
    rcases hroom with hfits | hallowed
    · exact absurd hfits hfull
    · exact triple_error _ hallowed

theorem draftTokens_triple [LinearOrder Score] [OrderBot Score]
    {allowed : Fault -> Prop} {model : Model Row Rec Score}
    {exit : EarlyExit Row Rec Score} {k : Nat} {engine : Engine Row Rec} (lastToken : TokenId)
    (hroom : engine.Room allowed model k) :
    Triple allowed (draftTokens (forwardDecodeDraft model exit) k engine lastToken) (fun result =>
      engine.Extends result.1 ∧ result.2.length = k) := by
  induction k generalizing engine lastToken with
  | zero => exact triple_ok ⟨Engine.extends_refl engine, rfl⟩
  | succ k ih =>
    have hroomHere : engine.Room allowed model 1 :=
      hroom.mono (Nat.succ_le_succ (Nat.zero_le k))
    refine (forwardDecodeDraft_triple lastToken hroomHere).bind ?_
    intro stepped hstepped
    rcases hstepped with ⟨hextends, hlength⟩
    rw [Nat.add_comm] at hroom
    refine (ih _ (hroom.behind hlength)).bind ?_
    intro final hfinal
    exact triple_pure ⟨hextends.trans hfinal.1, congrArg Nat.succ hfinal.2⟩

end Drafting

variable {Row Rec Score : Type} [LinearOrder Score] [OrderBot Score]

/-- The token is the sampler's at position `i` of a window with these logits. -/
def Session.SampledAt (session : Session Row Rec Score) (chain : SamplerChain)
    (allLogits : List (List Score)) (generated drafts : List TokenId) (drawn i : Nat)
    (target : TokenId) : Prop :=
  exists logits, allLogits[i]? = some logits ∧
    target = (chain.sample session.backend logits (generated ++ drafts.take i)
      (drawnAt chain drawn i)).1

variable {chain : SamplerChain}

theorem sampledAt_unique {session : Session Row Rec Score} {allLogits : List (List Score)}
    {generated drafts : List TokenId} {drawn i : Nat} {left right : TokenId}
    (hleft : session.SampledAt chain allLogits generated drafts drawn i left)
    (hright : session.SampledAt chain allLogits generated drafts drawn i right) :
    left = right := by
  rcases hleft with ⟨logits, hlogits, rfl⟩
  rcases hright with ⟨others, hothers, rfl⟩
  rw [hlogits] at hothers
  cases hothers
  rfl

theorem verifyLogits_triple {allowed : Fault -> Prop} {session : Session Row Rec Score}
    {allLogits : List (List Score)} {generated drafts : List TokenId} {start drawn i : Nat}
    (hi : i < allLogits.length) (hdrawn : drawn = drawnAt chain start i) :
    Triple allowed (session.verifyLogits chain allLogits drawn (generated ++ drafts.take i) i)
      (fun verdict =>
        session.SampledAt chain allLogits generated drafts start i verdict.target ∧
          verdict.env = drawnAt chain start (i + 1)) := by
  have hlogits := List.getElem?_eq_getElem hi
  unfold Session.verifyLogits
  rw [index_of_getElem?_eq_some hlogits, ok_bind, hdrawn]
  exact triple_pure ⟨⟨_, hlogits, rfl⟩, sample_snd_eq session.backend chain _ _ start i⟩

namespace SpecSession

/-!
# The head of a round
-/

/-- The target's token at a position, from the logits of its prefix. -/
def TargetAt (session : SpecSession Row Rec Score) (chain : SamplerChain)
    (logits : List Score) (out : List TokenId) (drawn : Nat) (target : TokenId) : Prop :=
  if session.argmaxVerify = true then
    match session.verifyMode with
    | .sequentialIncremental => argmaxTokenExcluding logits session.excluded = some target
    | .batch => target = greedySample logits
  else
    target = (chain.sample session.backend logits out drawn).1

structure Head (session : SpecSession Row Rec Score) (chain : SamplerChain)
    (view : EngineView session.model) (prompt : List TokenId)
    (s : SpecState Row Rec Score) : Prop where
  tracks : view.Tracks s.engine (prompt ++ s.generated)
  count : s.generated.length + s.remaining = session.params.maxTokens

section

variable (session : SpecSession Row Rec Score)

def Left (view : EngineView session.model) (prompt : List TokenId)
    (final : SpecState Row Rec Score) : Prop :=
  view.GoesBack -> view.TracksPrefix final.engine (prompt ++ final.generated)

/-- The token is the target's at position `i` of a verification. -/
def Judged (chain : SamplerChain)
    (view : EngineView session.model) (prompt drafts : List TokenId)
    (s : SpecState Row Rec Score) (i : Nat) (target : TokenId) : Prop :=
  exists logits, view.Logits (prompt ++ (s.generated ++ drafts.take i)) logits ∧
    session.TargetAt chain logits (s.generated ++ drafts.take i)
      (drawnAt chain s.drawn i) target

/-- A difference that the round meets inside its window. -/
def RejectsInside (chain : SamplerChain)
    (view : EngineView session.model) (prompt drafts : List TokenId)
    (windowLen : Nat) (s : SpecState Row Rec Score) (i : Nat) : Prop :=
  i + 1 < windowLen ∧
    Rejects session.stops session.callback (Judged session chain view prompt drafts s)
      drafts s.generated i

end

/-- A verification is about to start: the first token is emitted, its row and the
rows of the drafts are not there. -/
structure Verifying (session : SpecSession Row Rec Score) (chain : SamplerChain)
    (view : EngineView session.model) (prompt : List TokenId)
    (tokens : List TokenId) (first : TokenId) (drafts : List TokenId)
    (s : SpecState Row Rec Score) : Prop where
  tracks : view.Tracks s.engine tokens
  tokens_eq : tokens ++ [first] = prompt ++ s.generated
  count : s.generated.length + s.remaining = session.params.maxTokens
  pos : 0 < s.remaining
  drafts_le : drafts.length <= s.remaining

def Fits (session : SpecSession Row Rec Score) (allowed : Fault -> Prop)
    (prompt : List TokenId) : Prop :=
  prompt.length + session.params.maxTokens <= session.model.maxSeqLen ∨
    allowed Engine.overflow

section Rounds

variable {session : SpecSession Row Rec Score} {chain : SamplerChain}
  {view : EngineView session.model} {prompt : List TokenId}
  {allowed : Fault -> Prop} {tokens drafts : List TokenId} {first : TokenId}
  {s : SpecState Row Rec Score} {engine : Engine Row Rec}

theorem Fits.room {held : List TokenId} {n : Nat} (hfits : session.Fits allowed prompt)
    (htracks : view.Tracks engine held)
    (hle : held.length + n <= prompt.length + session.params.maxTokens) :
    engine.Room allowed session.model n := by
  rcases hfits with hroom | hallowed
  · refine Or.inl ?_
    rw [view.currentLen htracks]
    exact Nat.le_trans hle hroom
  · exact Or.inr hallowed

section

variable (h : Verifying session chain view prompt tokens first drafts s)
include h

theorem Verifying.window_eq (i : Nat) :
    tokens ++ (first :: drafts).take (i + 1) =
      prompt ++ (s.generated ++ drafts.take i) := by
  rw [List.take_succ_cons, ← List.append_assoc, ← h.tokens_eq, List.append_assoc]
  rfl

theorem Verifying.context_eq (i : Nat) :
    tokens ++ first :: drafts.take i = prompt ++ (s.generated ++ drafts.take i) :=
  h.window_eq i

theorem Verifying.length_tokens :
    tokens.length + 1 = prompt.length + s.generated.length := by
  have hlength := congrArg List.length h.tokens_eq
  rw [List.length_append, List.length_append] at hlength
  exact hlength

end

variable {window : List TokenId}

theorem Verifying.room {n : Nat} (h : Verifying session chain view prompt tokens first drafts s)
    (hfits : session.Fits allowed prompt) (htracks : view.Tracks engine (tokens ++ window))
    (hle : window.length + n <= drafts.length + 1) :
    engine.Room allowed session.model n := by
  apply hfits.room htracks
  rw [List.length_append]
  have hlength := h.length_tokens
  have hcount := h.count
  have hdrafts := h.drafts_le
  omega

theorem Verifying.windowRoom
    (h : Verifying session chain view prompt tokens first drafts s)
    (hfits : session.Fits allowed prompt) :
    s.engine.Room allowed session.model (drafts.length + 1) := by
  have htracks := h.tracks
  rw [← List.append_nil tokens] at htracks
  apply h.room hfits htracks
  rw [List.length_nil, Nat.zero_add]

/-!
# The sequential path
-/

variable {i : Nat}

theorem getElem?_verifyInput (first : TokenId) (h : i <= drafts.length) :
    exists token, (first :: drafts)[i]? = some token ∧
      (first :: drafts).take (i + 1) = (first :: drafts).take i ++ [token] := by
  have hlt : i < (first :: drafts).length := Nat.lt_succ_of_le h
  have hget := List.getElem?_eq_getElem hlt
  exact ⟨(first :: drafts)[i], hget, take_succ_of_getElem? hget⟩

theorem verifyStep_room (h : Verifying session chain view prompt tokens first drafts s)
    (hfits : session.Fits allowed prompt) (hi : i <= drafts.length)
    (htracks : view.Tracks engine (tokens ++ (first :: drafts).take i)) :
    engine.Room allowed session.model 1 := by
  apply h.room hfits htracks
  rw [List.length_take]
  exact Nat.succ_le_succ (Nat.le_trans (Nat.min_le_left _ _) hi)

/-- Position `i` has been verified by a decode step. -/
structure SequentialAfter (session : SpecSession Row Rec Score) (chain : SamplerChain)
    (view : EngineView session.model) (prompt tokens : List TokenId) (first : TokenId)
    (drafts : List TokenId) (s : SpecState Row Rec Score)
    (env : VerifyEnv Row Rec) (_carry : NextToken Score) (i : Nat) : Prop where
  tracks : view.Tracks env.engine (tokens ++ (first :: drafts).take (i + 1))
  drawn : env.drawn = drawnAt chain s.drawn (i + 1)

theorem verifySequential_triple {env : VerifyEnv Row Rec}
    (hchain : SamplerChain.fromParams session.params = .ok chain)
    (hfits : session.Fits allowed prompt) (hmode : session.verifyMode = .sequentialIncremental)
    (h : Verifying session chain view prompt tokens first drafts s) (hi : i <= drafts.length)
    (htracks : view.Tracks env.engine (tokens ++ (first :: drafts).take i))
    (hdrawn : env.drawn = drawnAt chain s.drawn i) :
    Triple allowed
      (session.verifySequential chain (first :: drafts) env (s.generated ++ drafts.take i) i)
      (fun verdict => Judged session chain view prompt drafts s i verdict.target ∧
        SequentialAfter session chain view prompt tokens first drafts s verdict.env
          verdict.carry i) := by
  rcases getElem?_verifyInput first hi with ⟨token, htoken, htake⟩
  have hroom := verifyStep_room h hfits hi htracks
  unfold verifySequential
  rw [index_of_getElem?_eq_some htoken, ok_bind]
  cases hargmax : session.argmaxVerify with
  | true =>
    rw [if_pos rfl]
    refine (forwardArgmax_triple token htracks hroom).bind ?_
    intro forwarded hforwarded
    rcases hforwarded with ⟨hnext, _, logits, hlogits, htarget⟩
    rw [List.append_assoc, ← htake] at hnext hlogits
    rw [h.window_eq] at hlogits
    have hgreedy : chain.greedy = true := greedy_of_backendArgmaxAllowed hchain hargmax
    refine triple_pure ⟨⟨logits, hlogits, ?_⟩, SequentialAfter.mk hnext ?_⟩
    · unfold TargetAt
      rw [if_pos hargmax, hmode]
      exact htarget
    · show env.drawn = _
      rw [hdrawn]
      simp [drawnAt, hgreedy]
  | false =>
    rw [if_neg Bool.false_ne_true]
    refine (EngineView.forwardToken_triple token htracks hroom).bind ?_
    intro forwarded hforwarded
    rcases hforwarded with ⟨hnext, _, hlogits⟩
    rw [List.append_assoc, ← htake] at hnext hlogits
    rw [h.window_eq] at hlogits
    have hnot : session.argmaxVerify ≠ true := Bool.eq_false_iff.mp hargmax
    refine triple_pure ⟨⟨forwarded.2, hlogits, ?_⟩, SequentialAfter.mk hnext ?_⟩
    · unfold TargetAt
      rw [if_neg hnot, ← hdrawn]
      rfl
    · rw [hdrawn]
      exact sample_snd_eq session.backend chain forwarded.2 _ _ _

theorem bonusToken_triple (hfits : session.Fits allowed prompt)
    (h : Verifying session chain view prompt tokens first drafts s)
    (htracks : view.Tracks engine (tokens ++ (first :: drafts).take drafts.length)) :
    Triple allowed (session.bonusToken (first :: drafts) drafts.length engine)
      (fun result => view.Tracks result.1 (prompt ++ (s.generated ++ drafts))) := by
  rcases getElem?_verifyInput first (Nat.le_refl drafts.length) with
    ⟨token, htoken, htake⟩
  have hroom := verifyStep_room h hfits (Nat.le_refl _) htracks
  have hwindow := h.window_eq drafts.length
  rw [List.take_length, htake, ← List.append_assoc] at hwindow
  unfold bonusToken
  rw [index_of_getElem?_eq_some htoken, ok_bind]
  split
  · refine (forwardArgmax_triple token htracks hroom).bind ?_
    intro forwarded hforwarded
    rw [← hwindow]
    exact triple_pure hforwarded.1
  · refine (EngineView.forwardToken_triple token htracks hroom).bind ?_
    intro forwarded hforwarded
    rw [← hwindow]
    exact triple_pure hforwarded.1

theorem diagnosticWindow_triple
    (hfits : session.Fits allowed prompt)
    (h : Verifying session chain view prompt tokens first drafts s)
    (hback : session.decodeFastWindow = true -> session.argmaxVerify = true ->
      view.RestoresBack tokens (first :: drafts)) :
    Triple allowed (session.diagnosticWindow s.engine (first :: drafts))
      (fun engine => view.Tracks engine tokens) := by
  unfold diagnosticWindow
  split
  · rename_i hdiagnostic
    rcases Bool.and_eq_true_iff.mp hdiagnostic with ⟨hfast, hargmax⟩
    refine (forwardArgmaxWindow_triple (first :: drafts) h.tracks (h.windowRoom hfits)).bind ?_
    intro forwarded hforwarded
    exact triple_pure (hback hfast hargmax _ _ h.tracks hforwarded.2.1 hforwarded.1)
  · exact triple_ok h.tracks

theorem sequential_cached
    {result : AcceptState (VerifyEnv Row Rec) (NextToken Score)}
    (h : Verifying session chain view prompt tokens first drafts s)
    (hexit : AcceptExit session.stops session.callback (Judged session chain view prompt drafts s)
      (fun env i => view.Tracks env.engine (tokens ++ (first :: drafts).take i) ∧
        env.drawn = drawnAt chain s.drawn i)
      (SequentialAfter session chain view prompt tokens first drafts s)
      drafts s.generated s.remaining result) :
    view.TracksPrefix result.env.engine (prompt ++ result.generated) := by
  have hinitial : forall m, m <= result.accepted + 1 ->
      List.IsPrefix (tokens ++ (first :: drafts).take m) (prompt ++ result.generated) := by
    intro m hm
    rw [hexit.generated_eq, ← h.window_eq]
    exact (List.prefix_append_right_inj tokens).mpr (List.take_prefix_take_left hm)
  cases hexit with
  | stopped _ _ _ _ hafter _ =>
    exact EngineView.tracksPrefix_of_isPrefix hafter.tracks (hinitial _ (Nat.le_refl _))
  | refused _ _ _ _ hafter _ _ =>
    exact EngineView.tracksPrefix_of_isPrefix hafter.tracks (hinitial _ (Nat.le_succ _))
  | spent _ _ _ hafter =>
    exact EngineView.tracksPrefix_of_isPrefix hafter.tracks (hinitial _ (Nat.le_succ _))
  | rejected _ _ _ _ hafter _ =>
    exact EngineView.tracksPrefix_of_isPrefix hafter.tracks (hinitial _ (Nat.le_refl _))
  | exhausted _ _ hinv =>
    exact EngineView.tracksPrefix_of_isPrefix hinv.1 (hinitial _ (Nat.le_succ _))

theorem verifySequentialRound_triple
    (hchain : SamplerChain.fromParams session.params = .ok chain)
    (hfits : session.Fits allowed prompt) (hmode : session.verifyMode = .sequentialIncremental)
    (h : Verifying session chain view prompt tokens first drafts s)
    (hback : session.decodeFastWindow = true -> session.argmaxVerify = true ->
      view.RestoresBack tokens (first :: drafts)) :
    Triple allowed (session.verifySequentialRound chain first drafts s)
      (Step.Satisfies (fun following => Head session chain view prompt following ∧
          following.remaining <= s.remaining)
        (Left session view prompt)) := by
  unfold verifySequentialRound
  dsimp only
  rw [verifyInput_bonus]
  refine (diagnosticWindow_triple hfits h hback).bind ?_
  intro engine hengine
  have hwindow := h.window_eq
  refine (acceptLoop_triple (Judged session chain view prompt drafts s)
    (fun env i => view.Tracks env.engine (tokens ++ (first :: drafts).take i) ∧
      env.drawn = drawnAt chain s.drawn i)
    (SequentialAfter session chain view prompt tokens first drafts s)
    ?_ ?_ h.pos ?_).bind ?_
  · intro env i draft hdraft _ _ hinv
    have hi := Nat.le_of_succ_le (succ_le_length_of_getElem? hdraft)
    exact verifySequential_triple hchain hfits hmode h hi hinv.1 hinv.2
  · intro env carry i draft _ _ hafter
    exact ⟨hafter.tracks, hafter.drawn⟩
  · constructor
    · rw [List.take_zero, List.append_nil]
      exact hengine
    · exact (drawnAt_zero chain s.drawn).symm
  · intro result hexit
    have hcount := hexit.count.trans h.count
    have hcached := sequential_cached h hexit
    have hless : result.remaining <= s.remaining := by
      rw [← hexit.remaining_eq]
      exact Nat.le_add_right _ _
    by_cases hended : result.stopped = true ∨ result.remaining = 0
    · have hnext : session.sequentialNext (first :: drafts) drafts.length result =
          .ok (result.env.engine, result.mismatch) := by
        apply if_neg
        intro hgoes
        rcases hended with hstopped | hspent
        · rw [hgoes.1] at hstopped
          cases hstopped
        · exact Nat.ne_of_gt hgoes.2.1 hspent
      rw [hnext, ok_bind]
      dsimp only
      rw [if_pos hended]
      exact triple_pure (fun _ => hcached)
    · cases hexit with
      | stopped _ _ _ _ _ _ => exact absurd (Or.inl rfl) hended
      | refused _ _ _ _ _ _ _ => exact absurd (Or.inl rfl) hended
      | spent _ _ _ _ => exact absurd (Or.inr rfl) hended
      | @rejected env carry i draft target hdraft hi hpassed hjudged hafter hne =>
        have hshort : i ≠ drafts.length :=
          Nat.ne_of_lt (succ_le_length_of_getElem? hdraft)
        unfold sequentialNext
        rw [if_neg (fun hgoes => hshort hgoes.2.2), ok_bind]
        dsimp only
        rw [if_neg hended]
        refine triple_pure ⟨?_, hless⟩
        constructor
        · have htracks := hafter.tracks
          rw [hwindow] at htracks
          exact htracks
        · exact hcount
      | @exhausted env hlt hpassed hinv =>
        have hgoes : false = false ∧ 0 < s.remaining - drafts.length ∧
            drafts.length = drafts.length :=
          ⟨rfl, Nat.sub_pos_of_lt hlt, rfl⟩
        have hbonus : Triple allowed
            (session.sequentialNext (first :: drafts) drafts.length {
              env := env
              generated := s.generated ++ drafts
              remaining := s.remaining - drafts.length
              accepted := drafts.length
              stopped := false
              mismatch := none })
            (fun settled => view.Tracks settled.1 (prompt ++ (s.generated ++ drafts)) ∧
              exists next, settled.2 = some next) := by
          unfold sequentialNext
          rw [if_pos hgoes]
          refine (bonusToken_triple hfits h hinv.1).bind ?_
          intro bonus hbonus
          exact triple_pure ⟨hbonus, ⟨bonus.2, rfl⟩⟩
        refine hbonus.bind ?_
        intro settled hsettled
        rcases settled with ⟨final, next⟩
        rcases hsettled with ⟨htracks, token, rfl⟩
        dsimp only
        rw [if_neg hended]
        exact triple_pure ⟨Head.mk htracks hcount, hless⟩

/-!
# The batch path with argmax targets
-/

variable {allLogits : List (List Score)} {draft : TokenId}

theorem verifyTargets_triple (hmode : session.verifyMode = .batch)
    (hargmax : session.argmaxVerify = true)
    (h : Verifying session chain view prompt tokens first drafts s)
    (hwindow : Forwarded view s.engine tokens first drafts window engine allLogits)
    (hdraft : drafts[i]? = some draft) :
    Triple allowed
      (verifyTargets (allLogits.map greedySample) () (s.generated ++ drafts.take i) i)
      (fun verdict => Judged session chain view prompt drafts s i verdict.target) := by
  have hi : i < (allLogits.map greedySample).length := by
    rw [List.length_map, hwindow.length]
    exact Nat.lt_of_lt_of_le (succ_le_length_of_getElem? hdraft) hwindow.le_length
  have htarget := List.getElem?_eq_getElem hi
  unfold verifyTargets
  rw [htarget]
  rcases getElem?_map_greedySample htarget with ⟨logits, hlogits, hgreedy⟩
  have hposition := hwindow.logits i logits hlogits
  rw [h.context_eq] at hposition
  refine triple_ok ⟨logits, hposition, ?_⟩
  unfold TargetAt
  rw [if_pos hargmax, hmode]
  exact hgreedy

theorem verifyTargets_returns (targets : List TokenId) (env : Unit) (out : List TokenId) (i : Nat) :
    Returns (verifyTargets targets env out i)
      (fun verdict => targets[i]? = some verdict.target) := by
  unfold verifyTargets
  split
  · rename_i target htarget
    exact returns_ok htarget
  · exact returns_error _ _

theorem commitBatchArgmax_triple {nAccepted : Nat} (hfits : session.Fits allowed prompt)
    (h : Verifying session chain view prompt tokens first drafts s)
    (hinput : window = specBatchVerifyInputTokens first drafts (!session.batchArgmaxNoBonus))
    (hwindow : Forwarded view s.engine tokens first drafts window engine allLogits)
    (hle : 1 + nAccepted <= window.length) :
    Triple allowed
      (session.commitBatchArgmax drafts.length nAccepted s.engine.save window
        (allLogits.map greedySample) engine)
      (fun result => CommitKeeps view session.needsSequential tokens window nAccepted ->
        view.Tracks result.1 (prompt ++ (s.generated ++ drafts.take nAccepted))) := by
  have hcommitted : tokens ++ window.take (1 + nAccepted) =
      prompt ++ (s.generated ++ drafts.take nAccepted) := by
    rw [hwindow.take_window hle, h.context_eq]
  have hmapped : (allLogits.map greedySample).length = window.length := by
    rw [List.length_map, hwindow.length]
  unfold commitBatchArgmax verifyStatePlanAfterSpecRoundWithPrefixSnapshot
  dsimp only
  split
  · rename_i hreplay
    simp only [Bool.and_eq_true, decide_eq_true_eq] at hreplay
    rcases hreplay with ⟨⟨⟨hneeds, -⟩, hshort⟩, hdiffers⟩
    -- a window that is kept whole is not replayed
    have hpartial : 1 + nAccepted ≠ window.length := by
      intro hall
      cases hbonus : session.batchArgmaxNoBonus with
      | false =>
        rw [hinput, length_verifyInput, hbonus, Bool.not_false, if_pos rfl] at hall
        omega
      | true =>
        rw [hbonus, hmapped, beq_iff_eq.mpr hall] at hdiffers
        cases hdiffers
    have hroom : s.engine.Room allowed session.model (1 + nAccepted) :=
      (h.windowRoom hfits).mono (Nat.le_trans hle hwindow.length_le)
    have hpos : 0 < 1 + nAccepted := by
      rw [Nat.add_comm]
      exact Nat.succ_pos _
    apply (replayCommittedVerifyPrefixArgmax_triple (view.currentLen h.tracks) hpos hle hroom).mono
    intro result hresult hkeeps
    rcases hkeeps with hall | hrestores
    · exact absurd hall hpartial
    · rw [if_pos hneeds] at hrestores
      rw [← hcommitted]
      exact hresult (hrestores _ _ h.tracks hwindow.extends_ hwindow.tracks)
  · rename_i hreplay
    have hwhole : session.needsSequential = true -> 1 + nAccepted = window.length := by
      intro hneeds
      by_contra hpartial
      apply hreplay
      have hlt : nAccepted < drafts.length := by
        have hshort := Nat.lt_of_le_of_ne hle hpartial
        rw [Nat.add_comm] at hshort
        exact Nat.lt_of_succ_lt_succ (Nat.lt_of_lt_of_le hshort hwindow.length_le)
      have hnot : (1 + nAccepted == (allLogits.map greedySample).length) = false := by
        rw [hmapped]
        exact beq_false_of_ne hpartial
      rw [hneeds, hnot]
      simp [hlt]
    split
    · rename_i hmissing
      simp only [Bool.and_eq_true] at hmissing
      refine absurd ?_ hreplay
      simp only [Bool.and_eq_true]
      exact And.intro (And.intro ⟨hmissing.1.1, rfl⟩ hmissing.1.2) hmissing.2
    · have hlt : nAccepted < (allLogits.map greedySample).length := by
        rw [hmapped, Nat.lt_iff_add_one_le, Nat.add_comm]
        exact hle
      have htarget := List.getElem?_eq_getElem hlt
      have hindex : 1 + nAccepted - 1 = nAccepted := Nat.add_sub_cancel_left 1 nAccepted
      unfold nextTarget
      rw [hindex, htarget, ok_bind]
      refine triple_pure ?_
      intro hkeeps
      rw [← h.context_eq]
      apply hwindow.tracks_setLen h.tracks hle
      rcases hkeeps with hall | hcuts
      · exact Or.inl hall
      · split at hcuts
        · rename_i hneeds
          exact Or.inl (hwhole hneeds)
        · exact Or.inr hcuts

theorem commitBatchArgmax_past
    (checkpoint : Engine.Checkpoint Rec) (window targets : List TokenId)
    (engine : Engine Row Rec) {k : Nat} (hshort : targets.length <= k) :
    session.commitBatchArgmax k k checkpoint window targets engine =
      report "batch argmax verify missing next token" := by
  have hnone : targets[k]? = none := List.getElem?_eq_none hshort
  unfold commitBatchArgmax verifyStatePlanAfterSpecRoundWithPrefixSnapshot nextTarget
  simp [hnone]
  rfl

/-- All drafts are the target's, and the callback refuses the last one with budget left. -/
structure LastRefused (session : SpecSession Row Rec Score) (targets drafts : List TokenId)
    (s : SpecState Row Rec Score) : Prop where
  agree : targets = drafts
  passes : forall draft, draft ∈ drafts -> session.stops draft = false
  goesOn : forall i, i + 1 < drafts.length ->
    session.callback (s.generated ++ drafts.take (i + 1)) = true
  refuses : session.callback (s.generated ++ drafts) = false
  budget : drafts.length < s.remaining

structure NoBonusFaults (session : SpecSession Row Rec Score) (allowed : Fault -> Prop)
    (first : TokenId) (drafts : List TokenId) (s : SpecState Row Rec Score) : Prop where
  missingDraft : session.batchArgmaxNoBonus = true -> drafts = [] ->
    allowed (.reported "batch no-bonus verify missing last draft token")
  missingNext : session.batchArgmaxNoBonus = true ->
    forall engine allLogits,
      s.engine.forwardWindow session.model (specBatchVerifyInputTokens first drafts false) =
        .ok (engine, allLogits) ->
      LastRefused session (allLogits.map greedySample) drafts s ->
      allowed (.reported "batch argmax verify missing next token")

theorem lastRefused_of_exit {judged : Nat -> TokenId -> Prop} {targets : List TokenId}
    (hlength : targets.length = drafts.length)
    (hjudged : forall i target, judged i target -> targets[i]? = some target)
    (hdraft : drafts[i]? = some draft)
    (hpassed : Passed session.stops session.callback judged drafts s.generated i)
    (hmatch : judged i draft) (hstops : session.stops draft = false)
    (hkeep : session.callback (s.generated ++ drafts.take (i + 1)) = false)
    (hlast : i + 1 = drafts.length) (hbudget : drafts.length < s.remaining) :
    LastRefused session targets drafts s := by
  have hcases : forall j, j < drafts.length -> j < i ∨ j = i := by
    intro j hj
    omega
  constructor
  · apply List.ext_getElem?
    intro j
    by_cases hj : j < drafts.length
    · rcases hcases j hj with hlt | heq
      · have hget := List.getElem?_eq_getElem hj
        rw [hget]
        exact hjudged j _ (hpassed j _ hlt hget).1
      · rw [heq, hdraft]
        exact hjudged i draft hmatch
    · rw [List.getElem?_eq_none (Nat.le_of_not_lt hj),
        List.getElem?_eq_none (hlength ▸ Nat.le_of_not_lt hj)]
  · intro other hother
    rcases List.mem_iff_getElem?.mp hother with ⟨j, hj⟩
    rcases hcases j (List.getElem?_eq_some_iff.mp hj).1 with hlt | heq
    · exact (hpassed j other hlt hj).2.1
    · rw [heq, hdraft] at hj
      cases hj
      exact hstops
  · intro j hj
    have hget := List.getElem?_eq_getElem (Nat.lt_of_succ_lt hj)
    exact (hpassed j _ (by omega) hget).2.2
  · rw [hlast, List.take_length] at hkeep
    exact hkeep
  · exact hbudget

/-- What the round with argmax targets knows behind its accept loop. -/
structure BatchExit (session : SpecSession Row Rec Score) (chain : SamplerChain)
    (view : EngineView session.model) (prompt tokens : List TokenId) (first : TokenId)
    (drafts : List TokenId) (s : SpecState Row Rec Score) (engine : Engine Row Rec)
    (allLogits : List (List Score)) (result : AcceptState Unit Unit) : Prop where
  forwarded : Forwarded view s.engine tokens first drafts
    (specBatchVerifyInputTokens first drafts (!session.batchArgmaxNoBonus)) engine allLogits
  call : s.engine.forwardWindow session.model
    (specBatchVerifyInputTokens first drafts (!session.batchArgmaxNoBonus)) =
      .ok (engine, allLogits)
  exit : AcceptExit session.stops session.callback
    (fun i target => Judged session chain view prompt drafts s i target ∧
      (allLogits.map greedySample)[i]? = some target)
    (fun _ _ => True) (fun _ _ _ => True) drafts s.generated s.remaining result

namespace BatchExit

variable {result : AcceptState Unit Unit}

section

variable (h : BatchExit session chain view prompt tokens first drafts s engine allLogits result)
include h

theorem judged :
    AcceptExit session.stops session.callback (Judged session chain view prompt drafts s)
      (fun _ _ => True) (fun _ _ _ => True) drafts s.generated s.remaining result :=
  h.exit.mono fun _ _ hboth => hboth.1

/-- The window is kept where the round goes on. -/
theorem commitKeeps (hverifying : Verifying session chain view prompt tokens first drafts s)
    (hkeeps : forall i, RejectsInside session chain view prompt drafts
        (specBatchVerifyInputTokens first drafts (!session.batchArgmaxNoBonus)).length s i ->
      CommitKeeps view session.needsSequential tokens
        (specBatchVerifyInputTokens first drafts (!session.batchArgmaxNoBonus)) i)
    (hle : 1 + result.accepted <=
      (specBatchVerifyInputTokens first drafts (!session.batchArgmaxNoBonus)).length)
    (hstopped : result.stopped = false) :
    CommitKeeps view session.needsSequential tokens
      (specBatchVerifyInputTokens first drafts (!session.batchArgmaxNoBonus))
      result.accepted := by
  rcases h.judged.committed_cases hstopped hverifying.drafts_le hle h.forwarded.length_le with
    hall | hinside
  · exact Or.inl hall
  · exact hkeeps _ hinside

/-- Without a bonus row and with the budget spent, the forwarded engine is left as it is. -/
theorem spent (hverifying : Verifying session chain view prompt tokens first drafts s)
    (haccepted : result.accepted = drafts.length)
    {final : SpecState Row Rec Score} (hengine : final.engine = engine)
    (hgenerated : final.generated = result.generated) :
    Left session view prompt final := by
  intro _
  rw [hengine, hgenerated]
  apply EngineView.tracksPrefix_of_isPrefix h.forwarded.tracks
  rw [h.exit.generated_eq, ← hverifying.window_eq, h.forwarded.window_eq, haccepted]
  apply (List.prefix_append_right_inj tokens).mpr
  exact List.take_prefix_take_left h.forwarded.length_le

/-- Without a bonus row, the last of the accepted drafts is forwarded. -/
theorem lastDraft_triple (hfits : session.Fits allowed prompt)
    (hverifying : Verifying session chain view prompt tokens first drafts s)
    (hbonus : session.batchArgmaxNoBonus = true)
    (haccepted : result.accepted = drafts.length) {lastDraft : TokenId}
    (hlast : drafts.getLast? = some lastDraft) :
    Triple allowed (forwardArgmax session.model session.excluded engine lastDraft)
      (fun final => view.Tracks final.1 (prompt ++ result.generated)) := by
  have hforwarded := h.forwarded
  have hall := verifyInput_append_last first hlast
  have hwhole : result.generated = s.generated ++ drafts := by
    rw [h.exit.generated_eq, haccepted, List.take_length]
  rw [hbonus] at hforwarded
  have hroom : engine.Room allowed session.model 1 := by
    apply hverifying.room hfits hforwarded.tracks
    have happended := congrArg List.length hall
    rw [List.length_append] at happended
    exact Nat.le_of_eq happended
  have hwindow := hverifying.window_eq drafts.length
  have htakeAll : (first :: drafts).take (drafts.length + 1) = first :: drafts :=
    List.take_of_length_le (Nat.le_refl _)
  rw [htakeAll, List.take_length] at hwindow
  apply (forwardArgmax_triple lastDraft hforwarded.tracks hroom).mono
  intro final hfinal
  have htracks := hfinal.1
  rw [List.append_assoc, Bool.not_true, hall, hwindow] at htracks
  rw [hwhole]
  exact htracks

/-- Without a bonus row, accepting every draft leaves no row to commit to unless the round
goes on: this is the callback's refusal of the last draft. -/
theorem past_allowed (hbonus : session.batchArgmaxNoBonus = true)
    (haccepted : result.accepted = drafts.length)
    (hunspent : result.remaining ≠ 0) (hstopped : result.stopped = true)
    (hfaults : NoBonusFaults session allowed first drafts s) :
    (allLogits.map greedySample).length <= drafts.length ∧
      allowed (.reported "batch argmax verify missing next token") := by
  have hcall := h.call
  have hforwarded := h.forwarded
  cases h.exit with
  | stopped hdraft _ _ _ _ _ =>
    exact absurd haccepted (Nat.ne_of_lt (succ_le_length_of_getElem? hdraft))
  | @refused env carry i draft hdraft hi hpassed hmatch _ hstops hkeep =>
    have hlength := length_verifyInput first drafts (!session.batchArgmaxNoBonus)
    have hone := succ_le_length_of_getElem? hdraft
    have hwhole : (allLogits.map greedySample).length = drafts.length := by
      rw [List.length_map, hforwarded.length, hlength, hbonus, Bool.not_true,
        if_neg Bool.false_ne_true]
      omega
    have hbudget : drafts.length < s.remaining := by
      dsimp only at haccepted hunspent
      omega
    rw [hbonus] at hcall
    exact ⟨Nat.le_of_eq hwhole, hfaults.missingNext hbonus engine allLogits hcall
      (lastRefused_of_exit hwhole (fun _ _ hboth => hboth.2) hdraft hpassed hmatch
        hstops hkeep haccepted hbudget)⟩
  | spent _ _ _ _ => cases hstopped
  | rejected _ _ _ _ _ _ => cases hstopped
  | exhausted _ _ _ => cases hstopped

end

end BatchExit

theorem acceptLoop_batch_triple (hmode : session.verifyMode = .batch)
    (hargmax : session.argmaxVerify = true)
    (h : Verifying session chain view prompt tokens first drafts s)
    (hforwarded : Forwarded view s.engine tokens first drafts
      (specBatchVerifyInputTokens first drafts (!session.batchArgmaxNoBonus)) engine allLogits)
    (hcall : s.engine.forwardWindow session.model
      (specBatchVerifyInputTokens first drafts (!session.batchArgmaxNoBonus)) =
        .ok (engine, allLogits)) :
    Triple allowed
      (acceptLoop session.stops session.callback (verifyTargets (allLogits.map greedySample))
        drafts (AcceptState.start () s.generated s.remaining))
      (BatchExit session chain view prompt tokens first drafts s engine allLogits) := by
  have hexit : Triple allowed
      (acceptLoop session.stops session.callback (verifyTargets (allLogits.map greedySample))
        drafts (AcceptState.start () s.generated s.remaining))
      (AcceptExit session.stops session.callback
        (fun i target => Judged session chain view prompt drafts s i target ∧
          (allLogits.map greedySample)[i]? = some target)
        (fun _ _ => True) (fun _ _ _ => True) drafts s.generated s.remaining) := by
    apply acceptLoop_triple
    · intro env i draft hdraft _ _ _
      apply ((verifyTargets_triple hmode hargmax h hforwarded hdraft).and_returns
        (verifyTargets_returns _ env _ i)).mono
      intro verdict hverdict
      exact ⟨hverdict, trivial⟩
    · intro env carry i draft _ _ _
      trivial
    · exact h.pos
    · trivial
  apply hexit.mono
  intro result hresult
  exact { forwarded := hforwarded, call := hcall, exit := hresult }

theorem verifyBatchArgmaxRound_triple
    (hfits : session.Fits allowed prompt) (hmode : session.verifyMode = .batch)
    (hargmax : session.argmaxVerify = true)
    (h : Verifying session chain view prompt tokens first drafts s)
    (hkeeps : forall i, RejectsInside session chain view prompt drafts
        (specBatchVerifyInputTokens first drafts (!session.batchArgmaxNoBonus)).length s i ->
      CommitKeeps view session.needsSequential tokens
        (specBatchVerifyInputTokens first drafts (!session.batchArgmaxNoBonus)) i)
    (hfaults : NoBonusFaults session allowed first drafts s) :
    Triple allowed (session.verifyBatchArgmaxRound s.engine.save first drafts s)
      (Step.Satisfies (fun following => Head session chain view prompt following ∧
          following.remaining <= s.remaining)
        (Left session view prompt)) := by
  unfold verifyBatchArgmaxRound
  dsimp only
  refine ((forwarded_triple first drafts (!session.batchArgmaxNoBonus) h.tracks
    (h.windowRoom hfits)).and_returns (returns_self _)).bind ?_
  intro forwarded hforwarded
  rcases hforwarded with ⟨hforwarded, hcall⟩
  rcases forwarded with ⟨engine, allLogits⟩
  refine (acceptLoop_batch_triple hmode hargmax h hforwarded hcall).bind ?_
  intro result hresult
  have hexit := hresult.judged
  have hcount := hexit.count.trans h.count
  have hgenerated := hexit.generated_eq
  have hless : result.remaining <= s.remaining := by
    rw [← hexit.remaining_eq]
    exact Nat.le_add_right _ _
  split
  · rename_i hspent
    exact triple_pure (hresult.spent h hspent.2.1 rfl rfl)
  · rename_i hunspent
    split
    · rename_i hfull
      rcases hfull with ⟨hbonus, haccepted, hstopped⟩
      have hended : ¬ (result.stopped = true ∨ result.remaining = 0) := by
        intro hended
        rcases hended with hyes | hzero
        · rw [hstopped] at hyes
          cases hyes
        · exact hunspent ⟨hbonus, haccepted, hzero⟩
      cases hlast : drafts.getLast? with
      | none =>
        have hempty : drafts = [] := List.getLast?_eq_none_iff.mp hlast
        exact triple_error _ (hfaults.missingDraft hbonus hempty)
      | some lastDraft =>
        refine (hresult.lastDraft_triple hfits h hbonus haccepted hlast).bind ?_
        intro final hfinal
        exact triple_pure ⟨Head.mk hfinal hcount, hless⟩
    · rename_i hnotFull
      by_cases hpast : session.batchArgmaxNoBonus = true ∧ result.accepted = drafts.length
      · rcases hpast with ⟨hbonus, haccepted⟩
        have hstopped : result.stopped = true := by
          by_contra hnot
          exact hnotFull ⟨hbonus, haccepted, Bool.eq_false_iff.mpr hnot⟩
        rcases hresult.past_allowed hbonus haccepted
          (fun hzero => hunspent ⟨hbonus, haccepted, hzero⟩) hstopped
          hfaults with ⟨hshort, hallowed⟩
        rw [haccepted, commitBatchArgmax_past _ _ _ _ hshort]
        exact triple_error _ hallowed
      · have hle : 1 + result.accepted <= (specBatchVerifyInputTokens first drafts
            (!session.batchArgmaxNoBonus)).length := by
          rw [length_verifyInput, Nat.add_comm]
          apply Nat.succ_le_succ
          cases hbonus : session.batchArgmaxNoBonus with
          | false => exact hexit.accepted_le
          | true =>
            have hne : result.accepted ≠ drafts.length :=
              fun heq => hpast ⟨hbonus, heq⟩
            exact Nat.le_sub_one_of_lt (Nat.lt_of_le_of_ne hexit.accepted_le hne)
        refine (commitBatchArgmax_triple hfits h rfl hforwarded hle).bind ?_
        intro committed hcommitted
        rw [← hgenerated] at hcommitted
        split
        · rename_i hended
          exact triple_pure (fun hback => EngineView.tracksPrefix_self
            (hcommitted (CommitKeeps.of_goesBack hback _ _ _ _)))
        · rename_i hended
          have hstopped : result.stopped = false :=
            Bool.eq_false_iff.mpr (fun hyes => hended (Or.inl hyes))
          have hkept := hcommitted (hresult.commitKeeps h hkeeps hle hstopped)
          exact triple_pure ⟨Head.mk hkept hcount, hless⟩

/-!
# The batch path with logits
-/

theorem verifyLogits_judged {i drawn : Nat} (hargmax : session.argmaxVerify = false)
    (h : Verifying session chain view prompt tokens first drafts s)
    (hwindow : Forwarded view s.engine tokens first drafts window engine allLogits)
    (hdraft : drafts[i]? = some draft) (hdrawn : drawn = drawnAt chain s.drawn i) :
    Triple allowed
      (session.verifyLogits chain allLogits drawn (s.generated ++ drafts.take i) i)
      (fun verdict => Judged session chain view prompt drafts s i verdict.target ∧
        verdict.env = drawnAt chain s.drawn (i + 1)) := by
  have hi : i < allLogits.length := by
    rw [hwindow.length]
    exact Nat.lt_of_lt_of_le (succ_le_length_of_getElem? hdraft) hwindow.le_length
  apply (verifyLogits_triple hi hdrawn).mono
  intro verdict hverdict
  rcases hverdict with ⟨⟨logits, hlogits, htarget⟩, henv⟩
  have hposition := hwindow.logits i logits hlogits
  rw [h.context_eq] at hposition
  refine ⟨⟨logits, hposition, ?_⟩, henv⟩
  unfold TargetAt
  rw [if_neg (Bool.eq_false_iff.mp hargmax)]
  exact htarget

theorem verifyBatchLogitsRound_triple
    (hfits : session.Fits allowed prompt) (hargmax : session.argmaxVerify = false)
    (h : Verifying session chain view prompt tokens first drafts s)
    (hkeeps : forall i, RejectsInside session chain view prompt drafts
        (specBatchVerifyInputTokens first drafts true).length s i ->
      CommitKeeps view session.needsSequential tokens
        (specBatchVerifyInputTokens first drafts true) i) :
    Triple allowed (session.verifyBatchLogitsRound chain s.engine.save first drafts s)
      (Step.Satisfies (fun following => Head session chain view prompt following ∧
          following.remaining <= s.remaining)
        (Left session view prompt)) := by
  have hlength : (specBatchVerifyInputTokens first drafts true).length =
      drafts.length + 1 := length_verifyInput first drafts true
  unfold verifyBatchLogitsRound
  dsimp only
  refine (forwarded_triple first drafts true h.tracks (h.windowRoom hfits)).bind ?_
  intro forwarded hforwarded
  rcases forwarded with ⟨engine, allLogits⟩
  refine (acceptLoop_triple (Judged session chain view prompt drafts s)
    (fun drawn i => drawn = drawnAt chain s.drawn i)
    (fun drawn _ i => drawn = drawnAt chain s.drawn (i + 1))
    ?_ ?_ h.pos (drawnAt_zero chain s.drawn).symm).bind ?_
  · intro drawn i draft hdraft _ _ hdrawn
    exact verifyLogits_judged hargmax h hforwarded hdraft hdrawn
  · intro drawn carry i draft _ _ hafter
    exact hafter
  · intro result hexit
    have hcount := hexit.count.trans h.count
    have hgenerated := hexit.generated_eq
    have hless : result.remaining <= s.remaining := by
      rw [← hexit.remaining_eq]
      exact Nat.le_add_right _ _
    have hle : 1 + result.accepted <= (specBatchVerifyInputTokens first drafts true).length := by
      rw [hlength, Nat.add_comm]
      exact Nat.succ_le_succ hexit.accepted_le
    refine (commitLogits_triple session.needsSequential .batch h.tracks (h.windowRoom hfits)
      hforwarded hlength hle).bind ?_
    intro committed hcommitted
    rw [show (session.needsSequential && SpecVerifyMode.batch == .batch) =
      session.needsSequential from Bool.and_true _, h.context_eq, ← hgenerated] at hcommitted
    cases hstopped : result.stopped with
    | true =>
      rw [if_pos rfl]
      exact triple_pure (fun hback => EngineView.tracksPrefix_self
        (hcommitted (CommitKeeps.of_goesBack hback _ _ _ _)).1)
    | false =>
      have hkept : CommitKeeps view session.needsSequential tokens
          (specBatchVerifyInputTokens first drafts true) result.accepted := by
        rcases hexit.committed_cases hstopped h.drafts_le hle (Nat.le_of_eq hlength) with
          hall | hinside
        · exact Or.inl hall
        · exact hkeeps _ hinside
      rw [if_neg Bool.false_ne_true]
      exact triple_pure ⟨Head.mk (hcommitted hkept).1 hcount, hless⟩

/-!
# Whole rounds
-/

/-- What a round may assume of its drafts: they are undone, and where a window is cut,
so is what was cut off. -/
structure Drafts (session : SpecSession Row Rec Score) (chain : SamplerChain)
    (view : EngineView session.model) (prompt : List TokenId)
    (allowed : Fault -> Prop) (tokens : List TokenId) (first : TokenId)
    (drafts : List TokenId) (s : SpecState Row Rec Score) : Prop where
  undone : view.Tracks s.engine tokens
  diagnostic : session.verifyMode = .sequentialIncremental ->
    session.decodeFastWindow = true -> session.argmaxVerify = true ->
      view.RestoresBack tokens (first :: drafts)
  keeps : session.verifyMode = .batch ->
    forall i, RejectsInside session chain view prompt drafts
        (specBatchVerifyInputTokens first drafts (!session.batchArgmaxNoBonus)).length s i ->
      CommitKeeps view session.needsSequential tokens
        (specBatchVerifyInputTokens first drafts (!session.batchArgmaxNoBonus)) i
  faults : NoBonusFaults session allowed first drafts s

structure Opened (s : SpecState Row Rec Score) (first : TokenId)
    (counted : SpecState Row Rec Score) : Prop where
  engine : counted.engine = s.engine
  generated : counted.generated = s.generated ++ [first]
  remaining : counted.remaining + 1 = s.remaining
  pos : 0 < counted.remaining

def OpeningKnown (session : SpecSession Row Rec Score)
    (view : EngineView session.model) (prompt : List TokenId)
    (s : SpecState Row Rec Score) : Opening (SpecState Row Rec Score) -> Prop
  | .ended final => Left session view prompt final
  | .speculate first counted => Opened s first counted

theorem openRound_known
    (h : Head session chain view prompt s) :
    OpeningKnown session view prompt s (session.openRound chain s) := by
  unfold openRound
  by_cases hspent : s.remaining = 0
  · rw [if_pos hspent]
    exact fun _ => EngineView.tracksPrefix_self h.tracks
  · rw [if_neg hspent]
    dsimp only
    generalize (session.firstToken chain s).1 = first
    have hfirstEmission := emitFirst_satisfies session.stops session.callback first
      s.generated hspent
    cases hemission : emitFirst session.stops session.callback first s.generated
        s.remaining with
    | ended generated remaining =>
      rw [hemission] at hfirstEmission
      have hprefix : List.IsPrefix s.generated generated := hfirstEmission
      intro _
      apply EngineView.tracksPrefix_of_isPrefix h.tracks
      exact (List.prefix_append_right_inj prompt).mpr hprefix
    | goesOn generated remaining =>
      rw [hemission] at hfirstEmission
      rcases hfirstEmission with ⟨hgenerated, hremaining, hpos⟩
      exact {
        engine := rfl
        generated := hgenerated
        remaining := hremaining
        pos := hpos }

/-- The drafts of a round, as the code computes them behind its first token. -/
def DraftedBy (session : SpecSession Row Rec Score) (chain : SamplerChain)
    (s : SpecState Row Rec Score) (first : TokenId) (drafts : List TokenId)
    (restored : SpecState Row Rec Score) : Prop :=
  exists counted drafted, session.openRound chain s = .speculate first counted ∧
    draftTokens (forwardDecodeDraft session.model session.earlyExit)
      (min session.params.specK counted.remaining) counted.engine first =
        .ok (drafted, drafts) ∧
    restored = { counted with
      engine := drafted.restore (session.model.layers.take session.earlyExit.maxLayer)
        counted.engine.save }

theorem extends_of_drafted {counted : SpecState Row Rec Score} {drafted : Engine Row Rec}
    {k : Nat} (h : draftTokens (forwardDecodeDraft session.model session.earlyExit) k
      counted.engine first = .ok (drafted, drafts)) :
    counted.engine.Extends drafted := by
  have hroom : counted.engine.Room (fun _ => True) session.model k := Or.inr trivial
  exact ((draftTokens_triple first hroom).returns _ h).1

theorem undone_of_goesBack {restored : SpecState Row Rec Score}
    (h : Head session chain view prompt s) (hback : view.GoesBack)
    (hdrafted : DraftedBy session chain s first drafts restored) :
    view.Tracks restored.engine (prompt ++ s.generated) := by
  rcases hdrafted with ⟨counted, drafted, hopen, hdrafts, rfl⟩
  have hopened := openRound_known h
  rw [hopen] at hopened
  have htracks := h.tracks
  rw [← hopened.engine] at htracks
  exact hback.restores (List.take_subset _ _) htracks (extends_of_drafted hdrafts)

theorem speculate_triple {counted : SpecState Row Rec Score}
    (hchain : SamplerChain.fromParams session.params = .ok chain)
    (hfits : session.Fits allowed prompt) (h : Head session chain view prompt s)
    (hopen : session.openRound chain s = .speculate first counted)
    (hopened : Opened s first counted)
    (hdrafts : forall drafts restored, DraftedBy session chain s first drafts restored ->
      Drafts session chain view prompt allowed (prompt ++ s.generated) first drafts restored) :
    Triple allowed (session.speculate chain first counted)
      (Step.Satisfies (fun following => Head session chain view prompt following ∧
          following.remaining < s.remaining)
        (Left session view prompt)) := by
  have htracks := h.tracks
  rw [← hopened.engine] at htracks
  have hcount : counted.generated.length + counted.remaining = session.params.maxTokens := by
    rw [hopened.generated, List.length_append, Nat.add_assoc]
    show s.generated.length + (1 + counted.remaining) = _
    rw [Nat.add_comm 1, hopened.remaining]
    exact h.count
  have hroom : counted.engine.Room allowed session.model
      (min session.params.specK counted.remaining) := by
    apply hfits.room htracks
    rw [List.length_append, Nat.add_assoc]
    apply Nat.add_le_add_left
    rw [← h.count, ← hopened.remaining]
    apply Nat.add_le_add_left
    exact Nat.le_trans (Nat.min_le_right _ _) (Nat.le_succ _)
  unfold speculate
  dsimp only
  refine ((draftTokens_triple first hroom).and_returns (returns_self _)).bind ?_
  intro result hresult
  rcases result with ⟨drafted, drafts⟩
  rcases hresult with ⟨⟨hextends, hlength⟩, hdrafted⟩
  have hround := hdrafts drafts _ ⟨counted, drafted, hopen, hdrafted, rfl⟩
  have hverifying : Verifying session chain view prompt (prompt ++ s.generated)
      first drafts { counted with
        engine := drafted.restore (session.model.layers.take session.earlyExit.maxLayer)
          counted.engine.save } := {
    tracks := hround.undone
    tokens_eq := by
      rw [List.append_assoc, ← hopened.generated]
    count := hcount
    pos := hopened.pos
    drafts_le := by
      rw [hlength]
      exact Nat.min_le_right _ _ }
  have hless : counted.remaining < s.remaining := by
    rw [← hopened.remaining]
    exact Nat.lt_succ_self _
  have hmono : forall {call : Checked (Step (SpecState Row Rec Score))},
      Triple allowed call (Step.Satisfies
        (fun following => Head session chain view prompt following ∧
          following.remaining <= counted.remaining)
        (Left session view prompt)) ->
      Triple allowed call (Step.Satisfies
        (fun following => Head session chain view prompt following ∧
          following.remaining < s.remaining)
        (Left session view prompt)) := by
    intro call hcall
    apply hcall.mono
    intro step hstep
    cases step with
    | next following => exact ⟨hstep.1, Nat.lt_of_le_of_lt hstep.2 hless⟩
    | done final => exact hstep
  cases hmode : session.verifyMode with
  | sequentialIncremental =>
    exact hmono (verifySequentialRound_triple hchain hfits hmode hverifying
      (hround.diagnostic hmode))
  | batch =>
    have hkeeps := hround.keeps hmode
    cases hargmax : session.argmaxVerify with
    | true =>
      dsimp only
      rw [if_pos rfl]
      exact hmono (verifyBatchArgmaxRound_triple hfits hmode hargmax hverifying
        hkeeps hround.faults)
    | false =>
      have hbonus : session.batchArgmaxNoBonus = false := by
        unfold batchArgmaxNoBonus
        rw [hargmax, Bool.and_false, Bool.false_and]
      rw [hbonus, Bool.not_false] at hkeeps
      dsimp only
      rw [if_neg Bool.false_ne_true]
      exact hmono (verifyBatchLogitsRound_triple hfits hargmax hverifying hkeeps)

theorem round_triple
    (hchain : SamplerChain.fromParams session.params = .ok chain)
    (hfits : session.Fits allowed prompt) (h : Head session chain view prompt s)
    (hdrafts : forall first drafts restored, DraftedBy session chain s first drafts restored ->
      Drafts session chain view prompt allowed (prompt ++ s.generated) first drafts restored) :
    Triple allowed (session.round chain s)
      (Step.Satisfies (fun following => Head session chain view prompt following ∧
          following.remaining < s.remaining)
        (Left session view prompt)) := by
  have hopening := openRound_known h
  unfold round
  cases hopen : session.openRound chain s with
  | ended final =>
    rw [hopen] at hopening
    exact triple_ok hopening
  | speculate first counted =>
    rw [hopen] at hopening
    exact speculate_triple hchain hfits h hopen hopening (hdrafts first)

theorem prefill_triple
    (view : EngineView session.model) (engine : Engine Row Rec) (hprompt : prompt ≠ [])
    (hfits : session.Fits allowed prompt) :
    Triple allowed (session.prefill engine prompt)
      (Head session chain view prompt) := by
  have hclear := view.clear engine
  have hroom : (engine.clearSequenceState session.model).Room allowed session.model
      prompt.length := by
    apply hfits.room hclear
    rw [List.length_nil, Nat.zero_add]
    exact Nat.le_add_right _ _
  unfold prefill
  refine (EngineView.forwardPrompt_triple hclear hprompt hroom).bind ?_
  intro prefilled hprefilled
  refine triple_pure ?_
  constructor
  · dsimp only
    rw [List.append_nil]
    exact hprefilled.1
  · exact Nat.zero_add _

end Rounds

end SpecSession

end SpeculativeRounds

/-!
# Exactness of the early-exit loop

At the head of every round the target stands behind the prompt and the emitted
tokens, unless a rejected draft went into a recurrent state that nothing undoes.
-/

section SpeculativeExactness

/-!
# Scripted models

A model whose favourite next token is a function of the tokens so far, and whose
recurrent state, where the architecture has one, counts the tokens it has seen.
-/

def favour (size : Nat) (token : TokenId) : List Nat :=
  (List.range size).map (fun candidate => if candidate = token then 1 else 0)

def scriptedModel (architecture : Architecture) (script : List TokenId -> TokenId) :
    Model TokenId Nat Nat where
  architecture := architecture
  vocab := { size := 4, eos := 3, eos_lt := by decide, one_lt := by decide }
  maxSeqLen := 16
  layers := [.f16]
  zeroRow := 0
  initRec := 0
  forward := fun rows state token =>
    { row := token
      recState := if architectureHasRecurrentState architecture then state + 1 else state
      logits := favour 4 (script (rows ++ [token])) }
  length_logits := fun _ _ _ => by
    unfold favour
    rw [List.length_map, List.length_range]
  attentionOnly := fun h _ _ _ => by
    rw [h]
    rfl

def scriptedExit (script : List TokenId -> TokenId) : EarlyExit TokenId Nat Nat where
  maxLayer := 1
  forward := fun rows _ state token =>
    { row := token
      recState := state
      logits := favour 4 (script (rows ++ [token])) }

def greedyParams (maxTokens specK : Nat) : GenerateParams where
  maxTokens := maxTokens
  temperature := 0
  repetitionPenalty := 1
  presencePenalty := 0
  frequencyPenalty := 0
  mirostat := false
  stopTokens := []
  ignoreEos := false
  specK := specK

def scriptedBackend : SamplingBackend Nat where
  arithmetic := {
    zero := 0
    times := fun score _ => score
    quotient := fun score _ => score
    minus := fun _ _ _ => 0
    times_bot := fun _ _ => rfl
    minus_bot := fun _ _ => rfl }
  Draw := Nat
  stream := id
  choose := fun _ draw => draw

def greedyChain : SamplerChain where
  repetition := none
  presence := none
  frequency := none
  greedy := true

/-- The target always goes on with token 1, the draft always with token 0. -/
def disagreeingSession (architecture : Architecture) : SpecSession TokenId Nat Nat where
  model := scriptedModel architecture (fun _ => 1)
  params := greedyParams 3 1
  backend := scriptedBackend
  callback := fun _ => true
  earlyExit := scriptedExit (fun _ => 0)
  forceBatchVerify := false
  decodeFastWindow := false
  batchNoBonusRequested := false

variable {Row Rec Score : Type} [LinearOrder Score] [OrderBot Score]

namespace SpecSession

/-- The cuts of a round keep the rows below them, and no rejected draft stays in the
recurrent state: the cut behind the drafts and the one behind the diagnostic window go back
to the round's first row, and so does the replay of a window in which a draft is rejected;
a window that is not replayed is cut behind the accepted drafts, and there is no recurrent
state. -/
structure Undoes (session : SpecSession Row Rec Score) (chain : SamplerChain)
    (prompt : List TokenId) (s : SpecState Row Rec Score) (first : TokenId)
    (drafts : List TokenId) (drafted : Engine Row Rec) (restored : SpecState Row Rec Score) :
    Prop where
  drafting : CutKeeps (session.model.layers.take session.earlyExit.maxLayer) drafted.rows
    (prompt ++ s.generated).length
  diagnostic : session.verifyMode = .sequentialIncremental ->
    session.decodeFastWindow = true -> session.argmaxVerify = true ->
      session.model.KeepsRows (prompt ++ s.generated) (first :: drafts)
  window : session.verifyMode = .batch ->
    forall window i,
      window = specBatchVerifyInputTokens first drafts (!session.batchArgmaxNoBonus) ->
      RejectsInside session chain session.model.exactView prompt drafts window.length restored
        i ->
      if session.needsSequential then session.model.KeepsRows (prompt ++ s.generated) window
      else
        architectureHasRecurrentState session.model.architecture = false ∧
          session.model.KeepsRows (prompt ++ s.generated ++ window.take (1 + i))
            (window.drop (1 + i))

/-- The round that starts from this state undoes what it does not commit. -/
def KeepsState (session : SpecSession Row Rec Score) (chain : SamplerChain)
    (prompt : List TokenId) (s : SpecState Row Rec Score) : Prop :=
  forall first counted drafted drafts,
    session.openRound chain s = .speculate first counted ->
    draftTokens (forwardDecodeDraft session.model session.earlyExit)
      (min session.params.specK counted.remaining) counted.engine first =
        .ok (drafted, drafts) ->
    session.Undoes chain prompt s first drafts drafted
      { counted with
        engine := drafted.restore (session.model.layers.take session.earlyExit.maxLayer)
          counted.engine.save }

theorem KeepsState.drafts
    {session : SpecSession Row Rec Score} {chain : SamplerChain}
    {prompt drafts : List TokenId} {s restored : SpecState Row Rec Score} {first : TokenId}
    (h : session.KeepsState chain prompt s)
    (hhead : Head session chain session.model.exactView prompt s)
    (hdrafted : DraftedBy session chain s first drafts restored) :
    Drafts session chain session.model.exactView prompt (fun _ => True)
      (prompt ++ s.generated) first drafts restored := by
  rcases hdrafted with ⟨counted, drafted, hopen, hdrafts, rfl⟩
  have hundoes := h first counted drafted drafts hopen hdrafts
  have hopened := openRound_known hhead
  rw [hopen] at hopened
  have hholds : counted.engine.Holds session.model (prompt ++ s.generated) := by
    rw [hopened.engine]
    exact hhead.tracks
  constructor
  · apply Engine.holds_restore hholds (extends_of_drafted hdrafts)
    rw [hholds.currentLen]
    exact hundoes.drafting
  · intro hmode hfast hargmax
    exact restoresBack_exactView (hundoes.diagnostic hmode hfast hargmax)
  · intro hmode i hinside
    have hwindow := hundoes.window hmode _ i rfl hinside
    refine Or.inr ?_
    split
    · rename_i hneeds
      rw [if_pos hneeds] at hwindow
      exact restoresBack_exactView hwindow
    · rename_i hneeds
      rw [if_neg hneeds] at hwindow
      exact cutsBack_exactView (inert_of_attentionOnly hwindow.1) hwindow.2
  · exact { missingDraft := fun _ _ => trivial, missingNext := fun _ _ _ _ _ => trivial }

theorem prompt_ne_nil_of_prefill
    {session : SpecSession Row Rec Score} {engine : Engine Row Rec}
    {prompt : List TokenId} {start : SpecState Row Rec Score}
    (h : session.prefill engine prompt = .ok start) :
    prompt ≠ [] := by
  intro hempty
  subst hempty
  cases h

theorem rounds_hold_emitted_tokens
    {session : SpecSession Row Rec Score} {chain : SamplerChain}
    {prompt : List TokenId} {start s : SpecState Row Rec Score} (engine : Engine Row Rec)
    (hchain : SamplerChain.fromParams session.params = .ok chain)
    (hstart : session.prefill engine prompt = .ok start)
    (hreach : ReachThrough (session.KeepsState chain prompt) (session.round chain) start s) :
    s.engine.Holds session.model (prompt ++ s.generated) := by
  have hfits : session.Fits (fun _ => True) prompt := Or.inr trivial
  have hhead : Head session chain session.model.exactView prompt s := by
    apply reach_invariant (Head session chain session.model.exactView prompt) _ _ hreach
    · exact (prefill_triple session.model.exactView engine
        (prompt_ne_nil_of_prefill hstart) hfits).returns start hstart
    · intro before following hbefore hkeeps hround
      have htriple := round_triple hchain hfits hbefore
        (fun _ _ _ hdrafted => hkeeps.drafts hbefore hdrafted)
      exact (htriple.returns _ hround).1
  exact hhead.tracks

theorem rounds_hold_emitted_tokens_qwen35 :
    exists start s : SpecState TokenId Nat Nat,
      (disagreeingSession .qwen35).prefill
          (Engine.fresh (disagreeingSession .qwen35).model) [0] = .ok start ∧
        Reach ((disagreeingSession .qwen35).round greedyChain) start s ∧
        s.generated = [1] ∧
        s.engine.Holds (disagreeingSession .qwen35).model ([0] ++ s.generated) := by
  refine ⟨_, _, rfl, reach_next ReachThrough.start rfl, rfl, ?_⟩
  apply rounds_hold_emitted_tokens (Engine.fresh (disagreeingSession .qwen35).model) rfl rfl
  refine ReachThrough.next ReachThrough.start ?_ rfl
  intro first counted drafted drafts _ _
  constructor
  · exact cutKeeps_of_f16 fun _ h => List.mem_singleton.mp h
  · intro _ hfast
    cases hfast
  · intro hmode
    cases hmode

/-- A hybrid architecture that is not verified sequentially: the first round
rejects its draft, which stays in the recurrent state. -/
theorem rejected_draft_stays_in_recurrent_state :
    architectureHasRecurrentState (disagreeingSession .nemotronHMoE).model.architecture = true ∧
      exists start s : SpecState TokenId Nat Nat,
        (disagreeingSession .nemotronHMoE).prefill
            (Engine.fresh (disagreeingSession .nemotronHMoE).model) [0] = .ok start ∧
          Reach ((disagreeingSession .nemotronHMoE).round greedyChain) start s ∧
          s.generated = [1] ∧
          ¬ s.engine.Holds (disagreeingSession .nemotronHMoE).model ([0] ++ s.generated) := by
  refine ⟨rfl, ⟨_, _, rfl, reach_next ReachThrough.start rfl, rfl, ?_⟩⟩
  intro h
  exact absurd h.recState (by decide)

end SpecSession

end SpeculativeExactness

end Generate
end RunNBurn
