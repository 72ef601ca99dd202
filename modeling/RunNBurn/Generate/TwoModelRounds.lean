import RunNBurn.Generate.TwoModel

/-!
# Two-model rounds

What one round of the two-model loop preserves, over an arbitrary view of the
target: the target stands behind the prompt and the emitted tokens with their
logits.  The draft engine's rows are carried under a condition `kept`.
-/

namespace RunNBurn
namespace Generate

open Library
open Inference

variable {DraftRow DraftRec Row Rec Score : Type} [LinearOrder Score] [OrderBot Score]

namespace TwoModelSession

/-- The draft engine, which has forwarded all drafts but the last, is cut back behind the
first `i` of them. -/
def DraftCutKeeps (session : TwoModelSession DraftRow DraftRec Row Rec Score)
    (tokens : List TokenId) (first : TokenId) (drafts : List TokenId) (i : Nat) : Prop :=
  i + 1 = drafts.length ∨
    (session.draftModel.Inert ∧
      session.draftModel.KeepsRows (tokens ++ first :: drafts.take i)
        (((first :: drafts).take drafts.length).drop (i + 1)))

structure RoundMeets (session : TwoModelSession DraftRow DraftRec Row Rec Score)
    (chain : SamplerChain) (view : EngineView session.model)
    (kept whole : Prop) (tokens : List TokenId) (first : TokenId)
    (counted : TwoModelState DraftRow DraftRec Row Rec Score)
    (drafts : List TokenId) (allLogits : List (List Score)) : Prop where
  keeps : forall i, session.RejectsAt chain counted drafts allLogits i ->
    CommitKeeps view false tokens (first :: drafts) i
  whole : whole -> forall n, n < drafts.length ->
    session.EndsAfter chain counted drafts allLogits n ->
    CommitKeeps view false tokens (first :: drafts) n
  draft : kept -> exists i, session.RejectsAt chain counted drafts allLogits i ∧
    session.DraftCutKeeps tokens first drafts i

structure Opened (s : TwoModelState DraftRow DraftRec Row Rec Score) (first : TokenId)
    (counted : TwoModelState DraftRow DraftRec Row Rec Score) : Prop where
  target : counted.target = s.target
  draft : counted.draft = s.draft
  generated : counted.generated = s.generated ++ [first]
  remaining : counted.remaining + 1 = s.remaining
  pos : 0 < counted.remaining

def Left (session : TwoModelSession DraftRow DraftRec Row Rec Score)
    (view : EngineView session.model) (prompt : List TokenId)
    (final : TwoModelState DraftRow DraftRec Row Rec Score) : Prop :=
  view.GoesBack -> view.TracksPrefix final.target (prompt ++ final.generated)

/-- The target stands behind the emitted tokens, with their logits. -/
structure Committed (session : TwoModelSession DraftRow DraftRec Row Rec Score)
    (view : EngineView session.model) (prompt : List TokenId)
    (s : TwoModelState DraftRow DraftRec Row Rec Score) : Prop where
  tracks : view.Tracks s.target (prompt ++ s.generated)
  logits : view.Logits (prompt ++ s.generated) s.logits

def Fits (session : TwoModelSession DraftRow DraftRec Row Rec Score)
    (allowed : Fault -> Prop) (prompt : List TokenId) : Prop :=
  (prompt.length + session.params.maxTokens <= session.model.maxSeqLen ∧
    prompt.length + session.params.maxTokens <= session.draftModel.maxSeqLen) ∨
    allowed Engine.overflow

section Rounds

variable {session : TwoModelSession DraftRow DraftRec Row Rec Score} {chain : SamplerChain}
  {view : EngineView session.model} {prompt : List TokenId} {kept whole : Prop}
  {allowed : Fault -> Prop} {drafts : List TokenId} {first : TokenId}
  {s counted : TwoModelState DraftRow DraftRec Row Rec Score}

theorem openRound_opened (chain : SamplerChain) (h : session.Head view prompt kept s) :
    match session.openRound chain s with
    | .ended final => session.Left view prompt final
    | .speculate first counted => Opened s first counted := by
  unfold openRound
  by_cases hspent : s.remaining = 0
  · rw [if_pos hspent]
    exact fun _ => EngineView.tracksPrefix_self h.tracks
  · rw [if_neg hspent]
    dsimp only
    generalize (chain.sample session.backend s.logits s.generated s.drawn).1 = first
    have hfirstEmission := emitFirst_satisfies session.stops session.callback first
      s.generated hspent
    cases hemission : emitFirst session.stops session.callback first s.generated
        s.remaining with
    | ended generated remaining =>
      rw [hemission] at hfirstEmission
      have hprefix : List.IsPrefix s.generated generated := hfirstEmission
      intro _
      apply EngineView.tracksPrefix_of_isPrefix h.tracks
      exact (List.prefix_append_right_inj prompt).mpr hprefix
    | goesOn generated remaining =>
      rw [hemission] at hfirstEmission
      rcases hfirstEmission with ⟨hgenerated, hremaining, hpos⟩
      exact {
        target := rfl
        draft := rfl
        generated := hgenerated
        remaining := hremaining
        pos := hpos }

theorem draftTokens_tracks {engine : Engine DraftRow DraftRec} {k : Nat}
    (draftView : EngineView session.draftModel) (tokens : List TokenId) (lastToken : TokenId)
    (h : draftView.Tracks engine tokens) (hroom : engine.Room allowed session.draftModel k) :
    Triple allowed (draftTokens session.forwardDraft k engine lastToken) (fun result =>
      draftView.Tracks result.1 (tokens ++ (lastToken :: result.2).take k) ∧
        result.2.length = k ∧
        (engine.currentLen <= session.draftModel.maxSeqLen ∨ 0 < k ->
          result.1.currentLen <= session.draftModel.maxSeqLen)) := by
  induction k generalizing engine tokens lastToken with
  | zero =>
    refine triple_ok ⟨?_, rfl, ?_⟩
    · rw [List.take_zero, List.append_nil]
      exact h
    · intro hbounded
      rcases hbounded with hle | hpos
      · exact hle
      · cases hpos
  | succ k ih =>
    have hroomHere : engine.Room allowed session.draftModel 1 :=
      hroom.mono (Nat.succ_le_succ (Nat.zero_le k))
    refine ((EngineView.forwardToken_triple lastToken h hroomHere).and_returns
      (Engine.forwardToken_currentLen_le _ _ _)).bind ?_
    intro stepped hstepped
    rcases hstepped with ⟨⟨htracks, _, _⟩, hbounded⟩
    rw [Nat.add_comm] at hroom
    have hroomNext := hroom.behind (EngineView.Tracks.length_append h htracks)
    refine (ih _ _ htracks hroomNext).bind ?_
    intro final hfinal
    rcases hfinal with ⟨hrows, hlength, hfinalBounded⟩
    refine triple_pure ⟨?_, congrArg Nat.succ hlength, ?_⟩
    · rw [List.append_assoc] at hrows
      exact hrows
    · intro _
      exact hfinalBounded (Or.inl hbounded)

/-- Where the draft engine stands once the rejection at `i` has cut it back. -/
theorem draft_holds_of_rejected {engine : Engine DraftRow DraftRec}
    {tokens : List TokenId} {i : Nat}
    (h : engine.Holds session.draftModel (tokens ++ (first :: drafts).take drafts.length))
    (hi : i < drafts.length) (hlen : engine.currentLen <= session.draftModel.maxSeqLen)
    (hkeeps : session.DraftCutKeeps tokens first drafts i) :
    (engine.setLen session.draftModel.layers
        (min (tokens.length + (1 + i)) session.draftModel.maxSeqLen)).Holds
      session.draftModel (tokens ++ first :: drafts.take i) := by
  have hcurrent := h.currentLen
  rw [List.length_append, List.length_take, List.length_cons,
    Nat.min_eq_left (Nat.le_succ drafts.length)] at hcurrent
  have hle : tokens.length + (1 + i) <= engine.currentLen := by
    rw [hcurrent, Nat.add_comm 1]
    exact Nat.add_le_add_left hi _
  rw [Nat.min_eq_left (Nat.le_trans hle hlen)]
  rcases hkeeps with hlast | ⟨hinert, hrows⟩
  · rw [Nat.add_comm 1, hlast, ← hcurrent, Engine.setLen_currentLen]
    rw [← hlast] at h
    exact h
  · have hsplit : (first :: drafts).take drafts.length =
        (first :: drafts.take i) ++ ((first :: drafts).take drafts.length).drop (i + 1) := by
      have htake : first :: drafts.take i =
          ((first :: drafts).take drafts.length).take (i + 1) := by
        rw [List.take_take, Nat.min_eq_left hi]
        rfl
      rw [htake, List.take_append_drop]
    rw [hsplit, ← List.append_assoc] at h
    have hcut := Engine.holds_setLen hinert hrows h
    rw [List.length_append, List.length_cons, List.length_take,
      Nat.min_eq_left (Nat.le_of_lt hi), Nat.add_comm i] at hcut
    exact hcut

structure Verifying (session : TwoModelSession DraftRow DraftRec Row Rec Score)
    (view : EngineView session.model) (allowed : Fault -> Prop) (prompt : List TokenId)
    (kept : Prop) (s : TwoModelState DraftRow DraftRec Row Rec Score) (first : TokenId)
    (counted : TwoModelState DraftRow DraftRec Row Rec Score) (drafts : List TokenId)
    (draft : Engine DraftRow DraftRec) (forwarded : Engine Row Rec)
    (allLogits : List (List Score)) : Prop where
  base : view.Tracks counted.target (prompt ++ s.generated)
  generated : counted.generated = s.generated ++ [first]
  room : counted.target.Room allowed session.model (drafts.length + 1)
  window : Forwarded view counted.target (prompt ++ s.generated) first drafts
    (first :: drafts) forwarded allLogits
  drafts_le : drafts.length <= counted.remaining
  draftHolds : kept -> draft.Holds session.draftModel
    (prompt ++ s.generated ++ (first :: drafts).take drafts.length)
  draftBounded : 0 < drafts.length -> draft.currentLen <= session.draftModel.maxSeqLen

variable {draft : Engine DraftRow DraftRec}

theorem Verifying.context_eq {forwarded : Engine Row Rec} {allLogits : List (List Score)}
    (h : session.Verifying view allowed prompt kept s first counted drafts draft forwarded
      allLogits) (i : Nat) :
    prompt ++ s.generated ++ first :: drafts.take i =
      prompt ++ (counted.generated ++ drafts.take i) := by
  rw [h.generated, List.append_assoc, List.append_assoc]
  rfl

/-- The plan of this loop never asks for a replay. -/
theorem replays_eq_false (session : TwoModelSession DraftRow DraftRec Row Rec Score) :
    (session.needsSequential && specVerifyMode session.needsSequential false == .batch) =
      false := by
  unfold specVerifyMode
  cases session.needsSequential with
  | false => rfl
  | true => rfl

theorem settle_triple {forwarded : Engine Row Rec} {allLogits : List (List Score)}
    {result : AcceptState Nat Unit} {inv : Nat -> Nat -> Prop} {after : Nat -> Unit -> Nat -> Prop}
    (h : session.Verifying view allowed prompt kept s first counted drafts draft forwarded
      allLogits)
    (hexit : AcceptExit session.stops session.callback
      (session.Judged chain counted drafts allLogits) inv after drafts counted.generated
      counted.remaining result) :
    Triple allowed
      (session.settle drafts.length counted.target.save (first :: drafts) allLogits result
        { counted with target := forwarded, draft := draft })
      (fun settled =>
        (CommitKeeps view false (prompt ++ s.generated) (first :: drafts) result.accepted ->
          session.Committed view prompt settled) ∧
        settled.draft.currentLen <= (prompt ++ result.generated).length ∧
        (kept -> (exists i, session.RejectsAt chain counted drafts allLogits i ∧
            session.DraftCutKeeps (prompt ++ s.generated) first drafts i) ->
          settled.draft.Holds session.draftModel (prompt ++ result.generated)) ∧
        settled.generated = result.generated ∧ settled.remaining = result.remaining ∧
        settled.drawn = result.env) := by
  have hlength : (first :: drafts).length = drafts.length + 1 := rfl
  have hle : 1 + result.accepted <= (first :: drafts).length := by
    rw [hlength, Nat.add_comm]
    exact Nat.succ_le_succ hexit.accepted_le
  have hcontext : prompt ++ s.generated ++ first :: drafts.take result.accepted =
      prompt ++ result.generated := by
    rw [h.context_eq, hexit.generated_eq]
  have hbase : counted.target.save.kvLen = (prompt ++ s.generated).length :=
    view.currentLen h.base
  unfold settle
  refine (commitLogits_triple _ _ h.base h.room h.window hlength hle).bind ?_
  intro committed hcommitted
  rw [hcontext, session.replays_eq_false] at hcommitted
  refine triple_pure ⟨?_, ?_, ?_, rfl, rfl, rfl⟩
  · intro hkeeps
    rcases hcommitted hkeeps with ⟨htracks, hlogits⟩
    exact { tracks := htracks, logits := hlogits }
  · dsimp only
    have hcommittedLen : (prompt ++ s.generated ++ first :: drafts.take result.accepted).length =
        (prompt ++ s.generated).length + (1 + result.accepted) := by
      rw [List.length_append, List.length_cons, List.length_take,
        Nat.min_eq_left hexit.accepted_le, Nat.add_comm result.accepted]
    rw [Engine.currentLen_setLen, ← hcontext, hcommittedLen, hbase]
    exact Nat.min_le_left _ _
  · intro hkept hrejected
    rcases hrejected with ⟨i, ⟨d, target, hdraft, hpassed, hjudged, hne⟩, hkeeps⟩
    have hat := hexit.accepted_of_rejected (fun _ _ _ => sampledAt_unique) h.drafts_le
      hdraft hpassed hjudged hne
    have hi := succ_le_length_of_getElem? hdraft
    rw [← hcontext, hat.1, hbase]
    exact draft_holds_of_rejected (h.draftHolds hkept) hi
      (h.draftBounded (Nat.lt_of_lt_of_le (Nat.succ_pos i) hi)) hkeeps

theorem verifyRound_triple (h : session.Head view prompt kept s)
    (hopen : session.openRound chain s = .speculate first counted)
    (hopened : Opened s first counted)
    (hroom : counted.target.Room allowed session.model (drafts.length + 1))
    (hdrafted : draftTokens session.forwardDraft (min session.params.specK counted.remaining)
      counted.draft first = .ok (draft, drafts)) (hlength : drafts.length <= counted.remaining)
    (hdraft : kept -> draft.Holds session.draftModel
      (prompt ++ s.generated ++ (first :: drafts).take drafts.length))
    (hbounded : 0 < drafts.length -> draft.currentLen <= session.draftModel.maxSeqLen)
    (hmeets : forall allLogits, session.Drafted chain s first counted drafts allLogits ->
      session.RoundMeets chain view kept whole (prompt ++ s.generated) first
        counted drafts allLogits) :
    Triple allowed
      (session.verifyRound chain counted.target.save first drafts
        { counted with
          target := counted.target.restore session.model.layers counted.target.save
          draft := draft })
      (Step.Satisfies (fun following => session.Head view prompt kept following ∧
          following.remaining <= counted.remaining)
        (fun final => view.GoesBack ∨ whole -> session.Committed view prompt final)) := by
  have htracks := h.tracks
  rw [← hopened.target] at htracks
  have hwindow := (forwarded_triple first drafts true htracks hroom).and_returns
    (returns_self _)
  rw [verifyInput_bonus] at hwindow
  unfold verifyRound
  rw [Engine.restore_save]
  dsimp only
  refine hwindow.bind ?_
  intro window hwindow
  rcases window with ⟨forwarded, allLogits⟩
  rcases hwindow with ⟨hforwarded, hcall⟩
  have hround := hmeets allLogits {
    opens := hopen
    drafted := ⟨draft, hdrafted⟩
    forwarded := ⟨forwarded, hcall⟩ }
  have hverifying : session.Verifying view allowed prompt kept s first counted drafts draft
      forwarded allLogits := {
    base := htracks
    generated := hopened.generated
    room := hroom
    window := hforwarded
    drafts_le := hlength
    draftHolds := hdraft
    draftBounded := hbounded }
  dsimp only
  refine (acceptLoop_triple (session.Judged chain counted drafts allLogits)
    (fun drawn i => drawn = drawnAt chain counted.drawn i)
    (fun drawn _ i => drawn = drawnAt chain counted.drawn (i + 1))
    ?_ ?_ hopened.pos (drawnAt_zero chain counted.drawn).symm).bind ?_
  · intro drawn i d hd _ _ hdrawn
    have hi : i < allLogits.length := by
      rw [hforwarded.length]
      exact Nat.lt_of_lt_of_le (succ_le_length_of_getElem? hd) hforwarded.le_length
    exact verifyLogits_triple hi hdrawn
  · intro drawn carry i d _ _ hafter
    exact hafter
  · intro result hexit
    have hcount : result.generated.length + result.remaining = session.params.maxTokens := by
      rw [hexit.count, hopened.generated, List.length_append, Nat.add_assoc]
      show s.generated.length + (1 + counted.remaining) = _
      rw [Nat.add_comm 1, hopened.remaining]
      exact h.count
    have hless : result.remaining <= counted.remaining := by
      rw [← hexit.remaining_eq]
      exact Nat.le_add_right _ _
    refine (settle_triple hverifying hexit).bind ?_
    intro settled hsettled
    rcases hsettled with
      ⟨hcommitted, hdraftLen, hdraftHolds, hgenerated, hremaining, hdrawn⟩
    cases hstopped : result.stopped with
    | true =>
      rw [if_pos rfl]
      refine triple_pure ?_
      intro hkeeps
      apply hcommitted
      rcases hkeeps with hback | hwhole
      · exact CommitKeeps.of_goesBack hback _ _ _ _
      · rcases hexit.accepted_cases hlength with hall | ⟨hshort, hends⟩
        · refine Or.inl ?_
          rw [hall, Nat.add_comm]
          rfl
        · exact hround.whole hwhole _ hshort hends
    | false =>
      rw [if_neg Bool.false_ne_true]
      refine triple_pure ⟨?_, ?_⟩
      · have hkept : session.Committed view prompt settled := by
          apply hcommitted
          have hle : 1 + result.accepted <= drafts.length + 1 := by
            rw [Nat.add_comm]
            exact Nat.succ_le_succ hexit.accepted_le
          rcases hexit.committed_cases hstopped hlength hle (Nat.le_refl _) with
            hall | hinside
          · exact Or.inl hall
          · exact hround.keeps _ hinside.2
        constructor
        · exact hkept.tracks
        · exact hkept.logits
        · rw [hgenerated]
          exact hdraftLen
        · intro hkept
          rw [hgenerated]
          exact hdraftHolds hkept (hround.draft hkept)
        · rw [hgenerated, hremaining]
          exact hcount
      · rw [hremaining]
        exact hless

theorem speculate_triple
    (hfits : session.Fits allowed prompt) (h : session.Head view prompt kept s)
    (hopen : session.openRound chain s = .speculate first counted)
    (hopened : Opened s first counted) (hmeets : forall drafts allLogits,
      session.Drafted chain s first counted drafts allLogits ->
      session.RoundMeets chain view kept whole (prompt ++ s.generated) first
        counted drafts allLogits) :
    Triple allowed (session.speculate chain first counted)
      (Step.Satisfies (fun following => session.Head view prompt kept following ∧
          following.remaining <= counted.remaining)
        (fun final => view.GoesBack ∨ whole -> session.Committed view prompt final)) := by
  have htracks := h.tracks
  rw [← hopened.target] at htracks
  have hspace : (prompt ++ s.generated).length + (counted.remaining + 1) =
      prompt.length + session.params.maxTokens := by
    rw [List.length_append, Nat.add_assoc, hopened.remaining, h.count]
  have hk : min session.params.specK counted.remaining <= counted.remaining :=
    Nat.min_le_right _ _
  have hdraftRoom : counted.draft.Room allowed session.draftModel
      (min session.params.specK counted.remaining) := by
    rcases hfits with hfits | hallowed
    · refine Or.inl (Nat.le_trans ?_ hfits.2)
      rw [← hspace, hopened.draft]
      exact Nat.add_le_add h.draftLen (Nat.le_trans hk (Nat.le_succ _))
    · exact Or.inr hallowed
  have hlengths := draftTokens_tracks session.draftModel.lengthView
    (List.replicate counted.draft.currentLen 0) first List.length_replicate.symm hdraftRoom
  have hrows : Returns (draftTokens session.forwardDraft
      (min session.params.specK counted.remaining) counted.draft first)
      (fun result => kept -> result.1.Holds session.draftModel
        (prompt ++ s.generated ++ (first :: result.2).take
          (min session.params.specK counted.remaining))) := by
    intro result hresult hkept
    have hdraft := h.draft hkept
    rw [← hopened.draft] at hdraft
    have hroomAny : counted.draft.Room (fun _ => True) session.draftModel
        (min session.params.specK counted.remaining) := Or.inr trivial
    have htriple := draftTokens_tracks session.draftModel.exactView
      (prompt ++ s.generated) first hdraft hroomAny
    exact (htriple.returns result hresult).1
  unfold speculate
  dsimp only
  refine ((hlengths.and_returns hrows).and_returns (returns_self _)).bind ?_
  intro result hresult
  rcases result with ⟨draft, drafts⟩
  rcases hresult with ⟨⟨⟨_, hlength, hbounded⟩, hdraft⟩, hdrafted⟩
  dsimp only at hlength hbounded hdraft ⊢
  have hroom : counted.target.Room allowed session.model (drafts.length + 1) := by
    rcases hfits with hfits | hallowed
    · refine Or.inl (Nat.le_trans ?_ hfits.1)
      rw [← hspace, view.currentLen htracks, hlength]
      exact Nat.add_le_add_left (Nat.succ_le_succ hk) _
    · exact Or.inr hallowed
  rw [← hlength] at hdraft hbounded hk
  exact verifyRound_triple h hopen hopened hroom hdrafted hk hdraft
    (fun hpos => hbounded (Or.inr hpos)) (fun allLogits => hmeets drafts allLogits)

theorem round_triple
    (hfits : session.Fits allowed prompt) (h : session.Head view prompt kept s)
    (hmeets : forall first counted drafts allLogits,
      session.Drafted chain s first counted drafts allLogits ->
      session.RoundMeets chain view kept False (prompt ++ s.generated) first
        counted drafts allLogits) :
    Triple allowed (session.round chain s)
      (Step.Satisfies (fun following => session.Head view prompt kept following ∧
          following.remaining < s.remaining)
        (session.Left view prompt)) := by
  have hopening := openRound_opened chain h
  unfold round
  cases hopen : session.openRound chain s with
  | ended final =>
    rw [hopen] at hopening
    exact triple_ok hopening
  | speculate first counted =>
    rw [hopen] at hopening
    apply (speculate_triple hfits h hopen hopening (hmeets first counted)).mono
    intro step hstep
    cases step with
    | next following =>
      refine ⟨hstep.1, Nat.lt_of_le_of_lt hstep.2 ?_⟩
      rw [← hopening.remaining]
      exact Nat.lt_succ_self _
    | done final => exact fun hback => EngineView.tracksPrefix_self (hstep (Or.inl hback)).tracks

theorem prefill_triple
    (view : EngineView session.model) (draft : Engine DraftRow DraftRec) (target : Engine Row Rec)
    (hprompt : prompt ≠ []) (hfits : session.Fits allowed prompt) :
    Triple allowed (session.prefill draft target prompt)
      (session.Head view prompt kept) := by
  have htargetRoom : (target.clearSequenceState session.model).Room allowed session.model
      prompt.length := by
    rcases hfits with hfits | hallowed
    · refine Or.inl (Nat.le_trans ?_ hfits.1)
      rw [view.currentLen (view.clear target), List.length_nil, Nat.zero_add]
      exact Nat.le_add_right _ _
    · exact Or.inr hallowed
  have hdraftRoom : (draft.clearSequenceState session.draftModel).Room allowed
      session.draftModel prompt.length := by
    rcases hfits with hfits | hallowed
    · refine Or.inl (Nat.le_trans ?_ hfits.2)
      show 0 + prompt.length <= _
      rw [Nat.zero_add]
      exact Nat.le_add_right _ _
    · exact Or.inr hallowed
  unfold prefill
  refine (EngineView.forwardPrompt_triple (session.draftModel.exactView.clear draft) hprompt
    hdraftRoom).bind ?_
  intro draftPrefilled hdraft
  refine (EngineView.forwardPrompt_triple (view.clear target) hprompt htargetRoom).bind ?_
  intro prefilled hprefilled
  refine triple_pure ?_
  constructor
  · dsimp only
    rw [List.append_nil]
    exact hprefilled.1
  · dsimp only
    rw [List.append_nil]
    exact hprefilled.2
  · dsimp only
    rw [List.append_nil]
    exact Nat.le_of_eq (session.draftModel.exactView.currentLen hdraft.1)
  · intro _
    dsimp only
    rw [List.append_nil]
    exact hdraft.1
  · exact Nat.zero_add _

theorem run_triple (draft : Engine DraftRow DraftRec) (target : Engine Row Rec)
    (hchain : SamplerChain.fromParams session.params = .ok chain) (hprompt : prompt ≠ [])
    (hfits : session.Fits allowed prompt) (hmeets : forall s first counted drafts allLogits,
      session.Drafted chain s first counted drafts allLogits ->
      session.RoundMeets chain view kept False (prompt ++ s.generated) first
        counted drafts allLogits) :
    Triple allowed (generateStreamTwoModel session draft target prompt)
      (session.Left view prompt) := by
  have hprefill : Triple allowed (session.prefill draft target prompt)
      (session.Head view prompt kept) :=
    prefill_triple view draft target hprompt hfits
  unfold generateStreamTwoModel
  rw [hchain, ok_bind]
  refine hprefill.bind ?_
  intro start hstart
  apply loop_triple (session.Head view prompt kept) _ TwoModelState.remaining _ hstart
  · have hcount := hstart.count
    omega
  · intro s hs
    exact round_triple hfits hs (hmeets s)

end Rounds

end TwoModelSession

end Generate
end RunNBurn
