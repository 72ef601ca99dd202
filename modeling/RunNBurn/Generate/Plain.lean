import Mathlib.Order.Nat
import RunNBurn.Generate.Sampling
import RunNBurn.Inference.View
import RunNBurn.Library.Autoregressive
import RunNBurn.Library.Loop

/-!
# The plain loop

`finish_generation` without a constraint: choose, test for a stop, emit, forward.
It is the reference that the speculative loops are compared with.
-/

namespace RunNBurn
namespace Generate

open Library
open Inference

/-- What a generation call works with.  The callback sees the tokens emitted so
far and may refuse to go on. -/
structure Session (Row Rec Score : Type) [LinearOrder Score] [OrderBot Score] where
  model : Model Row Rec Score
  params : GenerateParams
  backend : SamplingBackend Score
  callback : List TokenId -> Bool

section Argmax

variable {Row Rec Score : Type} [LinearOrder Score]

def forwardArgmax (model : Model Row Rec Score) (excluded : Option TokenId)
    (engine : Engine Row Rec) (token : TokenId) : Checked (Engine Row Rec × TokenId) := do
  let (stepped, logits) <- engine.forwardToken model token
  match argmaxTokenExcluding logits excluded with
  | some target => return (stepped, target)
  | none => report "decode argmax has no eligible output token"

theorem forwardArgmax_triple
    {allowed : Fault -> Prop} {model : Model Row Rec Score} {view : EngineView model}
    {engine : Engine Row Rec} {tokens : List TokenId} {excluded : Option TokenId} (token : TokenId)
    (h : view.Tracks engine tokens) (hroom : engine.Room allowed model 1) :
    Triple allowed (forwardArgmax model excluded engine token) (fun result =>
      view.Tracks result.1 (tokens ++ [token]) ∧ engine.Extends result.1 ∧
        exists logits, view.Logits (tokens ++ [token]) logits ∧
          argmaxTokenExcluding logits excluded = some result.2) := by
  unfold forwardArgmax
  refine (EngineView.forwardToken_triple token h hroom).bind ?_
  intro stepped hstepped
  rcases hstepped with ⟨htracks, hextends, hlogits⟩
  rcases stepped with ⟨final, logits⟩
  have hlength : 1 < logits.length := by
    rw [view.length_logits hlogits]
    exact model.vocab.one_lt
  rcases exists_argmaxTokenExcluding excluded hlength with ⟨target, htarget⟩
  dsimp only
  rw [htarget]
  exact triple_pure ⟨htracks, hextends, ⟨logits, hlogits, htarget⟩⟩

end Argmax

section Plain

variable {Row Rec Score : Type} [LinearOrder Score] [OrderBot Score]

namespace Session

def eos (session : Session Row Rec Score) : TokenId :=
  session.model.vocab.eos

def shouldStop (session : Session Row Rec Score) (token : TokenId) : Bool :=
  session.params.shouldStop token session.eos

def excluded (session : Session Row Rec Score) : Option TokenId :=
  session.params.excludedToken session.eos

end Session

structure PlainState (Row Rec Score : Type) where
  engine : Engine Row Rec
  logits : List Score
  backendArgmax : Option TokenId
  generated : List TokenId
  remaining : Nat
  drawn : Nat

section

variable (session : Session Row Rec Score) (chain : SamplerChain)

def plainToken (s : PlainState Row Rec Score) : Checked (TokenId × PlainState Row Rec Score) :=
  match s.backendArgmax.filter
      (fun token => !session.params.ignoreEos || token != session.eos) with
  | some token => .ok (token, s)
  | none => do
      let logits <- suppressEosLogit session.params s.logits session.eos
      let (token, drawn) := chain.sample session.backend logits s.generated s.drawn
      return (token, { s with logits := logits, drawn := drawn })

def plainRound (s : PlainState Row Rec Score) : Checked (Step (PlainState Row Rec Score)) :=
  if s.remaining = 0 then
    .ok (.done s)
  else do
    let (token, chosen) <- plainToken session chain s
    if session.shouldStop token then
      return .done chosen
    else
      let emitted := {
        chosen with
        generated := s.generated ++ [token]
        remaining := s.remaining - 1 }
      if session.callback emitted.generated = false then
        return .done emitted
      else if session.params.backendArgmaxAllowed then do
        let (engine, target) <-
          forwardArgmax session.model session.excluded emitted.engine token
        return .next {
          emitted with
          engine := engine
          logits := []
          backendArgmax := some target }
      else do
        let (engine, logits) <- emitted.engine.forwardToken session.model token
        return .next {
          emitted with
          engine := engine
          logits := logits
          backendArgmax := none }

def finishGeneration (engine : Engine Row Rec) (logits : List Score) :
    Checked (PlainState Row Rec Score) :=
  loop (plainRound session chain) (session.params.maxTokens + 1) {
    engine := engine
    logits := logits
    backendArgmax := none
    generated := []
    remaining := session.params.maxTokens
    drawn := 0 }

end

def generateStreamPlain (session : Session Row Rec Score) (engine : Engine Row Rec)
    (prompt : List TokenId) : Checked (PlainState Row Rec Score) := do
  let chain <- SamplerChain.fromParams session.params
  let (prefilled, logits) <-
    (engine.clearSequenceState session.model).forwardPrompt session.model prompt
  finishGeneration session chain prefilled logits

/-!
# The plain decoder

The choice after a prefix: the argmax with the ignored EOS excluded where the
engine returns it, otherwise the sampler on the suppressed logits.
-/

section

variable (session : Session Row Rec Score) (chain : SamplerChain)

def plainChoice (prompt out : List TokenId) : TokenId :=
  let logits := session.model.logitsAfter (prompt ++ out)
  if session.params.backendArgmaxAllowed = true ∧ out ≠ [] then
    (argmaxTokenExcluding logits session.excluded).getD 0
  else
    (chain.sample session.backend (suppressed session.params logits session.eos) out out.length).1

def plainDecoder (prompt : List TokenId) : Decoder TokenId where
  choose := plainChoice session chain prompt
  stops := session.shouldStop
  keepGoing := session.callback

def plainTokens (prompt : List TokenId) : List TokenId :=
  (plainDecoder session chain prompt).emit session.params.maxTokens []

end

/-!
# The loop is the decoder
-/

/-- One draw for each token, unless the sampler is greedy and draws nothing. -/
def DrawsCount (chain : SamplerChain) (drawn : Nat) (generated : List TokenId) : Prop :=
  chain.greedy = true ∨ drawn = generated.length

variable {chain : SamplerChain}

theorem sample_fst_of_drawsCount {drawn : Nat} {generated : List TokenId}
    (backend : SamplingBackend Score) (logits : List Score) (context : List TokenId)
    (h : DrawsCount chain drawn generated) :
    (chain.sample backend logits context drawn).1 =
      (chain.sample backend logits context generated.length).1 := by
  unfold SamplerChain.sample
  rcases h with hgreedy | hdrawn
  · simp [hgreedy]
  · rw [hdrawn]

theorem drawsCount_sample {drawn : Nat} {generated : List TokenId}
    (backend : SamplingBackend Score) (logits : List Score) (context : List TokenId)
    (token : TokenId) (h : DrawsCount chain drawn generated) :
    DrawsCount chain (chain.sample backend logits context drawn).2 (generated ++ [token]) := by
  unfold SamplerChain.sample
  rcases h with hgreedy | hdrawn
  · exact Or.inl hgreedy
  · cases hgreedy : chain.greedy with
    | true => exact Or.inl hgreedy
    | false =>
      refine Or.inr ?_
      rw [hdrawn, List.length_append]
      rfl

theorem greedy_of_backendArgmaxAllowed {params : GenerateParams}
    (hchain : SamplerChain.fromParams params = .ok chain) (h : params.backendArgmaxAllowed = true) :
    chain.greedy = true := by
  unfold SamplerChain.fromParams at hchain
  rcases bind_eq_ok hchain with ⟨repetition, _, hrest⟩
  cases hrest
  unfold GenerateParams.backendArgmaxAllowed at h
  simp only [Bool.and_eq_true] at h
  exact h.1.1.1.1

structure PlainHead (session : Session Row Rec Score) (chain : SamplerChain)
    (view : EngineView session.model) (prompt goal : List TokenId)
    (allowed : Fault -> Prop) (s : PlainState Row Rec Score) : Prop where
  tracks : view.Tracks s.engine (prompt ++ s.generated)
  draws : DrawsCount chain s.drawn s.generated
  choice :
    (s.backendArgmax = none ∧ view.Logits (prompt ++ s.generated) s.logits ∧
      ¬ (session.params.backendArgmaxAllowed = true ∧ s.generated ≠ [])) ∨
    exists target logits, s.backendArgmax = some target ∧
      session.params.backendArgmaxAllowed = true ∧ s.generated ≠ [] ∧
      view.Logits (prompt ++ s.generated) logits ∧
      argmaxTokenExcluding logits session.excluded = some target
  room : s.engine.Room allowed session.model s.remaining
  emits : view.Exact ->
    (plainDecoder session chain prompt).emit s.remaining s.generated = goal

theorem filter_backendArgmax
    (session : Session Row Rec Score) {logits : List Score} {target : TokenId}
    (h : argmaxTokenExcluding logits session.excluded = some target) :
    (some target).filter
        (fun token => !session.params.ignoreEos || token != session.eos) =
      some target := by
  have hne := argmaxTokenExcluding_ne h
  unfold Session.excluded GenerateParams.excludedToken at hne
  cases hignore : session.params.ignoreEos with
  | false => rfl
  | true =>
    rw [hignore, if_pos rfl] at hne
    have htarget : target ≠ session.eos := fun heq => hne (congrArg some heq)
    simp [htarget]

section Rounds

variable {allowed : Fault -> Prop} {session : Session Row Rec Score}
  {chain : SamplerChain} {view : EngineView session.model}
  {prompt goal : List TokenId} {s : PlainState Row Rec Score}

theorem plainToken_triple
    (hchain : SamplerChain.fromParams session.params = .ok chain)
    (h : PlainHead session chain view prompt goal allowed s) :
    Triple allowed (plainToken session chain s) (fun result =>
      (view.Exact -> result.1 = plainChoice session chain prompt s.generated) ∧
        result.2.engine = s.engine ∧ result.2.generated = s.generated ∧
        DrawsCount chain result.2.drawn (s.generated ++ [result.1])) := by
  unfold plainToken
  rcases h.choice with
    ⟨hnone, hlogits, hnot⟩ | ⟨target, logits, htarget, hallowed, hpast, hlogits, hargmax⟩
  · have hlength : session.eos < s.logits.length := by
      rw [view.length_logits hlogits]
      exact session.model.vocab.eos_lt
    rw [hnone]
    dsimp only [Option.filter]
    rw [suppressEosLogit_of_lt _ hlength, ok_bind]
    refine triple_pure ⟨?_, rfl, rfl, ?_⟩
    · intro hexact
      dsimp only
      unfold plainChoice
      rw [if_neg hnot, sample_fst_of_drawsCount _ _ _ h.draws, hexact hlogits]
    · exact drawsCount_sample _ _ _ _ h.draws
  · rw [htarget, filter_backendArgmax session hargmax]
    refine triple_ok ⟨?_, rfl, rfl, ?_⟩
    · intro hexact
      unfold plainChoice
      rw [if_pos ⟨hallowed, hpast⟩, ← hexact hlogits, hargmax]
      rfl
    · exact Or.inl (greedy_of_backendArgmaxAllowed hchain hallowed)

theorem plainRound_triple
    (hchain : SamplerChain.fromParams session.params = .ok chain)
    (h : PlainHead session chain view prompt goal allowed s) :
    Triple allowed (plainRound session chain s)
      (Step.Satisfies (fun following => PlainHead session chain view prompt goal allowed following ∧
          following.remaining < s.remaining)
        (fun final => (view.Exact -> final.generated = goal) ∧
          view.TracksPrefix final.engine (prompt ++ final.generated))) := by
  have hemits := h.emits
  have hcached := EngineView.tracksPrefix_self h.tracks
  unfold plainRound
  by_cases hspent : s.remaining = 0
  · rw [if_pos hspent]
    rw [hspent] at hemits
    exact triple_ok ⟨hemits, hcached⟩
  · rw [if_neg hspent]
    have hbudget : s.remaining = s.remaining - 1 + 1 :=
      (Nat.sub_add_cancel (Nat.pos_of_ne_zero hspent)).symm
    rw [hbudget] at hemits
    refine (plainToken_triple hchain h).bind ?_
    intro result hresult
    rcases result with ⟨token, chosen⟩
    rcases hresult with ⟨htoken, hengine, hgenerated, hdraws⟩
    dsimp only at htoken hengine hgenerated hdraws ⊢
    have hagree : view.Exact -> (plainDecoder session chain prompt).Agrees
        session.shouldStop s.generated token := by
      intro hexact
      rw [htoken hexact]
      exact Decoder.agrees_choose (plainDecoder session chain prompt) s.generated
    cases hstops : session.shouldStop token with
    | true =>
      rw [if_pos rfl]
      refine triple_pure ⟨?_, ?_⟩
      · intro hexact
        rw [← hemits hexact, hgenerated]
        exact ((hagree hexact).emit_of_stops _ hstops).symm
      · rw [hgenerated, hengine]
        exact hcached
    | false =>
      rw [if_neg Bool.false_ne_true]
      cases hkeep : session.callback (s.generated ++ [token]) with
      | false =>
        rw [if_pos rfl]
        refine triple_pure ⟨?_, ?_⟩
        · intro hexact
          rw [← hemits hexact]
          exact ((hagree hexact).emit_of_refused _ hstops hkeep).symm
        · dsimp only
          rw [hengine, ← List.append_assoc]
          exact EngineView.tracksPrefix_of_isPrefix h.tracks (List.prefix_append _ _)
      | true =>
        rw [if_neg Bool.false_ne_true.symm]
        have hemitsNext : view.Exact -> (plainDecoder session chain prompt).emit
            (s.remaining - 1) (s.generated ++ [token]) = goal := by
          intro hexact
          rw [← hemits hexact]
          exact ((hagree hexact).emit_of_pushed _ hstops hkeep).symm
        have hroom : s.engine.Room allowed session.model (1 + (s.remaining - 1)) := by
          rw [Nat.add_comm, ← hbudget]
          exact h.room
        have hroomHere : s.engine.Room allowed session.model 1 :=
          hroom.mono (Nat.le_add_right _ _)
        have hless : s.remaining - 1 < s.remaining :=
          Nat.sub_lt (Nat.pos_of_ne_zero hspent) Nat.one_pos
        rw [hengine]
        cases hargmax : session.params.backendArgmaxAllowed with
        | true =>
          rw [if_pos rfl]
          refine (forwardArgmax_triple token h.tracks hroomHere).bind ?_
          intro forwarded hforwarded
          rcases hforwarded with ⟨htracks, _, logits, hlogits, htarget⟩
          have hroomNext :=
            hroom.behind (EngineView.Tracks.length_append h.tracks htracks)
          rw [List.append_assoc] at htracks hlogits
          refine triple_pure ⟨?_, hless⟩
          constructor
          · exact htracks
          · exact hdraws
          · refine Or.inr ⟨forwarded.2, logits, rfl, hargmax, ?_, hlogits, htarget⟩
            exact List.append_ne_nil_of_right_ne_nil _ (List.cons_ne_nil _ _)
          · exact hroomNext
          · exact hemitsNext
        | false =>
          rw [if_neg Bool.false_ne_true]
          refine (EngineView.forwardToken_triple token h.tracks hroomHere).bind ?_
          intro forwarded hforwarded
          rcases hforwarded with ⟨htracks, _, hlogits⟩
          have hroomNext :=
            hroom.behind (EngineView.Tracks.length_append h.tracks htracks)
          rw [List.append_assoc] at htracks hlogits
          refine triple_pure ⟨?_, hless⟩
          constructor
          · exact htracks
          · exact hdraws
          · refine Or.inl ⟨rfl, hlogits, ?_⟩
            intro hboth
            rw [hargmax] at hboth
            exact Bool.false_ne_true hboth.1
          · exact hroomNext
          · exact hemitsNext

theorem finishGeneration_triple
    {engine : Engine Row Rec} {logits : List Score}
    (hchain : SamplerChain.fromParams session.params = .ok chain)
    (htracks : view.Tracks engine prompt) (hlogits : view.Logits prompt logits)
    (hroom : engine.Room allowed session.model session.params.maxTokens) :
    Triple allowed (finishGeneration session chain engine logits)
      (fun final => (view.Exact -> final.generated = plainTokens session chain prompt) ∧
        view.TracksPrefix final.engine (prompt ++ final.generated)) := by
  apply loop_triple (PlainHead session chain view prompt (plainTokens session chain prompt) allowed)
    _ (fun s => s.remaining)
  · intro s hs
    exact plainRound_triple hchain hs
  · constructor
    · rw [List.append_nil]
      exact htracks
    · exact Or.inr rfl
    · refine Or.inl ⟨rfl, ?_, ?_⟩
      · rw [List.append_nil]
        exact hlogits
      · intro hboth
        exact hboth.2 rfl
    · exact hroom
    · intro _
      rfl
  · exact Nat.lt_succ_self _

theorem generateStreamPlain_triple
    (hchain : SamplerChain.fromParams session.params = .ok chain) (view : EngineView session.model)
    (engine : Engine Row Rec) (hprompt : prompt ≠ [])
    (hroom : prompt.length + session.params.maxTokens <= session.model.maxSeqLen ∨
      allowed Engine.overflow) :
    Triple allowed (generateStreamPlain session engine prompt)
      (fun final => (view.Exact -> final.generated = plainTokens session chain prompt) ∧
        view.TracksPrefix final.engine (prompt ++ final.generated)) := by
  have hclear := view.clear engine
  have hroomClear : (engine.clearSequenceState session.model).Room allowed session.model
      (prompt.length + session.params.maxTokens) := by
    rcases hroom with hfits | hallowed
    · refine Or.inl ?_
      rw [view.currentLen hclear, List.length_nil, Nat.zero_add]
      exact hfits
    · exact Or.inr hallowed
  unfold generateStreamPlain
  rw [hchain, ok_bind]
  refine (EngineView.forwardPrompt_triple hclear hprompt
    (hroomClear.mono (Nat.le_add_right _ _))).bind ?_
  intro prefilled hprefilled
  rcases hprefilled with ⟨htracks, hlogits⟩
  have hlength : prefilled.1.currentLen =
      (engine.clearSequenceState session.model).currentLen + prompt.length := by
    rw [view.currentLen htracks, view.currentLen hclear, List.length_nil, Nat.zero_add]
  exact finishGeneration_triple hchain htracks hlogits (hroomClear.behind hlength)

theorem generateStreamPlain_exactView (engine : Engine Row Rec)
    (hchain : SamplerChain.fromParams session.params = .ok chain) (hprompt : prompt ≠ []) :
    Triple (fun fault => fault = Engine.overflow ∧
        session.model.maxSeqLen < prompt.length + session.params.maxTokens)
      (generateStreamPlain session engine prompt) (fun final =>
        final.generated = plainTokens session chain prompt ∧
          session.model.exactView.TracksPrefix final.engine (prompt ++ final.generated)) := by
  have hroom := (Nat.lt_or_ge session.model.maxSeqLen
    (prompt.length + session.params.maxTokens)).symm
  refine (generateStreamPlain_triple hchain session.model.exactView engine hprompt
    (hroom.imp id (fun hless => ⟨rfl, hless⟩))).mono ?_
  intro final hfinal
  exact ⟨hfinal.1 (exact_exactView session.model), hfinal.2⟩

/-- The plain loop fails for want of room only.  Every token it returns is the choice after
the prompt and the tokens before it, no stop token and no token after a refusal is
returned, it ends for one of three reasons only, and the cache holds what the model computes
for a prefix of the prompt and the tokens. -/
theorem generateStreamPlain_exact (engine : Engine Row Rec)
    (hchain : SamplerChain.fromParams session.params = .ok chain) (hprompt : prompt ≠ []) :
    Triple (fun fault => fault = Engine.overflow ∧
        session.model.maxSeqLen < prompt.length + session.params.maxTokens)
      (generateStreamPlain session engine prompt) (fun final =>
        final.generated.length <= session.params.maxTokens ∧
          (forall front token back, final.generated = front ++ token :: back ->
            token = plainChoice session chain prompt front ∧
              session.shouldStop token = false ∧
              (back ≠ [] -> session.callback (front ++ [token]) = true)) ∧
          (final.generated.length = session.params.maxTokens ∨
            session.shouldStop (plainChoice session chain prompt final.generated) = true ∨
            (final.generated ≠ [] ∧ session.callback final.generated = false)) ∧
          exists n, n <= (prompt ++ final.generated).length ∧
            final.engine.Holds session.model ((prompt ++ final.generated).take n)) := by
  refine (generateStreamPlain_exactView engine hchain hprompt).mono ?_
  intro final hfinal
  rcases Decoder.emit_spec (plainDecoder session chain prompt) session.params.maxTokens [] with
    ⟨more, hemit, hlength, hall, hends⟩
  have hgenerated : final.generated = more :=
    hfinal.1.trans (hemit.trans (List.nil_append more))
  rw [hgenerated]
  rw [hgenerated] at hfinal
  exact ⟨hlength, hall, hends, hfinal.2⟩

/-!
# The argmax of the backend
-/

def sampledChoice (session : Session Row Rec Score) (chain : SamplerChain)
    (prompt out : List TokenId) : TokenId :=
  (chain.sample session.backend
    (suppressed session.params (session.model.logitsAfter (prompt ++ out)) session.eos)
    out out.length).1

theorem sample_of_backendArgmaxAllowed
    (hchain : SamplerChain.fromParams session.params = .ok chain)
    (hallowed : session.params.backendArgmaxAllowed = true)
    (logits : List Score) (context : List TokenId) (drawn : Nat) :
    (chain.sample session.backend logits context drawn).1 = greedySample logits := by
  have hgreedy := greedy_of_backendArgmaxAllowed hchain hallowed
  unfold GenerateParams.backendArgmaxAllowed at hallowed
  simp only [Bool.and_eq_true, beq_iff_eq] at hallowed
  rcases hallowed with ⟨⟨⟨⟨-, hrepetition⟩, hpresence⟩, hfrequency⟩, -⟩
  unfold SamplerChain.fromParams SamplerChain.repetitionOf at hchain
  rw [if_pos hrepetition, if_pos hpresence, if_pos hfrequency] at hchain
  cases hchain
  unfold SamplerChain.sample
  rw [if_pos hgreedy]
  rfl

theorem plainChoice_eq_sampled
    {out : List TokenId} (hchain : SamplerChain.fromParams session.params = .ok chain)
    (hopen : session.params.backendArgmaxAllowed = true -> out ≠ [] ->
      session.params.ignoreEos = true ->
      ¬ LeavesOnlyEos (session.model.logitsAfter (prompt ++ out)) session.eos) :
    plainChoice session chain prompt out = sampledChoice session chain prompt out := by
  unfold plainChoice sampledChoice
  dsimp only
  split
  · rename_i hroute
    rcases hroute with ⟨hallowed, hout⟩
    have hlength := session.model.length_logitsAfter
      (List.append_ne_nil_of_right_ne_nil prompt hout)
    have heos : session.eos < (session.model.logitsAfter (prompt ++ out)).length :=
      session.model.vocab.eos_lt.trans_eq hlength.symm
    rw [sample_of_backendArgmaxAllowed hchain hallowed]
    unfold Session.excluded GenerateParams.excludedToken suppressed
    cases hignore : session.params.ignoreEos with
    | true =>
      rw [if_pos rfl, if_pos rfl, argmaxTokenExcluding_eq heos (hopen hallowed hout hignore)]
      rfl
    | false =>
      rw [if_neg Bool.false_ne_true, if_neg Bool.false_ne_true, argmaxTokenExcluding_of_ne
        (List.ne_nil_of_length_pos (Nat.zero_lt_of_lt heos)) (Option.some_ne_none _)]
      rfl
  · rfl

/-- A backend that returns the argmax only gives the tokens that sampling the logits gives,
up to a prefix after which nothing but the ignored EOS, the last token of the vocabulary,
is above negative infinity. -/
theorem generateStreamPlain_argmax (engine : Engine Row Rec)
    (hchain : SamplerChain.fromParams session.params = .ok chain) (hprompt : prompt ≠ []) :
    Triple (fun fault => fault = Engine.overflow ∧
        session.model.maxSeqLen < prompt.length + session.params.maxTokens)
      (generateStreamPlain session engine prompt) (fun final =>
        final.generated = { plainDecoder session chain prompt with
          choose := sampledChoice session chain prompt }.emit session.params.maxTokens [] ∨
        exists out, out <+: final.generated ∧ out ≠ [] ∧
          session.params.backendArgmaxAllowed = true ∧ session.params.ignoreEos = true ∧
          LeavesOnlyEos (session.model.logitsAfter (prompt ++ out)) session.eos) := by
  refine (generateStreamPlain_exactView engine hchain hprompt).mono ?_
  intro final hfinal
  rw [hfinal.1]
  refine (Decoder.emit_eq_or_differs (plainDecoder session chain prompt)
    (sampledChoice session chain prompt) session.params.maxTokens []).imp id ?_
  rintro ⟨out, hprefix, hdiffers⟩
  rw [List.nil_append] at hprefix hdiffers
  by_contra hnone
  apply hdiffers
  apply plainChoice_eq_sampled hchain
  intro hallowed hout hignore honly
  exact hnone ⟨out, hprefix, hout, hallowed, hignore, honly⟩

end Rounds

end Plain

def steadyModel : Model Unit Unit Nat where
  architecture := .llama
  vocab := { size := 3, eos := 0, eos_lt := by decide, one_lt := by decide }
  maxSeqLen := 4
  layers := [.f16]
  zeroRow := ()
  initRec := ()
  forward := fun _ _ _ =>
    { row := ()
      recState := ()
      logits := [0, 1, 0] }
  length_logits := fun _ _ _ => rfl
  attentionOnly := fun _ _ _ _ => rfl

def steadySession : Session Unit Unit Nat where
  model := steadyModel
  params := {
    maxTokens := 2
    temperature := 0
    repetitionPenalty := 1
    presencePenalty := 0
    frequencyPenalty := 0
    mirostat := false
    stopTokens := []
    ignoreEos := true
    specK := 0 }
  backend := {
    arithmetic := {
      zero := 0
      times := fun _ _ => 0
      quotient := fun score _ => score
      minus := fun score _ _ => score
      times_bot := fun _ _ => rfl
      minus_bot := fun _ _ => rfl }
    Draw := Nat
    stream := id
    choose := fun _ draw => draw }
  callback := fun _ => true

theorem generateStreamPlain_exact_steady :
    exists final, generateStreamPlain steadySession (Engine.fresh steadyModel) [2] = .ok final ∧
      final.generated.length <= 2 ∧ exists n, n <= ([2] ++ final.generated).length ∧
        final.engine.Holds steadyModel (([2] ++ final.generated).take n) := by
  have hexact := @generateStreamPlain_exact _ _ _ _ _ steadySession _ [2]
    (Engine.fresh steadyModel) rfl (List.cons_ne_nil _ _)
  cases hrun : generateStreamPlain steadySession (Engine.fresh steadyModel) [2] with
  | error fault =>
    rw [hrun] at hexact
    exact absurd hexact.2 (by decide)
  | ok final =>
    rw [hrun] at hexact
    exact ⟨final, rfl, hexact.1, hexact.2.2.2⟩

theorem generateStreamPlain_argmax_steady :
    exists final, generateStreamPlain steadySession (Engine.fresh steadyModel) [2] = .ok final ∧
      final.generated = [1, 1] := by
  have hargmax := @generateStreamPlain_argmax _ _ _ _ _ steadySession _ [2]
    (Engine.fresh steadyModel) rfl (List.cons_ne_nil _ _)
  cases hrun : generateStreamPlain steadySession (Engine.fresh steadyModel) [2] with
  | error fault =>
    rw [hrun] at hargmax
    exact absurd hargmax.2 (by decide)
  | ok final =>
    rw [hrun] at hargmax
    rcases hargmax with hsampled | ⟨out, -, hout, -, -, honly⟩
    · exact ⟨final, rfl, hsampled.trans (by decide)⟩
    · have hlength := steadyModel.length_logitsAfter
        (List.append_ne_nil_of_right_ne_nil [2] hout)
      exact absurd (honly.1.trans hlength) (by decide)

end Generate
end RunNBurn
