import RunNBurn.Generate.Plain

/-!
# Verification windows

How a round is verified, what it keeps of the verified window, and the replay of
a committed prefix from the round's checkpoint.
-/

namespace RunNBurn
namespace Generate

open Library
open Inference

inductive SpecVerifyMode where
  | sequentialIncremental
  | batch
deriving DecidableEq, Repr

def specVerifyMode (targetNeedsSequential forceBatch : Bool) : SpecVerifyMode :=
  if targetNeedsSequential && !forceBatch then .sequentialIncremental else .batch

structure VerifyStatePlan where
  committedVerifyTokens : Nat
  replayCommittedPrefix : Bool

def verifyStatePlanAfterSpecRoundWithPrefixSnapshot
    (targetHasRecurrentState : Bool) (verifyMode : SpecVerifyMode)
    (specK nAccepted : Nat) (prefixSnapshotAvailable : Bool) : VerifyStatePlan where
  committedVerifyTokens := 1 + nAccepted
  replayCommittedPrefix :=
    targetHasRecurrentState
      && verifyMode == .batch
      && decide (nAccepted < specK)
      && !prefixSnapshotAvailable

def verifyStatePlanAfterSpecRound (targetHasRecurrentState : Bool)
    (verifyMode : SpecVerifyMode) (specK nAccepted : Nat) : VerifyStatePlan :=
  verifyStatePlanAfterSpecRoundWithPrefixSnapshot targetHasRecurrentState verifyMode
    specK nAccepted false

/-- The verify window: the last draft is left out without a bonus row. -/
def specBatchVerifyInputTokens (firstToken : TokenId) (draftTokens : List TokenId)
    (includeBonus : Bool) : List TokenId :=
  let keepDrafts := if includeBonus then draftTokens.length else draftTokens.length - 1
  firstToken :: draftTokens.take keepDrafts

section Windows

variable {Row Rec Score : Type}

/-- A window forwarded one token at a time, with the argmax of each step. -/
def forwardArgmaxWindow [LinearOrder Score] (model : Model Row Rec Score)
    (excluded : Option TokenId) :
    Engine Row Rec -> List TokenId -> Checked (Engine Row Rec × List TokenId)
  | engine, [] => .ok (engine, [])
  | engine, token :: rest => do
      let (stepped, target) <- forwardArgmax model excluded engine token
      let (final, targets) <- forwardArgmaxWindow model excluded stepped rest
      return (final, target :: targets)

def replayCommittedVerifyPrefix (model : Model Row Rec Score) (engine : Engine Row Rec)
    (checkpoint : Engine.Checkpoint Rec) (verifyInput : List TokenId) (committedTokens : Nat) :
    Checked (Engine Row Rec × List Score) :=
  let inputLen := verifyInput.length
  if committedTokens <= inputLen then do
    let (final, replayLogits) <-
      (engine.restore model.layers checkpoint).forwardWindow model
        (verifyInput.take committedTokens)
    match replayLogits.getLast? with
    | some logits => return (final, logits)
    | none => report "spec replay committed prefix produced no logits"
  else
    report s!"spec replay prefix {committedTokens} exceeds verify input {inputLen}"

def replayCommittedVerifyPrefixArgmax [LinearOrder Score] (model : Model Row Rec Score)
    (excluded : Option TokenId) (engine : Engine Row Rec) (checkpoint : Engine.Checkpoint Rec)
    (verifyInput : List TokenId) (committedTokens : Nat) :
    Checked (Engine Row Rec × TokenId) :=
  let inputLen := verifyInput.length
  if committedTokens <= inputLen then do
    let (final, targets) <- forwardArgmaxWindow model excluded
      (engine.restore model.layers checkpoint) (verifyInput.take committedTokens)
    match targets.getLast? with
    | some target => return (final, target)
    | none => report "spec argmax replay committed prefix produced no token"
  else
    report s!"spec argmax replay prefix {committedTokens} exceeds verify input {inputLen}"

/-!
# What the windows deliver
-/

variable {model : Model Row Rec Score} {view : EngineView model}
  {allowed : Fault -> Prop} {excluded : Option TokenId}
  {engine base : Engine Row Rec} {tokens : List TokenId}

theorem forwardArgmaxWindow_triple [LinearOrder Score] (window : List TokenId)
    (h : view.Tracks engine tokens) (hroom : engine.Room allowed model window.length) :
    Triple allowed (forwardArgmaxWindow model excluded engine window) (fun result =>
      view.Tracks result.1 (tokens ++ window) ∧ engine.Extends result.1 ∧
        result.2.length = window.length) := by
  induction window generalizing engine tokens with
  | nil =>
    refine triple_ok ⟨?_, Engine.extends_refl engine, rfl⟩
    rw [List.append_nil]
    exact h
  | cons token rest ih =>
    have hroomHere : engine.Room allowed model 1 :=
      hroom.mono (Nat.succ_le_succ (Nat.zero_le rest.length))
    refine (forwardArgmax_triple token h hroomHere).bind ?_
    intro first hfirst
    rcases hfirst with ⟨htracks, hextends, _⟩
    have hroomRest : first.1.Room allowed model rest.length := by
      rw [List.length_cons, Nat.add_comm] at hroom
      exact hroom.behind (EngineView.Tracks.length_append h htracks)
    refine (ih htracks hroomRest).bind ?_
    intro final hfinal
    rcases hfinal with ⟨hfinalTracks, hfinalExtends, hlength⟩
    rw [List.append_assoc] at hfinalTracks
    exact triple_pure ⟨hfinalTracks, hextends.trans hfinalExtends, congrArg Nat.succ hlength⟩

theorem getElem?_map_greedySample [LinearOrder Score] {allLogits : List (List Score)} {i : Nat}
    {target : TokenId} (h : (allLogits.map greedySample)[i]? = some target) :
    exists logits, allLogits[i]? = some logits ∧ target = greedySample logits := by
  rw [List.getElem?_map] at h
  rcases Option.map_eq_some_iff.mp h with ⟨logits, hlogits, htarget⟩
  exact ⟨logits, hlogits, htarget.symm⟩

theorem exists_getLast?_of_length_eq {alpha : Type} {entries : List alpha} {window : List TokenId}
    (hwindow : window ≠ []) (hlength : entries.length = window.length) :
    exists last, entries.getLast? = some last ∧
      entries[window.length - 1]? = some last := by
  have hentries : entries ≠ [] := by
    apply List.ne_nil_of_length_pos
    rw [hlength]
    exact List.length_pos_of_ne_nil hwindow
  refine ⟨entries.getLast hentries, List.getLast?_eq_some_getLast hentries, ?_⟩
  rw [← hlength, ← List.getLast?_eq_getElem?]
  exact List.getLast?_eq_some_getLast hentries

variable {verifyInput : List TokenId} {committed : Nat}

theorem take_ne_nil (hpos : 0 < committed) (hle : committed <= verifyInput.length) :
    verifyInput.take committed ≠ [] := by
  apply List.ne_nil_of_length_pos
  rw [List.length_take, Nat.min_eq_left hle]
  exact hpos

theorem restored_counted (hlen : base.currentLen = tokens.length) :
    model.lengthView.Tracks (engine.restore model.layers base.save) tokens :=
  hlen

theorem restored_room (hle : committed <= verifyInput.length)
    (hroom : base.Room allowed model committed) :
    (engine.restore model.layers base.save).Room allowed model
      (verifyInput.take committed).length := by
  rw [List.length_take, Nat.min_eq_left hle]
  exact hroom

theorem replayCommittedVerifyPrefix_triple (hlen : base.currentLen = tokens.length)
    (hpos : 0 < committed) (hle : committed <= verifyInput.length)
    (hroom : base.Room allowed model committed) :
    Triple allowed (replayCommittedVerifyPrefix model engine base.save verifyInput committed)
      (fun result => view.Tracks (engine.restore model.layers base.save) tokens ->
        view.Tracks result.1 (tokens ++ verifyInput.take committed) ∧
          view.Logits (tokens ++ verifyInput.take committed) result.2) := by
  have hlength : (verifyInput.take committed).length = committed := by
    rw [List.length_take, Nat.min_eq_left hle]
  unfold replayCommittedVerifyPrefix
  dsimp only
  rw [if_pos hle]
  refine ((EngineView.forwardWindow_triple _ (restored_counted hlen)
    (restored_room hle hroom)).and_returns (returns_self _)).bind ?_
  intro window hwindow
  rcases hwindow with ⟨⟨_, _, hcount, _⟩, hcall⟩
  rcases exists_getLast?_of_length_eq (take_ne_nil hpos hle) hcount with ⟨logits, hlast, hget⟩
  rw [hlast]
  refine triple_pure ?_
  intro hrestored
  have hany : (engine.restore model.layers base.save).Room (fun _ => True) model
      (verifyInput.take committed).length := Or.inr trivial
  have hwhole := (EngineView.forwardWindow_triple (verifyInput.take committed) hrestored
    hany).returns _ hcall
  have hlogits := hwhole.2.2.2 _ _ hget
  rw [hlength, Nat.sub_add_cancel hpos, List.take_take, Nat.min_self] at hlogits
  exact ⟨hwhole.1, hlogits⟩

theorem replayCommittedVerifyPrefixArgmax_triple [LinearOrder Score]
    (hlen : base.currentLen = tokens.length) (hpos : 0 < committed)
    (hle : committed <= verifyInput.length) (hroom : base.Room allowed model committed) :
    Triple allowed
      (replayCommittedVerifyPrefixArgmax model excluded engine base.save verifyInput committed)
      (fun result => view.Tracks (engine.restore model.layers base.save) tokens ->
        view.Tracks result.1 (tokens ++ verifyInput.take committed)) := by
  unfold replayCommittedVerifyPrefixArgmax
  dsimp only
  rw [if_pos hle]
  refine ((forwardArgmaxWindow_triple _ (restored_counted hlen)
    (restored_room hle hroom)).and_returns (returns_self _)).bind ?_
  intro window hwindow
  rcases hwindow with ⟨⟨_, _, hcount⟩, hcall⟩
  rcases exists_getLast?_of_length_eq (take_ne_nil hpos hle) hcount with ⟨target, hlast, _⟩
  rw [hlast]
  refine triple_pure ?_
  intro hrestored
  have hany : (engine.restore model.layers base.save).Room (fun _ => True) model
      (verifyInput.take committed).length := Or.inr trivial
  exact ((forwardArgmaxWindow_triple (verifyInput.take committed) hrestored hany).returns _ hcall).1

/-!
# Forwarded windows

A window keeps the first token of a round and all its drafts, or all but the
last.
-/

/-- What a round knows of a window that was forwarded behind `tokens`. -/
structure Forwarded (view : EngineView model) (base : Engine Row Rec)
    (tokens : List TokenId) (first : TokenId) (drafts window : List TokenId)
    (engine : Engine Row Rec) (allLogits : List (List Score)) : Prop where
  tracks : view.Tracks engine (tokens ++ window)
  extends_ : base.Extends engine
  length : allLogits.length = window.length
  logits : forall i logits, allLogits[i]? = some logits ->
    view.Logits (tokens ++ first :: drafts.take i) logits
  window_eq : window = (first :: drafts).take window.length
  le_length : drafts.length <= window.length
  pos : 0 < window.length
  length_le : window.length <= drafts.length + 1
  bounded : engine.currentLen <= model.maxSeqLen

variable (first : TokenId)

theorem length_verifyInput (drafts : List TokenId) (bonus : Bool) :
    (specBatchVerifyInputTokens first drafts bonus).length =
      (if bonus then drafts.length else drafts.length - 1) + 1 := by
  unfold specBatchVerifyInputTokens
  cases bonus with
  | true => simp
  | false => simp

theorem verifyInput_eq_take (drafts : List TokenId) (bonus : Bool) :
    specBatchVerifyInputTokens first drafts bonus =
      (first :: drafts).take (specBatchVerifyInputTokens first drafts bonus).length := by
  rw [length_verifyInput, List.take_succ_cons]
  rfl

theorem verifyInput_bonus (drafts : List TokenId) :
    specBatchVerifyInputTokens first drafts true = first :: drafts := by
  simp [specBatchVerifyInputTokens]

theorem verifyInput_append_last {drafts : List TokenId} {lastDraft : TokenId}
    (h : drafts.getLast? = some lastDraft) :
    specBatchVerifyInputTokens first drafts false ++ [lastDraft] = first :: drafts := by
  rcases List.getLast?_eq_some_iff.mp h with ⟨front, rfl⟩
  simp [specBatchVerifyInputTokens]

section

variable (drafts : List TokenId) (bonus : Bool)

theorem length_verifyInput_le :
    (specBatchVerifyInputTokens first drafts bonus).length <= drafts.length + 1 := by
  rw [length_verifyInput]
  apply Nat.succ_le_succ
  split
  · exact Nat.le_refl _
  · exact Nat.sub_le _ _

theorem le_length_verifyInput :
    drafts.length <= (specBatchVerifyInputTokens first drafts bonus).length := by
  rw [length_verifyInput]
  split
  · exact Nat.le_succ _
  · exact Nat.sub_le_iff_le_add.mp (Nat.le_refl _)

theorem forwarded_triple (h : view.Tracks base tokens)
    (hroom : base.Room allowed model (drafts.length + 1)) :
    Triple allowed
      (base.forwardWindow model (specBatchVerifyInputTokens first drafts bonus))
      (fun result => Forwarded view base tokens first drafts
        (specBatchVerifyInputTokens first drafts bonus) result.1 result.2) := by
  have htake := verifyInput_eq_take first drafts bonus
  have hge := length_verifyInput_le first drafts bonus
  have hpos : 0 < (specBatchVerifyInputTokens first drafts bonus).length := by
    rw [length_verifyInput]
    exact Nat.succ_pos _
  apply ((EngineView.forwardWindow_triple _ h (hroom.mono hge)).and_returns
    (Engine.forwardWindow_currentLen_le _ _ _)).mono
  intro result hresult
  rcases hresult with ⟨⟨htracks, hextends, hcount, hpositions⟩, hbounded⟩
  exact {
    tracks := htracks
    extends_ := hextends
    length := hcount
    logits := by
      intro i logits hlogits
      have hposition := hpositions i logits hlogits
      have hi : i + 1 <= (specBatchVerifyInputTokens first drafts bonus).length := by
        rw [← hcount]
        exact (List.getElem?_eq_some_iff.mp hlogits).1
      rw [htake, List.take_take, Nat.min_eq_left hi] at hposition
      exact hposition
    window_eq := htake
    le_length := le_length_verifyInput first drafts bonus
    pos := hpos
    length_le := hge
    bounded := hbounded (Or.inr (List.ne_nil_of_length_pos hpos)) }

end

namespace Forwarded

variable {first : TokenId} {drafts window : List TokenId} {allLogits : List (List Score)}
  {nAccepted : Nat}

theorem take_window
    (h : Forwarded view base tokens first drafts window engine allLogits)
    (hle : 1 + nAccepted <= window.length) :
    window.take (1 + nAccepted) = first :: drafts.take nAccepted := by
  rw [h.window_eq, List.take_take, Nat.min_eq_left hle, Nat.add_comm 1]
  rfl

theorem tracks_setLen
    (h : Forwarded view base tokens first drafts window engine allLogits)
    (hbase : view.Tracks base tokens) (hle : 1 + nAccepted <= window.length)
    (hkeeps : 1 + nAccepted = window.length ∨
      view.CutsBack (tokens ++ window.take (1 + nAccepted)) (window.drop (1 + nAccepted))) :
    view.Tracks
      (engine.setLen model.layers (min (base.save.kvLen + (1 + nAccepted)) model.maxSeqLen))
      (tokens ++ first :: drafts.take nAccepted) := by
  have hkv : base.save.kvLen = tokens.length := view.currentLen hbase
  have hcurrent := view.currentLen h.tracks
  rw [List.length_append] at hcurrent
  have hlen : base.save.kvLen + (1 + nAccepted) <= engine.currentLen := by
    rw [hkv, hcurrent]
    exact Nat.add_le_add_left hle _
  rw [Nat.min_eq_left (Nat.le_trans hlen h.bounded), hkv, ← h.take_window hle]
  have hlength : (tokens ++ window.take (1 + nAccepted)).length =
      tokens.length + (1 + nAccepted) := by
    rw [List.length_append, List.length_take, Nat.min_eq_left hle]
  rcases hkeeps with hwhole | hcuts
  · rw [hwhole, ← hcurrent, Engine.setLen_currentLen, List.take_length]
    exact h.tracks
  · rw [← hlength]
    apply hcuts
    rw [List.append_assoc, List.take_append_drop]
    exact h.tracks

end Forwarded

/-!
# Committing a window by its logits
-/

def commitLogits (model : Model Row Rec Score) (targetHasRecurrentState : Bool)
    (verifyMode : SpecVerifyMode) (k nAccepted : Nat) (checkpoint : Engine.Checkpoint Rec)
    (verifyInput : List TokenId) (allLogits : List (List Score)) (engine : Engine Row Rec) :
    Checked (Engine Row Rec × List Score) :=
  let plan := verifyStatePlanAfterSpecRound targetHasRecurrentState verifyMode k nAccepted
  if plan.replayCommittedPrefix then
    replayCommittedVerifyPrefix model engine checkpoint verifyInput plan.committedVerifyTokens
  else do
    let finalLen := checkpoint.kvLen + plan.committedVerifyTokens
    let logits <- index allLogits (plan.committedVerifyTokens - 1)
    return (engine.setLen model.layers (min finalLen model.maxSeqLen), logits)

/-- What keeps `nAccepted` drafts of a window: the whole window is kept, the checkpoint takes
the engine back before the replay, or the cut does. -/
def CommitKeeps (view : EngineView model) (replays : Bool) (tokens window : List TokenId)
    (nAccepted : Nat) : Prop :=
  1 + nAccepted = window.length ∨
    if replays then view.RestoresBack tokens window
    else view.CutsBack (tokens ++ window.take (1 + nAccepted)) (window.drop (1 + nAccepted))

theorem CommitKeeps.of_goesBack (h : view.GoesBack) (replays : Bool)
    (tokens window : List TokenId) (nAccepted : Nat) :
    CommitKeeps view replays tokens window nAccepted := by
  refine Or.inr ?_
  split
  · intro base engine hbase hextends _
    exact h.restores (List.Subset.refl _) hbase hextends
  · exact h.cuts _ _

theorem commitLogits_triple
    {first : TokenId} {drafts window : List TokenId} {allLogits : List (List Score)}
    {nAccepted : Nat} (targetHasRecurrentState : Bool) (verifyMode : SpecVerifyMode)
    (hbase : view.Tracks base tokens) (hroom : base.Room allowed model (drafts.length + 1))
    (h : Forwarded view base tokens first drafts window engine allLogits)
    (hwhole : window.length = drafts.length + 1) (hle : 1 + nAccepted <= window.length) :
    Triple allowed
      (commitLogits model targetHasRecurrentState verifyMode drafts.length nAccepted base.save
        window allLogits engine)
      (fun result =>
        CommitKeeps view (targetHasRecurrentState && verifyMode == .batch) tokens window
            nAccepted ->
          view.Tracks result.1 (tokens ++ first :: drafts.take nAccepted) ∧
            view.Logits (tokens ++ first :: drafts.take nAccepted) result.2) := by
  unfold commitLogits verifyStatePlanAfterSpecRound
    verifyStatePlanAfterSpecRoundWithPrefixSnapshot
  dsimp only
  split
  · rename_i hreplay
    simp only [Bool.and_eq_true, decide_eq_true_eq] at hreplay
    rcases hreplay with ⟨⟨hreplays, hshort⟩, -⟩
    have hpos : 0 < 1 + nAccepted := by
      rw [Nat.add_comm]
      exact Nat.succ_pos _
    apply (replayCommittedVerifyPrefix_triple (view.currentLen hbase) hpos hle
      (hroom.mono (Nat.le_trans hle h.length_le))).mono
    intro result hresult hkeeps
    rw [h.take_window hle] at hresult
    apply hresult
    rcases hkeeps with hall | hrestores
    · rw [hwhole, Nat.add_comm] at hall
      exact absurd (Nat.succ.inj hall) (Nat.ne_of_lt hshort)
    · rw [if_pos (Bool.and_eq_true_iff.mpr hreplays)] at hrestores
      exact hrestores base engine hbase h.extends_ h.tracks
  · rename_i hreplay
    have hlt : nAccepted < allLogits.length := by
      rw [h.length, Nat.lt_iff_add_one_le, Nat.add_comm]
      exact hle
    have hlogits := List.getElem?_eq_getElem hlt
    rw [Nat.add_sub_cancel_left, index_of_getElem?_eq_some hlogits, ok_bind]
    refine triple_pure ?_
    intro hkeeps
    refine ⟨?_, h.logits nAccepted _ hlogits⟩
    apply h.tracks_setLen hbase hle
    rcases hkeeps with hall | hcuts
    · exact Or.inl hall
    · split at hcuts
      · rename_i hreplays
        refine Or.inl ?_
        by_contra hpartial
        apply hreplay
        have hshort : nAccepted < drafts.length := by
          have hshort := Nat.lt_of_le_of_ne hle hpartial
          rw [hwhole, Nat.add_comm] at hshort
          exact Nat.lt_of_succ_lt_succ hshort
        rw [hreplays]
        simp [hshort]
      · exact Or.inr hcuts

end Windows

/-!
# Sampled targets
-/

section Sampled

variable {Row Rec Score : Type} [LinearOrder Score] [OrderBot Score]

/-- The draws consumed after `n` calls of the sampler. -/
def drawnAt (chain : SamplerChain) (drawn n : Nat) : Nat :=
  if chain.greedy then drawn else drawn + n

theorem drawnAt_zero (chain : SamplerChain) (drawn : Nat) : drawnAt chain drawn 0 = drawn := by
  unfold drawnAt
  split
  · rfl
  · rfl

theorem sample_snd_eq (backend : SamplingBackend Score) (chain : SamplerChain)
    (logits : List Score) (context : List TokenId) (drawn i : Nat) :
    (chain.sample backend logits context (drawnAt chain drawn i)).2 =
      drawnAt chain drawn (i + 1) := by
  unfold SamplerChain.sample drawnAt
  cases chain.greedy with
  | true => rfl
  | false => rfl

end Sampled

end Generate
end RunNBurn
