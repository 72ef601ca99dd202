import RunNBurn.Inference.Engine

/-!
# Views of the engine

A view says which tokens an engine stands behind and what is known of the logits
it returns.  The exact view knows the whole sequential state; the computed view
knows only that each cached row was computed of its token.  The generation loops
are verified once, over an arbitrary view.
-/

namespace RunNBurn
namespace Inference

open Library

structure EngineView {Row Rec Score : Type} (model : Model Row Rec Score) where
  Tracks : Engine Row Rec -> List TokenId -> Prop
  Logits : List TokenId -> List Score -> Prop
  currentLen : forall {engine tokens}, Tracks engine tokens ->
    engine.currentLen = tokens.length
  clear : forall engine : Engine Row Rec, Tracks (engine.clearSequenceState model) []
  step : forall {engine : Engine Row Rec} {tokens} (token : TokenId),
    Tracks engine tokens ->
    Tracks
      (engine.writeRow (model.forward engine.rows engine.recState token).row
        (model.forward engine.rows engine.recState token).recState)
      (tokens ++ [token])
  logits : forall {engine : Engine Row Rec} {tokens} (token : TokenId),
    Tracks engine tokens ->
    Logits (tokens ++ [token]) (model.forward engine.rows engine.recState token).logits
  length_logits : forall {tokens logits}, Logits tokens logits ->
    logits.length = model.vocab.size

/-- Room for `n` more rows, unless running out of it is permitted. -/
def Engine.Room {Row Rec Score : Type} (allowed : Fault -> Prop)
    (model : Model Row Rec Score) (engine : Engine Row Rec) (n : Nat) : Prop :=
  engine.currentLen + n <= model.maxSeqLen ∨ allowed Engine.overflow

variable {Row Rec Score : Type}

theorem Engine.Room.mono {allowed : Fault -> Prop} {model : Model Row Rec Score}
    {engine : Engine Row Rec} {n more : Nat} (h : engine.Room allowed model more)
    (hle : n <= more) :
    engine.Room allowed model n := by
  rcases h with hfits | hallowed
  · exact Or.inl (Nat.le_trans (Nat.add_le_add_left hle _) hfits)
  · exact Or.inr hallowed

theorem Engine.Room.behind {allowed : Fault -> Prop} {model : Model Row Rec Score}
    {engine final : Engine Row Rec} {used n : Nat} (h : engine.Room allowed model (used + n))
    (hlen : final.currentLen = engine.currentLen + used) :
    final.Room allowed model n := by
  rcases h with hfits | hallowed
  · refine Or.inl ?_
    rw [hlen, Nat.add_assoc]
    exact hfits
  · exact Or.inr hallowed

namespace EngineView

variable {Row Rec Score : Type} {model : Model Row Rec Score}

/-- A cut takes an engine behind `tokens ++ more` back to `tokens`. -/
def CutsBack (view : EngineView model) (tokens more : List TokenId) : Prop :=
  forall engine : Engine Row Rec, view.Tracks engine (tokens ++ more) ->
    view.Tracks (engine.setLen model.layers tokens.length) tokens

/-- A checkpoint takes an engine behind `tokens ++ more` back to `tokens`. -/
def RestoresBack (view : EngineView model) (tokens more : List TokenId) : Prop :=
  forall base engine : Engine Row Rec, view.Tracks base tokens -> base.Extends engine ->
    view.Tracks engine (tokens ++ more) ->
    view.Tracks (engine.restore model.layers base.save) tokens

/-- Cuts and checkpoints go back whatever was computed since. -/
structure GoesBack (view : EngineView model) : Prop where
  cuts : forall tokens more, view.CutsBack tokens more
  restores : forall {layers : List (LayerFormat Row)} {base engine : Engine Row Rec} {tokens},
    layers ⊆ model.layers -> view.Tracks base tokens -> base.Extends engine ->
    view.Tracks (engine.restore layers base.save) tokens

def Exact (view : EngineView model) : Prop :=
  forall {tokens : List TokenId} {logits : List Score},
    view.Logits tokens logits -> logits = model.logitsAfter tokens

def TracksPrefix (view : EngineView model) (engine : Engine Row Rec)
    (tokens : List TokenId) : Prop :=
  exists n, n <= tokens.length ∧ view.Tracks engine (tokens.take n)

variable {view : EngineView model}

theorem Tracks.length_append {engine final : Engine Row Rec} {tokens more : List TokenId}
    (h : view.Tracks engine tokens) (hfinal : view.Tracks final (tokens ++ more)) :
    final.currentLen = engine.currentLen + more.length := by
  rw [view.currentLen hfinal, view.currentLen h, List.length_append]

variable {engine : Engine Row Rec}

theorem tracksPrefix_of_isPrefix {held tokens : List TokenId} (h : view.Tracks engine held)
    (hheld : List.IsPrefix held tokens) :
    view.TracksPrefix engine tokens := by
  refine ⟨held.length, hheld.length_le, ?_⟩
  rw [← List.prefix_iff_eq_take.mp hheld]
  exact h

variable {tokens : List TokenId}

theorem tracksPrefix_self (h : view.Tracks engine tokens) :
    view.TracksPrefix engine tokens :=
  tracksPrefix_of_isPrefix h (List.prefix_refl tokens)

/-!
# Forward passes
-/

variable {allowed : Fault -> Prop}

theorem forwardToken_triple (token : TokenId) (h : view.Tracks engine tokens)
    (hroom : engine.Room allowed model 1) :
    Triple allowed (engine.forwardToken model token) (fun result =>
      view.Tracks result.1 (tokens ++ [token]) ∧ engine.Extends result.1 ∧
        view.Logits (tokens ++ [token]) result.2) := by
  unfold Engine.forwardToken
  split
  · exact triple_ok ⟨view.step token h, Engine.extends_writeRow _ _ _, view.logits token h⟩
  · rename_i hfull
    rcases hroom with hfits | hallowed
    · exact absurd hfits hfull
    · exact triple_error _ hallowed

theorem forwardWindow_triple (window : List TokenId) (h : view.Tracks engine tokens)
    (hroom : engine.Room allowed model window.length) :
    Triple allowed (engine.forwardWindow model window) (fun result =>
      view.Tracks result.1 (tokens ++ window) ∧ engine.Extends result.1 ∧
        result.2.length = window.length ∧
        forall i logits, result.2[i]? = some logits ->
          view.Logits (tokens ++ window.take (i + 1)) logits) := by
  induction window generalizing engine tokens with
  | nil =>
    refine triple_ok ⟨?_, Engine.extends_refl engine, rfl, ?_⟩
    · rw [List.append_nil]
      exact h
    · intro i logits hlogits
      cases hlogits
  | cons token rest ih =>
    have hroomHere : engine.Room allowed model 1 :=
      hroom.mono (Nat.succ_le_succ (Nat.zero_le rest.length))
    refine (forwardToken_triple token h hroomHere).bind ?_
    intro first hfirst
    rcases hfirst with ⟨htracks, hextends, hlogits⟩
    have hroomRest : first.1.Room allowed model rest.length := by
      rw [List.length_cons, Nat.add_comm] at hroom
      exact hroom.behind (Tracks.length_append h htracks)
    refine (ih htracks hroomRest).bind ?_
    intro final hfinal
    rcases hfinal with ⟨hfinalTracks, hfinalExtends, hlength, hpositions⟩
    refine triple_pure ⟨?_, hextends.trans hfinalExtends, ?_, ?_⟩
    · rw [List.append_assoc] at hfinalTracks
      exact hfinalTracks
    · exact congrArg Nat.succ hlength
    · intro i logits hget
      cases i with
      | zero =>
        cases hget
        rw [List.take_succ_cons, List.take_zero]
        exact hlogits
      | succ i =>
        have hposition := hpositions i logits hget
        rw [List.append_assoc] at hposition
        exact hposition

theorem forwardPrompt_triple {prompt : List TokenId} (h : view.Tracks engine [])
    (hprompt : prompt ≠ []) (hroom : engine.Room allowed model prompt.length) :
    Triple allowed (engine.forwardPrompt model prompt) (fun result =>
      view.Tracks result.1 prompt ∧ view.Logits prompt result.2) := by
  refine (forwardWindow_triple prompt h hroom).bind ?_
  intro window hwindow
  rcases hwindow with ⟨htracks, _, hlength, hpositions⟩
  have hpos : 0 < prompt.length := List.length_pos_of_ne_nil hprompt
  rw [← hlength] at hpos
  dsimp only
  cases hlast : window.2.getLast? with
  | none =>
    rw [List.getLast?_eq_none_iff.mp hlast] at hpos
    cases hpos
  | some logits =>
    rw [List.getLast?_eq_getElem?] at hlast
    have hlogits := hpositions _ _ hlast
    rw [Nat.sub_add_cancel hpos, hlength, List.take_length] at hlogits
    exact triple_pure ⟨htracks, hlogits⟩

end EngineView

/-!
# The exact view
-/

section Exact

variable {Row Rec Score : Type}

section

variable (model : Model Row Rec Score)

def Model.exactView : EngineView model where
  Tracks := fun engine tokens => engine.Holds model tokens
  Logits := fun tokens logits => tokens ≠ [] ∧ logits = model.logitsAfter tokens
  currentLen := fun h => h.currentLen
  clear := Engine.holds_clear model
  step := fun token h => Engine.holds_writeRow token h
  logits := fun {engine tokens} token h => by
    refine ⟨List.append_ne_nil_of_right_ne_nil _ (List.cons_ne_nil _ _), ?_⟩
    rw [model.logitsAfter_snoc, h.rows, h.recState]
    rfl
  length_logits := fun h => by
    rw [h.2]
    exact model.length_logitsAfter h.1

theorem exact_exactView : model.exactView.Exact :=
  fun h => h.2

def Model.Inert : Prop :=
  forall rows state token, (model.forward rows state token).recState = state

/-- Cutting off `more` keeps the rows of `tokens`. -/
def Model.KeepsRows (tokens more : List TokenId) : Prop :=
  CutKeeps model.layers (model.after (tokens ++ more)).1 tokens.length

end

variable {model : Model Row Rec Score} {tokens more : List TokenId}

theorem cutsBack_exactView (h : model.Inert) (hkeeps : model.KeepsRows tokens more) :
    model.exactView.CutsBack tokens more :=
  fun _ htracks => Engine.holds_setLen h hkeeps htracks

theorem restoresBack_exactView (hkeeps : model.KeepsRows tokens more) :
    model.exactView.RestoresBack tokens more := by
  intro base engine hbase hextends hengine
  apply Engine.holds_restore hbase hextends
  rw [hengine.rows, hbase.currentLen]
  exact hkeeps

theorem inert_of_attentionOnly
    (h : architectureHasRecurrentState model.architecture = false) :
    model.Inert :=
  model.attentionOnly h

end Exact

/-!
# The length view
-/

def Model.lengthView {Row Rec Score : Type} (model : Model Row Rec Score) :
    EngineView model where
  Tracks := fun engine tokens => engine.currentLen = tokens.length
  Logits := fun _ logits => logits.length = model.vocab.size
  currentLen := fun h => h
  clear := fun _ => rfl
  step := fun {engine tokens} token h => by
    rw [Engine.currentLen_writeRow, h, List.length_append]
    rfl
  logits := fun {engine _} _ _ => model.length_logits engine.rows _ _
  length_logits := fun h => h

/-- A row that the model computes of a token, or what a block of the cache makes of it. -/
inductive Model.Computes {Row Rec Score : Type} (model : Model Row Rec Score) :
    TokenId -> Row -> Prop where
  | forward (rows : List Row) (state : Rec) (token : TokenId) :
      model.Computes token (model.forward rows state token).row
  | decoded {sinkTokens group : Nat} {decodeBlock : List Row -> List Row}
      {hlength : forall rows, (decodeBlock rows).length = rows.length}
      {block : List Row} {i : Nat} {token : TokenId} {row decoded : Row} :
      .kvarn sinkTokens group decodeBlock hlength ∈ model.layers ->
      block[i]? = some row -> model.Computes token row ->
      (decodeBlock block)[i]? = some decoded -> model.Computes token decoded

/-- Every row below the length is computed of its token. -/
def Model.computedView {Row Rec Score : Type} (model : Model Row Rec Score) :
    EngineView model where
  Tracks := fun engine tokens => engine.currentLen = tokens.length ∧
    forall (i : Nat) (token : TokenId), tokens[i]? = some token ->
      model.Computes token (engine.slots i)
  Logits := fun _ logits => logits.length = model.vocab.size
  currentLen := fun h => h.1
  clear := fun _ => ⟨rfl, (fun i token h => by
    rw [List.getElem?_nil] at h
    cases h)⟩
  step := fun {engine tokens} token h => ⟨(by
      rw [Engine.currentLen_writeRow, h.1, List.length_append]
      rfl), (fun i other hother => by
      by_cases hi : i = engine.currentLen
      · rw [hi, h.1, List.getElem?_append_right (Nat.le_refl _), Nat.sub_self] at hother
        cases hother
        dsimp only [Engine.writeRow]
        rw [if_pos hi]
        exact .forward engine.rows engine.recState token
      · have hlt : i < tokens.length := by
          have hle := (List.getElem?_eq_some_iff.mp hother).1
          rw [List.length_append, List.length_singleton] at hle
          rw [h.1] at hi
          omega
        rw [List.getElem?_append_left hlt] at hother
        dsimp only [Engine.writeRow]
        rw [if_neg hi]
        exact h.2 i other hother)⟩
  logits := fun {engine _} _ _ => model.length_logits engine.rows _ _
  length_logits := fun h => h

theorem computes_setLen {model : Model Row Rec Score} {layers : List (LayerFormat Row)}
    {engine : Engine Row Rec} {tokens : List TokenId} (hlayers : layers ⊆ model.layers)
    (h : forall (i : Nat) (token : TokenId), tokens[i]? = some token ->
      model.Computes token (engine.slots i)) (len : Nat) :
    forall (i : Nat) (token : TokenId), tokens[i]? = some token ->
      model.Computes token ((engine.setLen layers len).slots i) := by
  have hkept := @keptRows_induction Row layers engine.rows len
    (fun i row => forall token, tokens[i]? = some token -> model.Computes token row) (by
      intro i row hrow token htoken
      rw [Engine.getElem?_rows] at hrow
      split at hrow
      · cases hrow
        exact h i token htoken
      · cases hrow)
    (by
      intro sinkTokens group decodeBlock hlength hmem start block hblock i row hrow token htoken
      have hi := (List.getElem?_eq_some_iff.mp hrow).1
      rw [hlength] at hi
      have hsource := List.getElem?_eq_getElem hi
      exact .decoded (hlayers hmem) hsource (hblock i _ hsource token htoken) hrow)
  intro i token htoken
  unfold Engine.setLen
  dsimp only
  cases hrow : (keptRows layers engine.rows len)[i]? with
  | none => exact h i token htoken
  | some row => exact hkept i row hrow token htoken

theorem goesBack_computedView (model : Model Row Rec Score) :
    model.computedView.GoesBack where
  cuts := by
    intro tokens more engine h
    constructor
    · rfl
    · apply computes_setLen (List.Subset.refl _)
      intro i token htoken
      apply h.2 i token
      rw [List.getElem?_append_left (List.getElem?_eq_some_iff.mp htoken).1]
      exact htoken
  restores := by
    intro layers base engine tokens hlayers h hextends
    constructor
    · exact h.1
    · apply computes_setLen hlayers
      intro i token htoken
      have hi := (List.getElem?_eq_some_iff.mp htoken).1
      rw [← h.1] at hi
      rw [hextends.slots i hi]
      exact h.2 i token htoken

end Inference
end RunNBurn
