import Mathlib.Data.Finset.Basic
import RunNBurn.Library.Checked

/-!
# Model architectures

The architectures that the loader knows, and the three predicates on them that
the generation loops consult.
-/

namespace RunNBurn
namespace Inference

inductive Architecture where
  | llama
  | gemma
  | gemma4
  | gemma4Assistant
  | phi
  | qwen2
  | qwen35
  | qwen35MoE
  | nemotronHMoE
  | hy3
  | glmDsa
  | deepSeek4
  | museGlimmer
  | dflash
deriving DecidableEq, Repr

def architectureVerifyNeedsSequential : Architecture -> Bool
  | .qwen35 => true
  | .qwen35MoE => true
  | .glmDsa => true
  | _ => false

/-- Architectures with a recurrent layer state, as opposed to attention only. -/
def architectureHasRecurrentState : Architecture -> Bool
  | .qwen35 => true
  | .qwen35MoE => true
  | .nemotronHMoE => true
  | _ => false

/-!
# Cuts of the cached rows

A layer in KVarN format keeps the rows behind its sink in blocks, each quantized
when it is full.  A cut inside a full block takes the rows that the block decodes
to back into the tail.
-/

open Library

section Cuts

variable {Row : Type}

/-- `decodeBlock` replaces the layer's part of the rows of a block by what the
block decodes to. -/
inductive LayerFormat (Row : Type) where
  | f16
  | kvarn (sinkTokens group : Nat) (decodeBlock : List Row -> List Row)
      (length_decodeBlock : forall rows, (decodeBlock rows).length = rows.length)

namespace LayerFormat

/-- The first row of the block in which a cut to `len` rows falls. -/
def blockStart (sinkTokens group len : Nat) : Nat :=
  sinkTokens + (len - sinkTokens) / group * group

/-- What `truncate_to` makes of the rows below `len`. -/
def truncateTo (rows : List Row) (len : Nat) : LayerFormat Row -> List Row
  | .f16 => rows
  | .kvarn sinkTokens group decodeBlock _ =>
    let start := blockStart sinkTokens group len
    if sinkTokens < len ∧ start < len ∧ start + group <= rows.length then
      rows.take start ++ decodeBlock ((rows.drop start).take group)
        ++ rows.drop (start + group)
    else rows

theorem length_truncateTo (rows : List Row) (len : Nat) (format : LayerFormat Row) :
    (format.truncateTo rows len).length = rows.length := by
  cases format with
  | f16 => rfl
  | kvarn sinkTokens group decodeBlock hlength =>
    unfold truncateTo
    dsimp only
    split
    · rename_i hcut
      rw [List.length_append, List.length_append, hlength, List.length_take,
        List.length_take, List.length_drop, List.length_drop]
      omega
    · rfl

theorem truncateTo_of_length_le {rows : List Row} {len : Nat} (h : rows.length <= len)
    (format : LayerFormat Row) : format.truncateTo rows len = rows := by
  cases format with
  | f16 => rfl
  | kvarn sinkTokens group decodeBlock hlength =>
    unfold truncateTo
    dsimp only
    split
    · rename_i hcut
      rcases hcut with ⟨hsink, -, hfull⟩
      -- the block ends behind `len`, unless it is empty
      rcases Nat.eq_zero_or_pos group with hzero | hpos
      · have hempty : decodeBlock [] = [] :=
          List.eq_nil_of_length_eq_zero (hlength [])
        rw [hzero, List.take_zero, hempty, List.append_nil, Nat.add_zero, List.take_append_drop]
      · have hinside := Nat.lt_div_mul_add hpos (a := len - sinkTokens)
        unfold blockStart at hfull
        omega
    · rfl

/-- Whatever each row satisfies at its place, the rows of the cut satisfy. -/
theorem truncateTo_induction {format : LayerFormat Row} {holds : Nat -> Row -> Prop}
    {rows : List Row} {len : Nat} (hrows : forall i row, rows[i]? = some row -> holds i row)
    (hdecode : forall sinkTokens group decodeBlock hlength,
      format = .kvarn sinkTokens group decodeBlock hlength ->
      forall start (block : List Row),
        (forall i row, block[i]? = some row -> holds (start + i) row) ->
        forall i row, (decodeBlock block)[i]? = some row -> holds (start + i) row) :
    forall i row, (format.truncateTo rows len)[i]? = some row -> holds i row := by
  cases format with
  | f16 => exact hrows
  | kvarn sinkTokens group decodeBlock hlength =>
    unfold truncateTo
    dsimp only
    split
    · rename_i hcut
      rcases hcut with ⟨-, -, hfull⟩
      generalize blockStart sinkTokens group len = start at hfull
      have hblock : forall i row, ((rows.drop start).take group)[i]? = some row ->
          holds (start + i) row := by
        intro i row hrow
        have hi := (List.getElem?_eq_some_iff.mp hrow).1
        rw [List.length_take] at hi
        rw [List.getElem?_take_of_lt (by omega), List.getElem?_drop] at hrow
        exact hrows _ row hrow
      have hwidth : (decodeBlock ((rows.drop start).take group)).length = group := by
        rw [hlength, List.length_take, List.length_drop]
        omega
      have hfront : (rows.take start).length = start := by
        rw [List.length_take]
        omega
      intro i row hrow
      rw [List.append_assoc] at hrow
      by_cases hbefore : i < start
      · rw [List.getElem?_append_left (by omega), List.getElem?_take_of_lt hbefore] at hrow
        exact hrows i row hrow
      · rw [List.getElem?_append_right (by omega), hfront] at hrow
        by_cases hinside : i - start < group
        · rw [List.getElem?_append_left (by omega)] at hrow
          have hdecoded := hdecode _ _ _ _ rfl start _ hblock _ row hrow
          rw [Nat.add_sub_cancel' (Nat.not_lt.mp hbefore)] at hdecoded
          exact hdecoded
        · rw [List.getElem?_append_right (by omega), hwidth, List.getElem?_drop] at hrow
          rw [show start + group + (i - start - group) = i by omega] at hrow
          exact hrows i row hrow
    · exact hrows

end LayerFormat

/-- The rows below `len` after every layer was cut. -/
def keptRows (layers : List (LayerFormat Row)) (rows : List Row) (len : Nat) : List Row :=
  (layers.foldl (fun rows format => format.truncateTo rows len) rows).take len

/-- No layer decodes a row below the cut to another one. -/
def CutKeeps (layers : List (LayerFormat Row)) (rows : List Row) (len : Nat) : Prop :=
  keptRows layers rows len = rows.take len

variable {layers : List (LayerFormat Row)} {rows : List Row} {len : Nat}

theorem length_keptRows : (keptRows layers rows len).length = min len rows.length := by
  have hlength : (layers.foldl (fun rows format => format.truncateTo rows len) rows).length =
      rows.length := by
    induction layers generalizing rows with
    | nil => rfl
    | cons format layers ih => rw [List.foldl_cons, ih, LayerFormat.length_truncateTo]
  unfold keptRows
  rw [List.length_take, hlength]

theorem keptRows_of_length_le (h : rows.length <= len) : keptRows layers rows len = rows := by
  have hfold : layers.foldl (fun rows format => format.truncateTo rows len) rows = rows := by
    induction layers with
    | nil => rfl
    | cons format layers ih => rw [List.foldl_cons, LayerFormat.truncateTo_of_length_le h, ih]
  unfold keptRows
  rw [hfold, List.take_of_length_le h]

theorem cutKeeps_of_f16 (h : forall format, format ∈ layers -> format = .f16) :
    CutKeeps layers rows len := by
  have hfold : layers.foldl (fun rows format => format.truncateTo rows len) rows = rows := by
    induction layers with
    | nil => rfl
    | cons format layers ih =>
      rw [List.foldl_cons, h format List.mem_cons_self]
      exact ih fun other hother => h other (List.mem_cons_of_mem format hother)
  unfold CutKeeps keptRows
  rw [hfold]

theorem keptRows_induction {holds : Nat -> Row -> Prop}
    (hrows : forall i row, rows[i]? = some row -> holds i row)
    (hdecode : forall sinkTokens group decodeBlock hlength,
      .kvarn sinkTokens group decodeBlock hlength ∈ layers ->
      forall start (block : List Row),
        (forall i row, block[i]? = some row -> holds (start + i) row) ->
        forall i row, (decodeBlock block)[i]? = some row -> holds (start + i) row) :
    forall i row, (keptRows layers rows len)[i]? = some row -> holds i row := by
  have hfold : forall i row,
      (layers.foldl (fun rows format => format.truncateTo rows len) rows)[i]? = some row ->
        holds i row := by
    induction layers generalizing rows with
    | nil => exact hrows
    | cons format layers ih =>
      rw [List.foldl_cons]
      apply ih
      · apply LayerFormat.truncateTo_induction hrows
        intro sinkTokens group decodeBlock hlength hformat
        apply hdecode
        rw [← hformat]
        exact List.mem_cons_self
      · intro sinkTokens group decodeBlock hlength hmem
        exact hdecode _ _ _ _ (List.mem_cons_of_mem format hmem)
  unfold keptRows
  intro i row hrow
  have hi := (List.getElem?_eq_some_iff.mp hrow).1
  rw [List.length_take] at hi
  rw [List.getElem?_take_of_lt (by omega)] at hrow
  exact hfold i row hrow

end Cuts

/-!
# The target engine

A model is a deterministic forward function over the cached rows and a
recurrent state.  The rows are those that were written, also where a KVarN layer
has quantized them since: what it reads is a function of them.  The engine keeps
rows in slots under a current length, and slots past it keep what was written
there.
-/

abbrev TokenId : Type :=
  Nat

structure ForwardOutput (Row Rec Score : Type) where
  row : Row
  recState : Rec
  logits : List Score

structure Vocabulary where
  size : Nat
  eos : TokenId
  eos_lt : eos < size
  one_lt : 1 < size

/-- A model of a given architecture.  Without recurrent layers the recurrent
state is inert. -/
structure Model (Row Rec Score : Type) where
  architecture : Architecture
  vocab : Vocabulary
  maxSeqLen : Nat
  layers : List (LayerFormat Row)
  zeroRow : Row
  initRec : Rec
  forward : List Row -> Rec -> TokenId -> ForwardOutput Row Rec Score
  length_logits : forall rows state token,
    (forward rows state token).logits.length = vocab.size
  attentionOnly : architectureHasRecurrentState architecture = false ->
    forall rows state token, (forward rows state token).recState = state

structure Engine (Row Rec : Type) where
  slots : Nat -> Row
  currentLen : Nat
  recState : Rec

namespace Engine

variable {Row Rec Score : Type}

def fresh (model : Model Row Rec Score) : Engine Row Rec where
  slots := fun _ => model.zeroRow
  currentLen := 0
  recState := model.initRec

def rows (engine : Engine Row Rec) : List Row :=
  (List.range engine.currentLen).map engine.slots

def writeRow (engine : Engine Row Rec) (row : Row) (state : Rec) : Engine Row Rec where
  slots := fun i => if i = engine.currentLen then row else engine.slots i
  currentLen := engine.currentLen + 1
  recState := state

def setLen (layers : List (LayerFormat Row)) (engine : Engine Row Rec) (len : Nat) :
    Engine Row Rec :=
  { engine with
    slots := fun i => (keptRows layers engine.rows len)[i]?.getD (engine.slots i)
    currentLen := len }

def clearSequenceState (model : Model Row Rec Score) (engine : Engine Row Rec) :
    Engine Row Rec :=
  { engine with currentLen := 0, recState := model.initRec }

/-!
# Forward passes
-/

def overflow : Fault :=
  .panicked "KV cache overflow"

def forwardToken (model : Model Row Rec Score) (engine : Engine Row Rec)
    (token : TokenId) : Checked (Engine Row Rec × List Score) :=
  if engine.currentLen < model.maxSeqLen then
    let output := model.forward engine.rows engine.recState token
    .ok (engine.writeRow output.row output.recState, output.logits)
  else
    .error overflow

/-- A verify window: one row and one vector of logits for each token. -/
def forwardWindow (model : Model Row Rec Score) :
    Engine Row Rec -> List TokenId -> Checked (Engine Row Rec × List (List Score))
  | engine, [] => .ok (engine, [])
  | engine, token :: rest => do
      let (stepped, logits) <- engine.forwardToken model token
      let (final, restLogits) <- forwardWindow model stepped rest
      return (final, logits :: restLogits)

section

variable (model : Model Row Rec Score) (engine : Engine Row Rec)

def forwardPrompt (tokens : List TokenId) : Checked (Engine Row Rec × List Score) := do
  let (prefilled, allLogits) <- engine.forwardWindow model tokens
  match allLogits.getLast? with
  | some logits => return (prefilled, logits)
  | none => report "prefill produced no logits"

theorem forwardToken_currentLen_le (token : TokenId) :
    Returns (engine.forwardToken model token) (fun result =>
      result.1.currentLen <= model.maxSeqLen) := by
  unfold forwardToken
  split
  · rename_i hroom
    exact returns_ok hroom
  · exact returns_error _ _

theorem forwardWindow_currentLen_le (window : List TokenId) :
    Returns (engine.forwardWindow model window) (fun result =>
      engine.currentLen <= model.maxSeqLen ∨ window ≠ [] ->
        result.1.currentLen <= model.maxSeqLen) := by
  induction window generalizing engine with
  | nil =>
    apply returns_ok
    intro h
    rcases h with hle | hne
    · exact hle
    · exact absurd rfl hne
  | cons token rest ih =>
    intro final hfinal
    rcases bind_eq_ok hfinal with ⟨stepped, hstepped, hrest⟩
    rcases bind_eq_ok hrest with ⟨tail, htail, hresult⟩
    cases hresult
    intro _
    exact ih stepped.1 tail htail
      (Or.inl (forwardToken_currentLen_le model engine token stepped hstepped))

end

/-!
# Checkpoints
-/

structure Checkpoint (Rec : Type) where
  kvLen : Nat
  recState : Rec

def save (engine : Engine Row Rec) : Checkpoint Rec where
  kvLen := engine.currentLen
  recState := engine.recState

/-- `layers` are the layers that hold rows up to the engine's length. -/
def restore (layers : List (LayerFormat Row)) (checkpoint : Checkpoint Rec)
    (engine : Engine Row Rec) : Engine Row Rec :=
  { engine.setLen layers checkpoint.kvLen with recState := checkpoint.recState }

/-!
# Rows under the operations
-/

variable (engine : Engine Row Rec)

@[simp] theorem length_rows :
    engine.rows.length = engine.currentLen := by
  simp [rows]

@[simp] theorem currentLen_writeRow (row : Row) (state : Rec) :
    (engine.writeRow row state).currentLen = engine.currentLen + 1 := rfl

@[simp] theorem recState_writeRow (row : Row) (state : Rec) :
    (engine.writeRow row state).recState = state := rfl

variable (layers : List (LayerFormat Row))

@[simp] theorem currentLen_setLen (len : Nat) :
    (engine.setLen layers len).currentLen = len := rfl

@[simp] theorem recState_setLen (len : Nat) :
    (engine.setLen layers len).recState = engine.recState := rfl

theorem getElem?_rows (i : Nat) :
    engine.rows[i]? = if i < engine.currentLen then some (engine.slots i) else none := by
  unfold rows
  rw [List.getElem?_map]
  split
  · rename_i hi
    rw [List.getElem?_range hi]
    rfl
  · rename_i hi
    rw [List.getElem?_eq_none (by rw [List.length_range]; exact Nat.not_lt.mp hi)]
    rfl

theorem rows_writeRow (row : Row) (state : Rec) :
    (engine.writeRow row state).rows = engine.rows ++ [row] := by
  unfold rows writeRow
  rw [List.range_succ, List.map_append]
  have hold : (List.range engine.currentLen).map
        (fun i => if i = engine.currentLen then row else engine.slots i) =
      (List.range engine.currentLen).map engine.slots := by
    apply List.map_congr_left
    intro i hi
    exact if_neg (Nat.ne_of_lt (List.mem_range.mp hi))
  rw [hold]
  simp

/-- What an engine keeps of an earlier one: everything below its length. -/
structure Extends (base engine : Engine Row Rec) : Prop where
  length : base.currentLen <= engine.currentLen
  slots : forall i, i < base.currentLen -> engine.slots i = base.slots i

theorem extends_refl : engine.Extends engine where
  length := Nat.le_refl _
  slots := fun _ _ => rfl

theorem Extends.trans
    {first second third : Engine Row Rec} (hfirst : first.Extends second)
    (hsecond : second.Extends third) :
    first.Extends third where
  length := Nat.le_trans hfirst.length hsecond.length
  slots := fun i hi =>
    (hsecond.slots i (Nat.lt_of_lt_of_le hi hfirst.length)).trans (hfirst.slots i hi)

theorem extends_writeRow (row : Row) (state : Rec) :
    engine.Extends (engine.writeRow row state) where
  length := Nat.le_succ _
  slots := fun _ hi => if_neg (Nat.ne_of_lt hi)

theorem take_rows_of_extends {base engine : Engine Row Rec} (h : base.Extends engine) :
    engine.rows.take base.currentLen = base.rows := by
  unfold rows
  rw [← List.map_take, List.take_range, Nat.min_eq_left h.length]
  apply List.map_congr_left
  intro i hi
  exact h.slots i (List.mem_range.mp hi)

variable {engine : Engine Row Rec} {layers : List (LayerFormat Row)}

theorem setLen_currentLen (layers : List (LayerFormat Row)) (engine : Engine Row Rec) :
    engine.setLen layers engine.currentLen = engine := by
  have hslots : (fun i => (keptRows layers engine.rows engine.currentLen)[i]?.getD
      (engine.slots i)) = engine.slots := by
    funext i
    rw [keptRows_of_length_le (Nat.le_of_eq engine.length_rows), getElem?_rows]
    split
    · rfl
    · rfl
  unfold setLen
  rw [hslots]

theorem restore_save (layers : List (LayerFormat Row)) (engine : Engine Row Rec) :
    engine.restore layers engine.save = engine := by
  unfold restore save
  dsimp only
  rw [setLen_currentLen]

theorem rows_setLen {len : Nat} (hlen : len <= engine.currentLen) :
    (engine.setLen layers len).rows = keptRows layers engine.rows len := by
  have hlength : (keptRows layers engine.rows len).length = len := by
    rw [length_keptRows, length_rows, Nat.min_eq_left hlen]
  apply List.ext_getElem?
  intro i
  rw [getElem?_rows]
  split
  · rename_i hi
    have hkept := List.getElem?_eq_getElem (l := keptRows layers engine.rows len)
      (hlength.symm ▸ hi)
    unfold setLen
    dsimp only
    rw [hkept]
    rfl
  · rename_i hi
    exact (List.getElem?_eq_none (hlength.symm ▸ Nat.not_lt.mp hi)).symm

theorem rows_setLen_of_keeps {len : Nat} (hlen : len <= engine.currentLen)
    (hkeeps : CutKeeps layers engine.rows len) :
    (engine.setLen layers len).rows = engine.rows.take len :=
  (rows_setLen hlen).trans hkeeps

theorem rows_restore {base : Engine Row Rec} (h : base.Extends engine)
    (hkeeps : CutKeeps layers engine.rows base.currentLen) :
    (engine.restore layers base.save).rows = base.rows :=
  (rows_setLen_of_keeps h.length hkeeps).trans (take_rows_of_extends h)

end Engine

/-!
# The sequential state of a prefix

What the model computes when it forwards a token list one token at a time.
-/

namespace Model

variable {Row Rec Score : Type}

def after (model : Model Row Rec Score) (tokens : List TokenId) : List Row × Rec :=
  tokens.foldl
    (fun state token =>
      let output := model.forward state.1 state.2 token
      (state.1 ++ [output.row], output.recState))
    ([], model.initRec)

def outputAt (model : Model Row Rec Score) (tokens : List TokenId) (token : TokenId) :
    ForwardOutput Row Rec Score :=
  model.forward (model.after tokens).1 (model.after tokens).2 token

variable (model : Model Row Rec Score)

theorem after_snoc (tokens : List TokenId) (token : TokenId) :
    model.after (tokens ++ [token]) =
      ((model.after tokens).1 ++ [(model.outputAt tokens token).row],
        (model.outputAt tokens token).recState) := by
  simp [after, outputAt, List.foldl_append]

theorem length_after (tokens : List TokenId) :
    (model.after tokens).1.length = tokens.length := by
  induction tokens using List.reverseRecOn with
  | nil => rfl
  | append_singleton tokens token ih =>
    rw [after_snoc, List.length_append, List.length_append, ih]
    rfl

theorem take_after (tokens more : List TokenId) :
    (model.after (tokens ++ more)).1.take tokens.length = (model.after tokens).1 := by
  induction more using List.reverseRecOn with
  | nil => rw [List.append_nil, ← model.length_after tokens, List.take_length]
  | append_singleton more token ih =>
    have hle : tokens.length <= (model.after (tokens ++ more)).1.length := by
      rw [length_after, List.length_append]
      exact Nat.le_add_right _ _
    rw [← List.append_assoc, after_snoc, List.take_append_of_le_length hle, ih]

theorem recState_after
    (hinert : forall rows state token, (model.forward rows state token).recState = state)
    (tokens : List TokenId) :
    (model.after tokens).2 = model.initRec := by
  induction tokens using List.reverseRecOn with
  | nil => rfl
  | append_singleton tokens token ih =>
    rw [after_snoc]
    exact (hinert _ _ _).trans ih

/-- The logits after a prefix; nothing has been computed after the empty one. -/
def logitsAfter (model : Model Row Rec Score) (tokens : List TokenId) : List Score :=
  match tokens.getLast? with
  | some token => (model.outputAt tokens.dropLast token).logits
  | none => []

theorem logitsAfter_snoc (tokens : List TokenId) (token : TokenId) :
    model.logitsAfter (tokens ++ [token]) = (model.outputAt tokens token).logits := by
  simp [logitsAfter]

theorem length_logitsAfter {tokens : List TokenId} (h : tokens ≠ []) :
    (model.logitsAfter tokens).length = model.vocab.size := by
  have hsplit := List.dropLast_append_getLast h
  rw [← hsplit, logitsAfter_snoc]
  exact model.length_logits _ _ _

end Model

/-!
# Engines that hold a prefix
-/

namespace Engine

variable {Row Rec Score : Type}

/-- The engine is in the state of forwarding exactly these tokens. -/
structure Holds (model : Model Row Rec Score) (engine : Engine Row Rec)
    (tokens : List TokenId) : Prop where
  rows : engine.rows = (model.after tokens).1
  recState : engine.recState = (model.after tokens).2

theorem holds_clear (model : Model Row Rec Score) (engine : Engine Row Rec) :
    (engine.clearSequenceState model).Holds model [] where
  rows := rfl
  recState := rfl

variable {model : Model Row Rec Score} {engine : Engine Row Rec} {tokens : List TokenId}

theorem Holds.currentLen (h : engine.Holds model tokens) :
    engine.currentLen = tokens.length := by
  rw [← length_rows, h.rows, model.length_after]

theorem holds_restore {layers : List (LayerFormat Row)} {base engine : Engine Row Rec}
    (h : base.Holds model tokens) (hextends : base.Extends engine)
    (hkeeps : CutKeeps layers engine.rows base.currentLen) :
    (engine.restore layers base.save).Holds model tokens where
  rows := (rows_restore hextends hkeeps).trans h.rows
  recState := h.recState

theorem holds_writeRow (token : TokenId) (h : engine.Holds model tokens) :
    (engine.writeRow (model.forward engine.rows engine.recState token).row
        (model.forward engine.rows engine.recState token).recState).Holds model
      (tokens ++ [token]) := by
  constructor
  · rw [rows_writeRow, model.after_snoc, h.rows, h.recState]
    rfl
  · rw [recState_writeRow, model.after_snoc, h.rows, h.recState]
    rfl

theorem holds_setLen {tokens more : List TokenId}
    (hinert : forall rows state token, (model.forward rows state token).recState = state)
    (hkeeps : CutKeeps model.layers (model.after (tokens ++ more)).1 tokens.length)
    (h : engine.Holds model (tokens ++ more)) :
    (engine.setLen model.layers tokens.length).Holds model tokens where
  rows := by
    have hlen : tokens.length <= engine.currentLen := by
      rw [h.currentLen, List.length_append]
      exact Nat.le_add_right _ _
    rw [← h.rows] at hkeeps
    rw [rows_setLen_of_keeps hlen hkeeps, h.rows, model.take_after]
  recState := by
    rw [recState_setLen, h.recState, model.recState_after hinert, model.recState_after hinert]

end Engine

end Inference
end RunNBurn
