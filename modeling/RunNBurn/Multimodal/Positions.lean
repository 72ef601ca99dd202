import RunNBurn.Library.RowLoops

/-!
# Positions of a prompt with an image

A text row moves the logical position by one.  The rows of an image share the position of the
image and differ in their second and third component; afterwards the position moves by the
longer side of the grid.
-/

namespace RunNBurn
namespace Multimodal

open Library

variable {error : Type}

def u32Limit : Nat :=
  2 ^ 32

/-- A checked conversion or operation, which fails from the limit on. -/
def fits (limit n : Nat) (fault : error) : Except error Nat :=
  if n < limit then .ok n else .error fault

/-- One of the four components of a position is for the row and one for the column. -/
structure Position where
  temporal : Nat
  vertical : Nat
  horizontal : Nat
  fourth : Nat
deriving DecidableEq, Repr

/-- `[position; 4]` -/
def Position.all (position : Nat) : Position where
  temporal := position
  vertical := position
  horizontal := position
  fourth := position

inductive Qwen36PositionSpan where
  | text (rows : Nat)
  | image (gridWidth gridHeight : Nat)
deriving DecidableEq, Repr

structure Qwen36PositionPlan where
  positions : List Position
  physicalRows : Nat
  logicalPositionEnd : Nat
deriving DecidableEq, Repr

/-!
## The first loop
-/

structure SpanCount where
  physicalRows : Nat
  imageCount : Nat

def addRows (count : SpanCount) (rows imageCount : Nat) : Except String SpanCount := do
  let physicalRows <- fits usizeLimit (count.physicalRows + rows)
    "Qwen3.6 prompt physical row count overflows usize"
  return {
    physicalRows := physicalRows
    imageCount := imageCount }

def countSpan (count : SpanCount) (span : Qwen36PositionSpan) : Except String SpanCount :=
  match span with
  | .text rows => addRows count rows count.imageCount
  | .image gridWidth gridHeight => do
      let imageCount <- fits usizeLimit (count.imageCount + 1)
        "Qwen3.6 image span count overflows usize"
      if gridWidth = 0 ∨ gridHeight = 0 then
        .error "Qwen3.6 image grid dimensions must be positive"
      else do
        let rows <- fits usizeLimit (gridWidth * gridHeight)
          "Qwen3.6 image physical row count overflows usize"
        addRows count rows imageCount

/-!
## The second loop
-/

structure PlanState where
  positions : List Position
  logicalPosition : Nat

def pushText (state : PlanState) (_ : Nat) : Except String PlanState := do
  let next <- fits u32Limit (state.logicalPosition + 1)
    "Qwen3.6 text logical position overflows u32"
  return {
    positions := state.positions ++ [Position.all state.logicalPosition]
    logicalPosition := next }

def imagePosition (logicalPosition vertical x : Nat) : Except String Position := do
  let x <- fits u32Limit x "Qwen3.6 image grid width exceeds u32"
  let horizontal <- fits u32Limit (logicalPosition + x)
    "Qwen3.6 image horizontal position overflows u32"
  return {
    temporal := logicalPosition
    vertical := vertical
    horizontal := horizontal
    fourth := 0 }

def imageRow (logicalPosition gridWidth y : Nat) : Except String (List Position) := do
  let y <- fits u32Limit y "Qwen3.6 image grid height exceeds u32"
  let vertical <- fits u32Limit (logicalPosition + y)
    "Qwen3.6 image vertical position overflows u32"
  (List.range gridWidth).mapM (imagePosition logicalPosition vertical)

def planSpan (state : PlanState) (span : Qwen36PositionSpan) : Except String PlanState :=
  match span with
  | .text rows => (List.range rows).foldlM pushText state
  | .image gridWidth gridHeight => do
      let rows <- (List.range gridHeight).mapM (imageRow state.logicalPosition gridWidth)
      let advance <- fits u32Limit (max gridWidth gridHeight)
        "Qwen3.6 image logical advance exceeds u32"
      let next <- fits u32Limit (state.logicalPosition + advance)
        "Qwen3.6 image logical position overflows u32"
      return {
        positions := state.positions ++ rows.flatten
        logicalPosition := next }

def planQwen36MultimodalPositions (spans : List Qwen36PositionSpan) (logicalPositionStart : Nat) :
    Except String Qwen36PositionPlan := do
  let count <- spans.foldlM countSpan
    { physicalRows := 0
      imageCount := 0 }
  if count.imageCount ≠ 1 then
    .error s!"Qwen3.6 multimodal prompts require exactly one image span, got {count.imageCount}"
  else do
    let state <- spans.foldlM planSpan
      { positions := []
        logicalPosition := logicalPositionStart }
    return {
      positions := state.positions
      physicalRows := count.physicalRows
      logicalPositionEnd := state.logicalPosition }

/-!
# What the loops leave
-/

theorem fits_of_lt {limit n : Nat} {fault : error} (h : n < limit) : fits limit n fault = .ok n :=
  if_pos h

theorem fits_of_le {limit n : Nat} {fault : error} (h : limit <= n) :
    fits limit n fault = .error fault :=
  if_neg (Nat.not_lt.mpr h)

def textPositions (start rows : Nat) : List Position :=
  (List.range rows).map fun i => Position.all (start + i)

def imagePositions (base gridWidth gridHeight : Nat) : List Position :=
  (List.range gridHeight).flatMap fun y =>
    (List.range gridWidth).map fun x =>
      { temporal := base
        vertical := base + y
        horizontal := base + x
        fourth := 0 }

theorem length_textPositions (start rows : Nat) : (textPositions start rows).length = rows := by
  unfold textPositions
  rw [List.length_map, List.length_range]

theorem length_imagePositions (base gridWidth gridHeight : Nat) :
    (imagePositions base gridWidth gridHeight).length = gridHeight * gridWidth := by
  apply length_flatMap_range
  intro y _
  rw [List.length_map, List.length_range]

theorem foldlM_pushText (state : PlanState) (rows : Nat) (h : state.logicalPosition < u32Limit) :
    (List.range rows).foldlM pushText state =
      if state.logicalPosition + rows < u32Limit then
        .ok
          { positions := state.positions ++ textPositions state.logicalPosition rows
            logicalPosition := state.logicalPosition + rows }
      else
        .error "Qwen3.6 text logical position overflows u32" := by
  induction rows with
  | zero =>
    rw [Nat.add_zero, if_pos h]
    unfold textPositions
    rw [List.range_zero, List.map_nil, List.append_nil]
    rfl
  | succ rows ih =>
    rw [List.range_succ, List.foldlM_append, ih]
    by_cases hprevious : state.logicalPosition + rows < u32Limit
    · rw [if_pos hprevious, ok_bind, List.foldlM_cons]
      unfold pushText
      dsimp only
      by_cases hnext : state.logicalPosition + rows + 1 < u32Limit
      · rw [← Nat.add_assoc, fits_of_lt hnext, if_pos hnext]
        unfold textPositions
        rw [List.range_succ, List.map_append, List.map_singleton, ← List.append_assoc]
        rfl
      · rw [← Nat.add_assoc, fits_of_le (Nat.not_lt.mp hnext), if_neg hnext]
        rfl
    · rw [if_neg hprevious, ← Nat.add_assoc,
        if_neg (fun hnext => hprevious (Nat.lt_of_succ_lt hnext))]
      rfl

theorem planSpan_image_of_lt {state : PlanState} {gridWidth gridHeight : Nat}
    (h : state.logicalPosition + max gridWidth gridHeight < u32Limit) :
    planSpan state (.image gridWidth gridHeight) =
      .ok
        { positions := state.positions ++
            imagePositions state.logicalPosition gridWidth gridHeight
          logicalPosition := state.logicalPosition + max gridWidth gridHeight } := by
  have hwidth : gridWidth <= max gridWidth gridHeight := Nat.le_max_left _ _
  have hheight : gridHeight <= max gridWidth gridHeight := Nat.le_max_right _ _
  have hrow : forall y, y ∈ List.range gridHeight ->
      imageRow state.logicalPosition gridWidth y =
        .ok ((List.range gridWidth).map fun x =>
          { temporal := state.logicalPosition
            vertical := state.logicalPosition + y
            horizontal := state.logicalPosition + x
            fourth := 0 }) := by
    intro y hy
    have hyHeight : y < gridHeight := List.mem_range.mp hy
    unfold imageRow
    rw [fits_of_lt (by omega), ok_bind, fits_of_lt (by omega), ok_bind]
    apply mapM_eq_ok
    intro x hx
    have hxWidth : x < gridWidth := List.mem_range.mp hx
    unfold imagePosition
    rw [fits_of_lt (by omega), ok_bind, fits_of_lt (by omega)]
    rfl
  unfold planSpan
  dsimp only
  rw [mapM_eq_ok hrow, ok_bind, fits_of_lt (by omega), ok_bind,
    fits_of_lt h]
  unfold imagePositions
  rw [List.flatMap_def]
  rfl

theorem planSpan_image_of_le {state : PlanState} {gridWidth gridHeight : Nat}
    (h : u32Limit <= state.logicalPosition + max gridWidth gridHeight) :
    exists message, planSpan state (.image gridWidth gridHeight) = .error message := by
  unfold planSpan
  dsimp only
  cases (List.range gridHeight).mapM (imageRow state.logicalPosition gridWidth) with
  | error message => exact Exists.intro message rfl
  | ok rows =>
    rw [ok_bind]
    by_cases hadvance : max gridWidth gridHeight < u32Limit
    · rw [fits_of_lt hadvance, ok_bind, fits_of_le h]
      exact Exists.intro _ rfl
    · rw [fits_of_le (Nat.not_lt.mp hadvance)]
      exact Exists.intro _ rfl

/-!
# An image between two texts
-/

def textSpans (rows : Nat) : List Qwen36PositionSpan :=
  if 0 < rows then [.text rows] else []

def imageSpans (before gridWidth gridHeight after : Nat) : List Qwen36PositionSpan :=
  textSpans before ++ [.image gridWidth gridHeight] ++ textSpans after

theorem foldlM_textSpans (state : PlanState) (rows : Nat) :
    (textSpans rows).foldlM planSpan state = (List.range rows).foldlM pushText state := by
  unfold textSpans
  split
  next =>
    rw [List.foldlM_cons]
    unfold planSpan
    dsimp only
    cases (List.range rows).foldlM pushText state with
    | error message => rfl
    | ok next => rfl
  next hnone =>
    rw [Nat.eq_zero_of_not_pos hnone]
    rfl

variable {before after gridWidth gridHeight : Nat}

theorem foldlM_countSpan (hwidth : 0 < gridWidth) (hheight : 0 < gridHeight)
    (hfits : before + gridWidth * gridHeight + after < usizeLimit) :
    (imageSpans before gridWidth gridHeight after).foldlM countSpan
        { physicalRows := 0
          imageCount := 0 } =
      .ok
        { physicalRows := before + gridWidth * gridHeight + after
          imageCount := 1 } := by
  have htext : forall (count : SpanCount) rows, count.physicalRows + rows < usizeLimit ->
      (textSpans rows).foldlM countSpan count =
        .ok { count with physicalRows := count.physicalRows + rows } := by
    intro count rows hroom
    unfold textSpans
    split
    next =>
      rw [List.foldlM_cons]
      unfold countSpan addRows
      dsimp only
      rw [fits_of_lt hroom]
      rfl
    next hnone =>
      rw [Nat.eq_zero_of_not_pos hnone]
      rfl
  have himage : countSpan
      { physicalRows := before
        imageCount := 0 } (.image gridWidth gridHeight) =
      .ok
        { physicalRows := before + gridWidth * gridHeight
          imageCount := 1 } := by
    unfold countSpan addRows
    dsimp only
    rw [fits_of_lt (by decide : 0 + 1 < usizeLimit), ok_bind,
      if_neg (by omega : ¬(gridWidth = 0 ∨ gridHeight = 0)), fits_of_lt (by omega),
      ok_bind, fits_of_lt (by omega)]
    rfl
  unfold imageSpans
  rw [List.foldlM_append, List.foldlM_append, htext _ before (by dsimp only; omega),
    ok_bind, List.foldlM_cons]
  dsimp only
  rw [Nat.zero_add, himage, ok_bind]
  exact htext _ after hfits

theorem planQwen36MultimodalPositions_of_lt (hwidth : 0 < gridWidth) (hheight : 0 < gridHeight)
    (hrows : before + gridWidth * gridHeight + after < usizeLimit)
    (hend : before + max gridWidth gridHeight + after < u32Limit) :
    planQwen36MultimodalPositions (imageSpans before gridWidth gridHeight after) 0 =
      .ok
        { positions := textPositions 0 before ++ imagePositions before gridWidth gridHeight ++
            textPositions (before + max gridWidth gridHeight) after
          physicalRows := before + gridWidth * gridHeight + after
          logicalPositionEnd := before + max gridWidth gridHeight + after } := by
  unfold planQwen36MultimodalPositions
  rw [foldlM_countSpan hwidth hheight hrows, ok_bind]
  unfold imageSpans
  dsimp only
  rw [if_neg (by decide), List.foldlM_append, List.foldlM_append, foldlM_textSpans,
    foldlM_pushText _ _ (by decide), if_pos (by dsimp only; omega), ok_bind,
    List.foldlM_cons]
  dsimp only
  rw [Nat.zero_add, planSpan_image_of_lt (by dsimp only; omega), ok_bind, List.foldlM_nil,
    pure_bind]
  dsimp only
  rw [foldlM_textSpans, foldlM_pushText _ _ (by dsimp only; omega), if_pos (by dsimp only; omega)]
  rfl

theorem planQwen36MultimodalPositions_of_le
    (hend : u32Limit <= before + max gridWidth gridHeight + after) :
    exists message, planQwen36MultimodalPositions
      (imageSpans before gridWidth gridHeight after) 0 = .error message := by
  unfold planQwen36MultimodalPositions
  cases (imageSpans before gridWidth gridHeight after).foldlM countSpan
      { physicalRows := 0
        imageCount := 0 } with
  | error message => exact Exists.intro message rfl
  | ok count =>
    rw [ok_bind]
    by_cases hcount : count.imageCount ≠ 1
    · rw [if_pos hcount]
      exact Exists.intro _ rfl
    · unfold imageSpans
      rw [if_neg hcount, List.foldlM_append, List.foldlM_append, foldlM_textSpans,
        foldlM_pushText _ _ (by decide)]
      by_cases hbefore : 0 + before < u32Limit
      · rw [if_pos hbefore, ok_bind, List.foldlM_cons]
        dsimp only
        rw [Nat.zero_add]
        by_cases himage : before + max gridWidth gridHeight < u32Limit
        · rw [planSpan_image_of_lt (by dsimp only; omega), ok_bind, List.foldlM_nil,
            pure_bind]
          dsimp only
          rw [foldlM_textSpans, foldlM_pushText _ _ (by dsimp only; omega),
            if_neg (by dsimp only; omega)]
          exact Exists.intro _ rfl
        · have hnone : exists message, planSpan
              { positions := [] ++ textPositions 0 before
                logicalPosition := before } (.image gridWidth gridHeight) = .error message :=
            planSpan_image_of_le (Nat.not_lt.mp himage)
          rcases hnone with ⟨message, hmessage⟩
          rw [hmessage]
          exact Exists.intro message rfl
      · rw [if_neg hbefore]
        exact Exists.intro _ rfl

end Multimodal
end RunNBurn
