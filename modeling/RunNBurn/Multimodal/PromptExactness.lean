import RunNBurn.Multimodal.PromptLayout

/-!
# The hidden rows of a prompt with an image

The hidden buffer holds the scaled row of each token and the row of each image part at its index
among the rows of the prompt.
-/

namespace RunNBurn
namespace Multimodal

open Library

variable {value : Type}

structure EmbedsTokens (hiddenWidth : Nat) (ids : List UInt32)
    (gatherTokens : List UInt32 -> Except (Stop LlmError) (List value))
    (scaleTokenEmbeddings : List value -> List value) (embed : UInt32 -> List value)
    (scaleRow : List value -> List value) : Prop where
  gather : forall part, (forall id, id ∈ part -> id ∈ ids) ->
    gatherTokens part = .ok (part.flatMap embed)
  width : forall id, id ∈ ids -> (embed id).length = hiddenWidth
  scale : forall rows : List (List value), (forall row, row ∈ rows -> row.length = hiddenWidth) ->
    scaleTokenEmbeddings rows.flatten = rows.flatMap scaleRow
  scaledWidth : forall row, row.length = hiddenWidth -> (scaleRow row).length = hiddenWidth

section Assembly

variable {hiddenWidth gridWidth gridHeight width : Nat} {leading trailing : List UInt32}
  {gatherTokens : List UInt32 -> Except (Stop LlmError) (List value)}
  {scaleTokenEmbeddings : List value -> List value} {embed : UInt32 -> List value}
  {scaleRow : List value -> List value} {values : List value} {prompt : CompiledPrompt value}

theorem EmbedsTokens.mono {ids part : List UInt32}
    (h : EmbedsTokens hiddenWidth ids gatherTokens scaleTokenEmbeddings embed scaleRow)
    (hpart : forall id, id ∈ part -> id ∈ ids) :
    EmbedsTokens hiddenWidth part gatherTokens scaleTokenEmbeddings embed scaleRow where
  gather := fun inner hinner => h.gather inner (fun id hid => hpart id (hinner id hid))
  width := fun id hid => h.width id (hpart id hid)
  scale := h.scale
  scaledWidth := h.scaledWidth

theorem EmbedsTokens.spanHidden_eq {ids : List UInt32}
    (h : EmbedsTokens hiddenWidth ids gatherTokens scaleTokenEmbeddings embed scaleRow)
    (hfits : ids.length * hiddenWidth < usizeLimit) :
    spanHidden hiddenWidth gatherTokens scaleTokenEmbeddings (.tokens ids) =
      .ok (ids.flatMap fun id => scaleRow (embed id)) := by
  have huniform : UniformRows embed hiddenWidth ids := h.width
  unfold spanHidden
  dsimp only
  rw [h.gather ids (fun id hid => hid), ok_bind, fits_of_lt hfits, ok_bind,
    if_neg (not_not_intro (length_flatMap_of_uniformRows huniform)), List.flatMap_def,
    h.scale _ ?_, List.flatMap_map]
  · rfl
  · intro row hrow
    rcases List.mem_map.mp hrow with ⟨id, hid, hsame⟩
    rw [← hsame]
    exact h.width id hid

theorem EmbedsTokens.foldlM_appendHidden {groups : List (List UInt32)}
    (h : EmbedsTokens hiddenWidth groups.flatten gatherTokens scaleTokenEmbeddings embed scaleRow)
    (hfits : groups.flatten.length * hiddenWidth < usizeLimit) (hidden : List value) :
    (tokenSpans groups).foldlM (appendHidden hiddenWidth gatherTokens scaleTokenEmbeddings) hidden =
      .ok (hidden ++ groups.flatten.flatMap fun id => scaleRow (embed id)) := by
  induction groups generalizing hidden with
  | nil =>
    rw [List.flatten_nil, List.flatMap_nil, List.append_nil]
    rfl
  | cons ids rest ih =>
    rw [List.flatten_cons] at h hfits
    rw [List.length_append, Nat.add_mul] at hfits
    have hids := h.mono (fun id hid => List.mem_append_left rest.flatten hid)
    have hrest := h.mono (fun id hid => List.mem_append_right ids hid)
    unfold tokenSpans at ih ⊢
    rw [List.map_cons, List.foldlM_cons]
    unfold appendHidden at ih ⊢
    rw [hids.spanHidden_eq (by omega), ok_bind, pure_bind, ih hrest (by omega),
      List.flatten_cons, List.flatMap_append, List.append_assoc]

/-- The rows of a prompt, with the scale on the rows of the tokens only. -/
def hiddenRows (token : UInt32 -> List value) (leading trailing : List UInt32) (rows width : Nat)
    (values : List value) : List (List value) :=
  leading.map token ++ (List.range rows).map (rowAt width values) ++ trailing.map token

theorem PromptLayout.assemblePromptHidden_eq
    (hlayout : PromptLayout leading trailing hiddenWidth gridWidth gridHeight values prompt)
    (h : EmbedsTokens hiddenWidth (leading ++ trailing) gatherTokens scaleTokenEmbeddings embed
      scaleRow)
    (hlength : values.length = gridWidth * gridHeight * hiddenWidth)
    (hfits : prompt.executedRows * hiddenWidth < usizeLimit) :
    assemblePromptHidden prompt hiddenWidth gatherTokens scaleTokenEmbeddings =
      .ok (hiddenRows (fun id => scaleRow (embed id)) leading trailing (gridWidth * gridHeight)
        hiddenWidth values).flatten := by
  rcases hlayout.spans with ⟨front, back, hfront, hback, hspans⟩
  have hexecuted := hlayout.executedRows
  rw [hexecuted, Nat.add_mul, Nat.add_mul] at hfits
  have hleading : EmbedsTokens hiddenWidth front.flatten gatherTokens scaleTokenEmbeddings embed
      scaleRow := by
    rw [hfront]
    exact h.mono (fun id hid => List.mem_append_left trailing hid)
  have htrailing : EmbedsTokens hiddenWidth back.flatten gatherTokens scaleTokenEmbeddings embed
      scaleRow := by
    rw [hback]
    exact h.mono (fun id hid => List.mem_append_right leading hid)
  have hscaled : forall id,
    id ∈ leading ++ trailing -> (scaleRow (embed id)).length = hiddenWidth :=
    fun id hid => h.scaledWidth _ (h.width id hid)
  have himage : spanHidden hiddenWidth gatherTokens scaleTokenEmbeddings
      (.embeddings (gridWidth * gridHeight) hiddenWidth values gridWidth gridHeight) =
      .ok values := by
    unfold spanHidden
    dsimp only
    rw [if_neg (not_not_intro rfl), fits_of_lt (by omega), ok_bind,
      if_neg (not_not_intro hlength)]
    rfl
  have hloop : prompt.spans.foldlM (appendHidden hiddenWidth gatherTokens scaleTokenEmbeddings) [] =
      .ok (hiddenRows (fun id => scaleRow (embed id)) leading trailing (gridWidth * gridHeight)
        hiddenWidth values).flatten := by
    rw [hspans]
    unfold groupSpans
    rw [List.foldlM_append, List.foldlM_append, hleading.foldlM_appendHidden (by
      rw [hfront]
      omega), ok_bind, List.foldlM_cons]
    unfold appendHidden
    rw [himage, ok_bind, pure_bind, List.foldlM_nil, pure_bind]
    refine Eq.trans (htrailing.foldlM_appendHidden (by
      rw [hback]
      omega) _) ?_
    unfold hiddenRows
    rw [hfront, hback, List.nil_append, List.flatten_append, List.flatten_append,
      ← List.flatMap_def, ← List.flatMap_def, ← List.flatMap_def, flatMap_rowAt, ← hlength,
      List.take_length]
  have htotal : (hiddenRows (fun id => scaleRow (embed id)) leading trailing
      (gridWidth * gridHeight) hiddenWidth values).flatten.length =
      prompt.executedRows * hiddenWidth := by
    unfold hiddenRows
    rw [List.flatten_append, List.flatten_append, ← List.flatMap_def, ← List.flatMap_def,
      ← List.flatMap_def, flatMap_rowAt, ← hlength, List.take_length, List.length_append,
      List.length_append,
      length_flatMap_of_uniformRows (fun id hid => hscaled id (List.mem_append_left _ hid)),
      length_flatMap_of_uniformRows (fun id hid => hscaled id (List.mem_append_right _ hid)),
      hlength, hexecuted, Nat.add_mul, Nat.add_mul]
  unfold assemblePromptHidden
  rw [fits_of_lt (by rw [hexecuted, Nat.add_mul, Nat.add_mul]; exact hfits), ok_bind,
    hloop, ok_bind, if_neg (not_not_intro htotal)]
  rfl

theorem fits_eq_ok {stop : Type} {limit n m : Nat} {fault : stop} (h : fits limit n fault = .ok m) :
    n < limit := by
  by_contra hlimit
  rw [fits_of_le (Nat.not_lt.mp hlimit)] at h
  cases h

theorem PromptLayout.of_assemblePromptHidden {hidden : List value}
    (hlayout : PromptLayout leading trailing width gridWidth gridHeight values prompt)
    (h : assemblePromptHidden prompt hiddenWidth gatherTokens scaleTokenEmbeddings = .ok hidden) :
    width = hiddenWidth ∧ prompt.executedRows * hiddenWidth < usizeLimit := by
  rcases hlayout.spans with ⟨front, back, hfront, hback, hspans⟩
  unfold assemblePromptHidden at h
  rcases bind_eq_ok h with ⟨expected, hexpected, hrest⟩
  constructor
  · by_contra hwidth
    rcases bind_eq_ok hrest with ⟨rows, hrows, hchecked⟩
    rw [hspans] at hrows
    unfold groupSpans at hrows
    rw [List.foldlM_append, List.foldlM_append] at hrows
    rcases bind_eq_ok hrows with ⟨middle, hmiddle, hbackRows⟩
    rcases bind_eq_ok hmiddle with ⟨first, hfirst, himage⟩
    rw [List.foldlM_cons] at himage
    rcases bind_eq_ok himage with ⟨appended, happended, hnone⟩
    unfold appendHidden at happended
    rcases bind_eq_ok happended with ⟨part, hpart, hjoined⟩
    unfold spanHidden at hpart
    dsimp only at hpart
    rw [if_pos hwidth] at hpart
    cases hpart
  · exact fits_eq_ok hexpected

theorem getElem?_hiddenRows_rowAt {token : UInt32 -> List value} {rows : Nat}
    (htoken : forall id, id ∈ leading ++ trailing -> (token id).length = hiddenWidth)
    (hlength : values.length = rows * hiddenWidth) :
    let hidden := (hiddenRows token leading trailing rows hiddenWidth values).flatten
    hidden.length = (leading.length + rows + trailing.length) * hiddenWidth ∧
    (forall (i : Nat) id, leading[i]? = some id -> rowAt hiddenWidth hidden i = token id) ∧
    (forall t, t < rows ->
      rowAt hiddenWidth hidden (leading.length + t) = rowAt hiddenWidth values t) ∧
    (forall (i : Nat) id, trailing[i]? = some id ->
      rowAt hiddenWidth hidden (leading.length + rows + i) = token id) := by
  have huniform : UniformRows (fun row => row) hiddenWidth
      (hiddenRows token leading trailing rows hiddenWidth values) := by
    intro row hrow
    rcases List.mem_append.mp hrow with hfirst | htrailing
    · rcases List.mem_append.mp hfirst with hleading | himage
      · rcases List.mem_map.mp hleading with ⟨id, hid, hsame⟩
        rw [← hsame]
        exact htoken id (List.mem_append_left trailing hid)
      · rcases List.mem_map.mp himage with ⟨t, ht, hsame⟩
        rw [← hsame]
        exact length_rowAt hlength (List.mem_range.mp ht)
    · rcases List.mem_map.mp htrailing with ⟨id, hid, hsame⟩
      rw [← hsame]
      exact htoken id (List.mem_append_right leading hid)
  have hrow : forall (t : Nat) row,
      (hiddenRows token leading trailing rows hiddenWidth values)[t]? = some row ->
      rowAt hiddenWidth (hiddenRows token leading trailing rows hiddenWidth values).flatten t =
        row := by
    intro t row hget
    have hflat := rowAt_flatMap huniform hget
    rw [List.flatMap_id'] at hflat
    exact hflat
  intro hidden
  refine ⟨?_, ?_, ?_, ?_⟩
  · have hcount := length_flatMap_of_uniformRows huniform
    rw [List.flatMap_id'] at hcount
    refine Eq.trans hcount ?_
    unfold hiddenRows
    rw [List.length_append, List.length_append, List.length_map, List.length_map, List.length_map,
      List.length_range]
  · intro i id hid
    have hi : i < leading.length := (List.getElem?_eq_some_iff.mp hid).1
    apply hrow
    unfold hiddenRows
    rw [List.append_assoc, List.getElem?_append_left (by rw [List.length_map]; exact hi),
      List.getElem?_map, hid]
    rfl
  · intro t ht
    apply hrow
    unfold hiddenRows
    rw [List.append_assoc,
      List.getElem?_append_right (by rw [List.length_map]; exact Nat.le_add_right _ t),
      List.length_map, Nat.add_sub_cancel_left,
      List.getElem?_append_left (by rw [List.length_map, List.length_range]; exact ht),
      List.getElem?_map, List.getElem?_range ht]
    rfl
  · intro i id hid
    apply hrow
    have hskip : (leading.map token ++ (List.range rows).map (rowAt hiddenWidth values)).length =
        leading.length + rows := by
      rw [List.length_append, List.length_map, List.length_map, List.length_range]
    unfold hiddenRows
    rw [List.getElem?_append_right (by rw [hskip]; exact Nat.le_add_right _ i), hskip,
      Nat.add_sub_cancel_left, List.getElem?_map, hid]
    rfl

end Assembly

/-- For an image between two texts the lists of a compiled prompt describe the same rows, and
every row has its own place in the hidden buffer.  A prompt is compiled when its positions are
32-bit numbers, for Qwen3.6 also only with a positive projection width. -/
theorem prompts_with_image_aligned (before after : List UInt32)
    (placeholder imageBeginId imageEndId : UInt32) (imageFingerprint : Vector UInt8 32)
    (gridWidth gridHeight projectionDim : Nat) (embeddings : List value)
    (hbefore : placeholder ∉ before) (hafter : placeholder ∉ after) (hwidth : 0 < gridWidth)
    (hheight : 0 < gridHeight)
    (hlength : embeddings.length = gridWidth * gridHeight * projectionDim)
    (hfits : embeddings.length < usizeLimit) :
    let qwen := compileQwen36Prompt (before ++ placeholder :: after) placeholder
      { mergedGridWidth := gridWidth
        mergedGridHeight := gridHeight
        projectionDim := projectionDim
        embeddings := embeddings } imageFingerprint
    let gemma := compileGemma4Prompt (before ++ placeholder :: after) placeholder imageBeginId
      imageEndId
      { pooledGridWidth := gridWidth
        pooledGridHeight := gridHeight
        projectionDim := projectionDim
        embeddings := embeddings } imageFingerprint
    ((exists prompt, qwen = .ok prompt) ↔
      0 < projectionDim ∧
      before.length + max gridWidth gridHeight + after.length < u32Limit) ∧
    (forall prompt, qwen = .ok prompt ->
      PromptLayout before after projectionDim gridWidth gridHeight embeddings prompt ∧
      ImropeLayout before.length after.length gridWidth gridHeight prompt) ∧
    ((exists prompt, gemma = .ok prompt) ↔
      before.length + gridWidth * gridHeight + after.length + 2 < u32Limit) ∧
    (forall prompt, gemma = .ok prompt ->
      PromptLayout (before ++ [imageBeginId]) (imageEndId :: after) projectionDim gridWidth
        gridHeight embeddings prompt ∧
      prompt.positions = .linear ∧
      prompt.logicalPositionEnd = prompt.executedRows) ∧
    forall leading trailing (prompt : CompiledPrompt value),
      PromptLayout leading trailing projectionDim gridWidth gridHeight embeddings prompt ->
      forall hiddenWidth gatherTokens scaleTokenEmbeddings embed scaleRow,
        EmbedsTokens hiddenWidth (leading ++ trailing) gatherTokens scaleTokenEmbeddings embed
          scaleRow ->
        let assembled := assemblePromptHidden prompt hiddenWidth gatherTokens scaleTokenEmbeddings
        ((exists hidden, assembled = .ok hidden) ↔
          projectionDim = hiddenWidth ∧ prompt.executedRows * hiddenWidth < usizeLimit) ∧
        forall hidden, assembled = .ok hidden ->
          hidden.length = prompt.executedRows * hiddenWidth ∧
          (forall (i : Nat) id, leading[i]? = some id ->
            rowAt hiddenWidth hidden i = scaleRow (embed id)) ∧
          (forall t, t < gridWidth * gridHeight ->
            rowAt hiddenWidth hidden (leading.length + t) = rowAt hiddenWidth embeddings t) ∧
          (forall (i : Nat) id, trailing[i]? = some id ->
            rowAt hiddenWidth hidden (leading.length + gridWidth * gridHeight + i) =
              scaleRow (embed id)) := by
  intro qwen gemma
  refine ⟨?_, ?_, ?_, ?_, ?_⟩
  · constructor
    · intro hok
      rcases hok with ⟨prompt, hprompt⟩
      exact compileQwen36Prompt_eq_ok hbefore hafter hlength hfits hprompt
    · intro h
      rcases compileQwen36Prompt_of_lt hbefore hafter hwidth hheight h.left hlength hfits h.right
        with ⟨prompt, hprompt, -⟩
      exact Exists.intro prompt hprompt
  · intro prompt hprompt
    have h := compileQwen36Prompt_eq_ok hbefore hafter hlength hfits hprompt
    rcases compileQwen36Prompt_of_lt hbefore hafter hwidth hheight h.left hlength hfits h.right
      with ⟨other, hother, hlayout⟩
    have hsame : prompt = other := Except.ok.inj (hprompt.symm.trans hother)
    rw [hsame]
    exact hlayout
  · constructor
    · intro hok
      rcases hok with ⟨prompt, hprompt⟩
      have hrows := compileGemma4Prompt_eq_ok_rows hbefore hafter hprompt
      have hspans := hprompt
      dsimp only [gemma] at hspans
      rw [compileGemma4Prompt_of_lt hbefore hafter hrows hlength hfits] at hspans
      have hend := compileGemma4Spans_eq_ok flatten_textGroups_begin flatten_textGroups_end hspans
      rw [List.length_append, List.length_singleton, List.length_cons] at hend
      omega
    · intro hend
      have hrows : gridWidth * gridHeight < usizeLimit := by
        unfold u32Limit at hend
        unfold usizeLimit
        omega
      have hspans : (before ++ [imageBeginId]).length + gridWidth * gridHeight +
          (imageEndId :: after).length < u32Limit := by
        rw [List.length_append, List.length_singleton, List.length_cons]
        omega
      rcases compileGemma4Spans_of_lt flatten_textGroups_begin flatten_textGroups_end hspans with
        ⟨prompt, hprompt, -⟩
      exact Exists.intro prompt
        ((compileGemma4Prompt_of_lt hbefore hafter hrows hlength hfits).trans hprompt)
  · intro prompt hprompt
    have hrows := compileGemma4Prompt_eq_ok_rows hbefore hafter hprompt
    dsimp only [gemma] at hprompt
    rw [compileGemma4Prompt_of_lt hbefore hafter hrows hlength hfits] at hprompt
    have hend := compileGemma4Spans_eq_ok flatten_textGroups_begin flatten_textGroups_end hprompt
    rcases compileGemma4Spans_of_lt flatten_textGroups_begin flatten_textGroups_end hend with
      ⟨other, hother, hlayout⟩
    have hsame : prompt = other := Except.ok.inj (hprompt.symm.trans hother)
    rw [hsame]
    exact hlayout
  · intro leading trailing prompt hlayout hiddenWidth gatherTokens scaleTokenEmbeddings embed
      scaleRow hembeds assembled
    have hrows : projectionDim = hiddenWidth ->
        prompt.executedRows * hiddenWidth < usizeLimit ->
        assembled = .ok (hiddenRows (fun id => scaleRow (embed id)) leading trailing
          (gridWidth * gridHeight) hiddenWidth embeddings).flatten := by
      intro hsame hroom
      subst hsame
      exact hlayout.assemblePromptHidden_eq hembeds hlength hroom
    constructor
    · constructor
      · intro hok
        rcases hok with ⟨hidden, hhidden⟩
        exact hlayout.of_assemblePromptHidden hhidden
      · intro h
        exact Exists.intro _ (hrows h.left h.right)
    · intro hidden hhidden
      have h := hlayout.of_assemblePromptHidden hhidden
      have hresult : hidden = _ := Except.ok.inj (hhidden.symm.trans (hrows h.left h.right))
      have hplaced := getElem?_hiddenRows_rowAt
        (fun id hid => hembeds.scaledWidth _ (hembeds.width id hid)) (h.left ▸ hlength)
      rw [hresult, hlayout.executedRows]
      exact hplaced

def embedPair (id : UInt32) : List Nat :=
  [id.toNat, 10 * id.toNat]

def doubled (values : List Nat) : List Nat :=
  values.map fun x => 2 * x

theorem embedsTokens_embedPair (ids : List UInt32) :
    EmbedsTokens 2 ids (fun part => .ok (part.flatMap embedPair)) doubled embedPair doubled := by
  constructor
  · exact fun part _ => rfl
  · exact fun id _ => rfl
  · intro rows _
    unfold doubled
    rw [List.map_flatten, List.flatMap_def]
  · intro row hrow
    unfold doubled
    rw [List.length_map, hrow]

/-- Three tokens around an image of two rows of three.  It moves the positions of Qwen by three and
its rows by six.  Gemma counts rows. -/
theorem prompts_with_image_aligned_grid :
    exists qwen qwenHidden gemma gemmaHidden,
      compileQwen36Prompt [5, 9, 7, 8] 9
          { mergedGridWidth := 3
            mergedGridHeight := 2
            projectionDim := 2
            embeddings := List.range 12 } (Vector.replicate 32 0) = .ok qwen ∧
      (qwen.executedRows = 9 ∧ qwen.logicalPositionEnd = 6) ∧
      assemblePromptHidden qwen 2 (fun part => .ok (part.flatMap embedPair)) doubled =
        .ok qwenHidden ∧
      (rowAt 2 qwenHidden 6 = [10, 11] ∧ rowAt 2 qwenHidden 7 = [14, 140]) ∧
      compileGemma4Prompt [5, 9, 7, 8] 9 1 2
          { pooledGridWidth := 3
            pooledGridHeight := 2
            projectionDim := 2
            embeddings := List.range 12 } (Vector.replicate 32 0) = .ok gemma ∧
      (gemma.executedRows = 11 ∧ gemma.logicalPositionEnd = 11) ∧
      assemblePromptHidden gemma 2 (fun part => .ok (part.flatMap embedPair)) doubled =
        .ok gemmaHidden ∧
      rowAt 2 gemmaHidden 1 = [2, 20] ∧ rowAt 2 gemmaHidden 7 = [10, 11] ∧
      rowAt 2 gemmaHidden 8 = [4, 40] := by
  have h := prompts_with_image_aligned [5] [7, 8] 9 1 2 (Vector.replicate 32 0) 3 2 2
    (List.range 12) (by decide) (by decide) (by decide) (by decide) (by decide) (by decide)
  rcases h with ⟨hqwen, hqwenLayout, hgemma, hgemmaLayout, hassemble⟩
  rcases hqwen.mpr (by decide) with ⟨qwen, hqwenRun⟩
  rcases hqwenLayout qwen hqwenRun with ⟨hqwenRows, hpositions⟩
  rcases hgemma.mpr (by decide) with ⟨gemma, hgemmaRun⟩
  rcases hgemmaLayout gemma hgemmaRun with ⟨hgemmaRows, -, hend⟩
  have hqwenPlaced := hassemble [5] [7, 8] qwen hqwenRows 2 _ _ _ _ (embedsTokens_embedPair _)
  have hgemmaPlaced := hassemble [5, 1] [2, 7, 8] gemma hgemmaRows 2 _ _ _ _
    (embedsTokens_embedPair _)
  have hqwenCount : qwen.executedRows = 9 := hqwenRows.executedRows
  have hgemmaCount : gemma.executedRows = 11 := hgemmaRows.executedRows
  rcases hqwenPlaced.left.mpr (by rw [hqwenCount]; decide) with ⟨qwenHidden, hqwenHidden⟩
  rcases hgemmaPlaced.left.mpr (by rw [hgemmaCount]; decide) with ⟨gemmaHidden, hgemmaHidden⟩
  rcases hqwenPlaced.right qwenHidden hqwenHidden with ⟨-, -, hqwenImage, hqwenAfter⟩
  rcases hgemmaPlaced.right gemmaHidden hgemmaHidden with
    ⟨-, hgemmaBefore, hgemmaImage, hgemmaAfter⟩
  refine ⟨qwen, qwenHidden, gemma, gemmaHidden, hqwenRun,
    ⟨hqwenCount, hpositions.logicalPositionEnd⟩,
    hqwenHidden, ⟨hqwenImage 5 (by decide), hqwenAfter 0 7 rfl⟩, hgemmaRun,
    ⟨hgemmaCount, hend.trans hgemmaCount⟩, hgemmaHidden, hgemmaBefore 1 1 rfl,
    hgemmaImage 5 (by decide), hgemmaAfter 0 2 rfl⟩

/-- No values match the grid of a vision output without width, which is refused. -/
theorem compileQwen36Prompt_without_width :
    compileQwen36Prompt [9] 9
        ({ mergedGridWidth := 1
           mergedGridHeight := 1
           projectionDim := 0
           embeddings := [] } : Qwen36VisionOutput Nat) (Vector.replicate 32 0) =
      failForward "Qwen3.6 vision projection width must be positive" := by
  rfl

end Multimodal
end RunNBurn
