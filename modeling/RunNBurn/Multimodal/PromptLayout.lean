import RunNBurn.Library.Stopping
import RunNBurn.Multimodal.Prompt

/-!
# The rows of a compiled prompt

The lists of a compiled prompt come from separate passes over its spans.  For an image between
two texts they describe the same rows.
-/

namespace RunNBurn
namespace Multimodal

open Library

variable {value : Type}

def tokenSpans (groups : List (List UInt32)) : List (PromptSpan value) :=
  groups.map .tokens

def groupSpans (front back : List (List UInt32)) (image : PromptSpan value) :
    List (PromptSpan value) :=
  tokenSpans front ++ [image] ++ tokenSpans back

section Groups

variable {front back : List (List UInt32)} {rows width gridWidth gridHeight : Nat}
  {values : List value} (groups : List (List UInt32))

theorem flatMap_tokens {out : Type} {field : PromptSpan value -> List out}
    {ofToken : UInt32 -> out} (h : forall ids, field (.tokens ids) = ids.map ofToken) :
    (tokenSpans groups).flatMap field = groups.flatten.map ofToken := by
  induction groups with
  | nil => rfl
  | cons ids rest ih =>
    unfold tokenSpans at ih ⊢
    rw [List.map_cons, List.flatMap_cons, h, ih, List.flatten_cons, List.map_append]

theorem flatMap_groupSpans {out : Type} {field : PromptSpan value -> List out}
    {ofToken : UInt32 -> out} (front back : List (List UInt32)) (image : PromptSpan value)
    (h : forall ids, field (.tokens ids) = ids.map ofToken) :
    (groupSpans front back image).flatMap field =
      front.flatten.map ofToken ++ field image ++ back.flatten.map ofToken := by
  unfold groupSpans
  rw [List.flatMap_append, List.flatMap_append, flatMap_tokens front h, flatMap_tokens back h,
    List.flatMap_singleton]

theorem samplerTokenIds_groupSpans :
    samplerTokenIds (groupSpans front back (.embeddings rows width values gridWidth gridHeight)) =
      front.flatten ++ back.flatten := by
  unfold samplerTokenIds
  rw [flatMap_groupSpans front back _ (fun ids => (List.map_id ids).symm), List.map_id, List.map_id]
  unfold spanSamplerIds
  rw [List.append_nil]

theorem physicalTokenIds_groupSpans :
    physicalTokenIds (groupSpans front back (.embeddings rows width values gridWidth gridHeight)) =
      front.flatten ++ List.replicate rows 0 ++ back.flatten := by
  unfold physicalTokenIds
  rw [flatMap_groupSpans front back _ (fun ids => (List.map_id ids).symm), List.map_id, List.map_id]
  rfl

theorem sum_promptSpanRows_tokens :
    ((tokenSpans groups : List (PromptSpan value)).map promptSpanRows).sum =
      groups.flatten.length := by
  unfold tokenSpans
  rw [List.map_map, List.length_flatten]
  rfl

theorem sum_promptSpanRows_groupSpans (front back : List (List UInt32)) (image : PromptSpan value) :
    ((groupSpans front back image).map promptSpanRows).sum =
      front.flatten.length + promptSpanRows image + back.flatten.length := by
  unfold groupSpans
  rw [List.map_append, List.map_append, List.sum_append, List.sum_append,
    sum_promptSpanRows_tokens, sum_promptSpanRows_tokens, List.map_singleton, List.sum_singleton]

theorem foldlM_fits_sum {item stop : Type} {limit start : Nat} {fault : stop}
    (count : item -> Nat) (items : List item) (hstart : start < limit) :
    items.foldlM (fun sum x => fits limit (sum + count x) fault) start =
      if start + (items.map count).sum < limit then .ok (start + (items.map count).sum)
      else .error fault := by
  induction items generalizing start with
  | nil =>
    rw [List.map_nil, List.sum_nil, Nat.add_zero, if_pos hstart]
    rfl
  | cons x rest ih =>
    rw [List.foldlM_cons, List.map_cons, List.sum_cons, ← Nat.add_assoc]
    by_cases hnext : start + count x < limit
    · rw [fits_of_lt hnext, ok_bind]
      exact ih hnext
    · rw [fits_of_le (Nat.not_lt.mp hnext), if_neg (by omega)]
      rfl

theorem foldlM_searchSpan_tokens {search : RangeSearch}
    (hroom : search.start + groups.flatten.length < usizeLimit) :
    (tokenSpans groups : List (PromptSpan value)).foldlM searchSpan search =
      .ok { search with start := search.start + groups.flatten.length } := by
  induction groups generalizing search with
  | nil => rfl
  | cons ids rest ih =>
    rw [List.flatten_cons, List.length_append, ← Nat.add_assoc] at hroom
    unfold tokenSpans at ih ⊢
    rw [List.map_cons, List.foldlM_cons, List.flatten_cons, List.length_append, ← Nat.add_assoc]
    unfold searchSpan
    dsimp only
    rw [fits_of_lt (by omega), ok_bind, pure_bind]
    exact ih hroom

theorem embeddingRange_groupSpans {leading trailing : List UInt32}
    (hfront : front.flatten = leading) (hback : back.flatten = trailing)
    (hroom : leading.length + rows + trailing.length < usizeLimit) :
    embeddingRange (groupSpans front back (.embeddings rows width values gridWidth gridHeight)) =
      .ok
        { start := leading.length
          stop := leading.length + rows } := by
  rw [← hfront, ← hback] at hroom
  rw [← hfront]
  have himage : searchSpan
      { start := 0 + front.flatten.length
        found := none }
      (.embeddings rows width values gridWidth gridHeight) =
      .ok
        { start := front.flatten.length + rows
          found := some
            { start := front.flatten.length
              stop := front.flatten.length + rows } } := by
    unfold searchSpan
    dsimp only
    rw [Nat.zero_add, fits_of_lt (by omega)]
    rfl
  unfold embeddingRange groupSpans
  rw [List.foldlM_append, List.foldlM_append,
    foldlM_searchSpan_tokens front (by dsimp only; omega), ok_bind, List.foldlM_cons,
    himage, ok_bind, List.foldlM_nil, pure_bind, foldlM_searchSpan_tokens back hroom]
  rfl

end Groups

/-!
## The placeholder
-/

theorem filterMap_zipIdx_of_not_mem {ids : List UInt32} {placeholder : UInt32} (start : Nat)
    (h : placeholder ∉ ids) :
    (ids.zipIdx start).filterMap
      (fun entry => if entry.1 = placeholder then some entry.2 else none) = [] := by
  apply List.filterMap_eq_nil_iff.mpr
  intro entry hentry
  have hmem : entry.1 ∈ ids := List.fst_mem_of_mem_zipIdx hentry
  rw [if_neg]
  intro hsame
  rw [hsame] at hmem
  exact h hmem

theorem placeholderIndices_of_not_mem {before after : List UInt32} {placeholder : UInt32}
    (hbefore : placeholder ∉ before) (hafter : placeholder ∉ after) :
    placeholderIndices (before ++ placeholder :: after) placeholder = [before.length] := by
  unfold placeholderIndices
  rw [List.zipIdx_append, List.filterMap_append, filterMap_zipIdx_of_not_mem 0 hbefore,
    List.zipIdx_cons, List.filterMap_cons, filterMap_zipIdx_of_not_mem _ hafter]
  dsimp only
  rw [if_pos rfl, List.nil_append, Nat.zero_add]

def textGroups (ids : List UInt32) : List (List UInt32) :=
  if 0 < ids.length then [ids] else []

theorem flatten_textGroups (ids : List UInt32) : (textGroups ids).flatten = ids := by
  unfold textGroups
  split
  next =>
    exact List.append_nil ids
  next hnone =>
    exact (List.eq_nil_of_length_eq_zero (Nat.eq_zero_of_not_pos hnone)).symm

theorem spanBefore_eq (before after : List UInt32) (placeholder : UInt32) :
    (spanBefore (before ++ placeholder :: after) before.length : List (PromptSpan value)) =
      tokenSpans (textGroups before) := by
  unfold spanBefore textGroups
  rw [List.take_left' rfl]
  split
  next => rfl
  next => rfl

theorem spanAfter_eq (before after : List UInt32) (placeholder : UInt32) :
    (spanAfter (before ++ placeholder :: after) before.length : List (PromptSpan value)) =
      tokenSpans (textGroups after) := by
  have hdrop : (before ++ placeholder :: after).drop (before.length + 1) = after := by
    rw [← List.drop_drop, List.drop_left' rfl, List.drop_one, List.tail_cons]
  unfold spanAfter textGroups
  rw [hdrop, List.length_append, List.length_cons]
  by_cases hafter : 0 < after.length
  · rw [if_pos hafter, if_pos (by omega)]
    rfl
  · rw [if_neg hafter, if_neg (by omega)]
    rfl

theorem map_positionSpan_textGroups (ids : List UInt32) :
    (tokenSpans (textGroups ids) : List (PromptSpan value)).map positionSpan =
      textSpans ids.length := by
  unfold textGroups textSpans
  split
  next => rfl
  next => rfl

theorem checkEmbeddings_of_length {rowFault valueFault image : String}
    {gridWidth gridHeight projectionDim : Nat} {embeddings : List value}
    (hrows : gridWidth * gridHeight < usizeLimit)
    (hlength : embeddings.length = gridWidth * gridHeight * projectionDim)
    (hfits : embeddings.length < usizeLimit) :
    checkEmbeddings rowFault valueFault image gridWidth gridHeight projectionDim embeddings =
      .ok (gridWidth * gridHeight) := by
  unfold checkEmbeddings
  rw [fits_of_lt hrows, ok_bind, fits_of_lt (by rw [← hlength]; exact hfits),
    ok_bind, if_neg (not_not_intro hlength)]
  rfl

theorem checkEmbeddings_eq_ok {rowFault valueFault image : String}
    {gridWidth gridHeight projectionDim rows : Nat} {embeddings : List value}
    (h : checkEmbeddings rowFault valueFault image gridWidth gridHeight projectionDim embeddings =
      .ok rows) :
    rows = gridWidth * gridHeight ∧ gridWidth * gridHeight < usizeLimit := by
  unfold checkEmbeddings at h
  by_cases hrows : gridWidth * gridHeight < usizeLimit
  · rw [fits_of_lt hrows, ok_bind] at h
    by_cases hvalues : gridWidth * gridHeight * projectionDim < usizeLimit
    · rw [fits_of_lt hvalues, ok_bind] at h
      by_cases hlength : embeddings.length ≠ gridWidth * gridHeight * projectionDim
      · rw [if_pos hlength] at h
        cases h
      · rw [if_neg hlength] at h
        cases h
        exact ⟨rfl, hrows⟩
    · rw [fits_of_le (Nat.not_lt.mp hvalues)] at h
      cases h
  · rw [fits_of_le (Nat.not_lt.mp hrows)] at h
    cases h

/-!
## The layout of a prompt
-/

structure PromptLayout (leading trailing : List UInt32)
    (width gridWidth gridHeight : Nat) (values : List value) (prompt : CompiledPrompt value) :
    Prop where
  spans : exists front back, front.flatten = leading ∧ back.flatten = trailing ∧
    prompt.spans = groupSpans front back
      (.embeddings (gridWidth * gridHeight) width values gridWidth gridHeight)
  spanRows : (prompt.spans.map promptSpanRows).sum = prompt.executedRows
  executedRows :
    prompt.executedRows = leading.length + gridWidth * gridHeight + trailing.length
  physicalTokenIds :
    prompt.physicalTokenIds = leading ++ List.replicate (gridWidth * gridHeight) 0 ++ trailing
  physicalRows : prompt.physicalTokenIds.length = prompt.executedRows
  samplerTokenIds : prompt.samplerTokenIds = leading ++ trailing
  imageRows :
    prompt.imageRows =
      { start := leading.length
        stop := leading.length + gridWidth * gridHeight }

/-- Text rows follow each other, and the rows of the image share the position of the first. -/
structure ImropeLayout (before after gridWidth gridHeight : Nat)
    (prompt : CompiledPrompt value) : Prop where
  positions :
    prompt.positions = .qwenImrope
      (textPositions 0 before ++ imagePositions before gridWidth gridHeight ++
        textPositions (before + max gridWidth gridHeight) after)
  positionRows :
    (textPositions 0 before ++ imagePositions before gridWidth gridHeight ++
      textPositions (before + max gridWidth gridHeight) after).length = prompt.executedRows
  logicalPositionEnd :
    prompt.logicalPositionEnd = before + max gridWidth gridHeight + after
  earlier : forall position,
    position ∈ textPositions 0 before ++ imagePositions before gridWidth gridHeight ->
      position.temporal < before + max gridWidth gridHeight ∧
      position.vertical < before + max gridWidth gridHeight ∧
      position.horizontal < before + max gridWidth gridHeight ∧
      position.fourth < before + max gridWidth gridHeight

theorem PromptLayout.of_groupSpans {front back : List (List UInt32)}
    {leading trailing : List UInt32} {width gridWidth gridHeight : Nat} {values : List value}
    {prompt : CompiledPrompt value}
    (hfront : front.flatten = leading) (hback : back.flatten = trailing)
    (hspans : prompt.spans = groupSpans front back
      (.embeddings (gridWidth * gridHeight) width values gridWidth gridHeight))
    (hrows : prompt.executedRows = leading.length + gridWidth * gridHeight + trailing.length)
    (hphysical : prompt.physicalTokenIds = Multimodal.physicalTokenIds prompt.spans)
    (hsampler : prompt.samplerTokenIds = Multimodal.samplerTokenIds prompt.spans)
    (himage : prompt.imageRows =
      { start := leading.length
        stop := leading.length + gridWidth * gridHeight }) :
    PromptLayout leading trailing width gridWidth gridHeight values prompt where
  spans := ⟨front, back, hfront, hback, hspans⟩
  spanRows := by
    rw [hspans, sum_promptSpanRows_groupSpans, hrows, hfront, hback]
    rfl
  executedRows := hrows
  physicalTokenIds := by
    rw [hphysical, hspans, physicalTokenIds_groupSpans, hfront, hback]
  physicalRows := by
    rw [hphysical, hspans, physicalTokenIds_groupSpans, hrows, hfront, hback, List.length_append,
      List.length_append, List.length_replicate]
  samplerTokenIds := by
    rw [hsampler, hspans, samplerTokenIds_groupSpans, hfront, hback]
  imageRows := himage

theorem lt_of_mem_positions {before gridWidth gridHeight : Nat} (hwidth : 0 < gridWidth)
    {position : Position}
    (h : position ∈ textPositions 0 before ++ imagePositions before gridWidth gridHeight) :
    position.temporal < before + max gridWidth gridHeight ∧
    position.vertical < before + max gridWidth gridHeight ∧
    position.horizontal < before + max gridWidth gridHeight ∧
    position.fourth < before + max gridWidth gridHeight := by
  have hwidthMax : gridWidth <= max gridWidth gridHeight := Nat.le_max_left _ _
  have hheightMax : gridHeight <= max gridWidth gridHeight := Nat.le_max_right _ _
  rcases List.mem_append.mp h with htext | himage
  · rcases List.mem_map.mp htext with ⟨i, hi, hsame⟩
    have hrow : i < before := List.mem_range.mp hi
    rw [← hsame]
    unfold Position.all
    dsimp only
    omega
  · rcases List.mem_flatMap.mp himage with ⟨y, hy, hrow⟩
    rcases List.mem_map.mp hrow with ⟨x, hx, hsame⟩
    have hyHeight : y < gridHeight := List.mem_range.mp hy
    have hxWidth : x < gridWidth := List.mem_range.mp hx
    rw [← hsame]
    dsimp only
    omega

/-!
## Both compilers
-/

section Compilers

variable {before after : List UInt32} {placeholder : UInt32}
  {gridWidth gridHeight projectionDim : Nat} {embeddings : List value}
  {imageFingerprint : Vector UInt8 32}

theorem rows_lt_of_max_lt {first last : Nat}
    (h : first + max gridWidth gridHeight + last < u32Limit) :
    first + gridWidth * gridHeight + last < usizeLimit := by
  have hproduct : gridWidth * gridHeight <=
      max gridWidth gridHeight * max gridWidth gridHeight :=
    Nat.mul_le_mul (Nat.le_max_left _ _) (Nat.le_max_right _ _)
  unfold u32Limit at h
  have hsquare : max gridWidth gridHeight * max gridWidth gridHeight <=
      max gridWidth gridHeight * (2 ^ 32 - 1) :=
    Nat.mul_le_mul_left _ (by omega)
  unfold usizeLimit
  omega

theorem compileQwen36Prompt_of_pos (hbefore : placeholder ∉ before) (hafter : placeholder ∉ after)
    (hdim : 0 < projectionDim)
    (hlength : embeddings.length = gridWidth * gridHeight * projectionDim)
    (hfits : embeddings.length < usizeLimit) :
    compileQwen36Prompt (before ++ placeholder :: after) placeholder
        { mergedGridWidth := gridWidth
          mergedGridHeight := gridHeight
          projectionDim := projectionDim
          embeddings := embeddings } imageFingerprint =
      compileQwen36Spans
        (groupSpans (textGroups before) (textGroups after)
          (.embeddings (gridWidth * gridHeight) projectionDim embeddings gridWidth gridHeight))
        imageFingerprint := by
  have hrows : gridWidth * gridHeight < usizeLimit := by
    apply Nat.lt_of_le_of_lt (Nat.le_mul_of_pos_right (gridWidth * gridHeight) hdim)
    rw [← hlength]
    exact hfits
  unfold compileQwen36Prompt
  rw [placeholderIndices_of_not_mem hbefore hafter]
  dsimp only
  unfold compileQwen36At
  dsimp only
  rw [if_neg (Nat.ne_of_gt hdim), checkEmbeddings_of_length hrows hlength hfits, ok_bind,
    spanBefore_eq, spanAfter_eq]
  rfl

theorem map_positionSpan_groupSpans :
    (groupSpans (textGroups before) (textGroups after)
        (.embeddings (gridWidth * gridHeight) projectionDim embeddings gridWidth
          gridHeight)).map positionSpan =
      imageSpans before.length gridWidth gridHeight after.length := by
  unfold groupSpans imageSpans
  rw [List.map_append, List.map_append, map_positionSpan_textGroups, map_positionSpan_textGroups]
  rfl

theorem compileQwen36Prompt_of_lt (hbefore : placeholder ∉ before) (hafter : placeholder ∉ after)
    (hwidth : 0 < gridWidth) (hheight : 0 < gridHeight) (hdim : 0 < projectionDim)
    (hlength : embeddings.length = gridWidth * gridHeight * projectionDim)
    (hfits : embeddings.length < usizeLimit)
    (hend : before.length + max gridWidth gridHeight + after.length < u32Limit) :
    exists prompt,
      compileQwen36Prompt (before ++ placeholder :: after) placeholder
          { mergedGridWidth := gridWidth
            mergedGridHeight := gridHeight
            projectionDim := projectionDim
            embeddings := embeddings } imageFingerprint = .ok prompt ∧
      PromptLayout before after projectionDim gridWidth gridHeight embeddings prompt ∧
      ImropeLayout before.length after.length gridWidth gridHeight prompt := by
  have hrows : before.length + gridWidth * gridHeight + after.length < usizeLimit :=
    rows_lt_of_max_lt hend
  rw [compileQwen36Prompt_of_pos hbefore hafter hdim hlength hfits]
  unfold compileQwen36Spans planPositions
  rw [map_positionSpan_groupSpans, planQwen36MultimodalPositions_of_lt hwidth hheight hrows hend]
  dsimp only
  rw [ok_bind,
    embeddingRange_groupSpans (flatten_textGroups before) (flatten_textGroups after) hrows, ok_bind]
  refine ⟨_, rfl, ?_, ?_⟩
  · exact PromptLayout.of_groupSpans (flatten_textGroups before) (flatten_textGroups after) rfl rfl
      rfl rfl rfl
  · constructor
    · rfl
    · dsimp only
      rw [List.length_append, List.length_append, length_textPositions, length_imagePositions,
        length_textPositions, Nat.mul_comm gridHeight]
    · rfl
    · intro position hposition
      exact lt_of_mem_positions hwidth hposition

variable {prompt : CompiledPrompt value}

theorem compileQwen36Prompt_eq_ok (hbefore : placeholder ∉ before) (hafter : placeholder ∉ after)
    (hlength : embeddings.length = gridWidth * gridHeight * projectionDim)
    (hfits : embeddings.length < usizeLimit)
    (h : compileQwen36Prompt (before ++ placeholder :: after) placeholder
      { mergedGridWidth := gridWidth
        mergedGridHeight := gridHeight
        projectionDim := projectionDim
        embeddings := embeddings } imageFingerprint = .ok prompt) :
    0 < projectionDim ∧
    before.length + max gridWidth gridHeight + after.length < u32Limit := by
  have hdim : 0 < projectionDim := by
    apply Nat.pos_of_ne_zero
    intro hzero
    unfold compileQwen36Prompt at h
    rw [placeholderIndices_of_not_mem hbefore hafter] at h
    dsimp only at h
    unfold compileQwen36At at h
    dsimp only at h
    rw [if_pos hzero] at h
    cases h
  constructor
  · exact hdim
  · by_contra hend
    rw [compileQwen36Prompt_of_pos hbefore hafter hdim hlength hfits] at h
    unfold compileQwen36Spans planPositions at h
    rw [map_positionSpan_groupSpans] at h
    rcases planQwen36MultimodalPositions_of_le (Nat.not_lt.mp hend) with ⟨message, hmessage⟩
    rw [hmessage] at h
    cases h

section

variable {front back : List (List UInt32)} {leading trailing : List UInt32} {width : Nat}
  {values : List value} (hfront : front.flatten = leading) (hback : back.flatten = trailing)
include hfront hback

theorem compileGemma4Spans_of_lt
    (hend : leading.length + gridWidth * gridHeight + trailing.length < u32Limit) :
    exists prompt,
      compileGemma4Spans
          (groupSpans front back
            (.embeddings (gridWidth * gridHeight) width values gridWidth gridHeight))
          imageFingerprint = .ok prompt ∧
      PromptLayout leading trailing width gridWidth gridHeight values prompt ∧
      prompt.positions = .linear ∧
      prompt.logicalPositionEnd = prompt.executedRows := by
  have hroom : leading.length + gridWidth * gridHeight + trailing.length < usizeLimit :=
    Nat.lt_trans hend (by decide)
  have hsum : sumRowCounts (groupSpans front back
      (.embeddings (gridWidth * gridHeight) width values gridWidth gridHeight)) =
      .ok (leading.length + gridWidth * gridHeight + trailing.length) := by
    unfold sumRowCounts
    rw [foldlM_fits_sum promptSpanRows _ (by decide), sum_promptSpanRows_groupSpans, hfront, hback,
      Nat.zero_add]
    exact if_pos hroom
  unfold compileGemma4Spans
  rw [hsum, ok_bind, fits_of_lt hend, ok_bind,
    embeddingRange_groupSpans hfront hback hroom, ok_bind]
  refine ⟨_, rfl, ?_, rfl, rfl⟩
  exact PromptLayout.of_groupSpans hfront hback rfl rfl rfl rfl rfl

theorem compileGemma4Spans_eq_ok (h : compileGemma4Spans
      (groupSpans front back
        (.embeddings (gridWidth * gridHeight) width values gridWidth gridHeight))
      imageFingerprint = .ok prompt) :
    leading.length + gridWidth * gridHeight + trailing.length < u32Limit := by
  unfold compileGemma4Spans sumRowCounts at h
  rw [foldlM_fits_sum promptSpanRows _ (by decide), sum_promptSpanRows_groupSpans, hfront, hback,
    Nat.zero_add] at h
  by_contra hend
  unfold promptSpanRows at h
  by_cases hroom : leading.length + gridWidth * gridHeight + trailing.length < usizeLimit
  · rw [if_pos hroom, ok_bind, fits_of_le (Nat.not_lt.mp hend)] at h
    cases h
  · rw [if_neg hroom] at h
    cases h

end

variable {imageBeginId imageEndId : UInt32}

theorem flatten_textGroups_begin :
    (textGroups before ++ [[imageBeginId]]).flatten = before ++ [imageBeginId] := by
  rw [List.flatten_append, flatten_textGroups, List.flatten_singleton]

theorem flatten_textGroups_end :
    ([imageEndId] :: textGroups after).flatten = imageEndId :: after := by
  rw [List.flatten_cons, flatten_textGroups, List.singleton_append]

theorem compileGemma4Prompt_of_lt (hbefore : placeholder ∉ before) (hafter : placeholder ∉ after)
    (hrows : gridWidth * gridHeight < usizeLimit)
    (hlength : embeddings.length = gridWidth * gridHeight * projectionDim)
    (hfits : embeddings.length < usizeLimit) :
    compileGemma4Prompt (before ++ placeholder :: after) placeholder imageBeginId imageEndId
        { pooledGridWidth := gridWidth
          pooledGridHeight := gridHeight
          projectionDim := projectionDim
          embeddings := embeddings } imageFingerprint =
      compileGemma4Spans
        (groupSpans (textGroups before ++ [[imageBeginId]]) ([imageEndId] :: textGroups after)
          (.embeddings (gridWidth * gridHeight) projectionDim embeddings gridWidth gridHeight))
        imageFingerprint := by
  unfold compileGemma4Prompt
  rw [placeholderIndices_of_not_mem hbefore hafter]
  dsimp only
  unfold compileGemma4At
  dsimp only
  rw [checkEmbeddings_of_length hrows hlength hfits, ok_bind, spanBefore_eq, spanAfter_eq]
  unfold groupSpans tokenSpans
  rw [List.map_append, List.map_cons]
  apply congrArg fun spans => compileGemma4Spans spans imageFingerprint
  exact List.append_assoc _ _ _

theorem compileGemma4Prompt_eq_ok_rows (hbefore : placeholder ∉ before)
    (hafter : placeholder ∉ after)
    (h : compileGemma4Prompt (before ++ placeholder :: after) placeholder imageBeginId imageEndId
        { pooledGridWidth := gridWidth
          pooledGridHeight := gridHeight
          projectionDim := projectionDim
          embeddings := embeddings } imageFingerprint = .ok prompt) :
    gridWidth * gridHeight < usizeLimit := by
  unfold compileGemma4Prompt at h
  rw [placeholderIndices_of_not_mem hbefore hafter] at h
  dsimp only at h
  unfold compileGemma4At at h
  rcases bind_eq_ok h with ⟨rows, hcheck, hrest⟩
  exact (checkEmbeddings_eq_ok hcheck).right

end Compilers

end Multimodal
end RunNBurn
