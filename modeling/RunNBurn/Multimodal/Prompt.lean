import RunNBurn.Library.ByteCursor
import RunNBurn.Multimodal.Positions

/-!
# Prompts with an image

A prompt whose token list holds one image placeholder is compiled into spans of tokens and of
image embeddings; the rows of the spans are what the model runs over.
-/

namespace RunNBurn
namespace Multimodal

open Library

variable {value : Type}

inductive LlmError where
  | invalidChatRequest (message : String)
  | forward (message : String)
deriving DecidableEq, Repr

def failForward {alpha : Type} (message : String) : Except (Stop LlmError) alpha :=
  .error (.fail (.forward message))

inductive PromptSpan (value : Type) where
  | tokens (ids : List UInt32)
  | embeddings (rows width : Nat) (values : List value) (gridWidth gridHeight : Nat)
deriving DecidableEq, Repr

inductive PromptPositions where
  | linear
  | qwenImrope (positions : List Position)
deriving DecidableEq, Repr

/-- `start..stop` -/
structure RowRange where
  start : Nat
  stop : Nat
deriving DecidableEq, Repr

structure CompiledPrompt (value : Type) where
  spans : List (PromptSpan value)
  positions : PromptPositions
  executedRows : Nat
  logicalPositionEnd : Nat
  samplerTokenIds : List UInt32
  physicalTokenIds : List UInt32
  imageRows : RowRange
  imageFingerprint : Vector UInt8 32
deriving DecidableEq, Repr

structure Qwen36VisionOutput (value : Type) where
  mergedGridWidth : Nat
  mergedGridHeight : Nat
  projectionDim : Nat
  embeddings : List value

structure Gemma4VisionOutput (value : Type) where
  pooledGridWidth : Nat
  pooledGridHeight : Nat
  projectionDim : Nat
  embeddings : List value

/-!
## Lists derived from the spans
-/

def promptSpanRows : PromptSpan value -> Nat
  | .tokens ids => ids.length
  | .embeddings rows _ _ _ _ => rows

def spanSamplerIds : PromptSpan value -> List UInt32
  | .tokens ids => ids
  | .embeddings _ _ _ _ _ => []

def samplerTokenIds (spans : List (PromptSpan value)) : List UInt32 :=
  spans.flatMap spanSamplerIds

def spanPhysicalIds : PromptSpan value -> List UInt32
  | .tokens ids => ids
  | .embeddings rows _ _ _ _ => List.replicate rows 0

def physicalTokenIds (spans : List (PromptSpan value)) : List UInt32 :=
  spans.flatMap spanPhysicalIds

structure RangeSearch where
  start : Nat
  found : Option RowRange

/-- The sums of the search have no check, so past the limit they panic. -/
def searchSpan (search : RangeSearch) (span : PromptSpan value) :
    Except (Stop LlmError) RangeSearch :=
  match span, search.found with
  | .tokens ids, found => do
      let next <- fits usizeLimit (search.start + ids.length) .panic
      return {
        start := next
        found := found }
  | .embeddings _ _ _ _ _, some _ =>
    .error (.fail (.invalidChatRequest "multimodal prompt supports exactly one image span"))
  | .embeddings rows _ _ _ _, none => do
      let next <- fits usizeLimit (search.start + rows) .panic
      return {
        start := next
        found := some
          { start := search.start
            stop := next } }

def embeddingRange (spans : List (PromptSpan value)) : Except (Stop LlmError) RowRange := do
  let search <- spans.foldlM searchSpan
    { start := 0
      found := none }
  match search.found with
  | some rows => return rows
  | none => failForward "multimodal prompt has no image span"

/-!
## Compiling
-/

def placeholderIndices (tokenIds : List UInt32) (placeholder : UInt32) : List Nat :=
  tokenIds.zipIdx.filterMap fun entry => if entry.1 = placeholder then some entry.2 else none

/-- The number of image rows, if the embeddings have the values of that many rows. -/
def checkEmbeddings (rowFault valueFault image : String)
    (gridWidth gridHeight projectionDim : Nat) (embeddings : List value) :
    Except (Stop LlmError) Nat := do
  let imageRows <- fits usizeLimit (gridWidth * gridHeight) (.fail (.forward rowFault))
  let expectedValues <- fits usizeLimit (imageRows * projectionDim) (.fail (.forward valueFault))
  if embeddings.length ≠ expectedValues then
    failForward s!"{image} has {embeddings.length} values, expected {expectedValues}"
  else
    return imageRows

def spanBefore (tokenIds : List UInt32) (placeholder : Nat) : List (PromptSpan value) :=
  if 0 < placeholder then [.tokens (tokenIds.take placeholder)] else []

def spanAfter (tokenIds : List UInt32) (placeholder : Nat) : List (PromptSpan value) :=
  if placeholder + 1 < tokenIds.length then [.tokens (tokenIds.drop (placeholder + 1))] else []

def positionSpan : PromptSpan value -> Qwen36PositionSpan
  | .tokens ids => .text ids.length
  | .embeddings _ _ _ gridWidth gridHeight => .image gridWidth gridHeight

def planPositions (spans : List (PromptSpan value)) :
    Except (Stop LlmError) Qwen36PositionPlan :=
  match planQwen36MultimodalPositions (spans.map positionSpan) 0 with
  | .ok plan => .ok plan
  | .error message => failForward message

def compileQwen36Spans (spans : List (PromptSpan value)) (imageFingerprint : Vector UInt8 32) :
    Except (Stop LlmError) (CompiledPrompt value) := do
  let positionPlan <- planPositions spans
  let imageRows <- embeddingRange spans
  return {
    spans := spans
    positions := .qwenImrope positionPlan.positions
    executedRows := positionPlan.physicalRows
    logicalPositionEnd := positionPlan.logicalPositionEnd
    samplerTokenIds := samplerTokenIds spans
    physicalTokenIds := physicalTokenIds spans
    imageRows := imageRows
    imageFingerprint := imageFingerprint }

def compileQwen36At (tokenIds : List UInt32) (placeholder : Nat)
    (vision : Qwen36VisionOutput value) (imageFingerprint : Vector UInt8 32) :
    Except (Stop LlmError) (CompiledPrompt value) :=
  if vision.projectionDim = 0 then
    failForward "Qwen3.6 vision projection width must be positive"
  else do
    let imageRows <- checkEmbeddings "Qwen3.6 image embedding row count overflows usize"
      "Qwen3.6 image embedding value count overflows usize" "Qwen3.6 image embedding"
      vision.mergedGridWidth vision.mergedGridHeight vision.projectionDim vision.embeddings
    compileQwen36Spans
      (spanBefore tokenIds placeholder ++
        [.embeddings imageRows vision.projectionDim vision.embeddings vision.mergedGridWidth
          vision.mergedGridHeight] ++ spanAfter tokenIds placeholder)
      imageFingerprint

def compileQwen36Prompt (tokenIds : List UInt32) (imagePadTokenId : UInt32)
    (vision : Qwen36VisionOutput value) (imageFingerprint : Vector UInt8 32) :
    Except (Stop LlmError) (CompiledPrompt value) :=
  match placeholderIndices tokenIds imagePadTokenId with
  | [placeholder] => compileQwen36At tokenIds placeholder vision imageFingerprint
  | found =>
    .error (.fail (.invalidChatRequest
      ("Qwen3.6 multimodal prompt must contain exactly one <|image_pad|> token, got " ++
        toString found.length)))

def sumRowCounts (spans : List (PromptSpan value)) : Except (Stop LlmError) Nat :=
  spans.foldlM (fun rows span => fits usizeLimit (rows + promptSpanRows span) .panic) 0

def compileGemma4Spans (spans : List (PromptSpan value)) (imageFingerprint : Vector UInt8 32) :
    Except (Stop LlmError) (CompiledPrompt value) := do
  let executedRows <- sumRowCounts spans
  let logicalPositionEnd <- fits u32Limit executedRows
    (.fail (.forward "Gemma 4 logical position overflows u32"))
  let imageRows <- embeddingRange spans
  return {
    spans := spans
    positions := .linear
    executedRows := executedRows
    logicalPositionEnd := logicalPositionEnd
    samplerTokenIds := samplerTokenIds spans
    physicalTokenIds := physicalTokenIds spans
    imageRows := imageRows
    imageFingerprint := imageFingerprint }

def compileGemma4At (tokenIds : List UInt32) (placeholder : Nat) (imageBeginId imageEndId : UInt32)
    (vision : Gemma4VisionOutput value) (imageFingerprint : Vector UInt8 32) :
    Except (Stop LlmError) (CompiledPrompt value) := do
  let imageRows <- checkEmbeddings "Gemma 4 image row count overflows usize"
    "Gemma 4 image value count overflows usize" "Gemma 4 image embedding"
    vision.pooledGridWidth vision.pooledGridHeight vision.projectionDim vision.embeddings
  compileGemma4Spans
    (spanBefore tokenIds placeholder ++ [.tokens [imageBeginId]] ++
      [.embeddings imageRows vision.projectionDim vision.embeddings vision.pooledGridWidth
        vision.pooledGridHeight] ++ [.tokens [imageEndId]] ++ spanAfter tokenIds placeholder)
    imageFingerprint

def compileGemma4Prompt (tokenIds : List UInt32)
    (imagePlaceholderId imageBeginId imageEndId : UInt32) (vision : Gemma4VisionOutput value)
    (imageFingerprint : Vector UInt8 32) :
    Except (Stop LlmError) (CompiledPrompt value) :=
  match placeholderIndices tokenIds imagePlaceholderId with
  | [placeholder] =>
    compileGemma4At tokenIds placeholder imageBeginId imageEndId vision imageFingerprint
  | found =>
    .error (.fail (.invalidChatRequest
      ("Gemma 4 multimodal prompt must contain exactly one <|image|> token, got " ++
        toString found.length)))

/-!
## The hidden rows
-/

/-- The rows of one span, with the scale applied to those of tokens only. -/
def spanHidden (hiddenWidth : Nat)
    (gatherTokens : List UInt32 -> Except (Stop LlmError) (List value))
    (scaleTokenEmbeddings : List value -> List value) (span : PromptSpan value) :
    Except (Stop LlmError) (List value) :=
  match span with
  | .tokens ids => do
      let values <- gatherTokens ids
      let expected <- fits usizeLimit (ids.length * hiddenWidth)
        (.fail (.forward "token embedding span size overflows usize"))
      if values.length ≠ expected then
        failForward s!"token embedding span has {values.length} values, expected {expected}"
      else
        return scaleTokenEmbeddings values
  | .embeddings rows width values _ _ =>
    if width ≠ hiddenWidth then
      failForward
        s!"image embedding width {width} does not match model hidden width {hiddenWidth}"
    else do
      let expected <- fits usizeLimit (rows * width)
        (.fail (.forward "image embedding span size overflows usize"))
      if values.length ≠ expected then
        failForward s!"image embedding span has {values.length} values, expected {expected}"
      else
        return values

def appendHidden (hiddenWidth : Nat)
    (gatherTokens : List UInt32 -> Except (Stop LlmError) (List value))
    (scaleTokenEmbeddings : List value -> List value) (hidden : List value)
    (span : PromptSpan value) : Except (Stop LlmError) (List value) := do
  let values <- spanHidden hiddenWidth gatherTokens scaleTokenEmbeddings span
  return hidden ++ values

def assemblePromptHidden (prompt : CompiledPrompt value) (hiddenWidth : Nat)
    (gatherTokens : List UInt32 -> Except (Stop LlmError) (List value))
    (scaleTokenEmbeddings : List value -> List value) :
    Except (Stop LlmError) (List value) := do
  let expectedValues <- fits usizeLimit (prompt.executedRows * hiddenWidth)
    (.fail (.forward "mixed prompt hidden size overflows usize"))
  let hidden <- prompt.spans.foldlM
    (appendHidden hiddenWidth gatherTokens scaleTokenEmbeddings) []
  if hidden.length ≠ expectedValues then
    failForward s!"mixed prompt has {hidden.length} hidden values, expected {expectedValues}"
  else
    return hidden

end Multimodal
end RunNBurn
