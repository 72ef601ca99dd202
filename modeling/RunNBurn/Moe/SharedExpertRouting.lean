import RunNBurn.Generate.Filters
import RunNBurn.Library.Ranking

/-!
# Routing with a shared expert

The experts of a token and their weights, from the logits of the router.  A softmax router has
three ways to select; a sigmoid router selects by a biased score.  Arithmetic is that of an
ordered field, and a logit may be negative infinity.
-/

namespace RunNBurn
namespace Moe

open Library

/-- `usize::MAX` -/
def usizeMax : Nat :=
  2 ^ 64 - 1

def qwen35MoeRouteSortEnabledFromEnv (value : Option String) : Bool :=
  match value with
  | some v => !(["0", "false", "off", "no"].contains v.toLower)
  | none => true

section Buffers

variable {entry : Type}

def writeFront (buffer entries : List entry) : List entry :=
  entries ++ buffer.drop entries.length

/-- `for x in &mut buffer[..len]` -/
def changeFront (len : Nat) (change : entry -> entry) (buffer : List entry) : List entry :=
  (buffer.take len).map change ++ buffer.drop len

end Buffers

structure RouteBuffers (F : Type) where
  idxAll : List Nat
  probs : List F
  selectedWeights : List F

structure Routed (F : Type) where
  selectedLen : Nat
  buffers : RouteBuffers F

namespace Routed

variable {F : Type} (routed : Routed F)

def experts : List Nat :=
  routed.buffers.idxAll.take routed.selectedLen

def weights : List F :=
  routed.buffers.selectedWeights.take routed.selectedLen

end Routed

variable {F : Type} [Field F] [LinearOrder F]

/-- `logits[expert]`; the experts are below the length of the logits. -/
def logitAt (logits : List (WithBot F)) (expert : Nat) : WithBot F :=
  logits.getD expert ⊥

/-- `(value - max).exp()`.  The source has no number for a maximum of negative infinity, which
a finite logit rules out. -/
def expOfDifference (exp : F -> F) (value max : WithBot F) : F :=
  match value, max with
  | (x : F), (m : F) => exp (x - m)
  | ⊥, _ => 0
  | _, ⊥ => 0

/-- `if sum != 0.0 { for weight in weights { *weight /= sum } }` -/
def normalizeNonzero (weights : List F) : List F :=
  let sum := weights.foldl (fun sum weight => sum + weight) 0
  if sum ≠ 0 then weights.map fun weight => weight / sum else weights

/-!
## Bounded insertion
-/

/-- A place of `best_vals` and `best_ids`. -/
structure Best (F : Type) where
  val : WithBot F
  id : Nat

/-- `for shift in (rank + 1..selected_len).rev()` -/
def shiftBehind (rank selectedLen : Nat) (best : List (Best F)) : List (Best F) :=
  (List.range' (rank + 1) (selectedLen - (rank + 1))).reverse.foldl
    (fun best shift =>
      match best[shift - 1]? with
      | some slot => best.set shift slot
      | none => best)
    best

/-- One expert: the first place that it beats is taken, and the loop left. -/
def insertBest (selectedLen : Nat) (best : List (Best F)) (new : Best F) : List (Best F) :=
  let beats (slot : Best F) : Bool :=
    decide (slot.val < new.val) || (decide (new.val = slot.val) && decide (new.id < slot.id))
  match (best.take selectedLen).findIdx? beats with
  | some rank => (shiftBehind rank selectedLen best).set rank new
  | none => best

def qwen35SelectTopkLogitsBounded (exp : F -> F) (logits : List (WithBot F)) (nExpertUsed : Nat)
    (idxOut : List Nat) (selectedWeights : List F) : Checked (Nat × List Nat × List F) := do
  let selectedLen := min nExpertUsed logits.length
  require (selectedLen <= 32) "assertion failed: selected_len <= 32"
  require (selectedLen <= idxOut.length) "assertion failed: idx_out.len() >= selected_len"
  require (selectedLen <= selectedWeights.length)
    "assertion failed: selected_weights.len() >= selected_len"
  if selectedLen = 0 then
    return (0, idxOut, selectedWeights)
  else
    let empty : Best F :=
      { val := ⊥
        id := usizeMax }
    let entries := logits.zipIdx.map fun pair =>
      { val := pair.1
        id := pair.2 : Best F }
    let best := (entries.foldl (insertBest selectedLen) (List.replicate 32 empty)).take selectedLen
    let selectedMax := (best.map Best.val).headD ⊥
    let weights := best.map fun slot => expOfDifference exp slot.val selectedMax
    return (selectedLen, writeFront idxOut (best.map Best.id),
      writeFront selectedWeights (normalizeNonzero weights))

def selectBounded (exp : F -> F) (logits : List (WithBot F)) (selectedLen : Nat)
    (buffers : RouteBuffers F) : Checked (Routed F) := do
  let (len, idx, weights) <- qwen35SelectTopkLogitsBounded exp logits selectedLen
    (buffers.idxAll.take logits.length) buffers.selectedWeights
  return {
    selectedLen := len
    buffers := { buffers with
      idxAll := writeFront buffers.idxAll idx
      selectedWeights := weights } }

/-!
## The other two ways
-/

/-- `b.partial_cmp(a)`: the larger key comes first. -/
def byKeyDescending {K : Type} [LinearOrder K] (key : Nat -> K) (a b : Nat) : Ordering :=
  compare (key b) (key a)

/-- `if selected_len < n_expert { idx_all.select_nth_unstable_by(..) }` -/
def partitionExperts {K : Type} [LinearOrder K] (sort : PartialSort Nat) (key : Nat -> K)
    (selectedLen : Nat) (idxAll : List Nat) : Checked (List Nat) :=
  if selectedLen < idxAll.length then
    selectNthUnstableBy sort selectedLen (byKeyDescending key) idxAll
  else
    return idxAll

structure RoutePair (F : Type) where
  expert : Nat
  weight : F
  logit : WithBot F

section

variable (exp : F -> F) (sort : PartialSort Nat)

def selectByLogits (routeSort : Bool)
    (logits : List (WithBot F)) (selectedLen : Nat) (buffers : RouteBuffers F) :
    Checked (Routed F) := do
  let idxAll <- partitionExperts sort (logitAt logits) selectedLen (List.range logits.length)
  let selected := idxAll.take selectedLen
  let selectedMax := (selected.map (logitAt logits)).foldl max ⊥
  let weights := normalizeNonzero
    (selected.map fun expert => expOfDifference exp (logitAt logits expert) selectedMax)
  if routeSort then
    let pairs := List.zipWith
      (fun expert weight =>
        { expert := expert
          weight := weight
          logit := logitAt logits expert : RoutePair F })
      selected weights
    let sorted := ranked RoutePair.logit RoutePair.expert pairs
    return {
      selectedLen := selectedLen
      buffers := { buffers with
        idxAll := writeFront buffers.idxAll (writeFront idxAll (sorted.map RoutePair.expert))
        selectedWeights := writeFront buffers.selectedWeights (sorted.map RoutePair.weight) } }
  else
    return {
      selectedLen := selectedLen
      buffers := { buffers with
        idxAll := writeFront buffers.idxAll idxAll
        selectedWeights := writeFront buffers.selectedWeights weights } }

/-- Selection by the probabilities of all experts, which are written out. -/
def selectByProbs (logits : List (WithBot F))
    (selectedLen : Nat) (buffers : RouteBuffers F) : Checked (Routed F) := do
  let maxL := logits.foldl max ⊥
  let probs := normalizeNonzero (logits.map fun logit => expOfDifference exp logit maxL)
  let idxAll <- partitionExperts sort (fun expert => probs.getD expert 0) selectedLen
    (List.range logits.length)
  let selected := idxAll.take selectedLen
  let weights := normalizeNonzero (selected.map fun expert => probs.getD expert 0)
  return {
    selectedLen := selectedLen
    buffers := {
      idxAll := writeFront buffers.idxAll idxAll
      probs := writeFront buffers.probs probs
      selectedWeights := writeFront buffers.selectedWeights weights } }

def qwen35SoftmaxTopkRoute (routeSortEnv : Option String)
    (logits : List (WithBot F)) (nExpertUsed : Nat) (buffers : RouteBuffers F)
    (fillProbs : Bool) : Checked (Routed F) := do
  let nExpert := logits.length
  require (nExpert <= buffers.idxAll.length) "assertion failed: idx_all.len() >= n_expert"
  require (nExpert <= buffers.probs.length) "assertion failed: probs.len() >= n_expert"
  let selectedLen := min nExpertUsed nExpert
  require (selectedLen <= buffers.selectedWeights.length)
    "assertion failed: selected_weights.len() >= selected_len"
  let routeSort := qwen35MoeRouteSortEnabledFromEnv routeSortEnv
  if !fillProbs && decide (selectedLen <= 32) && routeSort then
    selectBounded exp logits selectedLen buffers
  else if fillProbs then
    selectByProbs exp sort logits selectedLen buffers
  else
    selectByLogits exp sort routeSort logits selectedLen buffers

end

/-!
## The sigmoid router
-/

/-- `1.0 / (1.0 + (-logit).exp())` -/
def sigmoid (exp : F -> F) (logit : WithBot F) : F :=
  match logit with
  | (x : F) => 1 / (1 + exp (-x))
  | ⊥ => 0

/-- The loop that looks for the first rank at which the mass is reached: the mass there and the
ranks passed, this one included. -/
def retainMass (topP : F) : F -> List F -> F × Option Nat
  | mass, [] => (mass, none)
  | mass, weight :: rest =>
    if topP <= mass + weight then
      (mass + weight, some 1)
    else
      let (reached, ranks) := retainMass topP (mass + weight) rest
      (reached, ranks.map (· + 1))

/-- Normalization and the adaptive mass: how many weights are retained, and the weights. -/
def retainWeights (adaptiveTopP : Option F) (weights : List F) : Nat × List F :=
  let sum := weights.foldl (fun sum weight => sum + weight) 0
  let weights := if 0 < sum then weights.map fun weight => weight / sum else weights
  match adaptiveTopP with
  | none => (weights.length, weights)
  | some topP =>
    let (mass, ranks) := retainMass topP 0 weights
    let retainedLen := ranks.getD weights.length
    (retainedLen,
      if 0 < mass then changeFront retainedLen (fun weight => weight / mass) weights
      else weights)

def hy3SigmoidTopkRoute (exp : F -> F) (logits selectionBias : List (WithBot F))
    (nExpertUsed : Nat) (normalizeSelected : Bool) (scale : F) (adaptiveTopP : Option F)
    (buffers : RouteBuffers F) : Checked (Routed F) := do
  let nExpert := logits.length
  require (selectionBias.length = nExpert) "assertion failed: selection_bias.len() == n_expert"
  require (nExpert <= buffers.idxAll.length) "assertion failed: idx_all.len() >= n_expert"
  require (nExpert <= buffers.probs.length) "assertion failed: probs.len() >= n_expert"
  let selectedLen := min nExpertUsed nExpert
  require (selectedLen <= buffers.selectedWeights.length)
    "assertion failed: selected_weights.len() >= selected_len"
  let probs := logits.map (sigmoid exp)
  let score (expert : Nat) : WithBot F :=
    (probs.getD expert 0 : WithBot F) + selectionBias.getD expert ⊥
  let idxAll := ranked score id (List.range nExpert)
  let selected := (idxAll.take selectedLen).map fun expert => probs.getD expert 0
  let (retainedLen, weights) :=
    if normalizeSelected then retainWeights adaptiveTopP selected else (selectedLen, selected)
  return {
    selectedLen := retainedLen
    buffers := {
      idxAll := writeFront buffers.idxAll idxAll
      probs := writeFront buffers.probs probs
      selectedWeights := writeFront buffers.selectedWeights
        (changeFront retainedLen (fun weight => weight * scale) weights) } }

end Moe
end RunNBurn
