import Mathlib.Algebra.Order.Field.Basic
import RunNBurn.Library.RowScatter

/-!
# Decode attention of one query

The reference goes over the rows four times: scores, softmax, zeros, values.  The fused form
goes over them once under a running maximum, with one of four accumulators.  Arithmetic is
that of an ordered field; negative infinity is the absence of a score.
-/

namespace RunNBurn
namespace Attention

open Library

variable {F H : Type} [Field F] [LinearOrder F]

/-- The functions that a field does not bring along, and half precision as it is stored. -/
structure AttentionMath (F H : Type) where
  exp : F -> F
  tanh : F -> F
  ofF16 : H -> F
  toF16 : F -> H

structure DecodeCall (F H : Type) where
  q : List F
  kCache : List H
  vCache : List H
  numHeads : Nat
  numKvHeads : Nat
  headDim : Nat
  kvLen : Nat
  scale : F
  slidingWindow : Option Nat
  softcap : Option F

namespace DecodeCall

variable (call : DecodeCall F H)

def kvDim : Nat :=
  call.numKvHeads * call.headDim

/-- Row `j` is before the window. -/
def masked (j : Nat) : Bool :=
  match call.slidingWindow with
  | some window => decide (j + window <= call.kvLen - 1)
  | none => false

def capped (math : AttentionMath F H) (x : F) : F :=
  match call.softcap with
  | some cap => cap * math.tanh (x / cap)
  | none => x

/-- The part of row `j` that belongs to a head. -/
def headRow (cache : List H) (kvH j : Nat) : Checked (List H) :=
  let offset := j * call.kvDim + kvH * call.headDim
  slice cache offset (offset + call.headDim)

end DecodeCall

def dotF32F16 (math : AttentionMath F H) (a : List F) (b : List H) : F :=
  (List.zipWith (fun x y => x * math.ofF16 y) a b).foldl (fun acc x => acc + x) 0

/-- `out[d] += scale * v[d]` -/
def scaledAddF16 (math : AttentionMath F H) (out : List F) (v : List H) (scale : F) : List F :=
  zipInto (fun x y => x + scale * math.ofF16 y) out v

def scaleF32 (out : List F) (scale : F) : List F :=
  out.map fun x => x * scale

/-- The score of a row that is not masked. -/
def scoreOf (math : AttentionMath F H) (call : DecodeCall F H) (qHead : List F) (k : List H) :
    F :=
  call.capped math (dotF32F16 math qHead k * call.scale)

/-!
## Four passes
-/

/-- `scores[j]` -/
def scoreAt (math : AttentionMath F H) (call : DecodeCall F H) (qHead : List F) (kvH j : Nat) :
    Checked (Option F) :=
  if call.masked j then
    .ok none
  else do
    let k <- call.headRow call.kCache kvH j
    return some (scoreOf math call qHead k)

/-- `if score > max_score { max_score = score }` -/
def maxScore (best score : Option F) : Option F :=
  match score, best with
  | none, _ => best
  | some x, none => some x
  | some x, some y => if y < x then some x else some y

/-- `(score - max_score).exp()`.  The source has no number for the last case, which it does not
reach: the last row is never masked. -/
def weightOf (math : AttentionMath F H) (best score : Option F) : F :=
  match score, best with
  | none, _ => 0
  | some x, some y => math.exp (x - y)
  | some _, none => 0

section

variable (math : AttentionMath F H) (call : DecodeCall F H)

def addValue (kvH : Nat) (invSum : F)
    (j : Nat) (weight : F) (out : List F) : Checked (List F) := do
  let v <- call.headRow call.vCache kvH j
  return scaledAddF16 math out v (weight * invSum)

/-- The head `h`, written over its part of the output. -/
def decodeHead (h : Nat) (outHead : List F) :
    Checked (List F) := do
  let headsPerGroup <- divide call.numHeads call.numKvHeads
  let kvH <- divide h headsPerGroup
  let qHead <- slice call.q (h * call.headDim) (h * call.headDim + call.headDim)
  let scores <- (List.range call.kvLen).mapM (scoreAt math call qHead kvH)
  let best := scores.foldl maxScore none
  let weights := scores.map (weightOf math best)
  let sum := weights.foldl (fun sum w => sum + w) 0
  let invSum := if 0 < sum then 1 / sum else 0
  let zeroed := outHead.map fun _ => (0 : F)
  forEnumerated (addValue math call kvH invSum) weights zeroed

def attentionDecodeIntoWithScaleWindowAndSoftcap (output : List F) : Checked (List F) :=
  forRange
    (fun h output =>
      updateSlice output (h * call.headDim) ((h + 1) * call.headDim) (decodeHead math call h))
    call.numHeads output

end

/-!
## One pass

What the four fused heads do differently is how they accumulate.
-/

structure HeadPath (F H acc : Type) where
  /-- The query as it is read. -/
  query : List F -> List F
  /-- From the output of the head and the head dimension. -/
  start : List F -> Nat -> acc
  sum : acc -> F
  rescale : F -> acc -> acc
  addOne : List H -> acc -> acc
  add : F -> List H -> acc -> acc
  /-- The normalized values, when the sum is positive. -/
  finish : F -> acc -> List F
  /-- What is left in the output of the head otherwise. -/
  otherwise : List F -> acc -> List F

structure HeadState (F acc : Type) where
  m : Option F
  acc : acc

namespace HeadPath

variable {acc : Type} (path : HeadPath F H acc)

/-- A row that is not masked: its score and its values. -/
def weigh (math : AttentionMath F H) (x : F) (v : List H) (state : HeadState F acc) :
    HeadState F acc :=
  match state.m with
  | none =>
    { m := some x
      acc := path.addOne v state.acc }
  | some m =>
    if m < x then
      { m := some x
        acc := path.addOne v (path.rescale (math.exp (m - x)) state.acc) }
    else
      { m := some m
        acc := path.add (math.exp (x - m)) v state.acc }

def step (math : AttentionMath F H) (call : DecodeCall F H) (qHead : List F) (kvH j : Nat)
    (state : HeadState F acc) : Checked (HeadState F acc) :=
  if call.masked j then
    .ok state
  else do
    let k <- call.headRow call.kCache kvH j
    let v <- call.headRow call.vCache kvH j
    return path.weigh math (scoreOf math call qHead k) v state

def processHead (math : AttentionMath F H) (call : DecodeCall F H) (h : Nat)
    (outHead : List F) : Checked (List F) := do
  let headsPerGroup <- divide call.numHeads call.numKvHeads
  let kvH <- divide h headsPerGroup
  let qHead <- slice call.q (h * call.headDim) (h * call.headDim + call.headDim)
  let state <- forRange (path.step math call (path.query qHead) kvH) call.kvLen
    { m := none
      acc := path.start outHead call.headDim }
  let s := path.sum state.acc
  if 0 < s then
    return path.finish (1 / s) state.acc
  else
    return path.otherwise outHead state.acc

end HeadPath

structure PlainAcc (F : Type) where
  out : List F
  s : F

/-- `process_head` accumulates in the output itself. -/
def plainPath (math : AttentionMath F H) : HeadPath F H (PlainAcc F) where
  query := id
  start := fun outHead _ =>
    { out := outHead.map fun _ => (0 : F)
      s := 0 }
  sum := fun acc => acc.s
  rescale := fun alpha acc =>
    { out := scaleF32 acc.out alpha
      s := acc.s * alpha }
  addOne := fun v acc =>
    { out := scaledAddF16 math acc.out v 1
      s := acc.s + 1 }
  add := fun p v acc =>
    { out := scaledAddF16 math acc.out v p
      s := acc.s + p }
  finish := fun invS acc => scaleF32 acc.out invS
  otherwise := fun _ acc => acc.out

structure Compensated (F : Type) where
  sum : F
  c : F

def Compensated.add (a : Compensated F) (value : F) : Compensated F :=
  let y := value - a.c
  let t := a.sum + y
  { sum := t
    c := (t - a.sum) - y }

def Compensated.rescale (a : Compensated F) (alpha : F) : Compensated F where
  sum := a.sum * alpha
  c := a.c * alpha

structure KahanAcc (F : Type) where
  acc : List (Compensated F)
  s : Compensated F

def kahanPath (math : AttentionMath F H) : HeadPath F H (KahanAcc F) where
  query := id
  start := fun _ headDim =>
    { acc := List.replicate headDim { sum := 0, c := 0 }
      s := { sum := 0, c := 0 } }
  sum := fun acc => acc.s.sum
  rescale := fun alpha acc =>
    { acc := acc.acc.map fun a => a.rescale alpha
      s := acc.s.rescale alpha }
  addOne := fun v acc =>
    { acc := zipInto (fun a y => a.add (math.ofF16 y)) acc.acc v
      s := acc.s.add 1 }
  add := fun p v acc =>
    { acc := zipInto (fun a y => a.add (p * math.ofF16 y)) acc.acc v
      s := acc.s.add p }
  finish := fun invS acc => acc.acc.map fun a => a.sum * invS
  otherwise := fun outHead _ => outHead.map fun _ => (0 : F)

/-- `process_head_f64`: the conversions between the two precisions change nothing here. -/
def f64Path (math : AttentionMath F H) : HeadPath F H (PlainAcc F) where
  query := id
  start := fun _ headDim =>
    { out := List.replicate headDim 0
      s := 0 }
  sum := fun acc => acc.s
  rescale := fun alpha acc =>
    { out := acc.out.map fun a => a * alpha
      s := acc.s * alpha }
  addOne := fun v acc =>
    { out := zipInto (fun a y => a + math.ofF16 y) acc.out v
      s := acc.s + 1 }
  add := fun p v acc =>
    { out := zipInto (fun a y => a + p * math.ofF16 y) acc.out v
      s := acc.s + p }
  finish := fun invS acc => acc.out.map fun a => a * invS
  otherwise := fun outHead _ => outHead.map fun _ => (0 : F)

structure F16Acc (F H : Type) where
  accF16 : List H
  s : F

/-- `process_head_f16_acc`: the query and every accumulated value go through half precision. -/
def f16AccPath (math : AttentionMath F H) (noQRound : Bool) : HeadPath F H (F16Acc F H) where
  query := fun qHead =>
    if noQRound then qHead else qHead.map fun v => math.ofF16 (math.toF16 v)
  start := fun _ headDim =>
    { accF16 := List.replicate headDim (math.toF16 0)
      s := 0 }
  sum := fun acc => acc.s
  rescale := fun alpha acc =>
    { accF16 := acc.accF16.map fun a => math.toF16 (math.ofF16 a * alpha)
      s := acc.s * alpha }
  addOne := fun v acc =>
    { accF16 := zipInto (fun a y => math.toF16 (math.ofF16 a + math.ofF16 y)) acc.accF16 v
      s := acc.s + 1 }
  add := fun p v acc =>
    { accF16 := zipInto (fun a y => math.toF16 (math.ofF16 a + math.ofF16 y * p)) acc.accF16 v
      s := acc.s + p }
  finish := fun invS acc => acc.accF16.map fun a => math.ofF16 a * invS
  otherwise := fun outHead _ => outHead.map fun _ => (0 : F)

/-!
## The dispatch
-/

structure FlashSwitches where
  f16Acc : Bool
  f64 : Bool
  kahan : Bool
  noQRound : Bool
  serial : Bool
deriving DecidableEq, Repr

def processHeadOf (math : AttentionMath F H) (switches : FlashSwitches) (call : DecodeCall F H)
    (h : Nat) (outHead : List F) : Checked (List F) :=
  if switches.f16Acc then
    (f16AccPath math switches.noQRound).processHead math call h outHead
  else if switches.f64 then
    (f64Path math).processHead math call h outHead
  else if switches.kahan then
    (kahanPath math).processHead math call h outHead
  else
    (plainPath math).processHead math call h outHead

def FlashSwitches.parallel (switches : FlashSwitches) (numHeads : Nat) : Bool :=
  !switches.serial && decide (4 <= numHeads)

/-- `output.par_chunks_mut(head_dim)`, or one head after the other. -/
def attentionDecodeFlash (math : AttentionMath F H) (switches : FlashSwitches)
    (call : DecodeCall F H) (output : List F) : Checked (List F) :=
  if switches.parallel call.numHeads then do
    require (call.headDim ≠ 0) "chunk_size must not be zero"
    let len := output.length
    let chunks := (len + call.headDim - 1) / call.headDim
    forRange
      (fun h output =>
        updateSlice output (h * call.headDim) (min ((h + 1) * call.headDim) len)
          (processHeadOf math switches call h))
      (min chunks call.numHeads) output
  else
    forRange
      (fun h output =>
        updateSlice output (h * call.headDim) ((h + 1) * call.headDim)
          (processHeadOf math switches call h))
      call.numHeads output

end Attention
end RunNBurn
