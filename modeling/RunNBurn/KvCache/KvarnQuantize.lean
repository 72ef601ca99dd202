import Mathlib.Algebra.Notation.Defs
import Mathlib.Data.Nat.Cast.Defs
import RunNBurn.KvCache.Kvarn
import RunNBurn.Library.Bytes

/-!
# Quantized blocks

The buffers of one quantized block, as the quantizer fills them and as the rows
are read back, over any type of numbers with the operations of the source.
-/

namespace RunNBurn
namespace KvCache

open Library

/-- What the source takes from its float types besides the four operations. -/
structure KvarnMath (F : Type) where
  ofF16 : UInt16 -> F
  toF16 : F -> UInt16
  toU8 : F -> UInt8
  roundTiesEven : F -> F
  exp : F -> F
  ln : F -> F
  sqrt : F -> F
  tanh : F -> F
  infinity : F
  negInfinity : F
  normalizedHadamard : List F -> List F

variable {F : Type} [Zero F] [One F] [NatCast F] [Add F] [Neg F] [Sub F] [Mul F] [Div F]
  [Min F] [Max F] [LE F] [DecidableLE F]

/-- `xs[i]` -/
def floatAt (xs : List F) (i : Nat) : F :=
  xs.getD i 0

def clamp (x low high : F) : F :=
  min (max x low) high

/-!
# Variance normalization
-/

structure BalancedTile (F : Type) where
  values : List F
  columnScale : List F
  rowScale : List F
  rows : Nat
  columns : Nat

def rebuildBalanced (tile columnScale rowScale : List F) (rows columns : Nat) : List F :=
  (List.range rows).flatMap fun row =>
    let rowInverse := 1 / floatAt rowScale row
    (List.range columns).map fun column =>
      floatAt tile (row * columns + column) * rowInverse / floatAt columnScale column

section

variable (math : KvarnMath F)

def standardDeviation (values : List F) : F :=
  let denominator : F := (values.length : F)
  let sampleCorrection : F :=
    if values.length > 1 then (values.length : F) / ((values.length - 1 : Nat) : F) else 0
  let mean := values.foldl (fun sum value => sum + value) 0 / denominator
  let squares := values.foldl (fun sum value => sum + value * value) 0
  math.sqrt (max (squares / denominator - mean * mean) 0 * sampleCorrection)

def standardDeviationColumns (tile : List F) (rows columns : Nat) :
    List F :=
  (List.range columns).map fun column =>
    standardDeviation math
      ((List.range rows).map fun row => floatAt tile (row * columns + column))

def standardDeviationRows (tile : List F) (rows columns : Nat) :
    List F :=
  (List.range rows).map fun row =>
    standardDeviation math
      ((List.range columns).map fun column => floatAt tile (row * columns + column))

def spread (values : List F) : F :=
  let minimum := max (values.foldl min math.infinity) (1 / ((10 ^ 8 : Nat) : F))
  let maximum := values.foldl max 0
  maximum / minimum

def imbalance (tile : List F) (rows columns : Nat) : F :=
  spread math (standardDeviationColumns math tile rows columns) +
    spread math (standardDeviationRows math tile rows columns)

/-- `LOG_SCALE_MIN` and `LOG_SCALE_MAX` around the log of a clamped deviation. -/
def stepLogScale (logScale deviation : List F) (count : Nat) : List F :=
  (List.range count).map fun i =>
    let clamped := clamp (floatAt deviation i) (1 / ((1000 : Nat) : F)) ((1000 : Nat) : F)
    clamp (floatAt logScale i + math.ln clamped)
      (-(((3 : Nat) : F) / ((10 : Nat) : F))) ((10 : Nat) : F)

end

structure BalanceState (F : Type) where
  logColumnScale : List F
  logRowScale : List F
  columnScale : List F
  rowScale : List F
  current : List F
  bestImbalance : F
  bestColumnScale : List F
  bestRowScale : List F

def balanceRound (math : KvarnMath F) (tile : List F) (rows columns : Nat)
    (state : BalanceState F) : BalanceState F :=
  let logColumnScale := stepLogScale math state.logColumnScale
    (standardDeviationColumns math state.current rows columns) columns
  let columnScale := logColumnScale.map math.exp
  let current := rebuildBalanced tile columnScale state.rowScale rows columns
  let logRowScale := stepLogScale math state.logRowScale
    (standardDeviationRows math current rows columns) rows
  let rowScale := logRowScale.map math.exp
  let current := rebuildBalanced tile columnScale rowScale rows columns
  let candidate := imbalance math current rows columns
  let better := decide (candidate <= state.bestImbalance)
  { logColumnScale := logColumnScale
    logRowScale := logRowScale
    columnScale := columnScale
    rowScale := rowScale
    current := current
    bestImbalance := if better then candidate else state.bestImbalance
    bestColumnScale := if better then columnScale else state.bestColumnScale
    bestRowScale := if better then rowScale else state.bestRowScale }

def varianceNormalize (math : KvarnMath F) (tile : List F)
    (rows columns iterations : Nat) : BalancedTile F :=
  let ones (count : Nat) : List F := List.replicate count 1
  let start : BalanceState F := {
    logColumnScale := List.replicate columns 0
    logRowScale := List.replicate rows 0
    columnScale := ones columns
    rowScale := ones rows
    current := tile
    bestImbalance := imbalance math tile rows columns
    bestColumnScale := ones columns
    bestRowScale := ones rows }
  let final := (List.range iterations).foldl
    (fun state _ => balanceRound math tile rows columns state) start
  { values := rebuildBalanced tile final.bestColumnScale final.bestRowScale rows columns
    columnScale := final.bestColumnScale
    rowScale := final.bestRowScale
    rows := rows
    columns := columns }

/-!
# Filling a block
-/

structure KvarnBuffers where
  keyPacked : List UInt8
  keyScale : List UInt16
  keyZero : List UInt16
  keyTokenScale : List UInt16
  valuePacked : List UInt8
  valueChannelScale : List UInt16
  valueTokenScale : List UInt16
  valueZero : List UInt16
deriving DecidableEq, Repr

def minMax (math : KvarnMath F) (values : List F) : F × F :=
  values.foldl (fun bounds value => (min bounds.1 value, max bounds.2 value))
    (math.infinity, math.negInfinity)

def codeMask (bits : Nat) : Nat :=
  2 ^ bits - 1

def quantizeEntry (math : KvarnMath F) (zero scale : F) (bits : Nat) (value : F) : UInt8 :=
  math.toU8 (clamp (math.roundTiesEven ((value - zero) / scale)) 0 ((codeMask bits : Nat) : F))

def packChunk (math : KvarnMath F) (zero scale : F) (bits : Nat) (chunk : List F) : UInt8 :=
  chunk.zipIdx.foldl
    (fun packed entry =>
      packed ||| (quantizeEntry math zero scale bits entry.1 <<< UInt8.ofNat (entry.2 * bits)))
    0

def packRow (math : KvarnMath F) (values : List F) (zero scale : F) (bits : Nat) :
    List UInt8 :=
  let pack := 8 / bits
  (List.range (values.length / pack)).map fun i =>
    packChunk math zero scale bits ((values.drop (i * pack)).take pack)

structure RowScales (F : Type) where
  scale : F
  absorbedScale : F
  absorbedZero : F
  minimum : F

def rowValues (tile : BalancedTile F) (row : Nat) : List F :=
  (List.range tile.columns).map fun column => floatAt tile.values (row * tile.columns + column)

section

variable (math : KvarnMath F) (tile : BalancedTile F)

def rowScales (bits row : Nat) : RowScales F :=
  let bounds := minMax math (rowValues tile row)
  let scale := max ((bounds.2 - bounds.1) / ((codeMask bits : Nat) : F))
    (1 / ((10 ^ 10 : Nat) : F))
  { scale := scale
    absorbedScale := floatAt tile.rowScale row * scale
    absorbedZero := floatAt tile.rowScale row * bounds.1
    minimum := bounds.1 }

/-- The loop over the rows of a tile, one push to each buffer a row. -/
def packedRows (bits : Nat) : List UInt8 :=
  (List.range tile.rows).flatMap fun row =>
    let scales := rowScales math tile bits row
    packRow math (rowValues tile row) scales.minimum scales.scale bits

def absorbedScales (bits : Nat) : List UInt16 :=
  (List.range tile.rows).map fun row => math.toF16 (rowScales math tile bits row).absorbedScale

def absorbedZeros (bits : Nat) : List UInt16 :=
  (List.range tile.rows).map fun row => math.toF16 (rowScales math tile bits row).absorbedZero

def quantizeKeyHead (config : KvarnConfig) (block : KvarnBuffers) : KvarnBuffers :=
  { block with
    keyScale := block.keyScale ++ absorbedScales math tile config.keyBits
    keyZero := block.keyZero ++ absorbedZeros math tile config.keyBits
    keyPacked := block.keyPacked ++ packedRows math tile config.keyBits
    keyTokenScale := block.keyTokenScale ++ tile.columnScale.map math.toF16 }

def quantizeValueHead (config : KvarnConfig) (block : KvarnBuffers) : KvarnBuffers :=
  { block with
    valueChannelScale := block.valueChannelScale ++ tile.columnScale.map math.toF16
    valueTokenScale := block.valueTokenScale ++ absorbedScales math tile config.valueBits
    valueZero := block.valueZero ++ absorbedZeros math tile config.valueBits
    valuePacked := block.valuePacked ++ packedRows math tile config.valueBits }

end

def rotatedRow (math : KvarnMath F) (rows : List UInt16) (rowWidth headDim head token : Nat) :
    List F :=
  let source := token * rowWidth + head * headDim
  math.normalizedHadamard (((rows.drop source).take headDim).map math.ofF16)

def keyRotated (math : KvarnMath F) (keyF16 : List UInt16)
    (group rowWidth headDim head : Nat) : List F :=
  (List.range headDim).flatMap fun dim =>
    (List.range group).map fun token =>
      floatAt (rotatedRow math keyF16 rowWidth headDim head token) dim

def valueRotated (math : KvarnMath F) (valueF16 : List UInt16)
    (group rowWidth headDim head : Nat) : List F :=
  (List.range group).flatMap fun token =>
    (List.range headDim).map fun dim =>
      floatAt (rotatedRow math valueF16 rowWidth headDim head token) dim

def quantizeHead (math : KvarnMath F) (config : KvarnConfig) (numKvHeads headDim : Nat)
    (keyF16 valueF16 : List UInt16) (block : KvarnBuffers) (head : Nat) : KvarnBuffers :=
  let rowWidth := numKvHeads * headDim
  let keyBalanced := varianceNormalize math
    (keyRotated math keyF16 config.group rowWidth headDim head)
    headDim config.group config.sinkhornIterations
  let valueBalanced := varianceNormalize math
    (valueRotated math valueF16 config.group rowWidth headDim head)
    config.group headDim config.sinkhornIterations
  quantizeValueHead math valueBalanced config
    (quantizeKeyHead math keyBalanced config block)

namespace KvarnBuffers

def empty : KvarnBuffers where
  keyPacked := []
  keyScale := []
  keyZero := []
  keyTokenScale := []
  valuePacked := []
  valueChannelScale := []
  valueTokenScale := []
  valueZero := []

def quantize (math : KvarnMath F) (config : KvarnConfig) (numKvHeads headDim : Nat)
    (keyF16 valueF16 : List UInt16) : KvarnBuffers :=
  (List.range numKvHeads).foldl
    (quantizeHead math config numKvHeads headDim keyF16 valueF16) empty

/-!
# Reading a block back
-/

def dequantizeKeyRotatedRow (math : KvarnMath F) (config : KvarnConfig) (headDim : Nat)
    (block : KvarnBuffers) (head token : Nat) : List F :=
  let group := config.group
  let packedRow := group / 2
  let packedBase := head * (headDim * packedRow)
  let scaleBase := head * headDim
  let tokenScale := math.ofF16 (block.keyTokenScale.getD (head * group + token) 0)
  (List.range headDim).map fun dim =>
    let packed := block.keyPacked.getD (packedBase + dim * packedRow + token / 2) 0
    let quant := if token % 2 = 0 then packed &&& 0x0f else packed >>> 4
    let scale := math.ofF16 (block.keyScale.getD (scaleBase + dim) 0)
    let zero := math.ofF16 (block.keyZero.getD (scaleBase + dim) 0)
    ((quant.toNat : F) * scale + zero) * tokenScale

def dequantizeValueRotatedRow (math : KvarnMath F) (config : KvarnConfig) (headDim : Nat)
    (block : KvarnBuffers) (head token : Nat) : List F :=
  let bits := config.valueBits
  let pack := 8 / bits
  let packedRow := headDim / pack
  let packedBase := head * (config.group * packedRow) + token * packedRow
  let channelBase := head * headDim
  let rowScale := math.ofF16 (block.valueTokenScale.getD (head * config.group + token) 0)
  let zero := math.ofF16 (block.valueZero.getD (head * config.group + token) 0)
  (List.range headDim).map fun dim =>
    let packed := block.valuePacked.getD (packedBase + dim / pack) 0
    let quant := (packed >>> UInt8.ofNat (dim % pack * bits)) &&& UInt8.ofNat (codeMask bits)
    let channelScale := math.ofF16 (block.valueChannelScale.getD (channelBase + dim) 0)
    ((quant.toNat : F) * rowScale + zero) * channelScale

/-- Entry `i` of a decoded buffer belongs to one token, one head and one channel. -/
def dequantizeEntry (math : KvarnMath F) (numKvHeads headDim : Nat)
    (rotated : Nat -> Nat -> List F) (i : Nat) : UInt16 :=
  let rowWidth := numKvHeads * headDim
  let token := i / rowWidth
  let head := i % rowWidth / headDim
  math.toF16 (floatAt (math.normalizedHadamard (rotated head token)) (i % rowWidth % headDim))

/-!
# The device record
-/

def appendU16Le (output : List UInt8) (values : List UInt16) : List UInt8 :=
  output ++ values.flatMap fun value => leBytes 2 value.toNat

/-- `append_device_record` past its layout check. -/
def appendDeviceRecord (block : KvarnBuffers) (output : List UInt8) : List UInt8 :=
  let output := output ++ block.keyPacked
  let output := appendU16Le output block.keyScale
  let output := appendU16Le output block.keyZero
  let output := appendU16Le output block.keyTokenScale
  let output := output ++ block.valuePacked
  let output := appendU16Le output block.valueChannelScale
  let output := appendU16Le output block.valueTokenScale
  appendU16Le output block.valueZero

def record (block : KvarnBuffers) : List UInt8 :=
  block.appendDeviceRecord []

end KvarnBuffers

def packedCodec (math : KvarnMath F) : KvarnCodec where
  Payload := KvarnBuffers
  encode := KvarnBuffers.quantize math
  decodeKey config numKvHeads headDim block :=
    KvarnBuffers.dequantizeEntry math numKvHeads headDim
      (block.dequantizeKeyRotatedRow math config headDim)
  decodeValue config numKvHeads headDim block :=
    KvarnBuffers.dequantizeEntry math numKvHeads headDim
      (block.dequantizeValueRotatedRow math config headDim)
  recordByte _ _ _ block i := block.record.getD i 0

def KvarnBlock.buffers {math : KvarnMath F} (block : KvarnBlock (packedCodec math)) :
    KvarnBuffers :=
  block.payload

end KvCache
end RunNBurn
