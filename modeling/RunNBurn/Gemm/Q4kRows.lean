import Mathlib.Algebra.Ring.Int.Defs
import RunNBurn.Gemm.PackedRows
import RunNBurn.Library.FieldTable

/-!
# Rows of `Q4_K` weights

What every layout of a `Q4_K` matrix stores for a super-block of a row, and the layouts that keep
each field in a place of its own.
-/

namespace RunNBurn
namespace Gemm

open Library

def q4kBlockBytes : Nat := 144

structure Q4kRow where
  nibbles : List UInt8
  sc : List UInt8
  mn : List UInt8
  d : UInt32
  dmin : UInt32
deriving DecidableEq

/-- In each group of 64 values the low nibbles come before the high ones. -/
def nibbleAt (qs : List UInt8) (i : Nat) : UInt8 :=
  if i % 64 < 32 then byteAt qs (i / 64 * 32 + i % 32) &&& (0x0F : UInt8)
  else byteAt qs (i / 64 * 32 + i % 32) >>> UInt8.ofNat 4

def nibbles (qs : List UInt8) : List UInt8 :=
  (List.range 256).map (nibbleAt qs)

def originalRow (toF32 : UInt16 -> UInt32) (block : List UInt8) : Q4kRow where
  nibbles := nibbles (region block 16 128)
  sc := (decodeQ4kScalesRaw (region block 4 12)).1
  mn := (decodeQ4kScalesRaw (region block 4 12)).2
  d := toF32 (halfAt block 0)
  dmin := toF32 (halfAt block 2)

def Q4kRow.zero : Q4kRow where
  nibbles := List.replicate 256 0
  sc := List.replicate 8 0
  mn := List.replicate 8 0
  d := 0
  dmin := 0

/-- The sums of the integer dot product with a quantized activation: the scaled products and the
minimums weighted with the sums of the activation. -/
def integerDot (row : Q4kRow) (x bsums : Nat -> Int) : Int × Int :=
  (((List.range 8).map fun j => ((byteAt row.sc j).toNat : Int) *
      ((List.range 32).map fun k =>
        ((byteAt row.nibbles (j * 32 + k)).toNat : Int) * x (j * 32 + k)).sum).sum,
    ((List.range 8).map fun j => ((byteAt row.mn j).toNat : Int) * bsums j).sum)

theorem integerDot_zero (x bsums : Nat -> Int) : integerDot .zero x bsums = (0, 0) := by
  have hzero : forall n i : Nat, byteAt (List.replicate n 0) i = 0 := by
    intro n i
    unfold byteAt
    rw [List.getD_eq_getElem?_getD, List.getElem?_replicate]
    split
    next => rfl
    next => rfl
  have hproduct : forall (n i : Nat) (y : Int),
      ((byteAt (List.replicate n 0) i).toNat : Int) * y = 0 := by
    intro n i y
    rw [hzero]
    exact Int.zero_mul y
  unfold integerDot Q4kRow.zero
  simp only [hproduct]
  rfl

/-!
## Fields in places of their own
-/

def metaPart (toF32 : UInt16 -> UInt32) (block : List UInt8) : Nat -> List UInt8
  | 0 => (decodeQ4kScalesRaw (region block 4 12)).1
  | 1 => (decodeQ4kScalesRaw (region block 4 12)).2
  | 2 => f32Bytes (toF32 (halfAt block 0))
  | _ => f32Bytes (toF32 (halfAt block 2))

def planarPart (toF32 : UInt16 -> UInt32) (block : List UInt8) : Nat -> List UInt8
  | 0 => region block 16 128
  | f + 1 => metaPart toF32 block f

def metaWidth : Nat -> Nat
  | 0 => 8
  | 1 => 8
  | _ => 4

def planarWidth : Nat -> Nat
  | 0 => 128
  | f + 1 => metaWidth f

section

variable (table : FieldTable)

def readField (block : List UInt8) (f row : Nat) : Checked (List UInt8) :=
  slice block (table.place f row) (table.place f row + table.width f)

def readPlanarRow (block : List UInt8) (row : Nat) : Checked Q4kRow := do
  let qs <- readField table block 0 row
  let sc <- readField table block 1 row
  let mn <- readField table block 2 row
  let d <- readField table block 3 row
  let dmin <- readField table block 4 row
  return {
    nibbles := nibbles qs
    sc := sc
    mn := mn
    d := f32OfBytes d
    dmin := f32OfBytes dmin }

/-- The fields of a row that is there; a row past the last one writes nothing. -/
def fieldWritesOf (part : List UInt8 -> Nat -> List UInt8)
    (srcBytes : List UInt8) (rows cols col nr row : Nat) : Checked (List (Write UInt8)) :=
  if rows <= row then .ok []
  else do
    let block <- slice srcBytes ((row * cols + col) * q4kBlockBytes)
      ((row * cols + col) * q4kBlockBytes + q4kBlockBytes)
    return table.rowWrites (fun f _ => part block f) nr

def packTableGroup (part : List UInt8 -> Nat -> List UInt8)
    (srcBytes : List UInt8) (rows cols group col : Nat) (packed : List UInt8) :
    Checked (List UInt8) := do
  let writes <- (List.range table.count).mapM fun nr =>
    fieldWritesOf table part srcBytes rows cols col nr (group * table.count + nr)
  runWrites writes.flatten packed

/-- The blocks of a matrix, with the offsets of their writes relative to their starts. -/
def packTable (blockBytes : Nat) (part : List UInt8 -> Nat -> List UInt8)
    (srcBytes : List UInt8) (rows cols groups : Nat) : Checked (List UInt8) :=
  forBlocks 0 blockBytes groups cols (packTableGroup table part srcBytes rows cols)

end

/-!
# What the fields hold
-/

theorem length_metaPart (toF32 : UInt16 -> UInt32) (block : List UInt8) (f : Nat) :
    (metaPart toF32 block f).length = metaWidth f := by
  have hdecoded : forall value : Nat -> UInt8, ((List.range 8).map value).length = 8 := by
    intro value
    rw [List.length_map, List.length_range]
  rcases f with _ | _ | _ | f
  · exact hdecoded _
  · exact hdecoded _
  · exact length_f32Bytes _
  · exact length_f32Bytes _

theorem length_planarPart (toF32 : UInt16 -> UInt32) {block : List UInt8}
    (hblock : block.length = q4kBlockBytes) (f : Nat) :
    (planarPart toF32 block f).length = planarWidth f := by
  cases f with
  | zero => exact length_region (by rw [hblock]; decide)
  | succ f => exact length_metaPart toF32 block f

/-- The fields of the rows that are there; the rest of the block is zero. -/
structure HoldsFields (table : FieldTable) (blockBytes : Nat) (part : Nat -> Nat -> List UInt8)
    (present : Nat -> Prop) (block : List UInt8) : Prop where
  length_eq : block.length = blockBytes
  fields : forall f row, f < table.fields -> row < table.count -> present row ->
    region block (table.place f row) (table.width f) = part f row
  absent : forall f row, f < table.fields -> row < table.count -> ¬present row ->
    region block (table.place f row) (table.width f) = List.replicate (table.width f) 0

theorem holdsFields_written {table : FieldTable} {blockBytes : Nat}
    {part : Nat -> Nat -> List UInt8} {present : Nat -> Prop} {writes : List (Write UInt8)}
    (h : table.Fills part present writes) (hroom : forall f, f < table.fields ->
      table.offset f + table.count * table.width f <= blockBytes) :
    HoldsFields table blockBytes part present
      (written writes (List.replicate blockBytes 0)) := by
  have hfit : WritesFit (List.replicate blockBytes (0 : UInt8)).length writes := by
    rw [List.length_replicate]
    exact (h.within (fun f _ => Nat.zero_le _) hroom).fit (Nat.le_refl blockBytes)
  constructor
  · rw [length_written hfit, List.length_replicate]
  · exact fun f row hf hrow hpresent => h.region_eq hfit hf hrow hpresent
  · intro f row hf hrow habsent
    have hroomRow : (row + 1) * table.width f <= table.count * table.width f :=
      Nat.mul_le_mul_right _ hrow
    rw [Nat.succ_mul] at hroomRow
    have hzone := hroom f hf
    rw [h.region_of_absent hfit hf hrow habsent]
    apply region_replicate
    unfold FieldTable.place
    omega

theorem packTable_delivers {table : FieldTable} {blockBytes rows cols groups : Nat}
    {part : List UInt8 -> Nat -> List UInt8} {srcBytes : List UInt8}
    (hlength : srcBytes.length = rows * cols * q4kBlockBytes)
    (hwidth : forall block f, block.length = q4kBlockBytes -> f < table.fields ->
      (part block f).length = table.width f)
    (hroom : forall f, f < table.fields ->
      table.offset f + table.count * table.width f <= blockBytes) :
    exists out, packTable table blockBytes part srcBytes rows cols groups = .ok out ∧
      out.length = groups * cols * blockBytes ∧
      forall group col, group < groups -> col < cols ->
        HoldsFields table blockBytes
          (fun f nr => part (sourceBlock q4kBlockBytes srcBytes cols (group * table.count + nr) col)
            f)
          (fun nr => group * table.count + nr < rows)
          (sourceBlock blockBytes out cols group col) := by
  have hrows : forall group col nr, col < cols ->
      fieldWritesOf table part srcBytes rows cols col nr (group * table.count + nr) =
        .ok (if group * table.count + nr < rows then
          table.rowWrites (fun f nr =>
            part (sourceBlock q4kBlockBytes srcBytes cols (group * table.count + nr) col) f) nr
        else []) := by
    intro group col nr hcol
    unfold fieldWritesOf
    by_cases hrow : rows <= group * table.count + nr
    · rw [if_pos hrow, if_neg (Nat.not_lt.mpr hrow)]
    · rw [if_neg hrow, if_pos (Nat.not_le.mp hrow),
        slice_sourceBlock hlength (Nat.not_le.mp hrow) hcol, ok_bind]
      rfl
  have hfills : forall group col, col < cols ->
      table.Fills
        (fun f nr => part (sourceBlock q4kBlockBytes srcBytes cols (group * table.count + nr) col)
          f)
        (fun nr => group * table.count + nr < rows)
        ((List.range table.count).flatMap fun nr =>
          if group * table.count + nr < rows then
            table.rowWrites (fun f nr =>
              part (sourceBlock q4kBlockBytes srcBytes cols (group * table.count + nr) col) f) nr
          else []) := by
    intro group col hcol
    apply FieldTable.fills_rowWrites
    intro f nr hf _ hpresent
    apply hwidth _ f ?_ hf
    apply length_region
    rw [hlength]
    exact sourceBlock_room hpresent hcol
  have hholds : forall group col, col < cols ->
      HoldsFields table blockBytes _ _ (written _ (List.replicate blockBytes 0)) :=
    fun group col hcol => holdsFields_written (hfills group col hcol) hroom
  have hchange : forall group col, group < groups -> col < cols ->
      packTableGroup table part srcBytes rows cols group col (List.replicate blockBytes 0) =
        .ok (written ((List.range table.count).flatMap fun nr =>
            if group * table.count + nr < rows then
              table.rowWrites (fun f nr =>
                part (sourceBlock q4kBlockBytes srcBytes cols (group * table.count + nr) col) f) nr
            else [])
          (List.replicate blockBytes 0)) := by
    intro group col _ hcol
    unfold packTableGroup
    rw [mapM_eq_ok (fun nr _ => hrows group col nr hcol), ok_bind, ← List.flatMap_def]
    apply runWrites_eq
    rw [List.length_replicate]
    exact ((hfills group col hcol).within (fun f _ => Nat.zero_le _) hroom).fit
      (Nat.le_refl blockBytes)
  rcases forBlocks_delivers hchange
    (fun group col _ hcol => (hholds group col hcol).length_eq) with ⟨out, hrun, hout, hregion⟩
  refine ⟨out, hrun, hout, ?_⟩
  intro group col hgroup hcol
  unfold sourceBlock at hregion ⊢
  rw [hregion group col hgroup hcol]
  exact hholds group col hcol

end Gemm
end RunNBurn
