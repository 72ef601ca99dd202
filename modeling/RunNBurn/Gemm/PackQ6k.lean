import Mathlib.Algebra.Ring.Int.Defs
import Mathlib.Data.Int.Cast.Basic
import RunNBurn.Gemm.PackQ5k

/-!
# Packed `Q6_K` weights

A `Q6_K` block stores the low bits of its quants as nibbles and the high bits in pairs.  Quants
and scales are signed; they are packed as their bit patterns.
-/

namespace RunNBurn
namespace Gemm

open Library

variable {R : Type} [CommRing R]

structure BlockQ6K where
  ql : List UInt8
  qh : List UInt8
  scales : List Int8
  d : UInt16

def BlockQ6K.ofBytes (block : List UInt8) : BlockQ6K where
  ql := region block 0 128
  qh := region block 128 64
  scales := (region block 192 16).map UInt8.toInt8
  d := halfAt block 208

/-!
## The packer
-/

def q6kBlockBytes : Nat := 210
def q6kScRawOff : Nat := 2048
def q6kDOff : Nat := q6kScRawOff + 128
def q6kPackedBlockBytes : Nat := q6kDOff + 32

/-- The six bits of the value `l + j * 32` of half `n`. -/
def q6kBits (ql qh : List UInt8) (n l : Nat) : Nat -> UInt8
  | 0 => (byteAt ql (n * 64 + l) &&& (0x0F : UInt8)) |||
      (((byteAt qh (n * 32 + l) >>> UInt8.ofNat 0) &&& (3 : UInt8)) <<< 4)
  | 1 => (byteAt ql (n * 64 + l + 32) &&& (0x0F : UInt8)) |||
      (((byteAt qh (n * 32 + l) >>> UInt8.ofNat 2) &&& (3 : UInt8)) <<< 4)
  | 2 => (byteAt ql (n * 64 + l) >>> UInt8.ofNat 4) |||
      (((byteAt qh (n * 32 + l) >>> UInt8.ofNat 4) &&& (3 : UInt8)) <<< 4)
  | _ => (byteAt ql (n * 64 + l + 32) >>> UInt8.ofNat 4) |||
      (((byteAt qh (n * 32 + l) >>> UInt8.ofNat 6) &&& (3 : UInt8)) <<< 4)

/-- Writes of both halves, four values for every `l`. -/
def q6kWrites {out : Type} (value : Nat -> Nat -> Nat -> out) : List (Write out) :=
  (List.range 2).flatMap fun n =>
    (List.range 32).flatMap fun l =>
      [Write.one (n * 128 + l) (value n l 0), Write.one (n * 128 + l + 32) (value n l 1),
        Write.one (n * 128 + l + 64) (value n l 2), Write.one (n * 128 + l + 96) (value n l 3)]

def unpackQ6k (ql qh : List UInt8) (out : List Int8) : List Int8 :=
  written (q6kWrites fun n l j => (q6kBits ql qh n l j).toInt8 - 32) out

structure UnpackedQ6kRow where
  qs : List Int8
  sc : List Int8
  d : UInt32
  length_qs : qs.length = 256
  length_sc : sc.length = 16

def UnpackedQ6kRow.zero : UnpackedQ6kRow where
  qs := List.replicate 256 0
  sc := List.replicate 16 0
  d := 0
  length_qs := List.length_replicate
  length_sc := List.length_replicate

def q6kPackedWrites (rows : Nat -> UnpackedQ6kRow) : List (Write UInt8) :=
  interleaveWrites (fun nr => (rows nr).qs.map Int8.toUInt8) ++
    fieldWrites 8 q6kScRawOff 16 (fun nr => (rows nr).sc.map Int8.toUInt8) ++
    fieldWrites 8 q6kDOff 4 (fun nr => f32Bytes (rows nr).d)

/-!
## The dequantizer
-/

def dequantizeQ6k (toF32 : UInt16 -> UInt32) (real : UInt32 -> R) (block : BlockQ6K)
    (output : List R) : List R :=
  written
    (q6kWrites fun n l j =>
      real (toF32 block.d) * ((block.scales.getD (n * 8 + l / 16 + 2 * j) 0).toInt : R) *
        ((((q6kBits block.ql block.qh n l j).toNat : Int) - 32 : Int) : R))
    output

/-!
# Values by place
-/

variable {out : Type} (value : Nat -> Nat -> Nat -> out)

theorem fit_q6kWrites :
    WritesFit 256 (q6kWrites value) := by
  intro write hmem
  rcases List.mem_flatMap.mp hmem with ⟨n, hn, hhalf⟩
  rcases List.mem_flatMap.mp hhalf with ⟨l, hl, hwrite⟩
  have hnTwo : n < 2 := List.mem_range.mp hn
  have hlHalf : l < 32 := List.mem_range.mp hl
  simp only [List.mem_cons, List.not_mem_nil, or_false] at hwrite
  rcases hwrite with h | h | h | h
  all_goals
    rw [h, Write.stop_one]
    omega

def q6kPlace {out : Type} (value : Nat -> Nat -> Nat -> out) (i : Nat) : out :=
  value (i / 128) (i % 32) (i % 128 / 32)

theorem mem_q6kWrites {i : Nat} (hi : i < 256) :
    Write.one i (q6kPlace value i) ∈ q6kWrites value := by
  apply List.mem_flatMap.mpr
  refine ⟨i / 128, List.mem_range.mpr (by omega), ?_⟩
  apply List.mem_flatMap.mpr
  refine ⟨i % 32, List.mem_range.mpr (by omega), ?_⟩
  unfold q6kPlace
  have hquarter : i % 128 / 32 = 0 ∨ i % 128 / 32 = 1 ∨ i % 128 / 32 = 2 ∨ i % 128 / 32 = 3 := by
    omega
  rcases hquarter with h | h | h | h
  · have hplace : i / 128 * 128 + i % 32 = i := by omega
    rw [h, hplace]
    exact List.mem_cons_self
  · have hplace : i / 128 * 128 + i % 32 + 32 = i := by omega
    rw [h, hplace]
    exact List.mem_cons_of_mem _ List.mem_cons_self
  · have hplace : i / 128 * 128 + i % 32 + 64 = i := by omega
    rw [h, hplace]
    exact List.mem_cons_of_mem _ (List.mem_cons_of_mem _ List.mem_cons_self)
  · have hplace : i / 128 * 128 + i % 32 + 96 = i := by omega
    rw [h, hplace]
    exact List.mem_cons_of_mem _
      (List.mem_cons_of_mem _ (List.mem_cons_of_mem _ List.mem_cons_self))

theorem eq_one_of_mem_q6kWrites {value : Nat -> Nat -> Nat -> out} {write : Write out}
    (h : write ∈ q6kWrites value) :
    exists j, j < 256 ∧ write = Write.one j (q6kPlace value j) := by
  rcases List.mem_flatMap.mp h with ⟨n, hn, hhalf⟩
  rcases List.mem_flatMap.mp hhalf with ⟨l, hl, hwrite⟩
  have hnTwo : n < 2 := List.mem_range.mp hn
  have hlHalf : l < 32 := List.mem_range.mp hl
  have hvalue : forall quarter, quarter < 4 ->
      q6kPlace value (n * 128 + l + 32 * quarter) = value n l quarter := by
    intro quarter hquarter
    have hhalfOf : (n * 128 + l + 32 * quarter) / 128 = n := by omega
    have hentry : (n * 128 + l + 32 * quarter) % 32 = l := by omega
    have hquarterOf : (n * 128 + l + 32 * quarter) % 128 / 32 = quarter := by omega
    unfold q6kPlace
    rw [hhalfOf, hentry, hquarterOf]
  simp only [List.mem_cons, List.not_mem_nil, or_false] at hwrite
  rcases hwrite with h | h | h | h
  · refine ⟨n * 128 + l + 32 * 0, by omega, ?_⟩
    rw [hvalue 0 (by decide), h]
    rfl
  · refine ⟨n * 128 + l + 32 * 1, by omega, ?_⟩
    rw [hvalue 1 (by decide), h]
  · refine ⟨n * 128 + l + 32 * 2, by omega, ?_⟩
    rw [hvalue 2 (by decide), h]
  · refine ⟨n * 128 + l + 32 * 3, by omega, ?_⟩
    rw [hvalue 3 (by decide), h]

theorem written_q6kWrites {buffer : List out} (hbuffer : buffer.length = 256) :
    written (q6kWrites value) buffer = (List.range 256).map (q6kPlace value) := by
  have hfit : WritesFit buffer.length (q6kWrites value) := by
    rw [hbuffer]
    exact fit_q6kWrites value
  apply List.ext_getElem?
  intro i
  by_cases hi : i < 256
  · rw [List.getElem?_map, List.getElem?_range hi]
    apply getElem?_written_one hfit (mem_q6kWrites value hi)
    intro write hmem
    rcases eq_one_of_mem_q6kWrites hmem with ⟨j, -, hone⟩
    refine ⟨j, _, hone, ?_⟩
    intro hplace
    rw [hplace]
  · rw [List.getElem?_eq_none (by rw [length_written hfit, hbuffer]; omega),
      List.getElem?_eq_none (by rw [List.length_map, List.length_range]; omega)]

theorem length_unpackQ6k {ql qh : List UInt8} {out : List Int8} (h : out.length = 256) :
    (unpackQ6k ql qh out).length = 256 := by
  unfold unpackQ6k
  rw [written_q6kWrites _ h, List.length_map, List.length_range]

theorem q6kBits_lt (ql qh : List UInt8) (n l j : Nat) : (q6kBits ql qh n l j).toNat < 64 := by
  have hlow : forall byte plane : UInt8,
      ((byte &&& (0x0F : UInt8)) ||| ((plane &&& (3 : UInt8)) <<< 4)).toNat < 64 := by
    intro byte plane
    rw [toNat_or_shiftLeft (by rw [toNat_and_low]; omega) (by rw [toNat_and_three]; omega),
      toNat_and_low, toNat_and_three]
    omega
  have hhigh : forall byte plane : UInt8,
      ((byte >>> UInt8.ofNat 4) ||| ((plane &&& (3 : UInt8)) <<< 4)).toNat < 64 := by
    intro byte plane
    have hbyte := byte.toNat_lt
    have hfour : (byte >>> UInt8.ofNat 4).toNat = byte.toNat / 16 :=
      toNat_shiftRight_ofNat byte (by decide)
    rw [toNat_or_shiftLeft (by rw [hfour]; omega) (by rw [toNat_and_three]; omega), hfour,
      toNat_and_three]
    omega
  unfold q6kBits
  split
  · exact hlow _ _
  · exact hlow _ _
  · exact hhigh _ _
  · exact hhigh _ _

theorem toInt_sub_thirtyTwo {x : UInt8} (h : x.toNat < 64) :
    (x.toInt8 - 32).toInt = (x.toNat : Int) - 32 := by
  have hx : x.toInt8.toInt = (x.toNat : Int) := by
    rw [← Int8.toInt_ofNat_of_lt (Nat.lt_trans h (by decide)), ← UInt8.toInt8_ofNat',
      UInt8.ofNat_toNat]
  have hthirtyTwo : (32 : Int8).toInt = 32 := rfl
  rw [Int8.toInt_sub, hx, hthirtyTwo]
  apply Int.bmod_eq_of_le
  · omega
  · omega

/-!
# Packing and reading back
-/

def unpackQ6kRow (toF32 : UInt16 -> UInt32) (block : List UInt8) : UnpackedQ6kRow where
  qs := unpackQ6k (region block 0 128) (region block 128 64) (List.replicate 256 0)
  sc := (List.range 16).map fun i => (byteAt (region block 192 16) i).toInt8
  d := toF32 (halfAt block 208)
  length_qs := length_unpackQ6k List.length_replicate
  length_sc := by
    rw [List.length_map, List.length_range]

section

variable (toF32 : UInt16 -> UInt32) (srcBytes : List UInt8)

def loadQ6kRow (rows cols row col : Nat) :
    Checked UnpackedQ6kRow :=
  if rows <= row then .ok .zero
  else do
    let block <- slice srcBytes ((row * cols + col) * q6kBlockBytes)
      ((row * cols + col) * q6kBlockBytes + q6kBlockBytes)
    return unpackQ6kRow toF32 block

def packQ6kGroup (rows cols group col : Nat)
    (packed : List UInt8) : Checked (List UInt8) := do
  let loaded <- (List.range 8).mapM fun nr =>
    loadQ6kRow toF32 srcBytes rows cols (group * 8 + nr) col
  runWrites (q6kPackedWrites fun nr => loaded.getD nr .zero) packed

def packQ6k (rows cols : Nat) :
    Checked (List UInt8) :=
  forBlocks 0 q6kPackedBlockBytes (divCeil rows 8) cols
    (packQ6kGroup toF32 srcBytes rows cols)

end

def readPackedQ6kScRaw (packed : List UInt8) (nr : Nat) : Checked (List Int8) := do
  let bytes <- slice packed (q6kScRawOff + nr * 16) (q6kScRawOff + nr * 16 + 16)
  return bytes.map UInt8.toInt8

def readPackedQ6kD (packed : List UInt8) (nr : Nat) : Checked UInt32 := do
  let bytes <- slice packed (q6kDOff + nr * 4) (q6kDOff + nr * 4 + 4)
  return f32OfBytes bytes

/-- The 256 values that the fields of a packed row stand for; a quant is the signed number with
the bits of its byte. -/
def readPackedQ6kValues (real : UInt32 -> R) (packed : List UInt8) (nr : Nat) :
    Checked (List R) := do
  let qs <- readPackedQs packed nr
  let sc <- readPackedQ6kScRaw packed nr
  let d <- readPackedQ6kD packed nr
  return (List.range 256).map fun i =>
    real d * ((sc.getD (i / 16) 0).toInt : R) * ((byteAt qs i).toInt8.toInt : R)

structure HoldsQ6k (rows : Nat -> UnpackedQ6kRow) (packed : List UInt8) : Prop where
  length_eq : packed.length = q6kPackedBlockBytes
  qs : forall nr k, nr < 8 -> k < 32 ->
    region packed (qsOff + nr / 2 * 512 + k * 16 + nr % 2 * 8) 8 =
      chunk ((rows nr).qs.map Int8.toUInt8) k
  sc : forall nr, nr < 8 ->
    region packed (q6kScRawOff + nr * 16) 16 = (rows nr).sc.map Int8.toUInt8
  d : forall nr, nr < 8 -> region packed (q6kDOff + nr * 4) 4 = f32Bytes (rows nr).d

section Packed

variable (rows : Nat -> UnpackedQ6kRow)

theorem within_q6kScWrites :
    WritesWithin q6kScRawOff q6kDOff
      (fieldWrites 8 q6kScRawOff 16 (fun nr => (rows nr).sc.map Int8.toUInt8)) :=
  within_fieldWrites (fun nr _ => by rw [List.length_map, (rows nr).length_sc])

theorem within_q6kDWrites :
    WritesWithin q6kDOff q6kPackedBlockBytes
      (fieldWrites 8 q6kDOff 4 (fun nr => f32Bytes (rows nr).d)) :=
  within_fieldWrites (fun nr _ => length_f32Bytes (rows nr).d)

theorem within_q6kPackedWrites :
    WritesWithin qsOff q6kPackedBlockBytes (q6kPackedWrites rows) := by
  unfold q6kPackedWrites
  apply WritesWithin.append ?_ (within_q6kDWrites rows) (by decide) (by decide)
  exact (within_interleaveWrites _).append (within_q6kScWrites rows) (by decide) (by decide)

theorem holdsQ6k_written {buffer : List UInt8} (hlength : buffer.length = q6kPackedBlockBytes) :
    HoldsQ6k rows (written (q6kPackedWrites rows) buffer) := by
  have hfit : WritesFit buffer.length (q6kPackedWrites rows) :=
    (within_q6kPackedWrites rows).fit (Nat.le_of_eq hlength.symm)
  have hqsSc := (within_interleaveWrites (fun nr => (rows nr).qs.map Int8.toUInt8)).append
    (within_q6kScWrites rows) (by decide) (by decide)
  have hscD := (within_q6kScWrites rows).append (within_q6kDWrites rows) (by decide) (by decide)
  constructor
  · rw [length_written hfit, hlength]
  · intro nr k hnr hk
    unfold q6kPackedWrites at hfit ⊢
    rw [List.append_assoc, ← List.nil_append (interleaveWrites _),
      List.append_assoc [] _ _] at hfit ⊢
    rw [← List.append_assoc [] _ _] at hfit ⊢
    exact region_interleaveWrites hfit (fun other hother => absurd hother List.not_mem_nil)
      (fun other hother => (hscD other hother).1)
      (by rw [List.length_map, (rows nr).length_qs]) hnr hk
  · intro nr hnr
    unfold q6kPackedWrites at hfit ⊢
    exact region_fieldWrites hfit (fun other hother => ((within_interleaveWrites _) other hother).2)
      (fun other hother => (within_q6kDWrites rows other hother).1)
      (fun nr _ => by rw [List.length_map, (rows nr).length_sc]) hnr
  · intro nr hnr
    unfold q6kPackedWrites at hfit ⊢
    rw [← List.append_nil (_ ++ fieldWrites 8 q6kDOff 4 _)] at hfit ⊢
    exact region_fieldWrites hfit (fun other hother => (hqsSc other hother).2)
      (fun other hother => absurd hother List.not_mem_nil)
      (fun nr _ => length_f32Bytes (rows nr).d) hnr

end Packed

namespace HoldsQ6k

variable {rows : Nat -> UnpackedQ6kRow} {packed : List UInt8} {nr : Nat}

theorem congr {others : Nat -> UnpackedQ6kRow} (h : HoldsQ6k rows packed)
    (hsame : forall nr, nr < 8 -> rows nr = others nr) : HoldsQ6k others packed where
  length_eq := h.length_eq
  qs := by
    intro nr k hnr hk
    rw [h.qs nr k hnr hk, hsame nr hnr]
  sc := by
    intro nr hnr
    rw [h.sc nr hnr, hsame nr hnr]
  d := by
    intro nr hnr
    rw [h.d nr hnr, hsame nr hnr]

theorem slice_eq (h : HoldsQ6k rows packed) {start length : Nat}
    (hroom : start + length <= q6kPackedBlockBytes) :
    slice packed start (start + length) = .ok (region packed start length) :=
  slice_eq_region (by rw [h.length_eq]; exact hroom)

theorem map_toInt8_toUInt8 (xs : List Int8) : (xs.map Int8.toUInt8).map UInt8.toInt8 = xs := by
  rw [List.map_map]
  exact List.map_id xs

section

variable (h : HoldsQ6k rows packed) (hnr : nr < 8)
include h hnr

theorem readPackedQs_eq :
    readPackedQs packed nr = .ok ((rows nr).qs.map Int8.toUInt8) := by
  apply readPackedQs_of_chunks
  · rw [List.length_map, (rows nr).length_qs]
  · intro k hk
    have hroom : qsOff + nr / 2 * 512 + k * 16 + nr % 2 * 8 + 8 <= q6kPackedBlockBytes := by
      unfold q6kPackedBlockBytes q6kDOff q6kScRawOff qsOff
      omega
    rw [h.slice_eq hroom, h.qs nr k hnr hk]

theorem readPackedQ6kScRaw_eq :
    readPackedQ6kScRaw packed nr = .ok (rows nr).sc := by
  have hroom : q6kScRawOff + nr * 16 + 16 <= q6kPackedBlockBytes := by
    unfold q6kPackedBlockBytes q6kDOff
    omega
  unfold readPackedQ6kScRaw
  rw [h.slice_eq hroom, ok_bind, h.sc nr hnr, map_toInt8_toUInt8]
  rfl

theorem readPackedQ6kD_eq :
    readPackedQ6kD packed nr = .ok (rows nr).d := by
  have hroom : q6kDOff + nr * 4 + 4 <= q6kPackedBlockBytes := by
    unfold q6kPackedBlockBytes
    omega
  unfold readPackedQ6kD
  rw [h.slice_eq hroom, ok_bind, h.d nr hnr, f32OfBytes_f32Bytes]
  rfl

theorem readPackedQ6kValues_eq (real : UInt32 -> R) :
    readPackedQ6kValues real packed nr =
      .ok ((List.range 256).map fun i =>
        real (rows nr).d * (((rows nr).sc.getD (i / 16) 0).toInt : R) *
          ((byteAt ((rows nr).qs.map Int8.toUInt8) i).toInt8.toInt : R)) := by
  unfold readPackedQ6kValues
  rw [h.readPackedQs_eq hnr, h.readPackedQ6kScRaw_eq hnr, h.readPackedQ6kD_eq hnr]
  rfl

end

end HoldsQ6k

structure ReadsZeroQ6k (packed : List UInt8) (nr : Nat) : Prop where
  qs : readPackedQs packed nr = .ok (List.replicate 256 0)
  sc : readPackedQ6kScRaw packed nr = .ok (List.replicate 16 0)
  d : readPackedQ6kD packed nr = .ok 0

def loadedQ6kRow (toF32 : UInt16 -> UInt32) (srcBytes : List UInt8) (rows cols row col : Nat) :
    UnpackedQ6kRow :=
  if rows <= row then .zero
  else unpackQ6kRow toF32 (sourceBlock q6kBlockBytes srcBytes cols row col)

theorem packQ6k_delivers (toF32 : UInt16 -> UInt32) {srcBytes : List UInt8} {rows cols : Nat}
    (hlength : srcBytes.length = rows * cols * q6kBlockBytes) :
    exists out, packQ6k toF32 srcBytes rows cols = .ok out ∧
      out.length = divCeil rows 8 * cols * q6kPackedBlockBytes ∧
      forall group col, group < divCeil rows 8 -> col < cols ->
        HoldsQ6k (fun nr => loadedQ6kRow toF32 srcBytes rows cols (group * 8 + nr) col)
          (sourceBlock q6kPackedBlockBytes out cols group col) := by
  have hload : forall row col, col < cols ->
      loadQ6kRow toF32 srcBytes rows cols row col =
        .ok (loadedQ6kRow toF32 srcBytes rows cols row col) := by
    intro row col hcol
    unfold loadQ6kRow loadedQ6kRow
    by_cases hrow : rows <= row
    · rw [if_pos hrow, if_pos hrow]
    · rw [if_neg hrow, if_neg hrow, slice_sourceBlock hlength (Nat.not_le.mp hrow) hcol, ok_bind]
      rfl
  have hchange : forall group col, group < divCeil rows 8 -> col < cols ->
      packQ6kGroup toF32 srcBytes rows cols group col (List.replicate q6kPackedBlockBytes 0) =
        .ok (written (q6kPackedWrites fun nr =>
            ((List.range 8).map fun nr =>
              loadedQ6kRow toF32 srcBytes rows cols (group * 8 + nr) col).getD nr .zero)
          (List.replicate q6kPackedBlockBytes 0)) := by
    intro group col _ hcol
    unfold packQ6kGroup
    rw [mapM_eq_ok (fun nr _ => hload (group * 8 + nr) col hcol), ok_bind]
    exact runWrites_eq ((within_q6kPackedWrites _).fit (Nat.le_of_eq List.length_replicate.symm))
  have hholds : forall group col,
      HoldsQ6k
        (fun nr => ((List.range 8).map fun nr =>
          loadedQ6kRow toF32 srcBytes rows cols (group * 8 + nr) col).getD nr .zero)
        (written (q6kPackedWrites fun nr =>
            ((List.range 8).map fun nr =>
              loadedQ6kRow toF32 srcBytes rows cols (group * 8 + nr) col).getD nr .zero)
          (List.replicate q6kPackedBlockBytes 0)) :=
    fun group col => holdsQ6k_written _ List.length_replicate
  rcases forBlocks_delivers hchange (fun group col _ _ => (hholds group col).length_eq) with
    ⟨out, hrun, hout, hregion⟩
  refine ⟨out, hrun, hout, ?_⟩
  intro group col hgroup hcol
  unfold sourceBlock
  rw [hregion group col hgroup hcol]
  apply (hholds group col).congr
  intro nr hnr
  exact getD_range_map _ _ hnr

theorem unpackQ6kRow_value (toF32 : UInt16 -> UInt32) (real : UInt32 -> R) (block : List UInt8)
    {i : Nat} (hi : i < 256) :
    let row := unpackQ6kRow toF32 block
    real row.d * ((row.sc.getD (i / 16) 0).toInt : R) *
        ((byteAt (row.qs.map Int8.toUInt8) i).toInt8.toInt : R) =
      q6kPlace (fun n l j =>
        real (toF32 (BlockQ6K.ofBytes block).d) *
          (((BlockQ6K.ofBytes block).scales.getD (n * 8 + l / 16 + 2 * j) 0).toInt : R) *
          ((((q6kBits (BlockQ6K.ofBytes block).ql (BlockQ6K.ofBytes block).qh n l j).toNat : Int) -
            32 : Int) : R)) i := by
  have hscale : i / 128 * 8 + i % 32 / 16 + 2 * (i % 128 / 32) = i / 16 := by omega
  have hquant : (byteAt ((unpackQ6kRow toF32 block).qs.map Int8.toUInt8) i).toInt8 =
      q6kPlace (fun n l j => (q6kBits (region block 0 128) (region block 128 64) n l j).toInt8 - 32)
        i := by
    unfold unpackQ6kRow unpackQ6k byteAt
    dsimp only
    rw [written_q6kWrites _ List.length_replicate, List.map_map, getD_range_map _ _ hi]
    rfl
  have hsc : (unpackQ6kRow toF32 block).sc.getD (i / 16) 0 =
      (byteAt (region block 192 16) (i / 16)).toInt8 := by
    unfold unpackQ6kRow
    dsimp only
    exact getD_range_map _ _ (by omega)
  have hscales : forall (bytes : List UInt8) (j : Nat),
      (bytes.map UInt8.toInt8).getD j 0 = (byteAt bytes j).toInt8 := by
    intro bytes j
    unfold byteAt
    rw [List.getD_eq_getElem?_getD, List.getD_eq_getElem?_getD, List.getElem?_map]
    cases bytes[j]? with
    | none => rfl
    | some x => rfl
  intro row
  dsimp only [row]
  rw [hquant, hsc]
  unfold q6kPlace BlockQ6K.ofBytes
  dsimp only
  rw [hscales, hscale, toInt_sub_thirtyTwo (q6kBits_lt _ _ _ _ _)]
  rfl

theorem packQ6k_reads_as_dequantized (toF32 : UInt16 -> UInt32) (real : UInt32 -> R)
    {srcBytes : List UInt8} {rows cols : Nat}
    (hlength : srcBytes.length = rows * cols * q6kBlockBytes) :
    ReadsAs q6kBlockBytes q6kPackedBlockBytes (packQ6k toF32 srcBytes rows cols)
      (readPackedQ6kValues real) ReadsZeroQ6k
      (fun block => dequantizeQ6k toF32 real (.ofBytes block) (List.replicate 256 0)) srcBytes rows
      cols := by
  rcases packQ6k_delivers toF32 hlength with ⟨packed, hrun, hpacked, hholds⟩
  have hvalues : forall row col, row < rows -> col < cols ->
      readBlockRow q6kPackedBlockBytes (readPackedQ6kValues real) packed cols row col =
        .ok (dequantizeQ6k toF32 real (.ofBytes (sourceBlock q6kBlockBytes srcBytes cols row col))
          (List.replicate 256 0)) := by
    intro row col hrow hcol
    have hgroup : row / 8 < divCeil rows 8 := lt_divCeil hrow
    have hplace : row / 8 * 8 + row % 8 = row := by omega
    have hloaded : loadedQ6kRow toF32 srcBytes rows cols row col =
        unpackQ6kRow toF32 (sourceBlock q6kBlockBytes srcBytes cols row col) :=
      if_neg (Nat.not_le.mpr hrow)
    unfold dequantizeQ6k
    rw [readBlockRow_eq hpacked hgroup hcol,
      (hholds (row / 8) col hgroup hcol).readPackedQ6kValues_eq (by omega) real, hplace, hloaded,
      written_q6kWrites _ List.length_replicate]
    apply congrArg Except.ok
    apply List.map_congr_left
    intro i hi
    exact unpackQ6kRow_value toF32 real _ (List.mem_range.mp hi)
  refine ⟨packed, hrun, hpacked, hvalues, ?_, ?_⟩
  · intro row col hrow hgroup hcol
    have hplace : row / 8 * 8 + row % 8 = row := by omega
    have hnr : row % 8 < 8 := Nat.mod_lt row (by decide)
    have hblock := hholds (row / 8) col hgroup hcol
    have hzero : loadedQ6kRow toF32 srcBytes rows cols (row / 8 * 8 + row % 8) col = .zero := by
      rw [hplace]
      exact if_pos hrow
    constructor
    · rw [hblock.readPackedQs_eq hnr, hzero]
      unfold UnpackedQ6kRow.zero
      dsimp only
      rw [List.map_replicate]
      rfl
    · rw [hblock.readPackedQ6kScRaw_eq hnr, hzero]
      rfl
    · rw [hblock.readPackedQ6kD_eq hnr, hzero]
      rfl
  · intro row x hrow
    exact packedRowDot_eq x (fun col hcol => hvalues row col hrow hcol)

/-- Both packed layouts hold the values that the dequantizers give for the original blocks. -/
theorem packed_k_quants_read_as_dequantized (toF32 : UInt16 -> UInt32) (real : UInt32 -> R)
    (rows cols : Nat) (q5kBytes q6kBytes : List UInt8)
    (hq5k : q5kBytes.length = rows * cols * q5kBlockBytes)
    (hq6k : q6kBytes.length = rows * cols * q6kBlockBytes) :
    ReadsAs q5kBlockBytes packedBlockBytes (packQ5k toF32 q5kBytes rows cols)
      (readPackedQ5kValues real) ReadsZero
      (fun block => dequantizeQ5k toF32 real (.ofBytes block) (List.replicate 256 0)) q5kBytes rows
      cols ∧
    ReadsAs q6kBlockBytes q6kPackedBlockBytes (packQ6k toF32 q6kBytes rows cols)
      (readPackedQ6kValues real) ReadsZeroQ6k
      (fun block => dequantizeQ6k toF32 real (.ofBytes block) (List.replicate 256 0)) q6kBytes rows
      cols :=
  ⟨packQ5k_reads_as_dequantized toF32 real hq5k, packQ6k_reads_as_dequantized toF32 real hq6k⟩

/-- The bytes of three rows of one super-block. -/
def threeRows (blockBytes : Nat) : List UInt8 :=
  (List.range (3 * 1 * blockBytes)).map fun i => UInt8.ofNat (i * 7 + i / blockBytes)

theorem threeRows_length (blockBytes : Nat) :
    (threeRows blockBytes).length = 3 * 1 * blockBytes := by
  unfold threeRows
  rw [List.length_map, List.length_range]

/-- Three rows in a group of eight. -/
theorem packed_k_quants_read_as_dequantized_three_rows :
    ReadsAs q5kBlockBytes packedBlockBytes
      (packQ5k UInt16.toUInt32 (threeRows q5kBlockBytes) 3 1)
      (readPackedQ5kValues fun bits => (bits.toNat : Int)) ReadsZero
      (fun block => dequantizeQ5k UInt16.toUInt32 (fun bits => (bits.toNat : Int))
        (.ofBytes block) (List.replicate 256 0))
      (threeRows q5kBlockBytes) 3 1 ∧
    ReadsAs q6kBlockBytes q6kPackedBlockBytes
      (packQ6k UInt16.toUInt32 (threeRows q6kBlockBytes) 3 1)
      (readPackedQ6kValues fun bits => (bits.toNat : Int)) ReadsZeroQ6k
      (fun block => dequantizeQ6k UInt16.toUInt32 (fun bits => (bits.toNat : Int))
        (.ofBytes block) (List.replicate 256 0))
      (threeRows q6kBlockBytes) 3 1 :=
  packed_k_quants_read_as_dequantized UInt16.toUInt32 (fun bits => (bits.toNat : Int)) 3 1
    (threeRows q5kBlockBytes) (threeRows q6kBlockBytes) (threeRows_length q5kBlockBytes)
    (threeRows_length q6kBlockBytes)

end Gemm
end RunNBurn
