import Mathlib.Algebra.BigOperators.Group.Finset.Basic
import Mathlib.Data.Nat.Cast.Basic
import RunNBurn.Gemm.PackedRows

/-!
# Packed `Q5_K` weights

A `Q5_K` block stores the low bits of its quants as nibbles and the fifth bits in bit planes.
The packer and the dequantizer put them together with different masks and counters.
-/

namespace RunNBurn
namespace Gemm

open Library

variable {R : Type} [CommRing R]

structure BlockQ5K where
  d : UInt16
  dmin : UInt16
  scales : List UInt8
  qh : List UInt8
  qs : List UInt8

def BlockQ5K.ofBytes (block : List UInt8) : BlockQ5K where
  d := halfAt block 0
  dmin := halfAt block 2
  scales := region block 4 12
  qh := region block 16 32
  qs := region block 48 128

/-!
## The packer
-/

def q5kBlockBytes : Nat := 176

def q5kUnpackWrites (qs qh : List UInt8) : List (Write UInt8) :=
  (List.range 4).flatMap fun g =>
    ((List.range 32).map fun l =>
      let low := byteAt qs (g * 32 + l) &&& (0x0F : UInt8)
      let highBit := (byteAt qh l >>> UInt8.ofNat (2 * g)) &&& (1 : UInt8)
      Write.one (g * 64 + l) (low ||| (highBit <<< 4))) ++
    (List.range' 32 32).map fun l =>
      let low := byteAt qs (g * 32 + (l - 32)) >>> UInt8.ofNat 4
      let highBit := (byteAt qh (l - 32) >>> UInt8.ofNat (2 * g + 1)) &&& (1 : UInt8)
      Write.one (g * 64 + l) (low ||| (highBit <<< 4))

def unpackQ5kBitsUnsigned (qs qh out : List UInt8) : List UInt8 :=
  written (q5kUnpackWrites qs qh) out

theorem fit_q5kUnpackWrites (qs qh : List UInt8) : WritesFit 256 (q5kUnpackWrites qs qh) := by
  intro write hmem
  rcases List.mem_flatMap.mp hmem with ⟨g, hg, hpart⟩
  have hgFour : g < 4 := List.mem_range.mp hg
  rcases List.mem_append.mp hpart with hlow | hhigh
  · rcases List.mem_map.mp hlow with ⟨l, hl, hsame⟩
    have hlHalf : l < 32 := List.mem_range.mp hl
    rw [← hsame, Write.stop_one]
    omega
  · rcases List.mem_map.mp hhigh with ⟨l, hl, hsame⟩
    have hlHalf := List.mem_range'_1.mp hl
    rw [← hsame, Write.stop_one]
    omega

theorem length_unpackQ5kBitsUnsigned {qs qh out : List UInt8} (h : out.length = 256) :
    (unpackQ5kBitsUnsigned qs qh out).length = 256 := by
  unfold unpackQ5kBitsUnsigned
  rw [length_written (by rw [h]; exact fit_q5kUnpackWrites qs qh), h]

def unpackQ5kRow (toF32 : UInt16 -> UInt32) (block : List UInt8) : UnpackedRow where
  qs := unpackQ5kBitsUnsigned (region block 48 128) (region block 16 32) (List.replicate 256 0)
  sc := (decodeQ4kScalesRaw (region block 4 12)).1
  mn := (decodeQ4kScalesRaw (region block 4 12)).2
  d := toF32 (halfAt block 0)
  dmin := toF32 (halfAt block 2)
  length_qs := length_unpackQ5kBitsUnsigned List.length_replicate
  length_sc := by
    unfold decodeQ4kScalesRaw
    rw [List.length_map, List.length_range]
  length_mn := by
    unfold decodeQ4kScalesRaw
    rw [List.length_map, List.length_range]

def packQ5k (toF32 : UInt16 -> UInt32) (srcBytes : List UInt8) (rows cols : Nat) :
    Checked (List UInt8) :=
  packGroups q5kBlockBytes (unpackQ5kRow toF32) srcBytes rows cols

/-!
## The dequantizer
-/

def extractKQuantScales (scalesBytes : List UInt8) : List R × List R :=
  ((List.range 8).map fun j => ((scaleAndMin scalesBytes j).1.toNat : R),
    (List.range 8).map fun j => ((scaleAndMin scalesBytes j).2.toNat : R))

structure Q5kCounters where
  is : Nat
  qlOff : Nat
  yOff : Nat
  u1 : UInt8
  u2 : UInt8

def Q5kCounters.start : Q5kCounters where
  is := 0
  qlOff := 0
  yOff := 0
  u1 := 1
  u2 := 2

def Q5kCounters.next (counters : Q5kCounters) : Q5kCounters where
  is := counters.is + 2
  qlOff := counters.qlOff + 32
  yOff := counters.yOff + 64
  u1 := counters.u1 <<< 2
  u2 := counters.u2 <<< 2

def highBitOf (byte mask : UInt8) : UInt8 :=
  if byte &&& mask ≠ 0 then 16 else 0

section

variable (toF32 : UInt16 -> UInt32) (real : UInt32 -> R) (block : BlockQ5K)

def q5kGroupWrites (counters : Q5kCounters) : List (Write R) :=
  let scales := (extractKQuantScales block.scales).1
  let mins := (extractKQuantScales block.scales).2
  let d1 := real (toF32 block.d) * scales.getD counters.is 0
  let m1 := real (toF32 block.dmin) * mins.getD counters.is 0
  let d2 := real (toF32 block.d) * scales.getD (counters.is + 1) 0
  let m2 := real (toF32 block.dmin) * mins.getD (counters.is + 1) 0
  ((List.range 32).map fun l =>
    let quant := (byteAt block.qs (counters.qlOff + l) &&& (0xF : UInt8)) +
      highBitOf (byteAt block.qh l) counters.u1
    Write.one (counters.yOff + l) (d1 * (quant.toNat : R) - m1)) ++
  (List.range 32).map fun l =>
    let quant := (byteAt block.qs (counters.qlOff + l) >>> UInt8.ofNat 4) +
      highBitOf (byteAt block.qh l) counters.u2
    Write.one (counters.yOff + 32 + l) (d2 * (quant.toNat : R) - m2)

def dequantizeQ5kGroup (state : Q5kCounters × List R) (_ : Nat) : Q5kCounters × List R :=
  (state.1.next, written (q5kGroupWrites toF32 real block state.1) state.2)

def dequantizeQ5k (output : List R) : List R :=
  ((List.range 4).foldl (dequantizeQ5kGroup toF32 real block) (.start, output)).2

end

/-!
# The quants of a block
-/

def q5kQuant (qs qh : List UInt8) (i : Nat) : Nat :=
  (if i % 64 < 32 then (byteAt qs (i / 64 * 32 + i % 32)).toNat % 16
    else (byteAt qs (i / 64 * 32 + i % 32)).toNat / 16) +
  16 * ((byteAt qh (i % 32)).toNat / 2 ^ (i / 32) % 2)

variable {s : Nat}

theorem toNat_lowQuant {byte plane : UInt8} (hs : s < 8) :
    ((byte &&& (0x0F : UInt8)) ||| (((plane >>> UInt8.ofNat s) &&& (1 : UInt8)) <<< 4)).toNat =
      byte.toNat % 16 + 16 * (plane.toNat / 2 ^ s % 2) := by
  rw [toNat_or_shiftLeft (by rw [toNat_and_low]; omega) (by rw [toNat_and_one]; omega),
    toNat_and_low, toNat_and_one, toNat_shiftRight_ofNat _ hs]

theorem toNat_highQuant {byte plane : UInt8} (hs : s < 8) :
    ((byte >>> UInt8.ofNat 4) ||| (((plane >>> UInt8.ofNat s) &&& (1 : UInt8)) <<< 4)).toNat =
      byte.toNat / 16 + 16 * (plane.toNat / 2 ^ s % 2) := by
  have hbyte := byte.toNat_lt
  have hfour : (byte >>> UInt8.ofNat 4).toNat = byte.toNat / 16 :=
    toNat_shiftRight_ofNat byte (by decide)
  rw [toNat_or_shiftLeft (by rw [hfour]; omega) (by rw [toNat_and_one]; omega), hfour,
    toNat_and_one, toNat_shiftRight_ofNat _ hs]

theorem getElem?_unpackQ5kBitsUnsigned {qs qh out : List UInt8} {i : Nat}
    (hout : out.length = 256) (hi : i < 256) :
    exists x, (unpackQ5kBitsUnsigned qs qh out)[i]? = some x ∧ x.toNat = q5kQuant qs qh i := by
  have hfit : WritesFit out.length (q5kUnpackWrites qs qh) := by
    rw [hout]
    exact fit_q5kUnpackWrites qs qh
  by_cases hhalf : i % 64 < 32
  · refine ⟨(byteAt qs (i / 64 * 32 + i % 32) &&& (0x0F : UInt8)) |||
      (((byteAt qh (i % 32) >>> UInt8.ofNat (2 * (i / 64))) &&& (1 : UInt8)) <<< 4), ?_, ?_⟩
    · apply getElem?_written_one hfit
      · apply List.mem_flatMap.mpr
        refine ⟨i / 64, List.mem_range.mpr (by omega), List.mem_append_left _ ?_⟩
        apply List.mem_map.mpr
        refine ⟨i % 32, List.mem_range.mpr (by omega), ?_⟩
        have hplace : i / 64 * 64 + i % 32 = i := by omega
        dsimp only
        rw [hplace]
      · intro write hmem
        rcases List.mem_flatMap.mp hmem with ⟨g, hg, hpart⟩
        rcases List.mem_append.mp hpart with hlow | hhigh
        · rcases List.mem_map.mp hlow with ⟨l, hl, hsame⟩
          have hlHalf : l < 32 := List.mem_range.mp hl
          refine ⟨_, _, hsame.symm, ?_⟩
          intro hplace
          have hgroup : g = i / 64 := by omega
          have hentry : l = i % 32 := by omega
          rw [hgroup, hentry]
        · rcases List.mem_map.mp hhigh with ⟨l, hl, hsame⟩
          have hlHalf := List.mem_range'_1.mp hl
          refine ⟨_, _, hsame.symm, ?_⟩
          intro hplace
          omega
    · have hplane : 2 * (i / 64) = i / 32 := by omega
      unfold q5kQuant
      rw [toNat_lowQuant (by omega), if_pos hhalf, hplane]
  · refine ⟨(byteAt qs (i / 64 * 32 + i % 32) >>> UInt8.ofNat 4) |||
      (((byteAt qh (i % 32) >>> UInt8.ofNat (2 * (i / 64) + 1)) &&& (1 : UInt8)) <<< 4), ?_, ?_⟩
    · apply getElem?_written_one hfit
      · apply List.mem_flatMap.mpr
        refine ⟨i / 64, List.mem_range.mpr (by omega), List.mem_append_right _ ?_⟩
        apply List.mem_map.mpr
        refine ⟨i % 32 + 32, List.mem_range'_1.mpr (by omega), ?_⟩
        have hplace : i / 64 * 64 + (i % 32 + 32) = i := by omega
        dsimp only
        rw [hplace, Nat.add_sub_cancel]
      · intro write hmem
        rcases List.mem_flatMap.mp hmem with ⟨g, hg, hpart⟩
        rcases List.mem_append.mp hpart with hlow | hhigh
        · rcases List.mem_map.mp hlow with ⟨l, hl, hsame⟩
          have hlHalf : l < 32 := List.mem_range.mp hl
          refine ⟨_, _, hsame.symm, ?_⟩
          intro hplace
          omega
        · rcases List.mem_map.mp hhigh with ⟨l, hl, hsame⟩
          have hlHalf := List.mem_range'_1.mp hl
          refine ⟨_, _, hsame.symm, ?_⟩
          intro hplace
          have hgroup : g = i / 64 := by omega
          have hentry : l - 32 = i % 32 := by omega
          rw [hgroup, hentry]
    · have hplane : 2 * (i / 64) + 1 = i / 32 := by omega
      unfold q5kQuant
      rw [toNat_highQuant (by omega), if_neg hhalf, hplane]

/-!
# The values of a block
-/

/-- The counters of the group `g`. -/
def q5kCounters : Nat -> Q5kCounters
  | 0 => .start
  | g + 1 => (q5kCounters g).next

theorem q5kCounters_eq (g : Nat) :
    (q5kCounters g).is = 2 * g ∧ (q5kCounters g).qlOff = 32 * g ∧
    (q5kCounters g).yOff = 64 * g := by
  induction g with
  | zero => exact ⟨rfl, rfl, rfl⟩
  | succ g ih =>
    unfold q5kCounters Q5kCounters.next
    dsimp only
    omega

theorem q5kCounters_masks {g : Nat} (hg : g < 4) :
    (q5kCounters g).u1.toNat = 2 ^ (2 * g) ∧ (q5kCounters g).u2.toNat = 2 ^ (2 * g + 1) := by
  revert g
  decide

def q5kValueWrites (toF32 : UInt16 -> UInt32) (real : UInt32 -> R) (block : BlockQ5K)
    (groups : Nat) : List (Write R) :=
  (List.range groups).flatMap fun g => q5kGroupWrites toF32 real block (q5kCounters g)

variable (toF32 : UInt16 -> UInt32)

theorem foldl_dequantizeQ5kGroup (real : UInt32 -> R) (block : BlockQ5K) (output : List R)
    (groups : Nat) :
    (List.range groups).foldl (dequantizeQ5kGroup toF32 real block) (.start, output) =
      (q5kCounters groups, written (q5kValueWrites toF32 real block groups) output) := by
  induction groups with
  | zero => rfl
  | succ groups ih =>
    unfold q5kValueWrites at ih ⊢
    rw [List.range_succ, List.foldl_append, ih, List.flatMap_append, List.flatMap_singleton,
      written_append]
    rfl

theorem highBitOf_toNat {byte mask : UInt8} (hmask : mask.toNat = 2 ^ s) :
    (highBitOf byte mask).toNat = 16 * (byte.toNat / 2 ^ s % 2) := by
  unfold highBitOf
  by_cases hbit : byte &&& mask ≠ 0
  · rw [if_pos hbit, (and_mask_ne_zero_iff byte hmask).mp hbit]
    rfl
  · rw [if_neg hbit]
    rw [and_mask_ne_zero_iff byte hmask] at hbit
    have hzero : byte.toNat / 2 ^ s % 2 = 0 := by omega
    rw [hzero]
    rfl

theorem toNat_lowSum {byte plane mask : UInt8} (hmask : mask.toNat = 2 ^ s) :
    ((byte &&& (0xF : UInt8)) + highBitOf plane mask).toNat =
      byte.toNat % 16 + 16 * (plane.toNat / 2 ^ s % 2) := by
  rw [UInt8.toNat_add, highBitOf_toNat hmask]
  have hlow : (byte &&& (0xF : UInt8)).toNat = byte.toNat % 16 := toNat_and_low byte
  rw [hlow]
  apply Nat.mod_eq_of_lt
  omega

theorem toNat_highSum {byte plane mask : UInt8} (hmask : mask.toNat = 2 ^ s) :
    ((byte >>> UInt8.ofNat 4) + highBitOf plane mask).toNat =
      byte.toNat / 16 + 16 * (plane.toNat / 2 ^ s % 2) := by
  have hbyte := byte.toNat_lt
  have hfour : (byte >>> UInt8.ofNat 4).toNat = byte.toNat / 16 :=
    toNat_shiftRight_ofNat byte (by decide)
  rw [UInt8.toNat_add, highBitOf_toNat hmask, hfour]
  apply Nat.mod_eq_of_lt
  omega

/-- A value of a block: the scaled quant less the minimum of its sub-block. -/
def q5kValue (toF32 : UInt16 -> UInt32) (real : UInt32 -> R) (block : BlockQ5K) (i : Nat) : R :=
  real (toF32 block.d) * ((scaleAndMin block.scales (i / 32)).1.toNat : R) *
    (q5kQuant block.qs block.qh i : R) -
  real (toF32 block.dmin) * ((scaleAndMin block.scales (i / 32)).2.toNat : R)

section

variable (real : UInt32 -> R) (block : BlockQ5K)

theorem fit_q5kValueWrites :
    WritesFit 256 (q5kValueWrites toF32 real block 4) := by
  intro write hmem
  rcases List.mem_flatMap.mp hmem with ⟨g, hg, hpart⟩
  have hgFour : g < 4 := List.mem_range.mp hg
  rcases q5kCounters_eq g with ⟨-, -, hyOff⟩
  rcases List.mem_append.mp hpart with hlow | hhigh
  · rcases List.mem_map.mp hlow with ⟨l, hl, hsame⟩
    have hlHalf : l < 32 := List.mem_range.mp hl
    rw [← hsame, Write.stop_one, hyOff]
    omega
  · rcases List.mem_map.mp hhigh with ⟨l, hl, hsame⟩
    have hlHalf : l < 32 := List.mem_range.mp hl
    rw [← hsame, Write.stop_one, hyOff]
    omega

theorem q5kGroupWrites_value {g : Nat} (hg : g < 4) :
    q5kGroupWrites toF32 real block (q5kCounters g) =
      (List.range 64).map fun l =>
        Write.one (64 * g + l) (q5kValue toF32 real block (64 * g + l)) := by
  rcases q5kCounters_eq g with ⟨his, hqlOff, hyOff⟩
  rcases q5kCounters_masks hg with ⟨hu1, hu2⟩
  have hsplit : List.range 64 = List.range 32 ++ (List.range 32).map (fun l => 32 + l) := rfl
  unfold q5kGroupWrites extractKQuantScales
  dsimp only
  rw [his, hqlOff, hyOff, hsplit, List.map_append, List.map_map]
  have hfirst : forall l, l < 32 -> (64 * g + l) / 32 = 2 * g ∧ (64 * g + l) % 64 < 32 ∧
      (64 * g + l) / 64 * 32 + (64 * g + l) % 32 = 32 * g + l ∧ (64 * g + l) % 32 = l := by
    intro l hl
    omega
  have hsecond : forall l, l < 32 -> (64 * g + (32 + l)) / 32 = 2 * g + 1 ∧
      ¬(64 * g + (32 + l)) % 64 < 32 ∧
      (64 * g + (32 + l)) / 64 * 32 + (64 * g + (32 + l)) % 32 = 32 * g + l ∧
      (64 * g + (32 + l)) % 32 = l := by
    intro l hl
    omega
  apply congrArg₂ List.append
  · apply List.map_congr_left
    intro l hl
    rcases hfirst l (List.mem_range.mp hl) with ⟨hsub, hhalf, hbyte, hplane⟩
    unfold q5kValue q5kQuant
    rw [getD_range_map _ _ (by omega), getD_range_map _ _ (by omega), toNat_lowSum hu1, hsub,
      if_pos hhalf, hbyte, hplane]
  · apply List.map_congr_left
    intro l hl
    rcases hsecond l (List.mem_range.mp hl) with ⟨hsub, hhalf, hbyte, hplane⟩
    dsimp only [Function.comp_apply]
    unfold q5kValue q5kQuant
    rw [getD_range_map _ _ (by omega), getD_range_map _ _ (by omega), toNat_highSum hu2, hsub,
      if_neg hhalf, hbyte, hplane, Nat.add_assoc]

theorem dequantizeQ5k_eq {output : List R}
    (houtput : output.length = 256) :
    dequantizeQ5k toF32 real block output =
      (List.range 256).map (q5kValue toF32 real block) := by
  have hfit : WritesFit output.length (q5kValueWrites toF32 real block 4) := by
    rw [houtput]
    exact fit_q5kValueWrites toF32 real block
  unfold dequantizeQ5k
  rw [foldl_dequantizeQ5kGroup]
  dsimp only
  apply List.ext_getElem?
  intro i
  by_cases hi : i < 256
  · rw [List.getElem?_map, List.getElem?_range hi]
    apply getElem?_written_one hfit
    · apply List.mem_flatMap.mpr
      refine ⟨i / 64, List.mem_range.mpr (by omega), ?_⟩
      rw [q5kGroupWrites_value toF32 real block (by omega)]
      apply List.mem_map.mpr
      refine ⟨i % 64, List.mem_range.mpr (by omega), ?_⟩
      rw [Nat.div_add_mod]
    · intro write hmem
      rcases List.mem_flatMap.mp hmem with ⟨g, hg, hpart⟩
      rw [q5kGroupWrites_value toF32 real block (List.mem_range.mp hg)] at hpart
      rcases List.mem_map.mp hpart with ⟨l, hl, hsame⟩
      refine ⟨_, _, hsame.symm, ?_⟩
      intro hplace
      rw [hplace]
  · rw [List.getElem?_eq_none (by rw [length_written hfit, houtput]; omega),
      List.getElem?_eq_none (by rw [List.length_map, List.length_range]; omega)]

end

/-!
# Packed and original values
-/

def readPackedQ5kValues (real : UInt32 -> R) (packed : List UInt8) (nr : Nat) :
    Checked (List R) := do
  let qs <- readPackedQs packed nr
  let sc <- readPackedScRaw packed nr
  let mn <- readPackedMnRaw packed nr
  let d <- readPackedD packed nr
  let dmin <- readPackedDmin packed nr
  return (List.range 256).map fun i =>
    real d * ((byteAt sc (i / 32)).toNat : R) * ((byteAt qs i).toNat : R) -
      real dmin * ((byteAt mn (i / 32)).toNat : R)

theorem HoldsPacked.readPackedQ5kValues_eq {rows : Nat -> UnpackedRow} {packed : List UInt8}
    {nr : Nat} (h : HoldsPacked rows packed) (hnr : nr < 8) (real : UInt32 -> R) :
    readPackedQ5kValues real packed nr =
      .ok ((List.range 256).map fun i =>
        real (rows nr).d * ((byteAt (rows nr).sc (i / 32)).toNat : R) *
          ((byteAt (rows nr).qs i).toNat : R) -
        real (rows nr).dmin * ((byteAt (rows nr).mn (i / 32)).toNat : R)) := by
  unfold readPackedQ5kValues
  rw [h.readPackedQs_eq hnr, h.readPackedScRaw_eq hnr, h.readPackedMnRaw_eq hnr,
    h.readPackedD_eq hnr, h.readPackedDmin_eq hnr]
  rfl

theorem unpackQ5kRow_value (real : UInt32 -> R) (block : List UInt8) {i : Nat} (hi : i < 256) :
    let row := unpackQ5kRow toF32 block
    real row.d * ((byteAt row.sc (i / 32)).toNat : R) * ((byteAt row.qs i).toNat : R) -
        real row.dmin * ((byteAt row.mn (i / 32)).toNat : R) =
      q5kValue toF32 real (.ofBytes block) i := by
  have hquants : forall out : List UInt8, out.length = 256 ->
      (byteAt (unpackQ5kBitsUnsigned (region block 48 128) (region block 16 32) out) i).toNat =
        q5kQuant (region block 48 128) (region block 16 32) i := by
    intro out hout
    rcases getElem?_unpackQ5kBitsUnsigned hout hi with ⟨x, hx, hquant⟩
    unfold byteAt
    rw [List.getD_eq_getElem?_getD, hx]
    exact hquant
  intro row
  dsimp only [row, unpackQ5kRow]
  rw [hquants _ List.length_replicate]
  unfold decodeQ4kScalesRaw byteAt q5kValue BlockQ5K.ofBytes
  dsimp only
  rw [getD_range_map _ _ (by omega), getD_range_map _ _ (by omega)]

theorem packQ5k_reads_as_dequantized (real : UInt32 -> R) {srcBytes : List UInt8}
    {rows cols : Nat} (hlength : srcBytes.length = rows * cols * q5kBlockBytes) :
    ReadsAs q5kBlockBytes packedBlockBytes (packQ5k toF32 srcBytes rows cols)
      (readPackedQ5kValues real) ReadsZero
      (fun block => dequantizeQ5k toF32 real (.ofBytes block) (List.replicate 256 0)) srcBytes rows
      cols := by
  rcases packGroups_delivers (unpackQ5kRow toF32) hlength with
    ⟨packed, hrun, hpacked, hholds⟩
  have hvalues : forall row col, row < rows -> col < cols ->
      readBlockRow packedBlockBytes (readPackedQ5kValues real) packed cols row col =
        .ok (dequantizeQ5k toF32 real (.ofBytes (sourceBlock q5kBlockBytes srcBytes cols row col))
          (List.replicate 256 0)) := by
    intro row col hrow hcol
    have hgroup : row / 8 < divCeil rows 8 := lt_divCeil hrow
    have hplace : row / 8 * 8 + row % 8 = row := by omega
    rw [readBlockRow_eq hpacked hgroup hcol,
      (hholds (row / 8) col hgroup hcol).readPackedQ5kValues_eq (by omega) real, hplace,
      loadedRow_of_lt hrow, dequantizeQ5k_eq toF32 real _ List.length_replicate]
    apply congrArg Except.ok
    apply List.map_congr_left
    intro i hi
    exact unpackQ5kRow_value toF32 real _ (List.mem_range.mp hi)
  refine ⟨packed, hrun, hpacked, hvalues, ?_, ?_⟩
  · intro row col hrow hgroup hcol
    have hplace : row / 8 * 8 + row % 8 = row := by omega
    apply (hholds (row / 8) col hgroup hcol).readsZero (Nat.mod_lt row (by decide))
    rw [hplace]
    exact loadedRow_of_le hrow
  · intro row x hrow
    exact packedRowDot_eq x (fun col hcol => hvalues row col hrow hcol)

end Gemm
end RunNBurn
