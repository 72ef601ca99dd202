import RunNBurn.Gemm.PackQ4k

/-!
# Repacked `Q4_K` weights

Layouts for full groups of eight rows and full pairs of rows; the rows that are left over stay in
the original bytes.  The layout of decoded scales covers every row.
-/

namespace RunNBurn
namespace Gemm

open Library

/-!
## Scales
-/

def extractScales (scalesBytes : List UInt8) : List UInt8 × List UInt8 :=
  (((List.range 4).map fun j => byteAt scalesBytes j &&& (63 : UInt8)) ++
    (List.range' 4 4).map fun j =>
      (byteAt scalesBytes (j + 4) &&& (0x0F : UInt8)) |||
        ((byteAt scalesBytes (j - 4) >>> 6) <<< 4),
    ((List.range 4).map fun j => byteAt scalesBytes (j + 4) &&& (63 : UInt8)) ++
    (List.range' 4 4).map fun j =>
      (byteAt scalesBytes (j + 4) >>> 4) ||| ((byteAt scalesBytes j >>> 6) <<< 4))

theorem extractScales_eq (scalesBytes : List UInt8) :
    extractScales scalesBytes = decodeQ4kScalesRaw scalesBytes :=
  rfl

section

variable (toF32 : UInt16 -> UInt32) (block : List UInt8)

/-- Scales, minimums and factors, with the scales of `extractScales`. -/
def repackMetaPart : Nat -> List UInt8
  | 0 => (extractScales (region block 4 12)).1
  | 1 => (extractScales (region block 4 12)).2
  | 2 => f32Bytes (toF32 (halfAt block 0))
  | _ => f32Bytes (toF32 (halfAt block 2))

def repackPart : Nat -> List UInt8
  | 0 => region block 16 128
  | f + 1 => repackMetaPart toF32 block f

theorem repackMetaPart_eq :
    repackMetaPart toF32 block = metaPart toF32 block := by
  funext f
  rcases f with _ | _ | _ | f
  · exact congrArg Prod.fst (extractScales_eq _)
  · exact congrArg Prod.snd (extractScales_eq _)
  · rfl
  · rfl

end

/-!
## Groups of eight rows
-/

def rpkQsOff : Nat := 0
def rpkScOff : Nat := 1024
def rpkMnOff : Nat := 1088
def rpkDOff : Nat := 1152
def rpkDminOff : Nat := 1184
def repackedBlockBytes : Nat := 1024 + 64 + 64 + 32 + 32

def repackTable : FieldTable where
  count := 8
  fields := 5
  offset := fun
    | 0 => rpkQsOff
    | 1 => rpkScOff
    | 2 => rpkMnOff
    | 3 => rpkDOff
    | _ => rpkDminOff
  width := planarWidth
  ascending := by
    intro f g hg hless
    revert f
    revert g
    decide

/-- First the quants of all rows, then scales and minimums row by row, then the factors. -/
def repackWrites (part : Nat -> Nat -> List UInt8) : List (Write UInt8) :=
  ((List.range 8).map (repackTable.write part 0)) ++
    ((List.range 8).flatMap fun r => [repackTable.write part 1 r, repackTable.write part 2 r]) ++
    ((List.range 8).map (repackTable.write part 3)) ++
    (List.range 8).map (repackTable.write part 4)

def repackGroup (toF32 : UInt16 -> UInt32) (bytes : List UInt8) (blocks group bi : Nat)
    (out : List UInt8) : Checked (List UInt8) := do
  let loaded <- (List.range 8).mapM fun r =>
    slice bytes (((group * 8 + r) * blocks + bi) * q4kBlockBytes)
      (((group * 8 + r) * blocks + bi) * q4kBlockBytes + q4kBlockBytes)
  runWrites (repackWrites fun f r => repackPart toF32 (loaded.getD r []) f) out

def repackQ4k (toF32 : UInt16 -> UInt32) (bytes : List UInt8) (rows cols : Nat) :
    Checked (List UInt8) := do
  require (cols % 256 = 0) "assertion failed: cols % 256 == 0"
  forBlocks 0 repackedBlockBytes (rows / 8) (cols / 256) (repackGroup toF32 bytes (cols / 256))

/-!
## Pairs of rows
-/

def tpkQsOff : Nat := 0
def tpkScOff : Nat := 512
def tpkMnOff : Nat := 528
def tpkDOff : Nat := 544
def tpkDminOff : Nat := 552
def twinQ4kBlockBytes : Nat := 512 + 16 + 16 + 8 + 8

def twinTable : FieldTable where
  count := 2
  fields := 4
  offset := fun
    | 0 => tpkScOff
    | 1 => tpkMnOff
    | 2 => tpkDOff
    | _ => tpkDminOff
  width := metaWidth
  ascending := by
    intro f g hg hless
    revert f
    revert g
    decide

def twinQsWrites (qs0 qs1 : List UInt8) : List (Write UInt8) :=
  (List.range 4).flatMap fun group =>
    (List.range 2).flatMap fun half =>
      let base := group * 32 + half * 16
      let lo := tpkQsOff + group * 128 + half * 2 * 32
      let hi := tpkQsOff + group * 128 + (half * 2 + 1) * 32
      (List.range 8).flatMap fun i =>
        [Write.one (lo + i) (byteAt qs0 (base + i) &&& (0x0F : UInt8)),
          Write.one (lo + 8 + i) (byteAt qs1 (base + i) &&& (0x0F : UInt8)),
          Write.one (lo + 16 + i) (byteAt qs0 (base + (8 + i)) &&& (0x0F : UInt8)),
          Write.one (lo + 24 + i) (byteAt qs1 (base + (8 + i)) &&& (0x0F : UInt8)),
          Write.one (hi + i) (byteAt qs0 (base + i) >>> UInt8.ofNat 4),
          Write.one (hi + 8 + i) (byteAt qs1 (base + i) >>> UInt8.ofNat 4),
          Write.one (hi + 16 + i) (byteAt qs0 (base + (8 + i)) >>> UInt8.ofNat 4),
          Write.one (hi + 24 + i) (byteAt qs1 (base + (8 + i)) >>> UInt8.ofNat 4)]

def twinMetaWrites (part : Nat -> Nat -> List UInt8) : List (Write UInt8) :=
  (List.range 4).flatMap fun f => [twinTable.write part f 0, twinTable.write part f 1]

def repackTwinPair (toF32 : UInt16 -> UInt32) (bytes : List UInt8) (blocks pair bi : Nat)
    (out : List UInt8) : Checked (List UInt8) := do
  let block0 <- slice bytes ((pair * 2 * blocks + bi) * q4kBlockBytes)
    ((pair * 2 * blocks + bi) * q4kBlockBytes + q4kBlockBytes)
  let block1 <- slice bytes (((pair * 2 + 1) * blocks + bi) * q4kBlockBytes)
    (((pair * 2 + 1) * blocks + bi) * q4kBlockBytes + q4kBlockBytes)
  runWrites
    (twinQsWrites (region block0 16 128) (region block1 16 128) ++
      twinMetaWrites fun f r => repackMetaPart toF32 (if r = 0 then block0 else block1) f)
    out

def repackQ4kTwin (toF32 : UInt16 -> UInt32) (bytes : List UInt8) (rows cols : Nat) :
    Checked (List UInt8) := do
  require (cols % 256 = 0) "assertion failed: cols % 256 == 0"
  forBlocks 0 twinQ4kBlockBytes (rows / 2) (cols / 256) (repackTwinPair toF32 bytes (cols / 256))

/-- Where a kernel finds the value `i` of a row of the pair. -/
def twinPlace (rowInPair i : Nat) : Nat :=
  tpkQsOff + i / 64 * 128 + i % 32 / 16 * 64 + (if i % 64 < 32 then 0 else 32) +
    i % 16 / 8 * 16 + rowInPair * 8 + i % 8

def readTwinRow (block : List UInt8) (rowInPair : Nat) : Checked Q4kRow := do
  let nibbles <- (List.range 256).mapM fun i => index block (twinPlace rowInPair i)
  let sc <- readField twinTable block 0 rowInPair
  let mn <- readField twinTable block 1 rowInPair
  let d <- readField twinTable block 2 rowInPair
  let dmin <- readField twinTable block 3 rowInPair
  return {
    nibbles := nibbles
    sc := sc
    mn := mn
    d := f32OfBytes d
    dmin := f32OfBytes dmin }

/-!
## Decoded scales only
-/

def mpkScOff : Nat := 0
def mpkMnOff : Nat := 8
def mpkDOff : Nat := 16
def mpkDminOff : Nat := 20
def metaQ4kBlockBytes : Nat := 8 + 8 + 4 + 4

def metaTable : FieldTable where
  count := 1
  fields := 4
  offset := fun
    | 0 => mpkScOff
    | 1 => mpkMnOff
    | 2 => mpkDOff
    | _ => mpkDminOff
  width := metaWidth
  ascending := by
    intro f g hg hless
    revert f
    revert g
    decide

def repackQ4kMeta (toF32 : UInt16 -> UInt32) (bytes : List UInt8) (rows cols : Nat) :
    Checked (List UInt8) := do
  require (cols % 256 = 0) "assertion failed: cols % 256 == 0"
  packTable metaTable metaQ4kBlockBytes (repackMetaPart toF32) bytes rows (cols / 256) rows

def readMetaRow (block original : List UInt8) : Checked Q4kRow := do
  let qs <- slice original 16 144
  let sc <- readField metaTable block 0 0
  let mn <- readField metaTable block 1 0
  let d <- readField metaTable block 2 0
  let dmin <- readField metaTable block 3 0
  return {
    nibbles := nibbles qs
    sc := sc
    mn := mn
    d := f32OfBytes d
    dmin := f32OfBytes dmin }

/-!
# Reading repacked `Q4_K` weights

The rows of full groups and pairs are read back as the row-major blocks, and with them every
layout gives the same integer dot products.
-/

variable {toF32 : UInt16 -> UInt32} {srcBytes : List UInt8} {rows cols : Nat}

/-!
## Groups of eight rows
-/

theorem repackPart_eq (toF32 : UInt16 -> UInt32) (block : List UInt8) :
    repackPart toF32 block = planarPart toF32 block := by
  funext f
  cases f with
  | zero => rfl
  | succ f =>
    unfold repackPart planarPart
    dsimp only
    rw [repackMetaPart_eq]

theorem repackTable_room : forall f, f < repackTable.fields ->
    repackTable.offset f + repackTable.count * repackTable.width f <= repackedBlockBytes := by
  decide

variable {part : Nat -> Nat -> List UInt8}

theorem fills_repackWrites
    (hwidth : forall f r, f < 5 -> r < 8 -> (part f r).length = planarWidth f) :
    repackTable.Fills part (fun _ => True) (repackWrites part) where
  complete := by
    intro f r hf hr _
    have hrow : r ∈ List.range 8 := List.mem_range.mpr hr
    unfold repackWrites
    simp only [List.mem_append, List.mem_map, List.mem_flatMap, List.mem_cons, List.not_mem_nil,
      or_false]
    have hcases : f = 0 ∨ f = 1 ∨ f = 2 ∨ f = 3 ∨ f = 4 := by
      have hfive : f < 5 := hf
      omega
    rcases hcases with h | h | h | h | h
    · rw [h]
      exact .inl (.inl (.inl ⟨r, hrow, rfl⟩))
    · rw [h]
      exact .inl (.inl (.inr ⟨r, hrow, .inl rfl⟩))
    · rw [h]
      exact .inl (.inl (.inr ⟨r, hrow, .inr rfl⟩))
    · rw [h]
      exact .inl (.inr ⟨r, hrow, rfl⟩)
    · rw [h]
      exact .inr ⟨r, hrow, rfl⟩
  sound := by
    intro write hmem
    unfold repackWrites at hmem
    simp only [List.mem_append, List.mem_map, List.mem_flatMap, List.mem_cons, List.not_mem_nil,
      or_false, List.mem_range] at hmem
    rcases hmem with ((⟨r, hr, h⟩ | ⟨r, hr, h | h⟩) | ⟨r, hr, h⟩) | ⟨r, hr, h⟩
    · exact ⟨0, r, by decide, hr, True.intro, h.symm⟩
    · exact ⟨1, r, by decide, hr, True.intro, h⟩
    · exact ⟨2, r, by decide, hr, True.intro, h⟩
    · exact ⟨3, r, by decide, hr, True.intro, h.symm⟩
    · exact ⟨4, r, by decide, hr, True.intro, h.symm⟩
  width_eq := fun f r hf hr _ => hwidth f r hf hr

theorem row_lt_of_group {count group r : Nat} (hgroup : group < rows / count) (hr : r < count) :
    group * count + r < rows := by
  have hroom : (group + 1) * count <= rows / count * count := Nat.mul_le_mul_right count hgroup
  rw [Nat.succ_mul] at hroom
  have hrows : rows / count * count <= rows := Nat.div_mul_le_self rows count
  omega

theorem length_sourceBlock {blockBytes row col : Nat}
    (hlength : srcBytes.length = rows * cols * blockBytes) (hrow : row < rows) (hcol : col < cols) :
    (sourceBlock blockBytes srcBytes cols row col).length = blockBytes :=
  length_region (by rw [hlength]; exact sourceBlock_room hrow hcol)

def groupBlocks (srcBytes : List UInt8) (cols group col : Nat) : List (List UInt8) :=
  (List.range 8).map fun r => sourceBlock q4kBlockBytes srcBytes cols (group * 8 + r) col

theorem repackQ4k_delivers (hcols : cols % 256 = 0)
    (hlength : srcBytes.length = rows * (cols / 256) * q4kBlockBytes) :
    exists out, repackQ4k toF32 srcBytes rows cols = .ok out ∧
      out.length = rows / 8 * (cols / 256) * repackedBlockBytes ∧
      forall group bi, group < rows / 8 -> bi < cols / 256 ->
        HoldsFields repackTable repackedBlockBytes
          (fun f r => repackPart toF32
            ((groupBlocks srcBytes (cols / 256) group bi).getD r []) f)
          (fun _ => True)
          (sourceBlock repackedBlockBytes out (cols / 256) group bi) := by
  have hfills : forall group bi, group < rows / 8 -> bi < cols / 256 ->
      repackTable.Fills
        (fun f r => repackPart toF32 ((groupBlocks srcBytes (cols / 256) group bi).getD r []) f)
        (fun _ => True)
        (repackWrites fun f r =>
          repackPart toF32 ((groupBlocks srcBytes (cols / 256) group bi).getD r []) f) := by
    intro group bi hgroup hbi
    apply fills_repackWrites
    intro f r _ hr
    unfold groupBlocks
    rw [getD_range_map _ _ hr, repackPart_eq]
    exact length_planarPart toF32 (length_sourceBlock hlength (row_lt_of_group hgroup hr) hbi) f
  have hchange : forall group bi, group < rows / 8 -> bi < cols / 256 ->
      repackGroup toF32 srcBytes (cols / 256) group bi (List.replicate repackedBlockBytes 0) =
        .ok (written (repackWrites fun f r =>
            repackPart toF32 ((groupBlocks srcBytes (cols / 256) group bi).getD r []) f)
          (List.replicate repackedBlockBytes 0)) := by
    intro group bi hgroup hbi
    unfold repackGroup
    rw [mapM_eq_ok (fun r hr => slice_sourceBlock hlength
      (row_lt_of_group hgroup (List.mem_range.mp hr)) hbi), ok_bind]
    apply runWrites_eq
    rw [List.length_replicate]
    exact ((hfills group bi hgroup hbi).within (fun f _ => Nat.zero_le _) repackTable_room).fit
      (Nat.le_refl repackedBlockBytes)
  have hholds : forall group bi, group < rows / 8 -> bi < cols / 256 ->
      HoldsFields repackTable repackedBlockBytes _ _ _ :=
    fun group bi hgroup hbi => holdsFields_written (hfills group bi hgroup hbi) repackTable_room
  unfold repackQ4k
  rw [require_of_true _ hcols, ok_bind]
  rcases forBlocks_delivers hchange
    (fun group bi hgroup hbi => (hholds group bi hgroup hbi).length_eq) with
    ⟨out, hrun, hout, hregion⟩
  refine ⟨out, hrun, hout, ?_⟩
  intro group bi hgroup hbi
  refine Eq.mpr ?_ (hholds group bi hgroup hbi)
  exact congrArg (HoldsFields repackTable repackedBlockBytes _ _) (hregion group bi hgroup hbi)

/-!
## Pairs of rows
-/

def pairQs (qs0 qs1 : List UInt8) (r : Nat) : List UInt8 :=
  if r = 0 then qs0 else qs1

theorem twinPlace_eq {group half high upper i : Nat} (hhalf : half < 2) (hhigh : high < 2)
    (hupper : upper < 2) (hi : i < 8) (r : Nat) :
    twinPlace r (group * 64 + high * 32 + half * 16 + upper * 8 + i) =
      tpkQsOff + group * 128 + half * 64 + high * 32 + upper * 16 + r * 8 + i := by
  have hgroup : (group * 64 + high * 32 + half * 16 + upper * 8 + i) / 64 = group := by omega
  have hhalfOf : (group * 64 + high * 32 + half * 16 + upper * 8 + i) % 32 / 16 = half := by omega
  have hupperOf : (group * 64 + high * 32 + half * 16 + upper * 8 + i) % 16 / 8 = upper := by omega
  have hentry : (group * 64 + high * 32 + half * 16 + upper * 8 + i) % 8 = i := by omega
  unfold twinPlace
  rw [hgroup, hhalfOf, hupperOf, hentry]
  split
  next hlow => omega
  next hlow => omega

theorem nibbleAt_low {qs : List UInt8} {group half upper i : Nat} (hhalf : half < 2)
    (hupper : upper < 2) (hi : i < 8) :
    nibbleAt qs (group * 64 + 0 * 32 + half * 16 + upper * 8 + i) =
      byteAt qs (group * 32 + half * 16 + (upper * 8 + i)) &&& (0x0F : UInt8) := by
  have hlow : (group * 64 + 0 * 32 + half * 16 + upper * 8 + i) % 64 < 32 := by omega
  have hbyte : (group * 64 + 0 * 32 + half * 16 + upper * 8 + i) / 64 * 32 +
      (group * 64 + 0 * 32 + half * 16 + upper * 8 + i) % 32 =
      group * 32 + half * 16 + (upper * 8 + i) := by omega
  unfold nibbleAt
  rw [if_pos hlow, hbyte]

theorem nibbleAt_high {qs : List UInt8} {group half upper i : Nat} (hhalf : half < 2)
    (hupper : upper < 2) (hi : i < 8) :
    nibbleAt qs (group * 64 + 1 * 32 + half * 16 + upper * 8 + i) =
      byteAt qs (group * 32 + half * 16 + (upper * 8 + i)) >>> UInt8.ofNat 4 := by
  have hhigh : ¬(group * 64 + 1 * 32 + half * 16 + upper * 8 + i) % 64 < 32 := by omega
  have hbyte : (group * 64 + 1 * 32 + half * 16 + upper * 8 + i) / 64 * 32 +
      (group * 64 + 1 * 32 + half * 16 + upper * 8 + i) % 32 =
      group * 32 + half * 16 + (upper * 8 + i) := by omega
  unfold nibbleAt
  rw [if_neg hhigh, hbyte]

def twinWrite (qs0 qs1 : List UInt8) (r i : Nat) : Write UInt8 :=
  Write.one (twinPlace r i) (nibbleAt (pairQs qs0 qs1 r) i)

section TwinWrites

variable {qs0 qs1 : List UInt8} {group half i : Nat}

theorem one_low {start byte : Nat} (upper r : Nat) (hhalf : half < 2) (hi : i < 8)
    (hupper : upper < 2)
    (hstart : start = tpkQsOff + group * 128 + half * 64 + upper * 16 + r * 8 + i)
    (hbyte : byte = group * 32 + half * 16 + (upper * 8 + i)) :
    Write.one start (byteAt (pairQs qs0 qs1 r) byte &&& (0x0F : UInt8)) =
      twinWrite qs0 qs1 r (group * 64 + 0 * 32 + half * 16 + upper * 8 + i) := by
  unfold twinWrite
  rw [twinPlace_eq hhalf (by decide) hupper hi, nibbleAt_low hhalf hupper hi, hbyte, hstart,
    Nat.zero_mul, Nat.add_zero]

theorem one_high {start byte : Nat} (upper r : Nat) (hhalf : half < 2) (hi : i < 8)
    (hupper : upper < 2)
    (hstart : start = tpkQsOff + group * 128 + half * 64 + 32 + upper * 16 + r * 8 + i)
    (hbyte : byte = group * 32 + half * 16 + (upper * 8 + i)) :
    Write.one start (byteAt (pairQs qs0 qs1 r) byte >>> UInt8.ofNat 4) =
      twinWrite qs0 qs1 r (group * 64 + 1 * 32 + half * 16 + upper * 8 + i) := by
  unfold twinWrite
  rw [twinPlace_eq hhalf (by decide) hupper hi, nibbleAt_high hhalf hupper hi, hbyte, hstart,
    Nat.one_mul]

def stepValue (group half i high upper : Nat) : Nat :=
  group * 64 + high * 32 + half * 16 + upper * 8 + i

def stepWrites (qs0 qs1 : List UInt8) (group half i : Nat) : List (Write UInt8) :=
  (List.range 2).flatMap fun high =>
    (List.range 2).flatMap fun upper =>
      (List.range 2).map fun r => twinWrite qs0 qs1 r (stepValue group half i high upper)

theorem twinQsWrites_eq :
    twinQsWrites qs0 qs1 =
      (List.range 4).flatMap fun group =>
        (List.range 2).flatMap fun half =>
          (List.range 8).flatMap fun i => stepWrites qs0 qs1 group half i := by
  unfold twinQsWrites
  apply List.flatMap_congr
  intro group _
  apply List.flatMap_congr
  intro half hhalfMem
  apply List.flatMap_congr
  intro i hiMem
  have hhalf : half < 2 := List.mem_range.mp hhalfMem
  have hi : i < 8 := List.mem_range.mp hiMem
  have hzero : 0 < 2 := by decide
  have hone : 1 < 2 := by decide
  apply congrArg₂ List.cons (one_low 0 0 hhalf hi hzero (by omega) (by omega))
  apply congrArg₂ List.cons (one_low 0 1 hhalf hi hzero (by omega) (by omega))
  apply congrArg₂ List.cons (one_low 1 0 hhalf hi hone (by omega) (by omega))
  apply congrArg₂ List.cons (one_low 1 1 hhalf hi hone (by omega) (by omega))
  apply congrArg₂ List.cons (one_high 0 0 hhalf hi hzero (by omega) (by omega))
  apply congrArg₂ List.cons (one_high 0 1 hhalf hi hzero (by omega) (by omega))
  apply congrArg₂ List.cons (one_high 1 0 hhalf hi hone (by omega) (by omega))
  exact congrArg₂ List.cons (one_high 1 1 hhalf hi hone (by omega) (by omega)) rfl

theorem mem_twinQsWrites {write : Write UInt8} :
    write ∈ twinQsWrites qs0 qs1 ↔
      exists r i, r < 2 ∧ i < 256 ∧ write = twinWrite qs0 qs1 r i := by
  rw [twinQsWrites_eq]
  unfold stepWrites
  simp only [List.mem_flatMap, List.mem_map, List.mem_range]
  constructor
  · intro h
    rcases h with ⟨group, hgroup, half, hhalf, i, hi, high, hhigh, upper, hupper, r, hr, hsame⟩
    refine ⟨r, stepValue group half i high upper, hr, ?_, hsame.symm⟩
    unfold stepValue
    omega
  · intro h
    rcases h with ⟨r, i, hr, hi, hwrite⟩
    refine ⟨i / 64, by omega, i % 32 / 16, by omega, i % 8, by omega, i % 64 / 32, by omega,
      i % 16 / 8, by omega, r, hr, ?_⟩
    have hvalue : stepValue (i / 64) (i % 32 / 16) (i % 8) (i % 64 / 32) (i % 16 / 8) = i := by
      unfold stepValue
      omega
    rw [hvalue, hwrite]

theorem twinPlace_lt {r : Nat} (hr : r < 2) (hi : i < 256) : twinPlace r i < tpkScOff := by
  unfold twinPlace tpkQsOff tpkScOff
  split
  next => omega
  next => omega

theorem twinPlace_inj {r other j : Nat} (hr : r < 2) (hother : other < 2)
    (h : twinPlace r i = twinPlace other j) : r = other ∧ i = j := by
  have hplace : forall row k, exists group half high upper entry,
      half < 2 ∧ high < 2 ∧ upper < 2 ∧ entry < 8 ∧
        k = group * 64 + high * 32 + half * 16 + upper * 8 + entry ∧
        twinPlace row k =
          tpkQsOff + group * 128 + half * 64 + high * 32 + upper * 16 + row * 8 + entry := by
    intro row k
    have hvalue : k = k / 64 * 64 + k % 64 / 32 * 32 + k % 32 / 16 * 16 + k % 16 / 8 * 8 + k %
      8 := by
      omega
    refine ⟨k / 64, k % 32 / 16, k % 64 / 32, k % 16 / 8, k % 8, by omega, by omega, by omega,
      by omega, hvalue, ?_⟩
    rw [← twinPlace_eq (by omega) (by omega) (by omega) (by omega), ← hvalue]
  rcases hplace r i with ⟨group, half, high, upper, entry, hhalf, hhigh, hupper, hentry, hi, hat⟩
  rcases hplace other j with
    ⟨group', half', high', upper', entry', hhalf', hhigh', hupper', hentry', hj, hat'⟩
  omega

theorem within_twinQsWrites : WritesWithin tpkQsOff tpkScOff (twinQsWrites qs0 qs1) := by
  intro write hmem
  rcases mem_twinQsWrites.mp hmem with ⟨r, i, hr, hi, hsame⟩
  rw [hsame]
  exact ⟨Nat.zero_le _, twinPlace_lt hr hi⟩

theorem getElem?_twinQsWrites {buffer : List UInt8} {r : Nat}
    (hfit : WritesFit buffer.length (twinQsWrites qs0 qs1)) (hr : r < 2) (hi : i < 256) :
    (written (twinQsWrites qs0 qs1) buffer)[twinPlace r i]? =
      some (nibbleAt (pairQs qs0 qs1 r) i) := by
  apply getElem?_written_one hfit (mem_twinQsWrites.mpr ⟨r, i, hr, hi, rfl⟩)
  intro write hmem
  rcases mem_twinQsWrites.mp hmem with ⟨other, j, hother, -, hsame⟩
  refine ⟨twinPlace other j, _, hsame, ?_⟩
  intro hplace
  rcases twinPlace_inj hother hr hplace with ⟨hrow, hvalue⟩
  rw [hrow, hvalue]

end TwinWrites

theorem twinTable_room : forall f, f < twinTable.fields ->
    twinTable.offset f + twinTable.count * twinTable.width f <= twinQ4kBlockBytes := by
  decide

theorem fills_twinMetaWrites
    (hwidth : forall f r, f < 4 -> r < 2 -> (part f r).length = metaWidth f) :
    twinTable.Fills part (fun _ => True) (twinMetaWrites part) where
  complete := by
    intro f r hf hr _
    apply List.mem_flatMap.mpr
    refine ⟨f, List.mem_range.mpr hf, ?_⟩
    have hcases : r = 0 ∨ r = 1 := by
      have htwo : r < 2 := hr
      omega
    rcases hcases with h | h
    · rw [h]
      exact List.mem_cons_self
    · rw [h]
      exact List.mem_cons_of_mem _ List.mem_cons_self
  sound := by
    intro write hmem
    rcases List.mem_flatMap.mp hmem with ⟨f, hf, hwrite⟩
    simp only [List.mem_cons, List.not_mem_nil, or_false] at hwrite
    rcases hwrite with h | h
    · exact ⟨f, 0, List.mem_range.mp hf, by decide, True.intro, h⟩
    · exact ⟨f, 1, List.mem_range.mp hf, by decide, True.intro, h⟩
  width_eq := fun f r hf hr _ => hwidth f r hf hr

structure HoldsTwin (quants : Nat -> List UInt8) (part : Nat -> Nat -> List UInt8)
    (block : List UInt8) : Prop where
  length_eq : block.length = twinQ4kBlockBytes
  nibbles : forall r i, r < 2 -> i < 256 ->
    block[twinPlace r i]? = some (nibbleAt (quants r) i)
  fields : forall f r, f < 4 -> r < 2 ->
    region block (twinTable.place f r) (metaWidth f) = part f r

def twinWrites (qs0 qs1 : List UInt8) (part : Nat -> Nat -> List UInt8) : List (Write UInt8) :=
  twinQsWrites qs0 qs1 ++ twinMetaWrites part

theorem holdsTwin_written {qs0 qs1 : List UInt8}
    (hwidth : forall f r, f < 4 -> r < 2 -> (part f r).length = metaWidth f) :
    WritesFit twinQ4kBlockBytes (twinWrites qs0 qs1 part) ∧
    HoldsTwin (pairQs qs0 qs1) part
      (written (twinWrites qs0 qs1 part) (List.replicate twinQ4kBlockBytes 0)) := by
  have hfills := fills_twinMetaWrites hwidth
  have hmeta : WritesWithin tpkScOff twinQ4kBlockBytes (twinMetaWrites part) :=
    hfills.within (by decide) twinTable_room
  have hqs : WritesWithin tpkQsOff tpkScOff (twinQsWrites qs0 qs1) := within_twinQsWrites
  have hqsFit : WritesFit (List.replicate twinQ4kBlockBytes (0 : UInt8)).length
      (twinQsWrites qs0 qs1) := by
    rw [List.length_replicate]
    exact hqs.fit (by decide)
  have hlength : (written (twinQsWrites qs0 qs1)
      (List.replicate twinQ4kBlockBytes (0 : UInt8))).length = twinQ4kBlockBytes := by
    rw [length_written hqsFit, List.length_replicate]
  have hmetaFit : WritesFit (written (twinQsWrites qs0 qs1)
      (List.replicate twinQ4kBlockBytes (0 : UInt8))).length (twinMetaWrites part) := by
    rw [hlength]
    exact hmeta.fit (Nat.le_refl twinQ4kBlockBytes)
  constructor
  · intro write hmem
    rcases List.mem_append.mp hmem with hfirst | hlast
    · exact Nat.le_trans (hqs write hfirst).2 (by decide)
    · exact (hmeta write hlast).2
  · unfold twinWrites
    rw [written_append]
    constructor
    · rw [length_written hmetaFit, hlength]
    · intro r i hr hi
      rw [getElem?_written_of_not_covers hmetaFit]
      · exact getElem?_twinQsWrites hqsFit hr hi
      · intro write hmem hcovers
        have hplace := twinPlace_lt hr hi
        have hstart := (hmeta write hmem).1
        exact absurd hcovers.1 (by omega)
    · intro f r hf hr
      exact hfills.region_eq hmetaFit hf hr True.intro

theorem HoldsTwin.readTwinRow_eq {quants : Nat -> List UInt8} {block source : List UInt8}
    {r : Nat} (h : HoldsTwin quants part block) (hr : r < 2)
    (hquants : quants r = region source 16 128)
    (hpart : forall f, part f r = metaPart toF32 source f) :
    readTwinRow block r = .ok (originalRow toF32 source) := by
  have hnibbles : (List.range 256).mapM (fun i => index block (twinPlace r i)) =
      .ok (Gemm.nibbles (region source 16 128)) := by
    apply mapM_eq_ok
    intro i hi
    have hplace := h.nibbles r i hr (List.mem_range.mp hi)
    rw [hquants] at hplace
    unfold index
    rw [hplace]
  have hfield : forall f,
    f < 4 -> readField twinTable block f r = .ok (metaPart toF32 source f) := by
    intro f hf
    have hzone := twinTable_room f hf
    have hroomRow : (r + 1) * twinTable.width f <= twinTable.count * twinTable.width f :=
      Nat.mul_le_mul_right _ hr
    rw [Nat.succ_mul] at hroomRow
    unfold readField
    rw [slice_eq_region, ← hpart, ← h.fields f r hf hr]
    · rfl
    · rw [h.length_eq]
      unfold FieldTable.place
      omega
  unfold readTwinRow
  rw [hnibbles, ok_bind, hfield 0 (by decide), hfield 1 (by decide), hfield 2 (by decide),
    hfield 3 (by decide)]
  unfold metaPart originalRow
  simp only [ok_bind, f32OfBytes_f32Bytes]
  rfl

def pairWrites (toF32 : UInt16 -> UInt32) (block0 block1 : List UInt8) : List (Write UInt8) :=
  twinWrites (region block0 16 128) (region block1 16 128)
    fun f r => repackMetaPart toF32 (if r = 0 then block0 else block1) f

theorem readTwinRow_pairWrites (toF32 : UInt16 -> UInt32) (block0 block1 : List UInt8) :
    WritesFit twinQ4kBlockBytes (pairWrites toF32 block0 block1) ∧
    (written (pairWrites toF32 block0 block1) (List.replicate twinQ4kBlockBytes 0)).length =
      twinQ4kBlockBytes ∧
    forall r, r < 2 ->
      readTwinRow
          (written (pairWrites toF32 block0 block1) (List.replicate twinQ4kBlockBytes 0)) r =
        .ok (originalRow toF32 (if r = 0 then block0 else block1)) := by
  have hwidth : forall f r, f < 4 -> r < 2 ->
      (repackMetaPart toF32 (if r = 0 then block0 else block1) f).length = metaWidth f := by
    intro f r _ _
    rw [repackMetaPart_eq]
    exact length_metaPart toF32 _ f
  rcases holdsTwin_written hwidth with ⟨hfit, hholds⟩
  refine ⟨hfit, hholds.length_eq, ?_⟩
  intro r hr
  apply hholds.readTwinRow_eq hr
  · unfold pairQs
    split
    next => rfl
    next => rfl
  · intro f
    rw [repackMetaPart_eq]

theorem repackQ4kTwin_delivers (hcols : cols % 256 = 0)
    (hlength : srcBytes.length = rows * (cols / 256) * q4kBlockBytes) :
    exists out, repackQ4kTwin toF32 srcBytes rows cols = .ok out ∧
      out.length = rows / 2 * (cols / 256) * twinQ4kBlockBytes ∧
      forall pair bi r, pair < rows / 2 -> bi < cols / 256 -> r < 2 ->
        readTwinRow (sourceBlock twinQ4kBlockBytes out (cols / 256) pair bi) r =
          .ok (originalRow toF32
            (sourceBlock q4kBlockBytes srcBytes (cols / 256) (pair * 2 + r) bi)) := by
  have hchange : forall pair bi, pair < rows / 2 -> bi < cols / 256 ->
      repackTwinPair toF32 srcBytes (cols / 256) pair bi (List.replicate twinQ4kBlockBytes 0) =
        .ok (written
          (pairWrites toF32 (sourceBlock q4kBlockBytes srcBytes (cols / 256) (pair * 2) bi)
            (sourceBlock q4kBlockBytes srcBytes (cols / 256) (pair * 2 + 1) bi))
          (List.replicate twinQ4kBlockBytes 0)) := by
    intro pair bi hpair hbi
    have hsecond : pair * 2 + 1 < rows := row_lt_of_group hpair (by decide)
    have hfirst : pair * 2 < rows := Nat.lt_of_succ_lt hsecond
    unfold repackTwinPair
    rw [slice_sourceBlock hlength hfirst hbi, ok_bind, slice_sourceBlock hlength hsecond hbi,
      ok_bind]
    apply runWrites_eq
    rw [List.length_replicate]
    exact (readTwinRow_pairWrites toF32 _ _).1
  unfold repackQ4kTwin
  rw [require_of_true _ hcols, ok_bind]
  rcases forBlocks_delivers hchange
    (fun pair bi _ _ => (readTwinRow_pairWrites toF32 _ _).2.1) with ⟨out, hrun, hout, hregion⟩
  refine ⟨out, hrun, hout, ?_⟩
  intro pair bi r hpair hbi hr
  unfold sourceBlock at hregion ⊢
  rw [hregion pair bi hpair hbi, (readTwinRow_pairWrites toF32 _ _).2.2 r hr]
  split
  next hzero => rw [hzero, Nat.add_zero]
  next hone =>
    have hrow : r = 1 := by omega
    rw [hrow]

/-!
## Decoded scales only
-/

theorem metaTable_room : forall f, f < metaTable.fields ->
    metaTable.offset f + metaTable.count * metaTable.width f <= metaQ4kBlockBytes := by
  decide

theorem repackQ4kMeta_delivers (hcols : cols % 256 = 0)
    (hlength : srcBytes.length = rows * (cols / 256) * q4kBlockBytes) :
    exists out, repackQ4kMeta toF32 srcBytes rows cols = .ok out ∧
      out.length = rows * (cols / 256) * metaQ4kBlockBytes ∧
      forall row bi, row < rows -> bi < cols / 256 ->
        readMetaRow (sourceBlock metaQ4kBlockBytes out (cols / 256) row bi)
            (sourceBlock q4kBlockBytes srcBytes (cols / 256) row bi) =
          .ok (originalRow toF32 (sourceBlock q4kBlockBytes srcBytes (cols / 256) row bi)) := by
  have hwidth : forall block f, block.length = q4kBlockBytes -> f < metaTable.fields ->
      (repackMetaPart toF32 block f).length = metaTable.width f := by
    intro block f _ _
    rw [repackMetaPart_eq]
    exact length_metaPart toF32 block f
  unfold repackQ4kMeta
  rw [require_of_true _ hcols, ok_bind]
  rcases @packTable_delivers metaTable metaQ4kBlockBytes rows (cols / 256) rows
    (repackMetaPart toF32) srcBytes hlength hwidth metaTable_room with ⟨out, hrun, hout, hholds⟩
  refine ⟨out, hrun, hout, ?_⟩
  intro row bi hrow hbi
  have hblock := hholds row bi hrow hbi
  have hone : metaTable.count = 1 := rfl
  have hfield : forall f, f < 4 ->
      readField metaTable (sourceBlock metaQ4kBlockBytes out (cols / 256) row bi) f 0 =
        .ok (metaPart toF32 (sourceBlock q4kBlockBytes srcBytes (cols / 256) row bi) f) := by
    intro f hf
    rw [hblock.readField_eq metaTable_room hf (by decide),
      hblock.fields f 0 hf (by decide) (by rw [hone]; omega), repackMetaPart_eq, hone, Nat.mul_one,
      Nat.add_zero]
  have hqs : slice (sourceBlock q4kBlockBytes srcBytes (cols / 256) row bi) 16 144 =
      .ok (region (sourceBlock q4kBlockBytes srcBytes (cols / 256) row bi) 16 128) := by
    have hroom : 16 + 128 <= (sourceBlock q4kBlockBytes srcBytes (cols / 256) row bi).length := by
      rw [length_sourceBlock hlength hrow hbi]
      decide
    exact slice_eq_region hroom
  unfold readMetaRow
  rw [hqs, ok_bind, hfield 0 (by decide), hfield 1 (by decide), hfield 2 (by decide),
    hfield 3 (by decide)]
  unfold metaPart originalRow
  simp only [ok_bind, f32OfBytes_f32Bytes]
  rfl

end Gemm
end RunNBurn
