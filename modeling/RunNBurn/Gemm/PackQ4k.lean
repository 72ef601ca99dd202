import RunNBurn.Gemm.Q4kRows

/-!
# Packed `Q4_K` weights

The layout of pairs of rows with unpacked nibbles, the compact layout of eight rows, and the
row-major layout with decoded scales, from which the first can be made as well.
-/

namespace RunNBurn
namespace Gemm

open Library

/-!
## Unpacked nibbles
-/

def unpackNibblesUnsigned (qs out : List UInt8) : List UInt8 :=
  written
    ((List.range 4).flatMap fun g =>
      ((List.range 32).map fun l =>
        Write.one (g * 64 + l) (byteAt qs (g * 32 + l) &&& (0x0F : UInt8))) ++
      (List.range 32).map fun l =>
        Write.one (g * 64 + 32 + l) (byteAt qs (g * 32 + l) >>> UInt8.ofNat 4))
    out

theorem unpackNibblesUnsigned_eq (qs : List UInt8) {out : List UInt8} (hout : out.length = 256) :
    unpackNibblesUnsigned qs out = nibbles qs := by
  have hgroup : forall g, g < 4 ->
      (((List.range 32).map fun l =>
        Write.one (g * 64 + l) (byteAt qs (g * 32 + l) &&& (0x0F : UInt8))) ++
      (List.range 32).map fun l =>
        Write.one (g * 64 + 32 + l) (byteAt qs (g * 32 + l) >>> UInt8.ofNat 4)) =
      (List.range 64).map fun l => Write.one (g * 64 + l) (nibbleAt qs (g * 64 + l)) := by
    intro g _
    have hsplit : List.range 64 = List.range 32 ++ (List.range 32).map (fun l => 32 + l) := rfl
    rw [hsplit, List.map_append, List.map_map]
    apply congrArg₂ List.append
    · apply List.map_congr_left
      intro l hl
      have hlHalf : l < 32 := List.mem_range.mp hl
      have hhalf : (g * 64 + l) % 64 < 32 := by omega
      have hbyte : (g * 64 + l) / 64 * 32 + (g * 64 + l) % 32 = g * 32 + l := by omega
      unfold nibbleAt
      rw [if_pos hhalf, hbyte]
    · apply List.map_congr_left
      intro l hl
      have hlHalf : l < 32 := List.mem_range.mp hl
      have hhalf : ¬(g * 64 + (32 + l)) % 64 < 32 := by omega
      have hbyte : (g * 64 + (32 + l)) / 64 * 32 + (g * 64 + (32 + l)) % 32 = g * 32 + l := by omega
      dsimp only [Function.comp_apply]
      unfold nibbleAt
      rw [if_neg hhalf, hbyte, Nat.add_assoc]
  have hwrites : forall write, write ∈ (List.range 4).flatMap (fun g =>
      (List.range 64).map fun l => Write.one (g * 64 + l) (nibbleAt qs (g * 64 + l))) ↔
      exists i, i < 256 ∧ write = Write.one i (nibbleAt qs i) := by
    intro write
    constructor
    · intro h
      rcases List.mem_flatMap.mp h with ⟨g, hg, hpart⟩
      rcases List.mem_map.mp hpart with ⟨l, hl, hsame⟩
      have hgFour : g < 4 := List.mem_range.mp hg
      have hlGroup : l < 64 := List.mem_range.mp hl
      exact ⟨g * 64 + l, by omega, hsame.symm⟩
    · intro h
      rcases h with ⟨i, hi, hsame⟩
      apply List.mem_flatMap.mpr
      refine ⟨i / 64, List.mem_range.mpr (by omega), ?_⟩
      apply List.mem_map.mpr
      refine ⟨i % 64, List.mem_range.mpr (by omega), ?_⟩
      have hplace : i / 64 * 64 + i % 64 = i := by omega
      rw [hplace, hsame]
  have hfit : WritesFit out.length ((List.range 4).flatMap fun g =>
      (List.range 64).map fun l => Write.one (g * 64 + l) (nibbleAt qs (g * 64 + l))) := by
    intro write hmem
    rcases (hwrites write).mp hmem with ⟨i, hi, hsame⟩
    rw [hsame, Write.stop_one, hout]
    omega
  unfold unpackNibblesUnsigned
  rw [List.flatMap_congr (fun g hg => hgroup g (List.mem_range.mp hg))]
  apply List.ext_getElem?
  intro i
  unfold nibbles
  by_cases hi : i < 256
  · rw [List.getElem?_map, List.getElem?_range hi]
    apply getElem?_written_one hfit ((hwrites _).mpr ⟨i, hi, rfl⟩)
    intro write hmem
    rcases (hwrites write).mp hmem with ⟨j, -, hsame⟩
    refine ⟨j, _, hsame, ?_⟩
    intro hplace
    rw [hplace]
  · rw [List.getElem?_eq_none (by rw [length_written hfit, hout]; omega),
      List.getElem?_eq_none (by rw [List.length_map, List.length_range]; omega)]

theorem length_unpackNibblesUnsigned (qs : List UInt8) {out : List UInt8}
    (hout : out.length = 256) : (unpackNibblesUnsigned qs out).length = 256 := by
  rw [unpackNibblesUnsigned_eq qs hout]
  unfold nibbles
  rw [List.length_map, List.length_range]

theorem length_decodeQ4kScalesRaw (scales : List UInt8) :
    (decodeQ4kScalesRaw scales).1.length = 8 ∧ (decodeQ4kScalesRaw scales).2.length = 8 := by
  unfold decodeQ4kScalesRaw
  constructor
  · rw [List.length_map, List.length_range]
  · rw [List.length_map, List.length_range]

/-!
## Pairs of rows
-/

theorem length_blockScales (block : List UInt8) :
    (decodeQ4kScalesRaw (region block 4 12)).1.length = 8 :=
  (length_decodeQ4kScalesRaw _).1

theorem length_blockMins (block : List UInt8) :
    (decodeQ4kScalesRaw (region block 4 12)).2.length = 8 :=
  (length_decodeQ4kScalesRaw _).2

def unpackQ4kRow (toF32 : UInt16 -> UInt32) (block : List UInt8) : UnpackedRow where
  qs := unpackNibblesUnsigned (region block 16 128) (List.replicate 256 0)
  sc := (decodeQ4kScalesRaw (region block 4 12)).1
  mn := (decodeQ4kScalesRaw (region block 4 12)).2
  d := toF32 (halfAt block 0)
  dmin := toF32 (halfAt block 2)
  length_qs := length_unpackNibblesUnsigned _ List.length_replicate
  length_sc := length_blockScales block
  length_mn := length_blockMins block

def packQ4k (toF32 : UInt16 -> UInt32) (srcBytes : List UInt8) (rows cols : Nat) :
    Checked (List UInt8) :=
  packGroups q4kBlockBytes (unpackQ4kRow toF32) srcBytes rows cols

def readPackedRow (packed : List UInt8) (nr : Nat) : Checked Q4kRow := do
  let qs <- readPackedQs packed nr
  let sc <- readPackedScRaw packed nr
  let mn <- readPackedMnRaw packed nr
  let d <- readPackedD packed nr
  let dmin <- readPackedDmin packed nr
  return {
    nibbles := qs
    sc := sc
    mn := mn
    d := d
    dmin := dmin }

/-!
## Compact groups
-/

def q4kCompactQsOff : Nat := 0
def q4kCompactScRawOff : Nat := 1024
def q4kCompactMnRawOff : Nat := q4kCompactScRawOff + 64
def q4kCompactDOff : Nat := q4kCompactMnRawOff + 64
def q4kCompactDminOff : Nat := q4kCompactDOff + 32
def q4kCompactBlockBytes : Nat := q4kCompactDminOff + 32

def compactTable : FieldTable where
  count := 8
  fields := 5
  offset := fun
    | 0 => q4kCompactQsOff
    | 1 => q4kCompactScRawOff
    | 2 => q4kCompactMnRawOff
    | 3 => q4kCompactDOff
    | _ => q4kCompactDminOff
  width := planarWidth
  ascending := by
    intro f g hg hless
    revert f
    revert g
    decide

def packQ4kCompact (toF32 : UInt16 -> UInt32) (srcBytes : List UInt8) (rows cols : Nat) :
    Checked (List UInt8) :=
  packTable compactTable q4kCompactBlockBytes (planarPart toF32) srcBytes rows cols
    (divCeil rows 8)

/-!
## Row-major with decoded scales
-/

def q4kRawMetaQsBytes : Nat := 128
def q4kRawMetaBlockBytes : Nat := q4kRawMetaQsBytes + 24

def rawMetaTable : FieldTable where
  count := 1
  fields := 5
  offset := fun
    | 0 => 0
    | 1 => q4kRawMetaQsBytes
    | 2 => q4kRawMetaQsBytes + 8
    | 3 => q4kRawMetaQsBytes + 16
    | _ => q4kRawMetaQsBytes + 20
  width := planarWidth
  ascending := by
    intro f g hg hless
    revert f
    revert g
    decide

def packQ4kRawMeta (toF32 : UInt16 -> UInt32) (srcBytes : List UInt8) (rows cols : Nat) :
    Checked (List UInt8) := do
  require (srcBytes.length = rows * cols * q4kBlockBytes) "assertion left == right failed"
  packTable rawMetaTable q4kRawMetaBlockBytes (planarPart toF32) srcBytes rows cols rows

/-!
## Pairs of rows from the row-major layout
-/

structure RawMetaRow where
  qs : List UInt8
  fields : Nat -> List UInt8

def packedMetaTable : FieldTable where
  count := 8
  fields := 4
  offset := fun
    | 0 => scRawOff
    | 1 => mnRawOff
    | 2 => dOff
    | _ => dminOff
  width := metaWidth
  ascending := by
    intro f g hg hless
    revert f
    revert g
    decide

def loadRawMetaRow (rawMeta : List UInt8) (rows cols row col : Nat) :
    Checked (Option RawMetaRow) :=
  if rows <= row then .ok none
  else do
    let src := (row * cols + col) * q4kRawMetaBlockBytes
    let base := src + q4kRawMetaQsBytes
    let qsRaw <- slice rawMeta src (src + q4kRawMetaQsBytes)
    let sc <- slice rawMeta base (base + 8)
    let mn <- slice rawMeta (base + 8) (base + 8 + 8)
    let d <- slice rawMeta (base + 16) (base + 16 + 4)
    let dmin <- slice rawMeta (base + 20) (base + 20 + 4)
    return some
      { qs := unpackNibblesUnsigned qsRaw (List.replicate 256 0)
        fields := fun
          | 0 => sc
          | 1 => mn
          | 2 => d
          | _ => dmin }

def RawMetaRow.quants : Option RawMetaRow -> List UInt8
  | some row => row.qs
  | none => List.replicate 256 0

def RawMetaRow.writes (nr : Nat) : Option RawMetaRow -> List (Write UInt8)
  | some row => packedMetaTable.rowWrites (fun f _ => row.fields f) nr
  | none => []

def packRawMetaGroup (rawMeta : List UInt8) (rows cols group col : Nat) (packed : List UInt8) :
    Checked (List UInt8) := do
  let loaded <- (List.range 8).mapM fun nr => loadRawMetaRow rawMeta rows cols (group * 8 + nr) col
  runWrites
    (((List.range 8).flatMap fun nr => RawMetaRow.writes nr (loaded.getD nr none)) ++
      interleaveWrites fun nr => RawMetaRow.quants (loaded.getD nr none))
    packed

def packQ4kFromRawMeta (rawMeta : List UInt8) (rows cols : Nat) : Checked (List UInt8) := do
  require (rawMeta.length = rows * cols * q4kRawMetaBlockBytes) "assertion left == right failed"
  forBlocks 0 packedBlockBytes (divCeil rows 8) cols (packRawMetaGroup rawMeta rows cols)

/-!
# Reading packed `Q4_K` weights

Every layout is read back as the row-major block, and the layout of pairs of rows is the same
whether it is made from the original bytes or from the row-major layout with decoded scales.
-/

variable {toF32 : UInt16 -> UInt32} {srcBytes : List UInt8} {rows cols : Nat}

/-!
## Fields read back
-/

section Planar

variable {table : FieldTable} {blockBytes : Nat} {part : Nat -> Nat -> List UInt8}
  {present : Nat -> Prop} {block : List UInt8}

section

variable (h : HoldsFields table blockBytes part present block)
  (hroom : forall f, f < table.fields -> table.offset f + table.count * table.width f <= blockBytes)
include h hroom

theorem HoldsFields.readField_eq {f row : Nat} (hf : f < table.fields) (hrow : row < table.count) :
    readField table block f row = .ok (region block (table.place f row) (table.width f)) := by
  have hroomRow : (row + 1) * table.width f <= table.count * table.width f :=
    Nat.mul_le_mul_right _ hrow
  rw [Nat.succ_mul] at hroomRow
  have hzone := hroom f hf
  apply slice_eq_region
  rw [h.length_eq]
  unfold FieldTable.place
  omega

theorem HoldsFields.readPlanarRow_eq
    (hfields : table.fields = 5) {row : Nat} (hrow : row < table.count) (hpresent : present row)
    {source : List UInt8} (hpart : forall f, part f row = planarPart toF32 source f) :
    readPlanarRow table block row = .ok (originalRow toF32 source) := by
  have hfield : forall f,
    f < 5 -> readField table block f row = .ok (planarPart toF32 source f) := by
    intro f hf
    rw [← hfields] at hf
    rw [h.readField_eq hroom hf hrow, h.fields f row hf hrow hpresent, hpart]
  unfold readPlanarRow
  rw [hfield 0 (by decide), hfield 1 (by decide), hfield 2 (by decide), hfield 3 (by decide),
    hfield 4 (by decide)]
  unfold planarPart metaPart originalRow
  simp only [ok_bind, f32OfBytes_f32Bytes]
  rfl

theorem HoldsFields.readPlanarRow_zero
    (hfields : table.fields = 5) (hwidth : table.width = planarWidth) {row : Nat}
    (hrow : row < table.count) (habsent : ¬present row) :
    readPlanarRow table block row = .ok .zero := by
  have hfield : forall f, f < 5 ->
      readField table block f row = .ok (List.replicate (planarWidth f) 0) := by
    intro f hf
    rw [← hfields] at hf
    rw [h.readField_eq hroom hf hrow, h.absent f row hf hrow habsent, hwidth]
  have hnibbles : nibbles (List.replicate 128 0) = List.replicate 256 0 := by
    apply List.eq_replicate_iff.mpr
    constructor
    · unfold nibbles
      rw [List.length_map, List.length_range]
    intro x hx
    rcases List.mem_map.mp hx with ⟨i, hi, hsame⟩
    have hbyte : forall j : Nat, byteAt (List.replicate 128 0) j = 0 := by
      intro j
      unfold byteAt
      rw [List.getD_eq_getElem?_getD, List.getElem?_replicate]
      split
      next => rfl
      next => rfl
    rw [← hsame]
    unfold nibbleAt
    rw [hbyte]
    split
    next => rfl
    next => rfl
  unfold readPlanarRow
  rw [hfield 0 (by decide), hfield 1 (by decide), hfield 2 (by decide), hfield 3 (by decide),
    hfield 4 (by decide)]
  unfold planarWidth metaWidth Q4kRow.zero
  simp only [ok_bind, hnibbles]
  rfl

end

end Planar

theorem compactTable_room : forall f, f < compactTable.fields ->
    compactTable.offset f + compactTable.count * compactTable.width f <= q4kCompactBlockBytes := by
  decide

theorem rawMetaTable_room : forall f, f < rawMetaTable.fields ->
    rawMetaTable.offset f + rawMetaTable.count * rawMetaTable.width f <= q4kRawMetaBlockBytes := by
  decide

theorem packQ4kCompact_delivers (hlength : srcBytes.length = rows * cols * q4kBlockBytes) :
    exists out, packQ4kCompact toF32 srcBytes rows cols = .ok out ∧
      out.length = divCeil rows 8 * cols * q4kCompactBlockBytes ∧
      forall group col, group < divCeil rows 8 -> col < cols ->
        HoldsFields compactTable q4kCompactBlockBytes
          (fun f nr => planarPart toF32
            (sourceBlock q4kBlockBytes srcBytes cols (group * compactTable.count + nr) col) f)
          (fun nr => group * compactTable.count + nr < rows)
          (sourceBlock q4kCompactBlockBytes out cols group col) :=
  packTable_delivers hlength (fun _ f hblock _ => length_planarPart toF32 hblock f)
    compactTable_room

theorem packQ4kRawMeta_delivers (hlength : srcBytes.length = rows * cols * q4kBlockBytes) :
    exists out, packQ4kRawMeta toF32 srcBytes rows cols = .ok out ∧
      out.length = rows * cols * q4kRawMetaBlockBytes ∧
      forall row col, row < rows -> col < cols ->
        HoldsFields rawMetaTable q4kRawMetaBlockBytes
          (fun f nr => planarPart toF32
            (sourceBlock q4kBlockBytes srcBytes cols (row * rawMetaTable.count + nr) col) f)
          (fun nr => row * rawMetaTable.count + nr < rows)
          (sourceBlock q4kRawMetaBlockBytes out cols row col) := by
  unfold packQ4kRawMeta
  rw [require_of_true _ hlength, ok_bind]
  exact packTable_delivers hlength (fun _ f hblock _ => length_planarPart toF32 hblock f)
    rawMetaTable_room

/-!
## Pairs of rows
-/

variable {unpacked : Nat -> UnpackedRow}

theorem HoldsPacked.readPackedRow_eq {packed : List UInt8} {nr : Nat}
    (h : HoldsPacked unpacked packed) (hnr : nr < 8) :
    readPackedRow packed nr =
      .ok
        { nibbles := (unpacked nr).qs
          sc := (unpacked nr).sc
          mn := (unpacked nr).mn
          d := (unpacked nr).d
          dmin := (unpacked nr).dmin } := by
  unfold readPackedRow
  rw [h.readPackedQs_eq hnr, h.readPackedScRaw_eq hnr, h.readPackedMnRaw_eq hnr,
    h.readPackedD_eq hnr, h.readPackedDmin_eq hnr]
  rfl

theorem readPackedRow_original {packed block : List UInt8} {nr : Nat}
    (h : HoldsPacked unpacked packed) (hnr : nr < 8)
    (hrow : unpacked nr = unpackQ4kRow toF32 block) :
    readPackedRow packed nr = .ok (originalRow toF32 block) := by
  rw [h.readPackedRow_eq hnr, hrow]
  unfold unpackQ4kRow originalRow
  dsimp only
  rw [unpackNibblesUnsigned_eq _ List.length_replicate]

theorem readPackedRow_zero {packed : List UInt8} {nr : Nat} (h : HoldsPacked unpacked packed)
    (hnr : nr < 8) (hrow : unpacked nr = .zero) :
    readPackedRow packed nr = .ok .zero := by
  rw [h.readPackedRow_eq hnr, hrow]
  rfl

/-!
## From the row-major layout
-/

theorem packedMetaTable_room : forall f, f < packedMetaTable.fields ->
    packedMetaTable.offset f + packedMetaTable.count * packedMetaTable.width f <=
      packedBlockBytes := by
  decide

section FromRawMeta

variable {rawMeta : List UInt8}

def rawMetaRow (toF32 : UInt16 -> UInt32) (srcBytes : List UInt8) (rows cols row col : Nat) :
    Option RawMetaRow :=
  if rows <= row then none
  else some
    { qs := unpackNibblesUnsigned
        (region (sourceBlock q4kBlockBytes srcBytes cols row col) 16 128) (List.replicate 256 0)
      fields := metaPart toF32 (sourceBlock q4kBlockBytes srcBytes cols row col) }

theorem loadRawMetaRow_eq
    (hlength : rawMeta.length = rows * cols * q4kRawMetaBlockBytes)
    (hholds : forall row col, row < rows -> col < cols ->
      HoldsFields rawMetaTable q4kRawMetaBlockBytes (fun f nr => planarPart toF32
          (sourceBlock q4kBlockBytes srcBytes cols (row * rawMetaTable.count + nr) col) f)
        (fun nr => row * rawMetaTable.count + nr < rows)
        (sourceBlock q4kRawMetaBlockBytes rawMeta cols row col))
    {row col : Nat} (hcol : col < cols) :
    loadRawMetaRow rawMeta rows cols row col =
      .ok (rawMetaRow toF32 srcBytes rows cols row col) := by
  unfold loadRawMetaRow rawMetaRow
  by_cases hrow : rows <= row
  · rw [if_pos hrow, if_pos hrow]
  · have hroom : (row * cols + col) * q4kRawMetaBlockBytes + q4kRawMetaBlockBytes <=
        rows * cols * q4kRawMetaBlockBytes :=
      sourceBlock_room (Nat.not_le.mp hrow) hcol
    have hblock := hholds row col (Nat.not_le.mp hrow) hcol
    have hfield : forall f, f < 5 ->
        slice rawMeta ((row * cols + col) * q4kRawMetaBlockBytes + rawMetaTable.offset f)
            ((row * cols + col) * q4kRawMetaBlockBytes + rawMetaTable.offset f + planarWidth f) =
          .ok (planarPart toF32 (sourceBlock q4kBlockBytes srcBytes cols row col) f) := by
      intro f hf
      have hzone := rawMetaTable_room f hf
      have hwidth : rawMetaTable.width f = planarWidth f := rfl
      have hone : rawMetaTable.count = 1 := rfl
      rw [hone, Nat.one_mul, hwidth] at hzone
      have hplace : rawMetaTable.place f 0 = rawMetaTable.offset f := by
        unfold FieldTable.place
        rw [Nat.zero_mul, Nat.add_zero]
      have hregion := hblock.fields f 0 hf (by decide) (by
        rw [hone]
        omega)
      rw [hplace, hwidth] at hregion
      rw [hone, Nat.mul_one, Nat.add_zero] at hregion
      rw [slice_eq_region (by rw [hlength]; omega), ← hregion]
      apply congrArg Except.ok
      exact (region_region hzone).symm
    have hqs : slice rawMeta ((row * cols + col) * q4kRawMetaBlockBytes)
        ((row * cols + col) * q4kRawMetaBlockBytes + q4kRawMetaQsBytes) =
        .ok (region (sourceBlock q4kBlockBytes srcBytes cols row col) 16 128) :=
      hfield 0 (by decide)
    have hmeta : forall f start width, f < 4 -> start = rawMetaTable.offset (f + 1) ->
        width = metaWidth f ->
        slice rawMeta ((row * cols + col) * q4kRawMetaBlockBytes + start)
            ((row * cols + col) * q4kRawMetaBlockBytes + start + width) =
          .ok (metaPart toF32 (sourceBlock q4kBlockBytes srcBytes cols row col) f) := by
      intro f start width hf hstart hwidth
      rw [hstart, hwidth]
      exact hfield (f + 1) (Nat.succ_lt_succ hf)
    have hsc := hmeta 0 q4kRawMetaQsBytes 8 (by decide) rfl rfl
    have hmn := hmeta 1 (q4kRawMetaQsBytes + 8) 8 (by decide) rfl rfl
    have hd := hmeta 2 (q4kRawMetaQsBytes + 16) 4 (by decide) rfl rfl
    have hdmin := hmeta 3 (q4kRawMetaQsBytes + 20) 4 (by decide) rfl rfl
    rw [← Nat.add_assoc] at hmn hd hdmin
    have hfunction : (fun f => match f with
        | 0 => metaPart toF32 (sourceBlock q4kBlockBytes srcBytes cols row col) 0
        | 1 => metaPart toF32 (sourceBlock q4kBlockBytes srcBytes cols row col) 1
        | 2 => metaPart toF32 (sourceBlock q4kBlockBytes srcBytes cols row col) 2
        | _ => metaPart toF32 (sourceBlock q4kBlockBytes srcBytes cols row col) 3) =
        metaPart toF32 (sourceBlock q4kBlockBytes srcBytes cols row col) := by
      funext f
      rcases f with _ | _ | _ | f
      · rfl
      · rfl
      · rfl
      · rfl
    rw [if_neg hrow, if_neg hrow]
    dsimp only
    rw [hqs, ok_bind, hsc, ok_bind, hmn, ok_bind, hd, ok_bind, hdmin, ok_bind]
    apply congrArg fun fields => Except.ok (some
      { qs := unpackNibblesUnsigned
          (region (sourceBlock q4kBlockBytes srcBytes cols row col) 16 128) (List.replicate 256 0)
        fields := fields : RawMetaRow })
    exact hfunction

/-- The writes of a group: the fields of the rows that are there, then the quants of all. -/
def rawMetaWrites (loaded : Nat -> Option RawMetaRow) : List (Write UInt8) :=
  ((List.range 8).flatMap fun nr => RawMetaRow.writes nr (loaded nr)) ++
    interleaveWrites fun nr => RawMetaRow.quants (loaded nr)

theorem rawMetaRow_writes (toF32 : UInt16 -> UInt32) (srcBytes : List UInt8)
    (rows cols base col : Nat) :
    ((List.range 8).flatMap fun nr =>
      RawMetaRow.writes nr (rawMetaRow toF32 srcBytes rows cols (base + nr) col)) =
    (List.range packedMetaTable.count).flatMap fun nr =>
      if base + nr < rows then
        packedMetaTable.rowWrites
          (fun f nr => metaPart toF32 (sourceBlock q4kBlockBytes srcBytes cols (base + nr) col) f)
            nr
      else [] := by
  apply List.flatMap_congr
  intro nr _
  unfold rawMetaRow
  by_cases hrow : rows <= base + nr
  · rw [if_pos hrow, if_neg (Nat.not_lt.mpr hrow)]
    rfl
  · rw [if_neg hrow, if_pos (Nat.not_le.mp hrow)]
    rfl

theorem holdsPacked_rawMetaWrites (toF32 : UInt16 -> UInt32) (srcBytes : List UInt8)
    (rows cols base col : Nat) :
    WritesFit packedBlockBytes
      (rawMetaWrites fun nr => rawMetaRow toF32 srcBytes rows cols (base + nr) col) ∧
    HoldsPacked
      (fun nr => loadedRow q4kBlockBytes (unpackQ4kRow toF32) srcBytes rows cols (base + nr) col)
      (written (rawMetaWrites fun nr => rawMetaRow toF32 srcBytes rows cols (base + nr) col)
        (List.replicate packedBlockBytes 0)) := by
  have hfills : packedMetaTable.Fills
      (fun f nr => metaPart toF32 (sourceBlock q4kBlockBytes srcBytes cols (base + nr) col) f)
      (fun nr => base + nr < rows)
      ((List.range 8).flatMap fun nr =>
        RawMetaRow.writes nr (rawMetaRow toF32 srcBytes rows cols (base + nr) col)) := by
    rw [rawMetaRow_writes]
    exact FieldTable.fills_rowWrites (fun f nr _ _ _ => length_metaPart toF32 _ f)
  have hmeta : WritesWithin scRawOff packedBlockBytes
      ((List.range 8).flatMap fun nr =>
        RawMetaRow.writes nr (rawMetaRow toF32 srcBytes rows cols (base + nr) col)) :=
    hfills.within (by decide) packedMetaTable_room
  have hqs : WritesWithin qsOff scRawOff (interleaveWrites fun nr =>
      RawMetaRow.quants (rawMetaRow toF32 srcBytes rows cols (base + nr) col)) :=
    within_interleaveWrites _
  have hheld := holdsFields_written hfills packedMetaTable_room
  have hlength := hheld.length_eq
  have hqsFit : forall buffer : List UInt8, buffer.length = packedBlockBytes ->
      WritesFit buffer.length (interleaveWrites fun nr =>
        RawMetaRow.quants (rawMetaRow toF32 srcBytes rows cols (base + nr) col)) := by
    intro buffer hbuffer
    rw [hbuffer]
    exact hqs.fit (by decide)
  have hkept : forall start length, scRawOff <= start ->
      region (written (rawMetaWrites fun nr => rawMetaRow toF32 srcBytes rows cols (base + nr) col)
          (List.replicate packedBlockBytes 0)) start length =
        region (written ((List.range 8).flatMap fun nr =>
            RawMetaRow.writes nr (rawMetaRow toF32 srcBytes rows cols (base + nr) col))
          (List.replicate packedBlockBytes 0)) start length := by
    intro start length hstart
    unfold rawMetaWrites
    rw [written_append]
    apply region_written_of_apart (hqsFit _ hlength)
    exact fun other hother => .inl (Nat.le_trans (hqs other hother).2 hstart)
  have hfield : forall f nr, f < 4 -> nr < 8 ->
      region (written (rawMetaWrites fun nr => rawMetaRow toF32 srcBytes rows cols (base + nr) col)
          (List.replicate packedBlockBytes 0)) (packedMetaTable.place f nr) (metaWidth f) =
        if rows <= base + nr then List.replicate (metaWidth f) 0
        else metaPart toF32 (sourceBlock q4kBlockBytes srcBytes cols (base + nr) col) f := by
    intro f nr hf hnr
    have hbase : forall f, f < packedMetaTable.fields -> scRawOff <= packedMetaTable.offset f := by
      decide
    have hstart : scRawOff <= packedMetaTable.place f nr :=
      Nat.le_trans (hbase f hf) (Nat.le_add_right _ _)
    rw [hkept _ _ hstart]
    by_cases hrow : rows <= base + nr
    · rw [if_pos hrow]
      exact hheld.absent f nr hf hnr (Nat.not_lt.mpr hrow)
    · rw [if_neg hrow]
      exact hheld.fields f nr hf hnr (Nat.not_le.mp hrow)
  have hquants : forall nr,
    RawMetaRow.quants (rawMetaRow toF32 srcBytes rows cols (base + nr) col) =
      (loadedRow q4kBlockBytes (unpackQ4kRow toF32) srcBytes rows cols (base + nr) col).qs := by
    intro nr
    unfold rawMetaRow loadedRow
    by_cases hrow : rows <= base + nr
    · rw [if_pos hrow, if_pos hrow]
      rfl
    · rw [if_neg hrow, if_neg hrow]
      rfl
  constructor
  · intro write hmem
    rcases List.mem_append.mp hmem with hfirst | hlast
    · exact (hmeta write hfirst).2
    · exact Nat.le_trans (hqs write hlast).2 (by decide)
  · constructor
    · unfold rawMetaWrites
      rw [written_append, length_written (hqsFit _ hlength), hlength]
    · intro nr k hnr hk
      unfold rawMetaWrites
      rw [written_append, ← hquants]
      apply region_written_interleaveWrites (hqsFit _ hlength) ?_ hnr hk
      rw [hquants]
      exact UnpackedRow.length_qs _
    · intro nr hnr
      refine Eq.trans (hfield 0 nr (by decide) hnr) ?_
      unfold loadedRow
      split
      next => rfl
      next => rfl
    · intro nr hnr
      refine Eq.trans (hfield 1 nr (by decide) hnr) ?_
      unfold loadedRow
      split
      next => rfl
      next => rfl
    · intro nr hnr
      refine Eq.trans (hfield 2 nr (by decide) hnr) ?_
      unfold loadedRow
      split
      next => rfl
      next => rfl
    · intro nr hnr
      refine Eq.trans (hfield 3 nr (by decide) hnr) ?_
      unfold loadedRow
      split
      next => rfl
      next => rfl

theorem eq_of_sourceBlock_eq {left right : List UInt8} {groups cols blockBytes : Nat}
    (hleft : left.length = groups * cols * blockBytes)
    (hright : right.length = groups * cols * blockBytes)
    (h : forall group col, group < groups -> col < cols ->
      sourceBlock blockBytes left cols group col = sourceBlock blockBytes right cols group col) :
    left = right := by
  apply eq_of_rowAt_eq hleft hright
  intro t ht
  have hcols : 0 < cols := by
    apply Nat.pos_of_ne_zero
    intro hzero
    rw [hzero, Nat.mul_zero] at ht
    exact Nat.not_lt_zero t ht
  have hplace : t / cols * cols + t % cols = t := Nat.div_add_mod' t cols
  have hblock := h (t / cols) (t % cols)
    (Nat.div_lt_of_lt_mul (by rw [Nat.mul_comm]; exact ht)) (Nat.mod_lt t hcols)
  unfold sourceBlock at hblock
  rw [hplace] at hblock
  exact hblock

theorem packQ4kFromRawMeta_delivers
    (hlength : rawMeta.length = rows * cols * q4kRawMetaBlockBytes)
    (hholds : forall row col, row < rows -> col < cols ->
      HoldsFields rawMetaTable q4kRawMetaBlockBytes (fun f nr => planarPart toF32
          (sourceBlock q4kBlockBytes srcBytes cols (row * rawMetaTable.count + nr) col) f)
        (fun nr => row * rawMetaTable.count + nr < rows)
        (sourceBlock q4kRawMetaBlockBytes rawMeta cols row col)) :
    exists out, packQ4kFromRawMeta rawMeta rows cols = .ok out ∧
      out.length = divCeil rows 8 * cols * packedBlockBytes ∧
      forall group col, group < divCeil rows 8 -> col < cols ->
        HoldsPacked
          (fun nr => loadedRow q4kBlockBytes (unpackQ4kRow toF32) srcBytes rows cols
            (group * 8 + nr) col)
          (sourceBlock packedBlockBytes out cols group col) := by
  have hloaded : forall base col nr, nr < 8 ->
      ((List.range 8).map fun nr =>
        rawMetaRow toF32 srcBytes rows cols (base + nr) col).getD nr none =
      rawMetaRow toF32 srcBytes rows cols (base + nr) col :=
    fun base col nr hnr => getD_range_map _ _ hnr
  have hchange : forall group col, group < divCeil rows 8 -> col < cols ->
      packRawMetaGroup rawMeta rows cols group col (List.replicate packedBlockBytes 0) =
        .ok (written
          (rawMetaWrites fun nr => rawMetaRow toF32 srcBytes rows cols (group * 8 + nr) col)
          (List.replicate packedBlockBytes 0)) := by
    intro group col _ hcol
    have hwrites : (((List.range 8).flatMap fun nr => RawMetaRow.writes nr
        (((List.range 8).map fun nr =>
          rawMetaRow toF32 srcBytes rows cols (group * 8 + nr) col).getD nr none)) ++
        interleaveWrites fun nr => RawMetaRow.quants
          (((List.range 8).map fun nr =>
            rawMetaRow toF32 srcBytes rows cols (group * 8 + nr) col).getD nr none)) =
        rawMetaWrites fun nr => rawMetaRow toF32 srcBytes rows cols (group * 8 + nr) col := by
      unfold rawMetaWrites
      apply congrArg₂ List.append
      · apply List.flatMap_congr
        intro nr hnr
        rw [hloaded _ _ nr (List.mem_range.mp hnr)]
      · apply interleaveWrites_congr
        intro nr hnr
        rw [hloaded _ _ nr hnr]
    unfold packRawMetaGroup
    rw [mapM_eq_ok (fun nr _ => loadRawMetaRow_eq hlength hholds hcol), ok_bind, hwrites]
    apply runWrites_eq
    rw [List.length_replicate]
    exact (holdsPacked_rawMetaWrites toF32 srcBytes rows cols (group * 8) col).1
  have hblocks : forall group col, HoldsPacked
      (fun nr => loadedRow q4kBlockBytes (unpackQ4kRow toF32) srcBytes rows cols
        (group * 8 + nr) col) _ :=
    fun group col => (holdsPacked_rawMetaWrites toF32 srcBytes rows cols (group * 8) col).2
  unfold packQ4kFromRawMeta
  rw [require_of_true _ hlength, ok_bind]
  rcases forBlocks_delivers hchange (fun group col _ _ => (hblocks group col).length_eq) with
    ⟨out, hrun, hout, hregion⟩
  refine ⟨out, hrun, hout, ?_⟩
  intro group col hgroup hcol
  refine Eq.mpr ?_ (hblocks group col)
  exact congrArg (HoldsPacked _) (hregion group col hgroup hcol)

end FromRawMeta

theorem packQ4kFromRawMeta_packQ4kRawMeta
    (hlength : srcBytes.length = rows * cols * q4kBlockBytes) :
    (packQ4kRawMeta toF32 srcBytes rows cols >>= fun rawMeta =>
        packQ4kFromRawMeta rawMeta rows cols) =
      packQ4k toF32 srcBytes rows cols := by
  rcases @packQ4kRawMeta_delivers toF32 _ _ _ hlength with ⟨rawMeta, hraw, hrawLength, hrawHolds⟩
  rcases packQ4kFromRawMeta_delivers hrawLength hrawHolds with
    ⟨fromRaw, hfrom, hfromLength, hfromHolds⟩
  rcases packGroups_delivers (unpackQ4kRow toF32) hlength with
    ⟨packed, hpack, hpackedLength, hpackedHolds⟩
  unfold packQ4k
  rw [hraw, ok_bind, hfrom, hpack]
  apply congrArg Except.ok
  apply eq_of_sourceBlock_eq hfromLength hpackedLength
  intro group col hgroup hcol
  exact (hfromHolds group col hgroup hcol).ext (hpackedHolds group col hgroup hcol)

end Gemm
end RunNBurn
