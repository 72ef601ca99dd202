import RunNBurn.Gemm.RepackQ4k

/-!
# Every layout of `Q4_K` weights

A kernel finds the rows of the original matrix in each of the layouts.  The layouts for full
groups leave the last rows to the original bytes, and there the kernels read them.
-/

namespace RunNBurn
namespace Gemm

open Library

/-!
## Reading
-/

def readGroupRow (count blockBytes : Nat) (read : List UInt8 -> Nat -> Checked Q4kRow)
    (packed : List UInt8) (cols row col : Nat) : Checked Q4kRow := do
  let block <- slice packed ((row / count * cols + col) * blockBytes)
    ((row / count * cols + col) * blockBytes + blockBytes)
  read block (row % count)

def readOriginalRow (toF32 : UInt16 -> UInt32) (original : List UInt8) (cols row col : Nat) :
    Checked Q4kRow := do
  let block <- slice original ((row * cols + col) * q4kBlockBytes)
    ((row * cols + col) * q4kBlockBytes + q4kBlockBytes)
  return originalRow toF32 block

/-- Rows of full groups come from the layout, the others from the original bytes. -/
def readFullGroupRow (count blockBytes : Nat) (read : List UInt8 -> Nat -> Checked Q4kRow)
    (toF32 : UInt16 -> UInt32) (packed original : List UInt8) (rows cols row col : Nat) :
    Checked Q4kRow :=
  if row / count < rows / count then readGroupRow count blockBytes read packed cols row col
  else readOriginalRow toF32 original cols row col

def readWithMeta (metaBytes original : List UInt8) (cols row col : Nat) : Checked Q4kRow := do
  let block <- slice metaBytes ((row * cols + col) * metaQ4kBlockBytes)
    ((row * cols + col) * metaQ4kBlockBytes + metaQ4kBlockBytes)
  let quants <- slice original ((row * cols + col) * q4kBlockBytes)
    ((row * cols + col) * q4kBlockBytes + q4kBlockBytes)
  readMetaRow block quants

/-- The integer sums of a row with a quantized activation, super-block by super-block. -/
def rowSums (read : Nat -> Checked Q4kRow) (cols : Nat) (x bsums : Nat -> Nat -> Int) :
    Checked (List (Int × Int)) :=
  (List.range cols).mapM fun col => do
    let row <- read col
    return integerDot row (x col) (bsums col)

structure ReadsRows (read : Nat -> Nat -> Checked Q4kRow) (cols : Nat) (present : Nat -> Prop)
    (row : Nat -> Nat -> Q4kRow) : Prop where
  row_eq : forall i col, present i -> col < cols -> read i col = .ok (row i col)
  sums_eq : forall i x bsums, present i ->
    rowSums (read i) cols x bsums =
      .ok ((List.range cols).map fun col => integerDot (row i col) (x col) (bsums col))

theorem ReadsRows.of_row_eq {read : Nat -> Nat -> Checked Q4kRow} {cols : Nat}
    {present : Nat -> Prop} {row : Nat -> Nat -> Q4kRow}
    (h : forall i col, present i -> col < cols -> read i col = .ok (row i col)) :
    ReadsRows read cols present row where
  row_eq := h
  sums_eq := by
    intro i x bsums hi
    apply mapM_eq_ok
    intro col hcol
    rw [h i col hi (List.mem_range.mp hcol)]
    rfl

theorem readGroupRow_eq {count blockBytes groups cols row col : Nat}
    {read : List UInt8 -> Nat -> Checked Q4kRow} {packed : List UInt8}
    (hlength : packed.length = groups * cols * blockBytes) (hrow : row / count < groups)
    (hcol : col < cols) :
    readGroupRow count blockBytes read packed cols row col =
      read (sourceBlock blockBytes packed cols (row / count) col) (row % count) := by
  unfold readGroupRow
  rw [slice_sourceBlock hlength hrow hcol]
  rfl

theorem readOriginalRow_eq {toF32 : UInt16 -> UInt32} {original : List UInt8}
    {rows cols row col : Nat} (hlength : original.length = rows * cols * q4kBlockBytes)
    (hrow : row < rows) (hcol : col < cols) :
    readOriginalRow toF32 original cols row col =
      .ok (originalRow toF32 (sourceBlock q4kBlockBytes original cols row col)) := by
  unfold readOriginalRow
  rw [slice_sourceBlock hlength hrow hcol]
  rfl

theorem group_mul_add_mod (row count : Nat) : row / count * count + row % count = row :=
  Nat.div_add_mod' row count

section Layouts

variable {toF32 : UInt16 -> UInt32} {srcBytes : List UInt8} {rows cols : Nat}

def sourceRow (toF32 : UInt16 -> UInt32) (srcBytes : List UInt8) (cols row col : Nat) : Q4kRow :=
  originalRow toF32 (sourceBlock q4kBlockBytes srcBytes cols row col)

def IsPadding (rows count row : Nat) : Prop :=
  rows <= row ∧ row / count < divCeil rows count

/-!
## Layouts of groups of eight rows
-/

theorem packQ4k_reads {packed : List UInt8} {cols : Nat}
    (hlength : packed.length = divCeil rows 8 * cols * packedBlockBytes)
    (hholds : forall group col, group < divCeil rows 8 -> col < cols ->
      HoldsPacked (fun nr => loadedRow q4kBlockBytes (unpackQ4kRow toF32) srcBytes rows cols
          (group * 8 + nr) col)
        (sourceBlock packedBlockBytes packed cols group col)) :
    ReadsRows (readGroupRow 8 packedBlockBytes readPackedRow packed cols) cols (· < rows)
        (sourceRow toF32 srcBytes cols) ∧
      ReadsRows (readGroupRow 8 packedBlockBytes readPackedRow packed cols) cols
        (IsPadding rows 8) (fun _ _ => .zero) := by
  have hplace : forall row : Nat, row / 8 * 8 + row % 8 = row := fun row =>
    group_mul_add_mod row 8
  constructor
  · apply ReadsRows.of_row_eq
    intro row col hrow hcol
    rw [readGroupRow_eq hlength (lt_divCeil hrow) hcol]
    apply readPackedRow_original (hholds _ _ (lt_divCeil hrow) hcol) (Nat.mod_lt _ (by decide))
    rw [hplace]
    exact loadedRow_of_lt hrow
  · apply ReadsRows.of_row_eq
    intro row col hrow hcol
    rw [readGroupRow_eq hlength hrow.2 hcol]
    apply readPackedRow_zero (hholds _ _ hrow.2 hcol) (Nat.mod_lt _ (by decide))
    rw [hplace]
    exact loadedRow_of_le hrow.1

theorem packQ4kCompact_reads (hlength : srcBytes.length = rows * cols * q4kBlockBytes) :
    exists compact, packQ4kCompact toF32 srcBytes rows cols = .ok compact ∧
      ReadsRows (readGroupRow 8 q4kCompactBlockBytes (readPlanarRow compactTable) compact cols)
        cols (· < rows) (sourceRow toF32 srcBytes cols) ∧
      ReadsRows (readGroupRow 8 q4kCompactBlockBytes (readPlanarRow compactTable) compact cols)
        cols (IsPadding rows 8) (fun _ _ => .zero) := by
  rcases @packQ4kCompact_delivers toF32 _ _ _ hlength with ⟨compact, hrun, hout, hholds⟩
  have hplace : forall row : Nat, row / 8 * compactTable.count + row % compactTable.count = row :=
    fun row => group_mul_add_mod row 8
  refine ⟨compact, hrun, ?_, ?_⟩
  · apply ReadsRows.of_row_eq
    intro row col hrow hcol
    rw [readGroupRow_eq hout (lt_divCeil hrow) hcol]
    apply (hholds _ _ (lt_divCeil hrow) hcol).readPlanarRow_eq compactTable_room rfl
      (Nat.mod_lt _ (by decide))
    · rw [hplace]
      exact hrow
    · intro f
      rw [hplace]
  · apply ReadsRows.of_row_eq
    intro row col hrow hcol
    rw [readGroupRow_eq hout hrow.2 hcol]
    apply (hholds _ _ hrow.2 hcol).readPlanarRow_zero compactTable_room rfl rfl
      (Nat.mod_lt _ (by decide))
    rw [hplace]
    exact Nat.not_lt.mpr hrow.1

/-!
## Row-major layouts
-/

theorem packQ4kRawMeta_reads {rawMeta : List UInt8}
    (hlength : rawMeta.length = rows * cols * q4kRawMetaBlockBytes)
    (hholds : forall row col, row < rows -> col < cols ->
      HoldsFields rawMetaTable q4kRawMetaBlockBytes (fun f nr => planarPart toF32
          (sourceBlock q4kBlockBytes srcBytes cols (row * rawMetaTable.count + nr) col) f)
        (fun nr => row * rawMetaTable.count + nr < rows)
        (sourceBlock q4kRawMetaBlockBytes rawMeta cols row col)) :
    ReadsRows (readGroupRow 1 q4kRawMetaBlockBytes (readPlanarRow rawMetaTable) rawMeta cols) cols
      (· < rows) (sourceRow toF32 srcBytes cols) := by
  apply ReadsRows.of_row_eq
  intro row col hrow hcol
  have hplace : row * rawMetaTable.count + 0 = row := Nat.mul_one row
  have hgroup : row / 1 < rows := by
    rw [Nat.div_one]
    exact hrow
  rw [readGroupRow_eq hlength hgroup hcol, Nat.div_one, Nat.mod_one]
  apply (hholds row col hrow hcol).readPlanarRow_eq rawMetaTable_room rfl (by decide)
  · rw [hplace]
    exact hrow
  · intro f
    rw [hplace]

theorem repackQ4kMeta_reads (hlength : srcBytes.length = rows * cols * q4kBlockBytes) :
    exists metaBytes, repackQ4kMeta toF32 srcBytes rows (cols * 256) = .ok metaBytes ∧
      ReadsRows (readWithMeta metaBytes srcBytes cols) cols (· < rows)
        (sourceRow toF32 srcBytes cols) := by
  have hcols : cols * 256 / 256 = cols := Nat.mul_div_cancel cols (by decide)
  have hsource : srcBytes.length = rows * (cols * 256 / 256) * q4kBlockBytes := by
    rw [hcols]
    exact hlength
  rcases @repackQ4kMeta_delivers toF32 srcBytes rows (cols * 256) (Nat.mul_mod_left cols 256)
    hsource with ⟨metaBytes, hrun, hout, hreads⟩
  rw [hcols] at hout hreads
  refine ⟨metaBytes, hrun, ReadsRows.of_row_eq ?_⟩
  intro row col hrow hcol
  unfold readWithMeta
  rw [slice_sourceBlock hout hrow hcol, ok_bind, slice_sourceBlock hlength hrow hcol, ok_bind]
  exact hreads row col hrow hcol

/-!
## Layouts of full groups
-/

theorem repackQ4k_reads (hlength : srcBytes.length = rows * cols * q4kBlockBytes) :
    exists repacked, repackQ4k toF32 srcBytes rows (cols * 256) = .ok repacked ∧
      ReadsRows
        (readFullGroupRow 8 repackedBlockBytes (readPlanarRow repackTable) toF32 repacked srcBytes
          rows cols)
        cols (· < rows) (sourceRow toF32 srcBytes cols) := by
  have hcols : cols * 256 / 256 = cols := Nat.mul_div_cancel cols (by decide)
  have hsource : srcBytes.length = rows * (cols * 256 / 256) * q4kBlockBytes := by
    rw [hcols]
    exact hlength
  rcases @repackQ4k_delivers toF32 srcBytes rows (cols * 256) (Nat.mul_mod_left cols 256)
    hsource with ⟨repacked, hrun, hout, hholds⟩
  rw [hcols] at hout hholds
  refine ⟨repacked, hrun, ReadsRows.of_row_eq ?_⟩
  intro row col hrow hcol
  unfold readFullGroupRow
  split
  next hgroup =>
    have hnr : row % 8 < 8 := Nat.mod_lt row (by decide)
    rw [readGroupRow_eq hout hgroup hcol]
    apply (hholds _ _ hgroup hcol).readPlanarRow_eq repackTable_room rfl hnr True.intro
    intro f
    unfold groupBlocks
    rw [getD_range_map _ _ hnr, repackPart_eq, group_mul_add_mod]
  next => exact readOriginalRow_eq hlength hrow hcol

theorem repackQ4kTwin_reads (hlength : srcBytes.length = rows * cols * q4kBlockBytes) :
    exists twin, repackQ4kTwin toF32 srcBytes rows (cols * 256) = .ok twin ∧
      ReadsRows (readFullGroupRow 2 twinQ4kBlockBytes readTwinRow toF32 twin srcBytes rows cols)
        cols (· < rows) (sourceRow toF32 srcBytes cols) := by
  have hcols : cols * 256 / 256 = cols := Nat.mul_div_cancel cols (by decide)
  have hsource : srcBytes.length = rows * (cols * 256 / 256) * q4kBlockBytes := by
    rw [hcols]
    exact hlength
  rcases @repackQ4kTwin_delivers toF32 srcBytes rows (cols * 256) (Nat.mul_mod_left cols 256)
    hsource with ⟨twin, hrun, hout, hreads⟩
  rw [hcols] at hout hreads
  refine ⟨twin, hrun, ReadsRows.of_row_eq ?_⟩
  intro row col hrow hcol
  unfold readFullGroupRow
  split
  next hpair =>
    rw [readGroupRow_eq hout hpair hcol, hreads _ _ _ hpair hcol (Nat.mod_lt row (by decide)),
      group_mul_add_mod]
    rfl
  next => exact readOriginalRow_eq hlength hrow hcol

end Layouts

/-- All layouts of a matrix of `rows` rows with `cols` super-blocks each. -/
theorem q4k_layouts_read_original_rows (toF32 : UInt16 -> UInt32) {srcBytes : List UInt8}
    {rows cols : Nat} (hlength : srcBytes.length = rows * cols * q4kBlockBytes) :
    exists packed compact rawMeta repacked twin metaBytes,
      packQ4k toF32 srcBytes rows cols = .ok packed ∧
      packQ4kCompact toF32 srcBytes rows cols = .ok compact ∧
      packQ4kRawMeta toF32 srcBytes rows cols = .ok rawMeta ∧
      packQ4kFromRawMeta rawMeta rows cols = .ok packed ∧
      repackQ4k toF32 srcBytes rows (cols * 256) = .ok repacked ∧
      repackQ4kTwin toF32 srcBytes rows (cols * 256) = .ok twin ∧
      repackQ4kMeta toF32 srcBytes rows (cols * 256) = .ok metaBytes ∧
      ReadsRows (readOriginalRow toF32 srcBytes cols) cols (· < rows)
        (sourceRow toF32 srcBytes cols) ∧
      ReadsRows (readGroupRow 8 packedBlockBytes readPackedRow packed cols) cols (· < rows)
        (sourceRow toF32 srcBytes cols) ∧
      ReadsRows (readGroupRow 8 packedBlockBytes readPackedRow packed cols) cols
        (IsPadding rows 8) (fun _ _ => .zero) ∧
      ReadsRows (readGroupRow 8 q4kCompactBlockBytes (readPlanarRow compactTable) compact cols)
        cols (· < rows) (sourceRow toF32 srcBytes cols) ∧
      ReadsRows (readGroupRow 8 q4kCompactBlockBytes (readPlanarRow compactTable) compact cols)
        cols (IsPadding rows 8) (fun _ _ => .zero) ∧
      ReadsRows (readGroupRow 1 q4kRawMetaBlockBytes (readPlanarRow rawMetaTable) rawMeta cols)
        cols (· < rows) (sourceRow toF32 srcBytes cols) ∧
      ReadsRows
        (readFullGroupRow 8 repackedBlockBytes (readPlanarRow repackTable) toF32 repacked srcBytes
          rows cols)
        cols (· < rows) (sourceRow toF32 srcBytes cols) ∧
      ReadsRows (readFullGroupRow 2 twinQ4kBlockBytes readTwinRow toF32 twin srcBytes rows cols)
        cols (· < rows) (sourceRow toF32 srcBytes cols) ∧
      ReadsRows (readWithMeta metaBytes srcBytes cols) cols (· < rows)
        (sourceRow toF32 srcBytes cols) ∧
      forall x bsums, integerDot .zero x bsums = (0, 0) := by
  rcases packGroups_delivers (unpackQ4kRow toF32) hlength with
    ⟨packed, hpack, hpackedLength, hpackedHolds⟩
  rcases @packQ4kCompact_reads toF32 _ _ _ hlength with
    ⟨compact, hcompact, hcompactRows, hcompactPadding⟩
  rcases @packQ4kRawMeta_delivers toF32 _ _ _ hlength with ⟨rawMeta, hraw, hrawLength, hrawHolds⟩
  rcases @repackQ4k_reads toF32 _ _ _ hlength with ⟨repacked, hrepack, hrepackedRows⟩
  rcases @repackQ4kTwin_reads toF32 _ _ _ hlength with ⟨twin, htwin, htwinRows⟩
  rcases @repackQ4kMeta_reads toF32 _ _ _ hlength with ⟨metaBytes, hmeta, hmetaRows⟩
  rcases packQ4k_reads hpackedLength hpackedHolds with ⟨hpackedRows, hpackedPadding⟩
  have hpacked : packQ4k toF32 srcBytes rows cols = .ok packed := hpack
  have hfrom : packQ4kFromRawMeta rawMeta rows cols = .ok packed := by
    have hboth := @packQ4kFromRawMeta_packQ4kRawMeta toF32 _ _ _ hlength
    rw [hraw, ok_bind, hpacked] at hboth
    exact hboth
  exact ⟨packed, compact, rawMeta, repacked, twin, metaBytes, hpacked, hcompact, hraw, hfrom,
    hrepack, htwin, hmeta,
    ReadsRows.of_row_eq (fun _ _ hrow hcol => readOriginalRow_eq hlength hrow hcol),
    hpackedRows, hpackedPadding, hcompactRows, hcompactPadding,
    packQ4kRawMeta_reads hrawLength hrawHolds, hrepackedRows, htwinRows, hmetaRows, integerDot_zero⟩

/-- Nine rows of one super-block.  No two rows hold the same bytes. -/
def nineRows : List UInt8 :=
  (List.range 1296).map fun i => UInt8.ofNat (i * 7 + i / 144)

theorem nineRows_length : nineRows.length = 9 * 1 * q4kBlockBytes := by
  unfold nineRows
  rw [List.length_map, List.length_range]
  rfl

/-- Every layout gives the last row, which is alone in its group. -/
theorem q4k_layouts_read_original_rows_nine :
    exists packed compact rawMeta repacked twin metaBytes,
      packQ4k UInt16.toUInt32 nineRows 9 1 = .ok packed ∧
      packQ4kCompact UInt16.toUInt32 nineRows 9 1 = .ok compact ∧
      packQ4kRawMeta UInt16.toUInt32 nineRows 9 1 = .ok rawMeta ∧
      packQ4kFromRawMeta rawMeta 9 1 = .ok packed ∧
      repackQ4k UInt16.toUInt32 nineRows 9 256 = .ok repacked ∧
      repackQ4kTwin UInt16.toUInt32 nineRows 9 256 = .ok twin ∧
      repackQ4kMeta UInt16.toUInt32 nineRows 9 256 = .ok metaBytes ∧
      [readGroupRow 8 packedBlockBytes readPackedRow packed 1 8 0,
        readGroupRow 8 q4kCompactBlockBytes (readPlanarRow compactTable) compact 1 8 0,
        readGroupRow 1 q4kRawMetaBlockBytes (readPlanarRow rawMetaTable) rawMeta 1 8 0,
        readFullGroupRow 8 repackedBlockBytes (readPlanarRow repackTable) UInt16.toUInt32
          repacked nineRows 9 1 8 0,
        readFullGroupRow 2 twinQ4kBlockBytes readTwinRow UInt16.toUInt32 twin nineRows 9 1 8 0,
        readWithMeta metaBytes nineRows 1 8 0] =
        List.replicate 6 (.ok (sourceRow UInt16.toUInt32 nineRows 1 8 0)) := by
  rcases q4k_layouts_read_original_rows UInt16.toUInt32 nineRows_length with
    ⟨packed, compact, rawMeta, repacked, twin, metaBytes, hpack, hpackCompact, hpackRaw, hfrom,
      hrepack,
      hrepackTwin, hrepackMeta, -, hpacked, -, hcompact, -, hraw, hrepacked, htwin, hmeta, -⟩
  refine ⟨packed, compact, rawMeta, repacked, twin, metaBytes, hpack, hpackCompact, hpackRaw, hfrom,
    hrepack, hrepackTwin, hrepackMeta, ?_⟩
  have hrow : 8 < 9 := by decide
  rw [hpacked.row_eq 8 0 hrow Nat.one_pos, hcompact.row_eq 8 0 hrow Nat.one_pos,
    hraw.row_eq 8 0 hrow Nat.one_pos, hrepacked.row_eq 8 0 hrow Nat.one_pos,
    htwin.row_eq 8 0 hrow Nat.one_pos, hmeta.row_eq 8 0 hrow Nat.one_pos]
  rfl

/-- The last of nine rows is not in the layout of full groups. -/
theorem repackQ4k_without_last_row :
    exists repacked,
      repackQ4k UInt16.toUInt32 nineRows 9 256 = .ok repacked ∧
      readGroupRow 8 repackedBlockBytes (readPlanarRow repackTable) repacked 1 8 0 ≠
        .ok (sourceRow UInt16.toUInt32 nineRows 1 8 0) := by
  rcases @repackQ4k_delivers UInt16.toUInt32 _ 9 256 (by decide) nineRows_length with
    ⟨repacked, hrun, hout, -⟩
  refine ⟨repacked, hrun, ?_⟩
  intro hread
  have hshort : ¬((8 / 8 * 1 + 0) * repackedBlockBytes <=
      (8 / 8 * 1 + 0) * repackedBlockBytes + repackedBlockBytes ∧
      (8 / 8 * 1 + 0) * repackedBlockBytes + repackedBlockBytes <= repacked.length) := by
    rw [hout]
    decide
  unfold readGroupRow slice at hread
  rw [if_neg hshort] at hread
  cases hread

end Gemm
end RunNBurn
