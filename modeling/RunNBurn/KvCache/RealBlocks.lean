import Mathlib.Analysis.Complex.Trigonometric
import Mathlib.Analysis.SpecialFunctions.Log.Basic
import Mathlib.Analysis.SpecialFunctions.Sqrt
import Mathlib.Data.Int.Log
import RunNBurn.KvCache.Hadamard

/-!
# Blocks in exact arithmetic

The quantizer over the reals: numbers are rounded only where they are stored in 16
bits or in a code.  A tile of equal rows is balanced alike in all of its rows, so two
small channels of a row get one code, whatever the balancing does.
-/

namespace RunNBurn
namespace KvCache

open Library

/-!
# The arithmetic
-/

noncomputable def halfValue (bits : UInt16) : ℝ :=
  let mantissa := bits.toNat % 1024
  let exponent := bits.toNat / 1024 % 32
  let magnitude : ℝ :=
    if exponent = 0 then mantissa / (2 ^ 24 : Nat)
    else ((1024 + mantissa) * 2 ^ exponent : Nat) / (2 ^ 25 : Nat)
  if bits.toNat < 32768 then magnitude else -magnitude

noncomputable def nearestEven (x : ℝ) : ℤ :=
  open Classical in
  if Int.fract x = 1 / (2 : Nat) then (if Even ⌊x⌋ then ⌊x⌋ else ⌊x⌋ + 1) else round x

/-- The nearest 16-bit float, ties to even.  From the last half step below 65536 on it is
infinite. -/
noncomputable def halfBits (x : ℝ) : UInt16 :=
  open Classical in
  let exponent : ℤ := if |x| < 1 / (2 ^ 14 : Nat) then 0 else Int.log 2 |x| + 14
  let mantissa := nearestEven (|x| * (2 ^ 24 : Nat) / (2 ^ exponent.toNat : Nat))
  let bits := min (exponent * 1024 + mantissa).toNat 0x7C00
  UInt16.ofNat (if 0 <= x then bits else 0x8000 + bits)

noncomputable def realMath : KvarnMath ℝ where
  ofF16 := halfValue
  toF16 := halfBits
  toU8 x := UInt8.ofNat ⌊x⌋₊
  roundTiesEven x := nearestEven x
  exp := Real.exp
  ln := Real.log
  sqrt := Real.sqrt
  tanh := Real.tanh
  infinity := (2 ^ 128 : Nat)
  negInfinity := -(2 ^ 128 : Nat)
  normalizedHadamard := normalizedHadamardInPlace Real.sqrt

theorem exponential_exp : Exponential Real.exp where
  add := Real.exp_add
  zero := Real.exp_zero

theorem sqrt_mul_self (m : Nat) : Real.sqrt m * Real.sqrt m = m :=
  Real.mul_self_sqrt (Nat.cast_nonneg m)

/-!
# Tiles of equal rows
-/

def equalRows (rows : Nat) (row : List ℝ) : List ℝ :=
  (List.range rows).flatMap fun _ => row

variable {rows columns : Nat} {row : List ℝ}

theorem floatAt_equalRows {i column : Nat} (hlength : row.length = columns) (hi : i < rows)
    (hcolumn : column < columns) :
    floatAt (equalRows rows row) (i * columns + column) = floatAt row column := by
  have hrow := rowAt_flatMap_range (fun (_ : Nat) (_ : _ < rows) => hlength) hi
  have hentry := getD_take_drop (equalRows rows row) (i * columns) 0 hcolumn
  unfold floatAt
  rw [← hentry]
  exact congrArg (fun cells : List ℝ => cells.getD column 0) hrow

theorem map_range_floatAt (hlength : row.length = columns) :
    (List.range columns).map (fun column => floatAt row column) = row := by
  apply List.ext_getElem
  · rw [List.length_map, List.length_range, hlength]
  · intro i hleft hright
    rw [List.getElem_map, List.getElem_range]
    exact List.getD_eq_getElem row 0 hright

theorem map_range_const {alpha : Type} (n : Nat) (x : alpha) :
    (List.range n).map (fun _ => x) = List.replicate n x := by
  rw [List.map_const', List.length_range]

theorem floatAt_replicate {n i : Nat} (x : ℝ) (h : i < n) :
    floatAt (List.replicate n x) i = x := by
  unfold floatAt
  rw [List.getD_eq_getElem _ _ (by rwa [List.length_replicate]), List.getElem_replicate]

theorem rebuildBalanced_equalRows (columnScale rowScale : ℝ) (hlength : row.length = columns) :
    rebuildBalanced (equalRows rows row) (List.replicate columns columnScale)
        (List.replicate rows rowScale) rows columns =
      equalRows rows (row.map fun x => x * (1 / rowScale) / columnScale) := by
  unfold rebuildBalanced equalRows
  apply List.flatMap_congr
  intro i hi
  have hentries : (List.range columns).map (fun column =>
      floatAt (equalRows rows row) (i * columns + column) *
        (1 / floatAt (List.replicate rows rowScale) i) /
          floatAt (List.replicate columns columnScale) column) =
      ((List.range columns).map fun column => floatAt row column).map
        fun x => x * (1 / rowScale) / columnScale := by
    rw [List.map_map]
    apply List.map_congr_left
    intro column hcolumn
    have hlt := List.mem_range.mp hcolumn
    rw [floatAt_equalRows hlength (List.mem_range.mp hi) hlt,
      floatAt_replicate _ (List.mem_range.mp hi), floatAt_replicate _ hlt]
    rfl
  exact hentries.trans (by rw [map_range_floatAt hlength])

theorem foldl_add_replicate (f : ℝ -> ℝ) (n : Nat) (x start : ℝ) :
    (List.replicate n x).foldl (fun sum value => sum + f value) start = start + n * f x := by
  induction n generalizing start with
  | zero => simp
  | succ n ih =>
    rw [List.replicate_succ, List.foldl_cons, ih]
    push_cast
    ring

/-- A constant channel has no deviation. -/
theorem standardDeviation_replicate {n : Nat} (x : ℝ) (hn : 0 < n) :
    standardDeviation realMath (List.replicate n x) = Real.sqrt 0 := by
  have hcount : (n : ℝ) ≠ 0 := Nat.cast_ne_zero.mpr (Nat.ne_of_gt hn)
  have hmean : (0 + n * x) / (n : ℝ) = x := by
    rw [zero_add, mul_div_cancel_left₀ _ hcount]
  have hsquares : (0 + n * (x * x)) / (n : ℝ) = x * x := by
    rw [zero_add, mul_div_cancel_left₀ _ hcount]
  unfold standardDeviation
  dsimp only
  rw [List.length_replicate, foldl_add_replicate (fun value => value),
    foldl_add_replicate (fun value => value * value), hmean, hsquares, sub_self, max_self,
    zero_mul]
  rfl

theorem standardDeviationColumns_equalRows (hlength : row.length = columns) (hrows : 0 < rows) :
    standardDeviationColumns realMath (equalRows rows row) rows columns =
      List.replicate columns (Real.sqrt 0) := by
  unfold standardDeviationColumns
  rw [← map_range_const columns]
  apply List.map_congr_left
  intro column hcolumn
  have hconstant : (List.range rows).map (fun i =>
      floatAt (equalRows rows row) (i * columns + column)) =
        List.replicate rows (floatAt row column) := by
    rw [← map_range_const]
    apply List.map_congr_left
    intro i hi
    exact floatAt_equalRows hlength (List.mem_range.mp hi) (List.mem_range.mp hcolumn)
  rw [hconstant]
  exact standardDeviation_replicate _ hrows

theorem standardDeviationRows_equalRows (hlength : row.length = columns) :
    standardDeviationRows realMath (equalRows rows row) rows columns =
      List.replicate rows (standardDeviation realMath row) := by
  unfold standardDeviationRows
  rw [← map_range_const]
  apply List.map_congr_left
  intro i hi
  apply congrArg
  rw [← map_range_floatAt hlength]
  apply List.map_congr_left
  intro column hcolumn
  rw [map_range_floatAt hlength]
  exact floatAt_equalRows hlength (List.mem_range.mp hi) (List.mem_range.mp hcolumn)

theorem stepLogScale_replicate (math : KvarnMath ℝ) (n : Nat) (logScale deviation : ℝ) :
    exists next, stepLogScale math (List.replicate n logScale) (List.replicate n deviation) n =
      List.replicate n next := by
  exists clamp
    (logScale + math.ln (clamp deviation (1 / ((1000 : Nat) : ℝ)) ((1000 : Nat) : ℝ)))
    (-(((3 : Nat) : ℝ) / ((10 : Nat) : ℝ))) ((10 : Nat) : ℝ)
  apply Eq.trans _ (map_range_const n _)
  apply List.map_congr_left
  intro i hi
  dsimp only
  rw [floatAt_replicate _ (List.mem_range.mp hi), floatAt_replicate _ (List.mem_range.mp hi)]

/-- The scales are the same in all columns and in all rows, and so are the rows. -/
structure BalanceState.Even (rows columns : Nat) (state : BalanceState ℝ) : Prop where
  logColumnScale : exists x, state.logColumnScale = List.replicate columns x
  logRowScale : exists x, state.logRowScale = List.replicate rows x
  rowScale : exists x, state.rowScale = List.replicate rows x
  current : exists row : List ℝ, row.length = columns ∧ state.current = equalRows rows row
  bestColumnScale : exists x, 0 < x ∧ state.bestColumnScale = List.replicate columns x
  bestRowScale : exists x, 0 < x ∧ state.bestRowScale = List.replicate rows x

theorem balanceRound_even {state : BalanceState ℝ} (hlength : row.length = columns)
    (hrows : 0 < rows) (h : state.Even rows columns) :
    (balanceRound realMath (equalRows rows row) rows columns state).Even rows columns := by
  rcases h.logColumnScale with ⟨logColumn, hlogColumn⟩
  rcases h.logRowScale with ⟨logRow, hlogRow⟩
  rcases h.rowScale with ⟨rowScale, hrowScale⟩
  rcases h.current with ⟨current, hcurrent, hequal⟩
  have hcolumns := standardDeviationColumns_equalRows hcurrent hrows
  rcases stepLogScale_replicate realMath columns logColumn (Real.sqrt 0) with
    ⟨nextColumn, hnextColumn⟩
  have hscaled : forall columnScale rowScale : ℝ,
      (row.map fun x => x * (1 / rowScale) / columnScale).length = columns := by
    intro columnScale rowScale
    rw [List.length_map, hlength]
  have hmiddle := @rebuildBalanced_equalRows rows _ _ (Real.exp nextColumn) rowScale hlength
  have hdeviations := @standardDeviationRows_equalRows rows _ _
    (hscaled (Real.exp nextColumn) rowScale)
  rcases stepLogScale_replicate realMath rows logRow
      (standardDeviation realMath (row.map fun x => x * (1 / rowScale) / Real.exp nextColumn)) with
    ⟨nextRow, hnextRow⟩
  have hlast := @rebuildBalanced_equalRows rows _ _ (Real.exp nextColumn) (Real.exp nextRow) hlength
  have hexp : forall (n : Nat) (x : ℝ),
      (List.replicate n x).map realMath.exp = List.replicate n (Real.exp x) :=
    fun n x => List.map_replicate
  unfold balanceRound
  simp only [hequal, hlogColumn, hlogRow, hrowScale, hcolumns, hnextColumn, hexp, hmiddle,
    hdeviations, hnextRow, hlast]
  constructor
  · exact ⟨_, rfl⟩
  · exact ⟨_, rfl⟩
  · exact ⟨_, rfl⟩
  · exact ⟨_, hscaled _ _, rfl⟩
  · dsimp only
    split
    · exact ⟨_, Real.exp_pos _, rfl⟩
    · exact h.bestColumnScale
  · dsimp only
    split
    · exact ⟨_, Real.exp_pos _, rfl⟩
    · exact h.bestRowScale

/-- Balancing scales a tile of equal rows by one positive factor. -/
theorem varianceNormalize_equalRows (iterations : Nat) (hlength : row.length = columns)
    (hrows : 0 < rows) :
    exists columnScale rowScale : ℝ, 0 < columnScale ∧ 0 < rowScale ∧
      varianceNormalize realMath (equalRows rows row) rows columns iterations = {
        values := equalRows rows (row.map fun x => x * (1 / rowScale) / columnScale)
        columnScale := List.replicate columns columnScale
        rowScale := List.replicate rows rowScale
        rows := rows
        columns := columns } := by
  let start : BalanceState ℝ := {
    logColumnScale := List.replicate columns 0
    logRowScale := List.replicate rows 0
    columnScale := List.replicate columns 1
    rowScale := List.replicate rows 1
    current := equalRows rows row
    bestImbalance := imbalance realMath (equalRows rows row) rows columns
    bestColumnScale := List.replicate columns 1
    bestRowScale := List.replicate rows 1 }
  have hfinal : ((List.range iterations).foldl
      (fun state _ => balanceRound realMath (equalRows rows row) rows columns state)
      start).Even rows columns := by
    induction iterations with
    | zero =>
      constructor
      · exact ⟨0, rfl⟩
      · exact ⟨0, rfl⟩
      · exact ⟨1, rfl⟩
      · exact ⟨row, hlength, rfl⟩
      · exact ⟨1, one_pos, rfl⟩
      · exact ⟨1, one_pos, rfl⟩
    | succ iterations ih =>
      rw [List.range_succ, List.foldl_append]
      exact balanceRound_even hlength hrows ih
  rcases hfinal.bestColumnScale with ⟨columnScale, hcolumnPos, hcolumn⟩
  rcases hfinal.bestRowScale with ⟨rowScale, hrowPos, hrow⟩
  refine ⟨columnScale, rowScale, hcolumnPos, hrowPos, ?_⟩
  unfold varianceNormalize
  dsimp only
  rw [hcolumn, hrow, rebuildBalanced_equalRows columnScale rowScale hlength]

/-!
# A row that is not kept

The rotated row is 0, 0, 2, 16.  With two bits a value, the third channel gets the code of
the first two, and the second and the third entry of the decoded row are equal.
-/

/-- 9, -7, -9, 7 -/
def lossyRow : List UInt16 :=
  [0x4880, 0xC700, 0xC880, 0x4700]

theorem hadamard_four (a b c d : ℝ) :
    realMath.normalizedHadamard [a, b, c, d] =
      [a + b + (c + d), a - b + (c - d), a + b - (c + d), a - b - (c - d)].map
        fun value => value * (1 / Real.sqrt (4 : Nat)) := by
  have hpower : largestPowerOfTwoAtMost 4 = 4 := by
    decide
  have hspans : hadamardSpans 4 = [1, 2] := by
    decide
  show normalizedHadamardScalar Real.sqrt (List.take (largestPowerOfTwoAtMost 4) [a, b, c, d]) ++
    normalizedHadamardBlocks Real.sqrt 3
      (List.drop (largestPowerOfTwoAtMost 4) [a, b, c, d]) = _
  rw [hpower]
  show List.map _ ((hadamardSpans 4).foldl hadamardPass [a, b, c, d]) ++ [] = _
  rw [hspans, List.append_nil, List.foldl_cons, List.foldl_cons, List.foldl_nil]
  simp [hadamardPass, hadamardPairs, chunks]

theorem rotate_lossyRow :
    realMath.normalizedHadamard (lossyRow.map realMath.ofF16) = [0, 0, 2, 16] := by
  have hvalues : lossyRow.map realMath.ofF16 = [9, -7, -9, 7] := by
    have hfirst : (0x4880 : UInt16).toNat = 18560 := rfl
    have hsecond : (0xC700 : UInt16).toNat = 50944 := rfl
    have hthird : (0xC880 : UInt16).toNat = 51328 := rfl
    have hfourth : (0x4700 : UInt16).toNat = 18176 := rfl
    show [halfValue 0x4880, halfValue 0xC700, halfValue 0xC880, halfValue 0x4700] = _
    unfold halfValue
    rw [hfirst, hsecond, hthird, hfourth]
    norm_num
  have hroot : Real.sqrt (4 : Nat) = 2 := by
    rw [show ((4 : Nat) : ℝ) = 2 ^ 2 by norm_num]
    exact Real.sqrt_sq (by norm_num)
  rw [hvalues, hadamard_four, hroot]
  norm_num

theorem hadamard_entries_eq (w y : ℝ) :
    floatAt (realMath.normalizedHadamard [w, w, w, y]) 1 =
      floatAt (realMath.normalizedHadamard [w, w, w, y]) 2 := by
  rw [hadamard_four]
  show (w - w + (w - y)) * (1 / Real.sqrt (4 : Nat)) =
    (w + w - (w + y)) * (1 / Real.sqrt (4 : Nat))
  ring

theorem nearestEven_of_small {x : ℝ} (hpos : 0 <= x) (hsmall : x < 1 / (2 : Nat)) :
    nearestEven x = 0 := by
  have hfract : Int.fract x = x := by
    apply Int.fract_eq_self.mpr
    refine ⟨hpos, lt_trans hsmall ?_⟩
    norm_num
  unfold nearestEven
  rw [hfract, if_neg (ne_of_lt hsmall), round_eq_zero_iff]
  norm_num at hsmall ⊢
  exact ⟨(by linarith), hsmall⟩

theorem quantizeEntry_of_small {scale value : ℝ} (bits : Nat) (hscale : 0 < scale)
    (hpos : 0 <= value) (hsmall : 2 * value < scale) :
    quantizeEntry realMath 0 scale bits value = 0 := by
  have hquotient : (value - 0) / scale < 1 / (2 : Nat) := by
    rw [sub_zero, div_lt_iff₀ hscale]
    norm_num
    linarith
  have hround : realMath.roundTiesEven ((value - 0) / scale) = 0 := by
    show ((nearestEven ((value - 0) / scale) : ℤ) : ℝ) = 0
    rw [nearestEven_of_small (div_nonneg (by rwa [sub_zero]) (le_of_lt hscale)) hquotient]
    exact Int.cast_zero
  have hclamp : clamp (0 : ℝ) 0 ((codeMask bits : Nat) : ℝ) = 0 := by
    unfold clamp
    rw [max_self, min_eq_left (Nat.cast_nonneg _)]
  unfold quantizeEntry
  rw [hround, hclamp]
  show UInt8.ofNat ⌊(0 : ℝ)⌋₊ = 0
  rw [Nat.floor_zero]
  rfl

def lossyRows (n : Nat) : List UInt16 :=
  (List.replicate n lossyRow).flatten

@[simp] theorem length_lossyRows (n : Nat) : (lossyRows n).length = n * 4 := by
  simp [lossyRows, lossyRow]

theorem valueRotated_lossyRows (group : Nat) :
    valueRotated realMath (lossyRows group) group 4 4 0 = equalRows group [0, 0, 2, 16] := by
  have huniform : UniformRows id 4 (List.replicate group lossyRow) := by
    intro row hrow
    rw [List.eq_of_mem_replicate hrow]
    rfl
  unfold valueRotated equalRows
  apply List.flatMap_congr
  intro token htoken
  have hrow : (List.replicate group lossyRow)[token]? = some lossyRow :=
    List.getElem?_replicate_of_lt (List.mem_range.mp htoken)
  have hentries := rowAt_flatMap huniform hrow
  rw [List.flatMap_id] at hentries
  have hrotated : rotatedRow realMath (lossyRows group) 4 4 0 token = [0, 0, 2, 16] := by
    unfold rotatedRow
    dsimp only
    rw [Nat.zero_mul, Nat.add_zero, ← rotate_lossyRow]
    exact congrArg (fun cells : List UInt16 =>
      realMath.normalizedHadamard (cells.map realMath.ofF16)) hentries
  rw [hrotated]
  exact map_range_floatAt rfl

/-- Only the last channel of the balanced row gets a code. -/
theorem packRow_lossy {factor scale : ℝ} (hfactor : 0 < factor)
    (hscale : 16 * factor <= 3 * scale) :
    exists code : UInt8, packRow realMath [0, 0, 2 * factor, 16 * factor] 0 scale 2 =
      [code <<< 6] := by
  have hpos : 0 < scale := by
    linarith
  have hzero : quantizeEntry realMath 0 scale 2 0 = 0 :=
    quantizeEntry_of_small 2 hpos (le_refl 0) (by linarith)
  have hthird : quantizeEntry realMath 0 scale 2 (2 * factor) = 0 :=
    quantizeEntry_of_small 2 hpos (by linarith) (by linarith)
  exists quantizeEntry realMath 0 scale 2 (16 * factor)
  have hpacked : packChunk realMath 0 scale 2 [0, 0, 2 * factor, 16 * factor] =
      quantizeEntry realMath 0 scale 2 (16 * factor) <<< 6 := by
    simp [packChunk, List.zipIdx_cons, hzero, hthird]
  have hchunks : ([0, 0, 2 * factor, 16 * factor] : List ℝ).length / (8 / 2) = 1 := by
    simp
  unfold packRow
  dsimp only
  rw [hchunks, ← hpacked]
  rfl

theorem shifted_codes_eq_zero (code : UInt8) {dim : Nat} (hdim : dim < 3) :
    ((code <<< 6) >>> UInt8.ofNat (dim * 2)) &&& 3 = 0 := by
  have hall : forall n : Fin 256, forall dim : Fin 3,
      (((UInt8.ofNat n.val) <<< 6) >>> UInt8.ofNat (dim.val * 2)) &&& 3 = 0 := by
    decide +kernel
  have hcode := hall ⟨code.toNat, code.toNat_lt⟩ ⟨dim, hdim⟩
  rwa [UInt8.ofNat_toNat] at hcode

theorem minMax_lossy {factor : ℝ} (hfactor : 0 < factor) :
    minMax realMath [0, 0, 2 * factor, 16 * factor] = (0, 16 * factor) := by
  have hsmall : min ((2 ^ 128 : Nat) : ℝ) 0 = 0 := min_eq_right (Nat.cast_nonneg _)
  have hlarge : max (-((2 ^ 128 : Nat) : ℝ)) 0 = 0 :=
    max_eq_right (neg_nonpos.mpr (Nat.cast_nonneg _))
  have hthird : 0 <= 2 * factor := by
    linarith
  have hlast : 2 * factor <= 16 * factor := by
    linarith
  have hall := le_trans hthird hlast
  show (min (min (min (min ((2 ^ 128 : Nat) : ℝ) 0) 0) (2 * factor)) (16 * factor),
    max (max (max (max (-((2 ^ 128 : Nat) : ℝ)) 0) 0) (2 * factor)) (16 * factor)) = _
  rw [hsmall, hlarge, min_self, max_self, min_eq_left hthird, min_eq_left hall,
    max_eq_right hthird, max_eq_right hlast]

theorem packedRows_lossy {factor : ℝ} (tile : BalancedTile ℝ) (hfactor : 0 < factor)
    (hcolumns : tile.columns = 4)
    (hvalues : tile.values = equalRows tile.rows [0, 0, 2 * factor, 16 * factor]) :
    exists code : UInt8, packedRows realMath tile 2 = List.replicate tile.rows (code <<< 6) := by
  have hscale : 16 * factor <=
      3 * max ((16 * factor - 0) / ((codeMask 2 : Nat) : ℝ)) (1 / ((10 ^ 10 : Nat) : ℝ)) := by
    have hthree : ((codeMask 2 : Nat) : ℝ) = 3 := by
      norm_num [codeMask]
    have hle := le_max_left ((16 * factor - 0) / ((codeMask 2 : Nat) : ℝ))
      (1 / ((10 ^ 10 : Nat) : ℝ))
    rw [hthree] at hle ⊢
    linarith
  rcases packRow_lossy hfactor hscale with ⟨code, hcode⟩
  exists code
  have hrow : forall row, row < tile.rows ->
      rowValues tile row = [0, 0, 2 * factor, 16 * factor] := by
    intro row hrow
    apply Eq.trans _ (map_range_floatAt rfl)
    unfold rowValues
    rw [hcolumns, hvalues]
    apply List.map_congr_left
    intro column hcolumn
    exact floatAt_equalRows rfl hrow (List.mem_range.mp hcolumn)
  have hpacked : packedRows realMath tile 2 =
      (List.range tile.rows).flatMap fun _ => [code <<< 6] := by
    apply List.flatMap_congr
    intro row hmem
    dsimp only
    unfold rowScales
    rw [hrow row (List.mem_range.mp hmem), minMax_lossy hfactor]
    exact hcode
  rw [hpacked, ← List.map_eq_flatMap, map_range_const]

section

variable {config : KvarnConfig} (hbits : config.valueBits = 2)
include hbits

/-- The block of a group of such rows: whatever the channels are scaled by, they are scaled
alike, and the codes of the first three channels are zero. -/
theorem quantize_lossyRows (hgroup : 0 < config.group) (keyF16 : List UInt16) :
    exists (code : UInt8) (channelScale : UInt16),
      (KvarnBuffers.quantize realMath config 1 4 keyF16 (lossyRows config.group)).valuePacked =
          List.replicate config.group (code <<< 6) ∧
        (KvarnBuffers.quantize realMath config 1 4 keyF16
            (lossyRows config.group)).valueChannelScale = List.replicate 4 channelScale := by
  have hlength : ([0, 0, 2, 16] : List ℝ).length = 4 := rfl
  rcases varianceNormalize_equalRows config.sinkhornIterations hlength hgroup with
    ⟨columnScale, rowScale, hcolumnPos, hrowPos, hbalanced⟩
  let factor := 1 / rowScale / columnScale
  have hfactor : 0 < factor := div_pos (one_div_pos.mpr hrowPos) hcolumnPos
  have hrow : ([0, 0, 2, 16] : List ℝ).map (fun x => x * (1 / rowScale) / columnScale) =
      [0, 0, 2 * factor, 16 * factor] := by
    have hscaled : forall x : ℝ, x * (1 / rowScale) / columnScale = x * factor :=
      fun x => mul_div_assoc x _ _
    simp only [hscaled, List.map_cons, List.map_nil, zero_mul]
  rw [hrow] at hbalanced
  let tile : BalancedTile ℝ := {
    values := equalRows config.group [0, 0, 2 * factor, 16 * factor]
    columnScale := List.replicate 4 columnScale
    rowScale := List.replicate config.group rowScale
    rows := config.group
    columns := 4 }
  rcases packedRows_lossy tile hfactor rfl rfl with ⟨code, hcode⟩
  have hvalues : varianceNormalize realMath
      (valueRotated realMath (lossyRows config.group) config.group (1 * 4) 4 0)
      config.group 4 config.sinkhornIterations = tile := by
    rw [Nat.one_mul, valueRotated_lossyRows]
    exact hbalanced
  refine ⟨code, realMath.toF16 columnScale, ?_, ?_⟩
  · show [] ++ packedRows realMath (varianceNormalize realMath _ _ _ _) config.valueBits = _
    rw [hvalues, hbits]
    exact hcode
  · show [] ++ (varianceNormalize realMath _ _ _ _).columnScale.map realMath.toF16 = _
    rw [hvalues]
    exact List.map_replicate

theorem dequantizeValueRotatedRow_lossyRows
    (keyF16 : List UInt16) {token : Nat} (htoken : token < config.group) :
    exists w y : ℝ,
      (KvarnBuffers.quantize realMath config 1 4 keyF16
        (lossyRows config.group)).dequantizeValueRotatedRow realMath config 4 0 token =
          [w, w, w, y] := by
  rcases quantize_lossyRows hbits (Nat.zero_lt_of_lt htoken) keyF16 with
    ⟨code, channelScale, hpacked, hscales⟩
  let block := KvarnBuffers.quantize realMath config 1 4 keyF16 (lossyRows config.group)
  let zero := halfValue (block.valueZero.getD (0 * config.group + token) 0)
  let rowScale := halfValue (block.valueTokenScale.getD (0 * config.group + token) 0)
  let entry (dim : Nat) : ℝ :=
    ((((code <<< 6) >>> UInt8.ofNat (dim * 2) &&& 3).toNat : ℝ) * rowScale + zero) *
      halfValue channelScale
  have hentries : block.dequantizeValueRotatedRow realMath config 4 0 token =
      (List.range 4).map entry := by
    unfold KvarnBuffers.dequantizeValueRotatedRow
    rw [hbits]
    apply List.map_congr_left
    intro dim hdim
    have hlt := List.mem_range.mp hdim
    have hdiv : dim / (8 / 2) = 0 := Nat.div_eq_of_lt hlt
    have hmod : dim % (8 / 2) = dim := Nat.mod_eq_of_lt hlt
    have hat : 0 * (config.group * (4 / (8 / 2))) + token * (4 / (8 / 2)) + 0 = token := by
      omega
    have hpackedAt : block.valuePacked.getD token 0 = code <<< 6 := by
      show List.getD _ token 0 = _
      rw [hpacked, List.getD_eq_getElem _ _ (by rwa [List.length_replicate]),
        List.getElem_replicate]
    have hscaleAt : block.valueChannelScale.getD (0 * 4 + dim) 0 = channelScale := by
      show List.getD _ (0 * 4 + dim) 0 = _
      rw [hscales, Nat.zero_mul, Nat.zero_add,
        List.getD_eq_getElem _ _ (by rwa [List.length_replicate]), List.getElem_replicate]
    dsimp only
    rw [hdiv, hmod, hat, hpackedAt, hscaleAt]
    rfl
  have hzero : forall dim, dim < 3 -> entry dim = entry 0 := by
    intro dim hdim
    show ((((code <<< 6) >>> UInt8.ofNat (dim * 2) &&& 3).toNat : ℝ) * rowScale + zero) *
      halfValue channelScale = _
    rw [shifted_codes_eq_zero code hdim, ← shifted_codes_eq_zero code (Nat.zero_lt_succ 2)]
  refine ⟨entry 0, entry 3, ?_⟩
  rw [hentries]
  show [entry 0, entry 1, entry 2, entry 3] = _
  rw [hzero 1 (by decide), hzero 2 (by decide)]

/-- Two different entries of every row of the group are decoded to the same value. -/
theorem decodeValue_lossyRows (keyF16 : List UInt16) {token : Nat} (htoken : token < config.group) :
    let codec := packedCodec realMath
    codec.decodeValue config 1 4 (codec.encode config 1 4 keyF16 (lossyRows config.group))
        (token * 4 + 1) =
      codec.decodeValue config 1 4 (codec.encode config 1 4 keyF16 (lossyRows config.group))
        (token * 4 + 2) := by
  rcases dequantizeValueRotatedRow_lossyRows hbits keyF16 htoken with ⟨w, y, hrotated⟩
  have hentry : forall channel, channel < 4 ->
      (packedCodec realMath).decodeValue config 1 4
          ((packedCodec realMath).encode config 1 4 keyF16 (lossyRows config.group))
          (token * 4 + channel) =
        halfBits (floatAt (realMath.normalizedHadamard [w, w, w, y]) channel) := by
    intro channel hchannel
    have hdiv : (token * 4 + channel) / (1 * 4) = token := by
      omega
    have hmod : (token * 4 + channel) % (1 * 4) = channel := by
      omega
    show KvarnBuffers.dequantizeEntry realMath 1 4 _ _ = _
    unfold KvarnBuffers.dequantizeEntry
    dsimp only
    rw [hdiv, hmod, Nat.div_eq_of_lt hchannel, Nat.mod_eq_of_lt hchannel, ← hrotated]
    rfl
  dsimp only
  rw [hentry 1 (by decide), hentry 2 (by decide), hadamard_entries_eq]

end

end KvCache
end RunNBurn
