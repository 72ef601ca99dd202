import Mathlib.Algebra.BigOperators.Fin
import Mathlib.Data.Matrix.Mul
import RunNBurn.KvCache.KvarnAttention
import RunNBurn.KvCache.KvarnRefinement
import RunNBurn.Library.OnlineSoftmax
import RunNBurn.Library.TokenRows

/-!
# What a softmax state stands for

A state of the decode attention stands for a list of scored rows: the rows that the
loops have passed.  Every operation on states is an operation on these lists.
-/

namespace RunNBurn
namespace KvCache

open Library
open scoped Matrix

variable {F : Type} [Field F]

/-!
# Buffers as vectors
-/

/-- The first `n` entries of a buffer. -/
def vecOf (n : Nat) (xs : List F) : Fin n -> F :=
  fun dim => floatAt xs dim

/-- What one head of a row holds. -/
def headVec (headDim kvHead : Nat) (entries : List F) : Fin headDim -> F :=
  fun dim => floatAt entries (kvHead * headDim + dim)

section Vectors

variable {n : Nat}

theorem floatAt_map {G : Type} {xs : List G} {i : Nat} (f : G -> F) (h : i < xs.length) :
    floatAt (xs.map f) i = f (xs.get ⟨i, h⟩) := by
  unfold floatAt
  rw [List.getD_eq_getElem?_getD, List.getElem?_map, List.getElem?_eq_getElem h]
  rfl

theorem floatAt_map_range {i : Nat} (f : Nat -> F) (h : i < n) :
    floatAt ((List.range n).map f) i = f i := by
  unfold floatAt
  rw [List.getD_eq_getElem?_getD, List.getElem?_map, List.getElem?_range h]
  rfl

theorem vecOf_map_range (f : Nat -> F) :
    vecOf n ((List.range n).map f) = fun dim : Fin n => f dim := by
  funext dim
  exact floatAt_map_range f dim.isLt

theorem vecOf_replicate : vecOf n (List.replicate n (0 : F)) = 0 := by
  funext dim
  show floatAt (List.replicate n (0 : F)) dim = 0
  unfold floatAt
  rw [List.getD_eq_getElem?_getD, List.getElem?_replicate, if_pos dim.isLt]
  rfl

theorem vecOf_map_mul (xs : List F) (factor : F) :
    vecOf n (xs.map fun value => value * factor) = factor • vecOf n xs := by
  funext dim
  show floatAt (xs.map fun value => value * factor) dim = factor * floatAt xs dim
  unfold floatAt
  rw [List.getD_eq_getElem?_getD, List.getD_eq_getElem?_getD, List.getElem?_map]
  cases xs[(dim : Nat)]? with
  | none => simp
  | some x => exact mul_comm x factor

theorem ofFn_vecOf {xs : List F} (h : xs.length = n) : List.ofFn (vecOf n xs) = xs := by
  apply List.ext_getElem
  · rw [List.length_ofFn, h]
  · intro i hleft hright
    rw [List.getElem_ofFn]
    unfold vecOf floatAt
    rw [List.getD_eq_getElem?_getD, List.getElem?_eq_getElem hright]
    rfl

theorem vecOf_ofFn (v : Fin n -> F) : vecOf n (List.ofFn v) = v := by
  funext dim
  unfold vecOf floatAt
  rw [List.getD_eq_getElem?_getD, List.getElem?_ofFn, dif_pos dim.isLt]
  rfl

theorem dotF32F16_eq (math : KvarnMath F) {left : List F} {right : List UInt16}
    (hleft : left.length = n) (hright : right.length = n) :
    dotF32F16 math left right = vecOf n left ⬝ᵥ vecOf n (right.map math.ofF16) := by
  have hlist : List.zipWith (fun lhs rhs => lhs * math.ofF16 rhs) left right =
      List.ofFn (fun dim : Fin n => vecOf n left dim * vecOf n (right.map math.ofF16) dim) := by
    apply List.ext_getElem
    · rw [List.length_zipWith, List.length_ofFn, hleft, hright, Nat.min_self]
    · intro i hi hn
      rw [List.length_ofFn] at hn
      rw [List.getElem_zipWith, List.getElem_ofFn]
      unfold vecOf floatAt
      rw [List.getD_eq_getElem?_getD, List.getD_eq_getElem?_getD, List.getElem?_map,
        List.getElem?_eq_getElem (hleft.symm ▸ hn), List.getElem?_eq_getElem (hright.symm ▸ hn)]
      rfl
  unfold dotF32F16
  rw [hlist, List.sum_ofFn]
  rfl

theorem axpyF16_eq (math : KvarnMath F) {output : List F} {input : List UInt16} (scale : F)
    (houtput : output.length = n) (hinput : input.length = n) :
    (axpyF16 math output input scale).length = n ∧
      vecOf n (axpyF16 math output input scale) =
        vecOf n output + scale • vecOf n (input.map math.ofF16) := by
  have hrest : output.drop input.length = [] := by
    rw [hinput, ← houtput, List.drop_length]
  unfold axpyF16
  rw [hrest, List.append_nil]
  constructor
  · rw [List.length_zipWith, houtput, hinput, Nat.min_self]
  · funext dim
    have hleft : (dim : Nat) < output.length := houtput.symm ▸ dim.isLt
    have hright : (dim : Nat) < input.length := hinput.symm ▸ dim.isLt
    show floatAt _ dim = floatAt output dim + scale * floatAt (input.map math.ofF16) dim
    unfold floatAt
    rw [List.getD_eq_getElem?_getD, List.getD_eq_getElem?_getD, List.getD_eq_getElem?_getD,
      List.getElem?_zipWith, List.getElem?_map, List.getElem?_eq_getElem hleft,
      List.getElem?_eq_getElem hright]
    rfl

end Vectors

/-!
# States and their rows
-/

variable [LinearOrder F]

structure SoftmaxState.Tracks (math : KvarnMath F) (n : Nat) (items : List (F × (Fin n -> F)))
    (state : SoftmaxState F) : Prop where
  length : state.numerator.length = n
  sums : Accumulates math.exp items state.maximum state.sum (vecOf n state.numerator)

namespace SoftmaxState

variable {math : KvarnMath F} {n : Nat} {items left right : List (F × (Fin n -> F))}
  {state : SoftmaxState F}

omit [LinearOrder F] in
theorem tracks_new (math : KvarnMath F) (n : Nat) :
    (SoftmaxState.new n : SoftmaxState F).Tracks math n [] where
  length := List.length_replicate
  sums := by
    show Accumulates math.exp [] none 0 (vecOf n (List.replicate n (0 : F)))
    rw [vecOf_replicate]
    exact Accumulates.empty

theorem Tracks.push (h : state.Tracks math n items) (hexp : Exponential math.exp)
    (score : F) (value : Fin n -> F) {numerator : List F}
    (hadd : (state.weight math score).1.numerator.length = n ->
      numerator.length = n ∧
        vecOf n numerator = vecOf n (state.weight math score).1.numerator +
          (state.weight math score).2 • value) :
    ({ (state.weight math score).1 with numerator := numerator } : SoftmaxState F).Tracks math n
      (items ++ [(score, value)]) := by
  have hlength := h.length
  have hsums := h.sums
  unfold weight at hadd ⊢
  cases hmaximum : state.maximum with
  | none =>
    rw [hmaximum] at hsums hadd
    dsimp only at hadd ⊢
    rcases hadd hlength with ⟨hnumerator, hvec⟩
    constructor
    · exact hnumerator
    · dsimp only
      rw [hvec]
      exact hsums.first hexp score value
  | some maximum =>
    rw [hmaximum] at hsums hadd
    dsimp only at hadd ⊢
    by_cases habove : maximum < score
    · rw [if_pos habove] at hadd ⊢
      dsimp only at hadd ⊢
      rw [List.length_map, vecOf_map_mul] at hadd
      rcases hadd hlength with ⟨hnumerator, hvec⟩
      constructor
      · exact hnumerator
      · dsimp only
        rw [hvec]
        exact hsums.above hexp score value
    · rw [if_neg habove] at hadd ⊢
      dsimp only at hadd ⊢
      rcases hadd hlength with ⟨hnumerator, hvec⟩
      constructor
      · exact hnumerator
      · dsimp only
        rw [hvec]
        exact hsums.push score value

theorem Tracks.merge {leftState rightState : SoftmaxState F}
    (hleft : leftState.Tracks math n left) (hright : rightState.Tracks math n right)
    (hexp : Exponential math.exp) :
    (leftState.merge math rightState).Tracks math n (left ++ right) := by
  have hleftSums := hleft.sums
  have hrightSums := hright.sums
  unfold SoftmaxState.merge
  cases hleftMaximum : leftState.maximum with
  | none =>
    rw [hleftMaximum] at hleftSums
    rw [hleftSums.eq_nil]
    exact hright
  | some leftMaximum =>
    cases hrightMaximum : rightState.maximum with
    | none =>
      rw [hrightMaximum] at hrightSums
      rw [hrightSums.eq_nil, List.append_nil]
      exact hleft
    | some rightMaximum =>
      rw [hleftMaximum] at hleftSums
      rw [hrightMaximum] at hrightSums
      have hmerged := hleftSums.merge hexp hrightSums (max leftMaximum rightMaximum)
      have hvec : vecOf n ((List.range leftState.numerator.length).map fun dim =>
            floatAt leftState.numerator dim *
                math.exp (leftMaximum - max leftMaximum rightMaximum) +
              floatAt rightState.numerator dim *
                math.exp (rightMaximum - max leftMaximum rightMaximum)) =
          math.exp (leftMaximum - max leftMaximum rightMaximum) •
              vecOf n leftState.numerator +
            math.exp (rightMaximum - max leftMaximum rightMaximum) •
              vecOf n rightState.numerator := by
        rw [hleft.length, vecOf_map_range]
        funext dim
        rw [mul_comm, mul_comm (floatAt rightState.numerator dim)]
        rfl
      constructor
      · dsimp only
        rw [List.length_map, List.length_range]
        exact hleft.length
      · dsimp only
        rw [hvec]
        exact hmerged

omit [LinearOrder F] in
/-- The values of the state under a linear map. -/
theorem Tracks.map (h : state.Tracks math n items) (transform : (Fin n -> F) →ₗ[F] (Fin n -> F)) :
    ({ state with
        numerator := List.ofFn (transform (vecOf n state.numerator)) } : SoftmaxState F).Tracks
      math n (items.map fun item => (item.1, transform item.2)) where
  length := List.length_ofFn
  sums := by
    dsimp only
    rw [vecOf_ofFn]
    exact h.sums.map transform

omit [LinearOrder F] in
theorem Tracks.valid (h : state.Tracks math n items) : state.valid = false ↔ items = [] := by
  have hsums := h.sums
  unfold SoftmaxState.valid
  cases hmaximum : state.maximum with
  | none =>
    rw [hmaximum] at hsums
    simp [hsums.eq_nil]
  | some maximum =>
    rw [hmaximum] at hsums
    simp [hsums.ne_nil]

end SoftmaxState

/-!
# Rows of exact values
-/

/-- A row of numbers instead of 16-bit floats. -/
structure ExactRow (F : Type) where
  key : List F
  value : List F

def KvRow.exact (math : KvarnMath F) (row : KvRow) : ExactRow F where
  key := row.key.map math.ofF16
  value := row.value.map math.ofF16

def ExactRow.rounded (math : KvarnMath F) (row : ExactRow F) : KvRow where
  key := row.key.map math.toF16
  value := row.value.map math.toF16

/-- A stored row is exact; a row that a block decodes to is rounded as it is read. -/
inductive ExactRow.RoundsTo (math : KvarnMath F) : ExactRow F -> KvRow -> Prop where
  | stored (row : KvRow) : RoundsTo math (row.exact math) row
  | decoded (row : ExactRow F) : RoundsTo math row (row.rounded math)

/-!
# Scored rows
-/

def AttentionWindow.scored (math : KvarnMath F) (window : AttentionWindow F) {n : Nat}
    (query key value : Fin n -> F) : F × (Fin n -> F) :=
  (window.capped math (query ⬝ᵥ key * window.scale), value)

def AttentionWindow.scoredRow (math : KvarnMath F) (window : AttentionWindow F)
    (headDim kvHead : Nat) (query : List F) (row : ExactRow F) : F × (Fin headDim -> F) :=
  window.scored math (vecOf headDim query) (headVec headDim kvHead row.key)
    (headVec headDim kvHead row.value)

section Region

variable {math : KvarnMath F} {headDim kvHead numKvHeads : Nat}

theorem bitsAt_flatMap {rows : List KvRow} {field : KvRow -> List UInt16} {i : Nat} {r : KvRow}
    (huniform : UniformRows field (numKvHeads * headDim) rows) (hr : rows[i]? = some r)
    (hkv : kvHead < numKvHeads) :
    bitsAt (rows.flatMap field) (i * (numKvHeads * headDim) + kvHead * headDim) headDim =
      bitsAt (field r) (kvHead * headDim) headDim := by
  have hhead := Nat.mul_le_mul_right headDim (Nat.succ_le_of_lt hkv)
  rw [Nat.succ_mul] at hhead
  have hrow := rowAt_flatMap huniform hr
  unfold rowAt at hrow
  unfold bitsAt
  rw [← hrow, take_drop_take_drop (rows.flatMap field) _ hhead]

omit [LinearOrder F] in
/-- What is read of one head of a row. -/
theorem bitsAt_headVec (math : KvarnMath F) {bits : List UInt16}
    (hlength : bits.length = numKvHeads * headDim) (hkv : kvHead < numKvHeads) :
    (bitsAt bits (kvHead * headDim) headDim).length = headDim ∧
      vecOf headDim ((bitsAt bits (kvHead * headDim) headDim).map math.ofF16) =
        headVec headDim kvHead (bits.map math.ofF16) := by
  have hhead := Nat.mul_le_mul_right headDim (Nat.succ_le_of_lt hkv)
  rw [Nat.succ_mul] at hhead
  have hpart : (bitsAt bits (kvHead * headDim) headDim).length = headDim := by
    unfold bitsAt
    rw [List.length_take, List.length_drop]
    omega
  constructor
  · exact hpart
  · funext dim
    have hdim := dim.isLt
    have hindex : kvHead * headDim + dim < bits.length := by
      omega
    unfold vecOf headVec
    rw [floatAt_map math.ofF16 (by rw [hpart]; exact hdim), floatAt_map math.ofF16 hindex]
    unfold bitsAt
    simp

/-!
# Exact regions
-/

variable {window : AttentionWindow F} {query : List F} {rows : List KvRow}

theorem processF16Row_tracks {items : List (F × (Fin headDim -> F))} {state : SoftmaxState F}
    {i : Nat} {r : KvRow} (hexp : Exponential math.exp)
    (hquery : query.length = headDim) (huniform : UniformKv (numKvHeads * headDim) rows)
    (hkv : kvHead < numKvHeads) (hr : rows[i]? = some r) (globalStart : Nat)
    (h : state.Tracks math headDim items) :
    (processF16Row math window query (kvBits rows).1 (kvBits rows).2 globalStart
        (numKvHeads * headDim) kvHead headDim state i).Tracks math headDim
      (items ++ (Library.window window.windowStart window.kvLen (globalStart + i)
        [r.exact math]).map (window.scoredRow math headDim kvHead query)) := by
  rw [window_singleton]
  unfold processF16Row
  dsimp only
  split
  · rw [List.map_nil, List.append_nil]
    exact h
  · have hmem := List.mem_of_getElem? hr
    have hkey := bitsAt_flatMap huniform.key hr hkv
    have hvalue := bitsAt_flatMap huniform.value hr hkv
    rcases bitsAt_headVec math (huniform.key r hmem) hkv with ⟨hkeyLength, hkeyVec⟩
    rcases bitsAt_headVec math (huniform.value r hmem) hkv with
      ⟨hvalueLength, hvalueVec⟩
    change _ = headVec headDim kvHead (r.exact math).value at hvalueVec
    unfold kvBits
    dsimp only
    rw [hkey, hvalue, dotF32F16_eq math hquery hkeyLength, hkeyVec]
    apply h.push hexp
    intro hlength
    rw [← hvalueVec]
    exact axpyF16_eq math _ hlength hvalueLength

theorem processF16Region_tracks (window : AttentionWindow F) (hexp : Exponential math.exp)
    (hquery : query.length = headDim) (huniform : UniformKv (numKvHeads * headDim) rows)
    (hkv : kvHead < numKvHeads) (globalStart : Nat) :
    (processF16Region math window query (kvBits rows).1 (kvBits rows).2 globalStart rows.length
        (numKvHeads * headDim) kvHead headDim).Tracks math headDim
      ((Library.window window.windowStart window.kvLen globalStart
        (rows.map (KvRow.exact math))).map (window.scoredRow math headDim kvHead query)) := by
  have hprefix : forall count, count <= rows.length ->
      ((List.range count).foldl
        (processF16Row math window query (kvBits rows).1 (kvBits rows).2 globalStart
          (numKvHeads * headDim) kvHead headDim) (SoftmaxState.new headDim)).Tracks math headDim
        ((Library.window window.windowStart window.kvLen globalStart
          ((rows.take count).map (KvRow.exact math))).map
            (window.scoredRow math headDim kvHead query)) := by
    intro count
    induction count with
    | zero =>
      intro _
      rw [List.take_zero, List.map_nil]
      unfold Library.window
      rw [List.take_nil, List.drop_nil]
      exact SoftmaxState.tracks_new math headDim
    | succ count ih =>
      intro hle
      have hr : rows[count]? = some rows[count] := List.getElem?_eq_getElem hle
      have htake : (rows.take count).length = count := by
        rw [List.length_take]
        exact Nat.min_eq_left (Nat.le_of_succ_le hle)
      rw [List.range_succ, List.foldl_append, List.take_add_one, hr, Option.toList_some,
        List.map_append, window_append, List.length_map, htake, List.map_append]
      exact processF16Row_tracks hexp hquery huniform hkv hr globalStart
        (ih (Nat.le_of_succ_le hle))
  have hall := hprefix rows.length (Nat.le_refl _)
  rw [List.take_length] at hall
  exact hall

end Region

end KvCache
end RunNBurn
