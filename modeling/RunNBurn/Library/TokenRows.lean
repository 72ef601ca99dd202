import RunNBurn.Library.FlatRows

/-!
# Buffers of token rows

A buffer holds the rows of several tokens end to end.  An operation that works token by
token leaves at each token what it makes of that token's row alone.
-/

namespace RunNBurn
namespace Library

variable {entry out middle : Type}

/-- The row of token `t`. -/
def rowAt (width : Nat) (data : List entry) (t : Nat) : List entry :=
  (data.drop (t * width)).take width

variable {width n t : Nat}

theorem length_rowAt {data : List entry} (hlength : data.length = n * width) (ht : t < n) :
    (rowAt width data t).length = width := by
  have hroom : (t + 1) * width <= n * width := Nat.mul_le_mul_right width ht
  rw [Nat.succ_mul] at hroom
  unfold rowAt
  rw [List.length_take, List.length_drop]
  omega

/-- What makes rows of `rows` entries from rows of `cols`. -/
structure Projection (entry : Type) (rows cols : Nat) where
  row : List entry -> List entry
  length_row : forall input, input.length = cols -> (row input).length = rows

@[simp] theorem rowAt_zero (width : Nat) (data : List entry) :
    rowAt width data 0 = data.take width := by
  unfold rowAt
  rw [Nat.zero_mul, List.drop_zero]

theorem rowAt_zero_of_length {width : Nat} {row : List entry} (h : row.length = width) :
    rowAt width row 0 = row := by
  rw [rowAt_zero, ← h, List.take_length]

variable (data : List entry)

theorem take_drop_take_drop {outer start count : Nat} (base : Nat) (h : start + count <= outer) :
    (((data.drop base).take outer).drop start).take count =
      (data.drop (base + start)).take count := by
  rw [List.drop_take, List.take_take, List.drop_drop, Nat.min_eq_left (by omega)]

theorem rowAt_rowAt {width heads t h : Nat} (hh : h < heads) :
    rowAt width (rowAt (heads * width) data t) h = rowAt width data (t * heads + h) := by
  have hroom : (h + 1) * width <= heads * width := Nat.mul_le_mul_right width hh
  rw [Nat.succ_mul] at hroom
  unfold rowAt
  rw [take_drop_take_drop data _ hroom, ← Nat.mul_assoc, ← Nat.add_mul]

theorem rowAt_take_drop {width count t : Nat} (start : Nat) (ht : t < count) :
    rowAt width ((data.drop (start * width)).take (count * width)) t =
      rowAt width data (start + t) := by
  have hroom : (t + 1) * width <= count * width := Nat.mul_le_mul_right width ht
  rw [Nat.succ_mul] at hroom
  unfold rowAt
  rw [take_drop_take_drop data _ hroom, ← Nat.add_mul]

theorem flatMap_rowAt (width n : Nat) (data : List entry) :
    (List.range n).flatMap (rowAt width data) = data.take (n * width) := by
  induction n with
  | zero => simp
  | succ n ih =>
    rw [List.range_succ, List.flatMap_append, ih, Nat.succ_mul, List.take_add]
    simp [rowAt]

theorem eq_of_rowAt_eq {width n : Nat} {left right : List entry}
    (hleft : left.length = n * width) (hright : right.length = n * width)
    (h : forall t, t < n -> rowAt width left t = rowAt width right t) :
    left = right := by
  have hrows : (List.range n).flatMap (rowAt width left) =
      (List.range n).flatMap (rowAt width right) := by
    apply List.flatMap_congr
    intro t ht
    exact h t (List.mem_range.mp ht)
  rw [flatMap_rowAt, flatMap_rowAt, ← hleft, List.take_length, hleft, ← hright,
    List.take_length] at hrows
  exact hrows

theorem rowAt_flatMap {row : Type} {width t : Nat} {field : row -> List entry} {rows : List row}
    {r : row} (h : UniformRows field width rows) (hr : rows[t]? = some r) :
    rowAt width (rows.flatMap field) t = field r := by
  have ht : t < rows.length := (List.getElem?_eq_some_iff.mp hr).1
  have hdrop : rows.drop t = r :: rows.drop (t + 1) := by
    rw [List.drop_eq_getElem_cons ht, (List.getElem?_eq_some_iff.mp hr).2]
  have hlength : (field r).length = width := h r (List.mem_of_getElem? hr)
  unfold rowAt
  rw [drop_flatMap_of_uniformRows h, hdrop, List.flatMap_cons,
    List.take_append_of_le_length (Nat.le_of_eq hlength.symm), ← hlength, List.take_length]

theorem rowAt_flatMap_range {make : Nat -> List entry}
    (hmake : forall t, t < n -> (make t).length = width) (ht : t < n) :
    rowAt width ((List.range n).flatMap make) t = make t := by
  have huniform : UniformRows make width (List.range n) :=
    fun t ht => hmake t (List.mem_range.mp ht)
  exact rowAt_flatMap huniform (List.getElem?_range ht)

theorem length_flatMap_range {width n : Nat} {make : Nat -> List entry}
    (hmake : forall t, t < n -> (make t).length = width) :
    ((List.range n).flatMap make).length = n * width := by
  have huniform : UniformRows make width (List.range n) :=
    fun t ht => hmake t (List.mem_range.mp ht)
  rw [length_flatMap_of_uniformRows huniform, List.length_range]

/-!
## Token by token
-/

/-- The operation on `n` tokens is the operation on one token, for each of them. -/
structure PerToken (op : Nat -> List entry -> List out) (width outWidth : Nat) : Prop where
  length_eq : forall {n : Nat} {data : List entry}, data.length = n * width ->
    (op n data).length = n * outWidth
  row_eq : forall {n t : Nat} {data : List entry}, data.length = n * width -> t < n ->
    rowAt outWidth (op n data) t = op 1 (rowAt width data t)

theorem perToken_flatMap {op : Nat -> List entry -> List out} {width outWidth : Nat}
    (make : List entry -> List out) (hop : forall n data, data.length = n * width ->
      op n data = (List.range n).flatMap (fun t => make (rowAt width data t)))
    (hmake : forall row, row.length = width -> (make row).length = outWidth) :
    PerToken op width outWidth := by
  have hlengths : forall {n : Nat} {data : List entry}, data.length = n * width ->
      forall t, t < n -> (make (rowAt width data t)).length = outWidth := by
    intro n data hdata t ht
    exact hmake _ (length_rowAt hdata ht)
  constructor
  · intro n data hdata
    rw [hop n data hdata, length_flatMap_range (hlengths hdata)]
  · intro n t data hdata ht
    have hrow : (rowAt width data t).length = 1 * width := by
      rw [Nat.one_mul]
      exact length_rowAt hdata ht
    rw [hop n data hdata, rowAt_flatMap_range (hlengths hdata) ht, hop 1 _ hrow]
    simp only [List.range_one, List.flatMap_singleton]
    rw [rowAt_zero_of_length (length_rowAt hdata ht)]

namespace PerToken

variable {width middleWidth outWidth : Nat}

theorem comp {first : Nat -> List entry -> List middle} {second : Nat -> List middle -> List out}
    (hsecond : PerToken second middleWidth outWidth) (hfirst : PerToken first width middleWidth) :
    PerToken (fun n data => second n (first n data)) width outWidth := by
  constructor
  · intro n data hdata
    exact hsecond.length_eq (hfirst.length_eq hdata)
  · intro n t data hdata ht
    rw [hsecond.row_eq (hfirst.length_eq hdata) ht, hfirst.row_eq hdata ht]

theorem regroup {op : Nat -> List entry -> List out} (h : PerToken op width outWidth)
    (heads : Nat) :
    PerToken (fun n data => op (n * heads) data) (heads * width) (heads * outWidth) := by
  constructor
  · intro n data hdata
    rw [← Nat.mul_assoc] at hdata ⊢
    exact h.length_eq hdata
  · intro n t data hdata ht
    have hheads : data.length = n * heads * width := by
      rw [hdata, Nat.mul_assoc]
    have hrow : (rowAt (heads * width) data t).length = 1 * heads * width := by
      rw [Nat.one_mul]
      exact length_rowAt hdata ht
    have hlength : (op (n * heads) data).length = n * (heads * outWidth) := by
      rw [h.length_eq hheads, Nat.mul_assoc]
    apply eq_of_rowAt_eq (length_rowAt hlength ht)
    · rw [h.length_eq hrow, Nat.one_mul]
    · intro head hhead
      have hindex : t * heads + head < n * heads := by
        have hroom : (t + 1) * heads <= n * heads := Nat.mul_le_mul_right heads ht
        rw [Nat.succ_mul] at hroom
        omega
      rw [rowAt_rowAt _ hhead, h.row_eq hheads hindex,
        h.row_eq hrow (by rw [Nat.one_mul]; exact hhead), rowAt_rowAt _ hhead]

end PerToken

/-!
## A history that slides

The history holds the last rows before a token; it stands in front of the buffer.
-/

/-- The history when `t` tokens have been seen. -/
def historyAt (width : Nat) (history data : List entry) (t : Nat) : List entry :=
  ((history ++ data).drop (t * width)).take history.length

theorem historyAt_zero (width : Nat) (history data : List entry) :
    historyAt width history data 0 = history := by
  unfold historyAt
  rw [Nat.zero_mul, List.drop_zero, List.take_left]

theorem length_historyAt {history data : List entry} (hdata : data.length = n * width)
    (ht : t <= n) :
    (historyAt width history data t).length = history.length := by
  have hroom : t * width <= n * width := Nat.mul_le_mul_right width ht
  unfold historyAt
  rw [List.length_take, List.length_drop, List.length_append]
  omega

theorem take_drop_eq_historyAt (width : Nat) (history data : List entry) (t : Nat) :
    ((history ++ data).drop (t * width)).take (history.length + width) =
      historyAt width history data t ++ rowAt width data t := by
  unfold historyAt rowAt
  rw [List.take_add, List.drop_drop, Nat.add_comm (t * width), ← List.drop_drop, List.drop_left]

theorem historyAt_succ {width : Nat} (history data : List entry) (t : Nat) :
    historyAt width history data (t + 1) =
      (historyAt width history data t ++ rowAt width data t).drop width := by
  rw [← take_drop_eq_historyAt, List.drop_take, List.drop_drop, Nat.add_sub_cancel, ← Nat.succ_mul]
  rfl

end Library
end RunNBurn
