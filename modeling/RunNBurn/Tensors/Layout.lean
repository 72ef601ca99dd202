import RunNBurn.Library.RowMajor
import RunNBurn.Library.Writes

/-!
# Tensors

A tensor is a storage with an offset, sizes and strides.  Views share the storage.  Arithmetic on
sizes and offsets wraps at the machine word, as it does in a release build.
-/

namespace RunNBurn
namespace Tensors

open Library

/-!
## Sizes
-/

/-- `shape.iter().product()` -/
def numelOf (shape : List Nat) : Nat :=
  shape.foldl wrappingMul 1

def computeStrides : List Nat -> List Nat
  | [] => []
  | [_] => [1]
  | _ :: next :: rest =>
    let behind := computeStrides (next :: rest)
    wrappingMul (behind.headD 1) next :: behind

/-- The products of the later sizes fit into a word. -/
def StridesFit (shape : List Nat) : Prop :=
  forall behind, behind <:+ shape.tail -> behind.prod < usizeLimit

theorem computeStrides_eq (shape : List Nat) :
    computeStrides shape = (rowStrides shape).map (· % usizeLimit) := by
  induction shape with
  | nil => rfl
  | cons n shape ih =>
    cases shape with
    | nil => rfl
    | cons m rest =>
      have hhead : ((rowStrides (m :: rest)).map (· % usizeLimit)).headD 1 =
          rest.prod % usizeLimit := rfl
      unfold computeStrides wrappingMul
      dsimp only
      rw [ih, hhead, Nat.mod_mul_mod, Nat.mul_comm, ← List.prod_cons]
      rfl

theorem mem_rowStrides_iff {shape : List Nat} {s : Nat} :
    s ∈ rowStrides shape ↔ shape ≠ [] ∧ exists behind, behind <:+ shape.tail ∧ behind.prod = s := by
  induction shape with
  | nil => simp [rowStrides]
  | cons n shape ih =>
    unfold rowStrides
    rw [List.mem_cons, List.tail_cons, ih]
    constructor
    · intro h
      rcases h with hhead | ⟨-, behind, hbehind, hprod⟩
      · exact ⟨List.cons_ne_nil n shape, shape, List.suffix_refl shape, hhead.symm⟩
      · exact ⟨List.cons_ne_nil n shape, behind, hbehind.trans (List.tail_suffix shape), hprod⟩
    · intro h
      rcases h with ⟨-, behind, hbehind, hprod⟩
      cases shape with
      | nil =>
        rw [List.suffix_nil.mp hbehind] at hprod
        exact .inl hprod.symm
      | cons m rest =>
        rcases List.suffix_cons_iff.mp hbehind with hwhole | hlater
        · rw [hwhole] at hprod
          exact .inl hprod.symm
        · exact .inr ⟨List.cons_ne_nil m rest, behind, hlater, hprod⟩

theorem computeStrides_eq_iff (shape : List Nat) :
    computeStrides shape = rowStrides shape ↔ StridesFit shape := by
  constructor
  · intro h behind hbehind
    cases shape with
    | nil =>
      rw [List.suffix_nil.mp hbehind]
      decide
    | cons n shape =>
      have hmem := mem_rowStrides_iff.mpr ⟨List.cons_ne_nil n shape, behind, hbehind, rfl⟩
      rw [← h, computeStrides_eq] at hmem
      rcases List.mem_map.mp hmem with ⟨s, -, hs⟩
      rw [← hs]
      exact Nat.mod_lt s (by decide)
  · intro h
    rw [computeStrides_eq]
    rw [List.map_congr_left (g := id), List.map_id]
    intro s hs
    rcases mem_rowStrides_iff.mp hs with ⟨-, behind, hbehind, hprod⟩
    rw [← hprod]
    exact Nat.mod_eq_of_lt (h behind hbehind)

/-- `Buffer::alloc(size, 64)`, where the memory never runs out. -/
def alloc (size : Nat) : Checked (List UInt8) := do
  require (size + 63 <= isizeMax) "invalid layout"
  return List.replicate size 0

inductive DType where
  | f32 | f16 | bf16 | i8 | i4 | u8
deriving DecidableEq, Repr

def DType.sizeBytes : DType -> Nat
  | .f32 => 4
  | .f16 => 2
  | .bf16 => 2
  | .i8 => 1
  | .u8 => 1
  | .i4 => 1

def Element (dtype : DType) : Type :=
  { bytes : List UInt8 // bytes.length = dtype.sizeBytes }

/-- The elements of a slice or a vector, which never take more than `isize::MAX` bytes. -/
def Elements (dtype : DType) : Type :=
  { data : List (Element dtype) // data.length * dtype.sizeBytes <= isizeMax }

structure Tensor where
  storage : List UInt8
  shape : List Nat
  strides : List Nat
  offset : Nat
  dtype : DType
deriving DecidableEq

structure IndexRange where
  start : Nat
  stop : Nat
deriving DecidableEq, Repr

namespace Tensor

/-!
## Construction
-/

def zeros (shape : List Nat) (dtype : DType) : Checked Tensor := do
  let storage <- alloc (wrappingMul (numelOf shape) dtype.sizeBytes)
  return {
    storage := storage
    shape := shape
    strides := computeStrides shape
    offset := 0
    dtype := dtype }

section

variable {dtype : DType} (data : Elements dtype) (shape : List Nat)

/-- A buffer that holds the bytes of the elements. -/
def ofElements : Tensor where
  storage := data.val.flatMap (·.val)
  shape := shape
  strides := computeStrides shape
  offset := 0
  dtype := dtype

def fromSlice : Checked Tensor := do
  require (data.val.length = numelOf shape) "data length must match shape"
  let _ <- alloc (wrappingMul (numelOf shape) dtype.sizeBytes)
  return ofElements data shape

def fromVec : Checked Tensor := do
  require (data.val.length = numelOf shape) "data length must match shape"
  return ofElements data shape

end

/-!
## Views
-/

def numel (t : Tensor) : Nat :=
  numelOf t.shape

def isContiguous (t : Tensor) : Bool :=
  decide (t.strides = computeStrides t.shape)

def view (t : Tensor) (newShape : List Nat) : Checked Tensor := do
  ensure (numelOf newShape = t.numel) s!"shape mismatch: expected {t.shape}, got {newShape}"
  ensure (t.isContiguous = true) "invalid graph: view requires contiguous tensor"
  return { t with
    shape := newShape
    strides := computeStrides newShape }

/-- `Vec::swap` -/
def swap (xs : List Nat) (i j : Nat) : Checked (List Nat) :=
  if i < xs.length ∧ j < xs.length then .ok (swapAt xs i j) else abort "index out of bounds"

def transpose (t : Tensor) (dim0 dim1 : Nat) : Checked Tensor := do
  let shape <- swap t.shape dim0 dim1
  let strides <- swap t.strides dim0 dim1
  return { t with
    shape := shape
    strides := strides }

/-- One range after another, from dimension `i` on. -/
def sliceFrom : Nat -> List IndexRange -> List Nat -> List Nat -> Nat ->
    Checked (List Nat × Nat)
  | i, range :: ranges, n :: shape, s :: strides, offset => do
      ensure (range.stop <= n)
        s!"invalid graph: slice: range {range.start}..{range.stop} out of bounds for dim {i} (size {n})"
      let rest <- sliceFrom (i + 1) ranges shape strides
        (wrappingAdd offset (wrappingMul range.start s))
      return (wrappingSub range.stop range.start :: rest.1, rest.2)
  | _, [], _, _, offset => .ok ([], offset)
  | _, _ :: _, _, _, _ => abort "index out of bounds"

def slice (t : Tensor) (ranges : List IndexRange) : Checked Tensor := do
  ensure (ranges.length = t.shape.length)
    s!"invalid graph: slice: expected {t.shape.length} ranges, got {ranges.length}"
  let sliced <- sliceFrom 0 ranges t.shape t.strides t.offset
  return { t with
    shape := sliced.1
    offset := sliced.2 }

/-!
## Copies
-/

def sourceOffset (t : Tensor) (srcIndices : List Nat) : Nat :=
  wrappingAdd t.offset ((List.zipWith wrappingMul srcIndices t.strides).foldl wrappingAdd 0)

def copyElement (t : Tensor) (i : Nat) (state : List UInt8 × List Nat) :
    Checked (List UInt8 × List Nat) := do
  let srcByte := wrappingMul (t.sourceOffset state.2) t.dtype.sizeBytes
  let part <- Library.slice t.storage srcByte (wrappingAdd srcByte t.dtype.sizeBytes)
  let dst <- Write.run state.1
    { start := wrappingMul i t.dtype.sizeBytes
      part := part }
  return (dst, (advance t.shape state.2).1)

def copied (t : Tensor) : Checked Tensor := do
  let buf <- alloc (wrappingMul t.numel t.dtype.sizeBytes)
  let final <- forRange t.copyElement t.numel (buf, List.replicate t.shape.length 0)
  return { t with
    storage := final.1
    strides := computeStrides t.shape
    offset := 0 }

def contiguous (t : Tensor) : Checked Tensor :=
  if t.isContiguous then .ok t else t.copied

def asBytes (t : Tensor) : Checked (Option (List UInt8)) :=
  if t.isContiguous then do
    let start := wrappingMul t.offset t.dtype.sizeBytes
    let stop := wrappingAdd start (wrappingMul t.numel t.dtype.sizeBytes)
    let bytes <- Library.slice t.storage start stop
    return some bytes
  else .ok none

end Tensor

end Tensors
end RunNBurn
