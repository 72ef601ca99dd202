import Mathlib.Algebra.BigOperators.Group.List.Lemmas
import RunNBurn.Tensors.Layout

/-!
# What tensors denote

The element of an index lies in the storage, whatever views were taken, and every operation does
to the indices what it says.
-/

namespace RunNBurn
namespace Tensors

open Library

/-!
## Sizes and strides
-/

theorem foldl_wrappingMul (shape : List Nat) (start : Nat) :
    shape.foldl wrappingMul (start % usizeLimit) = start * shape.prod % usizeLimit := by
  induction shape generalizing start with
  | nil =>
    rw [List.prod_nil, Nat.mul_one]
    rfl
  | cons n shape ih =>
    have hstep : wrappingMul (start % usizeLimit) n = start * n % usizeLimit := by
      unfold wrappingMul
      rw [Nat.mod_mul_mod]
    rw [List.foldl_cons, hstep, ih, List.prod_cons, Nat.mul_assoc]

theorem numelOf_eq (shape : List Nat) : numelOf shape = shape.prod % usizeLimit := by
  have hfold := foldl_wrappingMul shape 1
  rw [Nat.one_mul] at hfold
  exact hfold

theorem numelOf_of_lt {shape : List Nat} (h : shape.prod < usizeLimit) :
    numelOf shape = shape.prod := by
  rw [numelOf_eq, Nat.mod_eq_of_lt h]

theorem computeStrides_of_pos {shape : List Nat} (hpos : 0 < shape.prod)
    (hfits : shape.prod < usizeLimit) : computeStrides shape = rowStrides shape := by
  apply (computeStrides_eq_iff shape).mpr
  intro behind hbehind
  have hwhole : behind <:+ shape := hbehind.trans (List.tail_suffix shape)
  exact Nat.lt_of_le_of_lt (Nat.le_of_dvd hpos hwhole.sublist.prod_dvd_prod) hfits

theorem length_computeStrides (shape : List Nat) :
    (computeStrides shape).length = shape.length := by
  rw [computeStrides_eq, List.length_map, length_rowStrides]

namespace Tensor

variable {t t' : Tensor}

/-!
## Elements
-/

theorem sizeBytes_pos (dtype : DType) : 0 < dtype.sizeBytes := by
  cases dtype with
  | f32 => decide
  | f16 => decide
  | bf16 => decide
  | i8 => decide
  | i4 => decide
  | u8 => decide

def elements (t : Tensor) : Nat :=
  t.storage.length / t.dtype.sizeBytes

def address (t : Tensor) (index : List Nat) : Nat :=
  t.offset + dot index t.strides

def denote (t : Tensor) (index : List Nat) : List UInt8 :=
  region t.storage (t.address index * t.dtype.sizeBytes) t.dtype.sizeBytes

/-- A tensor without elements may have any offset. -/
structure Sound (t : Tensor) : Prop where
  length_strides : t.strides.length = t.shape.length
  room : 0 < t.shape.prod ->
    t.offset + dot t.shape t.strides + 1 <= t.elements + t.strides.sum
  prod_le : t.shape.prod <= t.elements
  storage_le : t.storage.length <= isizeMax

theorem prod_pos_of_inShape {index shape : List Nat} (h : InShape index shape) :
    0 < shape.prod :=
  Nat.lt_of_le_of_lt (Nat.zero_le _) (ravel_lt h)

theorem Sound.address_lt (h : t.Sound) {index : List Nat} (hindex : InShape index t.shape) :
    t.address index < t.elements := by
  have hreach := dot_add_sum_le hindex h.length_strides
  have hroom := h.room (prod_pos_of_inShape hindex)
  unfold address
  omega

theorem Sound.elements_lt (h : t.Sound) : t.elements < usizeLimit := by
  have hle : t.elements <= t.storage.length := Nat.div_le_self _ _
  exact Nat.lt_of_le_of_lt (Nat.le_trans hle h.storage_le) (by decide)

theorem Sound.prod_lt (h : t.Sound) : t.shape.prod < usizeLimit :=
  Nat.lt_of_le_of_lt h.prod_le h.elements_lt

theorem Sound.numel_eq (h : t.Sound) : t.numel = t.shape.prod :=
  numelOf_of_lt h.prod_lt

theorem elements_mul_le (t : Tensor) : t.elements * t.dtype.sizeBytes <= t.storage.length :=
  Nat.div_mul_le_self _ _

theorem Sound.bytes_le (h : t.Sound) {index : List Nat} (hindex : InShape index t.shape) :
    t.address index * t.dtype.sizeBytes + t.dtype.sizeBytes <= t.storage.length := by
  have hroom : (t.address index + 1) * t.dtype.sizeBytes <= t.elements * t.dtype.sizeBytes :=
    Nat.mul_le_mul_right _ (h.address_lt hindex)
  rw [Nat.succ_mul] at hroom
  exact Nat.le_trans hroom (elements_mul_le t)

theorem Sound.length_denote (h : t.Sound) {index : List Nat} (hindex : InShape index t.shape) :
    (t.denote index).length = t.dtype.sizeBytes :=
  length_region (h.bytes_le hindex)

theorem Sound.rowStrides_of_contiguous (h : t.Sound) (hcontiguous : t.isContiguous = true)
    (hpos : 0 < t.shape.prod) : t.strides = rowStrides t.shape := by
  rw [← computeStrides_of_pos hpos h.prod_lt]
  exact of_decide_eq_true hcontiguous

theorem Sound.stretch_le (h : t.Sound) (hcontiguous : t.isContiguous = true)
    (hpos : 0 < t.shape.prod) : t.offset + t.shape.prod <= t.elements := by
  have hself := dot_rowStrides_self t.shape
  have hroom := h.room hpos
  rw [h.rowStrides_of_contiguous hcontiguous hpos] at hroom
  omega

theorem sound_of_stretch (hstrides : t.strides = computeStrides t.shape)
    (hroom : 0 < t.shape.prod -> t.offset + t.shape.prod <= t.elements)
    (hbytes : t.storage.length <= isizeMax) : t.Sound := by
  have hprod : t.shape.prod <= t.elements := by
    by_cases hpos : 0 < t.shape.prod
    · exact Nat.le_trans (Nat.le_add_left _ _) (hroom hpos)
    · omega
  constructor
  · rw [hstrides]
    exact length_computeStrides t.shape
  · intro hpos
    have hle : t.elements <= t.storage.length := Nat.div_le_self _ _
    have hlimit : isizeMax < usizeLimit := by decide
    have hself := dot_rowStrides_self t.shape
    have hstretch := hroom hpos
    rw [hstrides, computeStrides_of_pos hpos (by omega)]
    omega
  · exact hprod
  · exact hbytes

/-!
## Construction
-/

theorem elements_of_length {n : Nat} (h : t.storage.length = n * t.dtype.sizeBytes) :
    t.elements = n := by
  unfold elements
  rw [h, Nat.mul_div_cancel n (sizeBytes_pos t.dtype)]

/-- A tensor over a new buffer. -/
structure New (t : Tensor) : Prop where
  strides : t.strides = computeStrides t.shape
  offset : t.offset = 0
  length : t.storage.length = t.shape.prod * t.dtype.sizeBytes % usizeLimit
  bytes : t.storage.length <= isizeMax

theorem mod_mul_of_le {n size limit : Nat} (h : n % limit * size < limit) :
    n % limit * size = n * size % limit := by
  rw [← Nat.mod_mul_mod, Nat.mod_eq_of_lt h]

theorem new_zeros {shape : List Nat} {dtype : DType} (h : zeros shape dtype = .ok t) :
    t.New ∧ t.shape = shape ∧ t.dtype = dtype := by
  unfold zeros alloc at h
  rcases bind_eq_ok h with ⟨storage, hstorage, hsame⟩
  rcases bind_eq_ok hstorage with ⟨_, hrequire, hreplicate⟩
  have hroom := require_eq_ok hrequire
  cases hreplicate
  cases hsame
  refine ⟨⟨rfl, rfl, ?_, ?_⟩, rfl, rfl⟩
  · dsimp only
    unfold wrappingMul
    rw [List.length_replicate, numelOf_eq, Nat.mod_mul_mod]
  · dsimp only
    rw [List.length_replicate]
    omega

theorem uniform_elements {dtype : DType} (data : List (Element dtype)) :
    UniformRows (fun element : Element dtype => element.val) dtype.sizeBytes data :=
  fun element _ => element.property

section

variable {dtype : DType} {data : Elements dtype} {shape : List Nat}

theorem new_ofElements (h : data.val.length = numelOf shape) : (ofElements data shape).New := by
  have hlength := length_flatMap_of_uniformRows (uniform_elements data.val)
  have hbytes := data.property
  have hlimit : isizeMax < usizeLimit := by decide
  constructor
  · rfl
  · rfl
  · unfold ofElements
    dsimp only
    rw [hlength, h, numelOf_eq]
    apply mod_mul_of_le
    rw [← numelOf_eq, ← h]
    omega
  · unfold ofElements
    dsimp only
    rw [hlength]
    exact hbytes

theorem fromSlice_eq_ok (h : fromSlice data shape = .ok t) :
    data.val.length = numelOf shape ∧ t = ofElements data shape := by
  unfold fromSlice at h
  rcases bind_eq_ok h with ⟨_, hrequire, halloc⟩
  rcases bind_eq_ok halloc with ⟨_, -, hsame⟩
  cases hsame
  exact ⟨require_eq_ok hrequire, rfl⟩

theorem fromVec_eq_ok (h : fromVec data shape = .ok t) :
    data.val.length = numelOf shape ∧ t = ofElements data shape := by
  unfold fromVec at h
  rcases bind_eq_ok h with ⟨_, hrequire, hsame⟩
  cases hsame
  exact ⟨require_eq_ok hrequire, rfl⟩

end

/-- The bytes of all elements fit into a word. -/
def SizeFits (shape : List Nat) (dtype : DType) : Prop :=
  shape.prod * dtype.sizeBytes < usizeLimit

instance (shape : List Nat) (dtype : DType) : Decidable (SizeFits shape dtype) :=
  Nat.decLt _ _

def AddressesInside (t : Tensor) : Prop :=
  forall index, InShape index t.shape ->
    t.address index * t.dtype.sizeBytes + t.dtype.sizeBytes <= t.storage.length

theorem New.sound (h : t.New) (hfits : SizeFits t.shape t.dtype) : t.Sound := by
  have hlength := h.length
  rw [Nat.mod_eq_of_lt hfits] at hlength
  apply sound_of_stretch h.strides _ h.bytes
  intro _
  rw [h.offset, elements_of_length hlength, Nat.zero_add]

/-- The strides of the shortest later sizes whose bytes leave the word are exact. -/
theorem exists_dot_computeStrides {shape : List Nat} {size k : Nat} (hsize : size < usizeLimit)
    (hlarge : usizeLimit <= shape.prod * size) (hk : k * size < usizeLimit) :
    exists index, InShape index shape ∧ dot index (computeStrides shape) = k := by
  induction shape with
  | nil =>
    rw [List.prod_nil, Nat.one_mul] at hlarge
    omega
  | cons n shape ih =>
    have hpositive : 0 < (n :: shape).prod * size :=
      Nat.lt_of_lt_of_le (by decide) hlarge
    have hpos : 0 < (n :: shape).prod := Nat.pos_of_mul_pos_right hpositive
    have hsizePos : 0 < size := Nat.pos_of_mul_pos_left hpositive
    have hn : 0 < n := by
      rw [List.prod_cons] at hpos
      exact Nat.pos_of_mul_pos_right hpos
    by_cases hlater : usizeLimit <= shape.prod * size
    · rcases ih hlater with ⟨index, hindex, hdot⟩
      refine ⟨0 :: index, .cons hn hindex, ?_⟩
      rw [computeStrides_eq] at hdot ⊢
      unfold rowStrides
      rw [List.map_cons, dot_cons, Nat.zero_mul, Nat.zero_add]
      exact hdot
    · have hk : k < (n :: shape).prod :=
        Nat.lt_of_mul_lt_mul_right (Nat.lt_of_lt_of_le hk hlarge)
      have hexact : computeStrides (n :: shape) = rowStrides (n :: shape) := by
        apply (computeStrides_eq_iff _).mpr
        intro behind hbehind
        have hdvd : behind.prod ∣ shape.prod := hbehind.sublist.prod_dvd_prod
        have hshape : 0 < shape.prod := prod_tail_pos hpos
        have hle := Nat.le_of_dvd hshape hdvd
        have hword : shape.prod <= shape.prod * size := Nat.le_mul_of_pos_right _ hsizePos
        omega
      refine ⟨unravel (n :: shape) k, inShape_unravel hk, ?_⟩
      rw [hexact]
      exact ravel_unravel hk

theorem New.addressesInside_iff (h : t.New) :
    t.AddressesInside ↔ SizeFits t.shape t.dtype := by
  constructor
  · intro hinside
    apply Classical.byContradiction
    intro hlarge
    have hword : t.elements * t.dtype.sizeBytes < usizeLimit :=
      Nat.lt_of_le_of_lt (Nat.le_trans (elements_mul_le t) h.bytes) (by decide)
    have hsize : t.dtype.sizeBytes < usizeLimit := by
      cases t.dtype <;> decide
    rcases exists_dot_computeStrides hsize (Nat.not_lt.mp hlarge) hword with ⟨index, hindex, hdot⟩
    have hroom := hinside index hindex
    unfold address at hroom
    rw [h.offset, h.strides, hdot, Nat.zero_add, ← Nat.succ_mul] at hroom
    have hover : t.elements + 1 <= t.elements :=
      (Nat.le_div_iff_mul_le (sizeBytes_pos t.dtype)).mpr hroom
    omega
  · intro hfits index hindex
    exact (h.sound hfits).bytes_le hindex

/-!
## Views
-/

theorem view_eq_ok {newShape : List Nat} (h : t.view newShape = .ok t') :
    numelOf newShape = t.numel ∧ t.isContiguous = true ∧
      t' = { t with
        shape := newShape
        strides := computeStrides newShape } := by
  unfold view at h
  rcases bind_eq_ok h with ⟨_, hcount, hasked⟩
  rcases bind_eq_ok hasked with ⟨_, hcontiguous, hsame⟩
  cases hsame
  exact ⟨ensure_eq_ok hcount, ensure_eq_ok hcontiguous, rfl⟩

theorem view_eq {newShape : List Nat} (hcount : numelOf newShape = t.numel)
    (hcontiguous : t.isContiguous = true) :
    t.view newShape =
      .ok { t with
        shape := newShape
        strides := computeStrides newShape } := by
  unfold view
  rw [ensure_of_true _ hcount, ok_bind, ensure_of_true _ hcontiguous, ok_bind]
  rfl

/-- If the view is taken, the sizes have the same product, and not only modulo the word. -/
def ViewFits (t : Tensor) (newShape : List Nat) : Prop :=
  numelOf newShape = t.numel -> t.isContiguous = true -> newShape.prod = t.shape.prod

/-- The elements of a view are those at the same row-major places. -/
def ViewReshapes (t : Tensor) (newShape : List Nat) : Prop :=
  forall t', t.view newShape = .ok t' ->
    t'.shape = newShape ∧ forall index, InShape index newShape ->
      exists source, InShape source t.shape ∧ ravel t.shape source = ravel newShape index ∧
        t'.denote index = t.denote source

theorem Sound.view (h : t.Sound) {newShape : List Nat} (hfits : t.ViewFits newShape)
    (hview : t.view newShape = .ok t') : t'.Sound := by
  rcases view_eq_ok hview with ⟨hcount, hcontiguous, hsame⟩
  have hprod := hfits hcount hcontiguous
  have hroom : 0 < newShape.prod -> t.offset + newShape.prod <= t.elements := by
    rw [hprod]
    exact h.stretch_le hcontiguous
  rw [hsame]
  exact sound_of_stretch rfl hroom h.storage_le

theorem denote_view (h : t.Sound) {newShape index : List Nat} (hfits : t.ViewFits newShape)
    (hview : t.view newShape = .ok t') (hindex : InShape index newShape) :
    t'.denote index = t.denote (unravel t.shape (ravel newShape index)) := by
  rcases view_eq_ok hview with ⟨hcount, hcontiguous, hsame⟩
  have hprod := hfits hcount hcontiguous
  have hpos := prod_pos_of_inShape hindex
  have hnew : computeStrides newShape = rowStrides newShape := by
    apply computeStrides_of_pos hpos
    rw [hprod]
    exact h.prod_lt
  have hlt := ravel_lt hindex
  rw [hprod] at hlt hpos
  have hplace := ravel_unravel hlt
  have haddress : t'.address index = t.address (unravel t.shape (ravel newShape index)) := by
    rw [hsame]
    unfold address
    dsimp only
    rw [hnew, h.rowStrides_of_contiguous hcontiguous hpos]
    exact congrArg (t.offset + ·) hplace.symm
  unfold denote
  rw [haddress, hsame]

theorem viewReshapes_iff (h : t.Sound) (newShape : List Nat) :
    t.ViewReshapes newShape ↔ t.ViewFits newShape := by
  constructor
  · intro hreshapes hcount hcontiguous
    -- equal modulo the word, so the new product is the larger one
    rw [h.numel_eq, numelOf_eq] at hcount
    apply Classical.byContradiction
    intro hother
    have hlarger : t.shape.prod < newShape.prod := by
      apply Nat.lt_of_le_of_ne _ (Ne.symm hother)
      rw [← hcount]
      exact Nat.mod_le _ _
    rw [← numelOf_eq, ← h.numel_eq] at hcount
    rcases hreshapes _ (view_eq hcount hcontiguous) with ⟨-, hindices⟩
    rcases hindices _ (inShape_unravel hlarger) with ⟨source, hsource, hplace, -⟩
    have hinside := ravel_lt hsource
    rw [hplace, ravel_unravel hlarger] at hinside
    exact Nat.lt_irrefl _ hinside
  · intro hfits t' hview
    rcases view_eq_ok hview with ⟨hcount, hcontiguous, hsame⟩
    constructor
    · rw [hsame]
    · intro index hindex
      have hlt := ravel_lt hindex
      rw [hfits hcount hcontiguous] at hlt
      exact ⟨unravel t.shape (ravel newShape index), inShape_unravel hlt, ravel_unravel hlt,
        denote_view h hfits hview hindex⟩

theorem transpose_eq {dim0 dim1 : Nat} (h : t.Sound) (hdim0 : dim0 < t.shape.length)
    (hdim1 : dim1 < t.shape.length) :
    t.transpose dim0 dim1 =
      .ok { t with
        shape := swapAt t.shape dim0 dim1
        strides := swapAt t.strides dim0 dim1 } := by
  have hstrides := h.length_strides
  unfold transpose swap
  rw [if_pos ⟨hdim0, hdim1⟩, if_pos (by rw [hstrides]; exact ⟨hdim0, hdim1⟩)]
  rfl

theorem transpose_eq_ok {dim0 dim1 : Nat} (h : t.transpose dim0 dim1 = .ok t') :
    dim0 < t.shape.length ∧ dim1 < t.shape.length := by
  unfold transpose swap at h
  rcases bind_eq_ok h with ⟨shape, hshape, -⟩
  split at hshape
  next hdims => exact hdims
  next => cases hshape

theorem Sound.transpose (h : t.Sound) {dim0 dim1 : Nat}
    (htranspose : t.transpose dim0 dim1 = .ok t') : t'.Sound := by
  rcases transpose_eq_ok htranspose with ⟨hdim0, hdim1⟩
  rw [transpose_eq h hdim0 hdim1] at htranspose
  cases htranspose
  have hprod := prod_swapAt hdim0 hdim1
  constructor
  · dsimp only
    rw [length_swapAt, length_swapAt]
    exact h.length_strides
  · intro hpos
    have hstrides := h.length_strides
    change t.offset + dot (swapAt t.shape dim0 dim1) (swapAt t.strides dim0 dim1) + 1 <=
      t.elements + (swapAt t.strides dim0 dim1).sum
    rw [dot_swapAt hstrides.symm hdim0 hdim1,
      sum_swapAt (by rw [hstrides]; exact hdim0) (by rw [hstrides]; exact hdim1)]
    apply h.room
    rw [← hprod]
    exact hpos
  · dsimp only
    rw [hprod]
    exact h.prod_le
  · exact h.storage_le

theorem denote_transpose (h : t.Sound) {dim0 dim1 : Nat} {index : List Nat}
    (htranspose : t.transpose dim0 dim1 = .ok t') (hindex : InShape index t'.shape) :
    t'.denote index = t.denote (swapAt index dim0 dim1) := by
  rcases transpose_eq_ok htranspose with ⟨hdim0, hdim1⟩
  rw [transpose_eq h hdim0 hdim1] at htranspose
  cases htranspose
  have hlength : index.length = t.shape.length := by
    rw [hindex.length_eq, length_swapAt]
  have hindexDim0 : dim0 < (swapAt index dim0 dim1).length := by
    rw [length_swapAt, hlength]
    exact hdim0
  have hindexDim1 : dim1 < (swapAt index dim0 dim1).length := by
    rw [length_swapAt, hlength]
    exact hdim1
  have hdot : dot index (swapAt t.strides dim0 dim1) = dot (swapAt index dim0 dim1) t.strides := by
    have hlengths : (swapAt index dim0 dim1).length = t.strides.length := by
      rw [length_swapAt, hlength, h.length_strides]
    have hswapped := dot_swapAt hlengths hindexDim0 hindexDim1
    rw [swapAt_swapAt (by rw [hlength]; exact hdim0) (by rw [hlength]; exact hdim1)] at hswapped
    exact hswapped
  unfold denote address
  dsimp only
  rw [hdot]

/-- The elements of a transposed tensor are those at the exchanged indices. -/
def TransposePermutes (t : Tensor) : Prop :=
  forall dim0 dim1, dim0 < t.shape.length -> dim1 < t.shape.length ->
    exists t', t.transpose dim0 dim1 = .ok t' ∧ t'.shape = swapAt t.shape dim0 dim1 ∧
      forall index, InShape index t'.shape ->
        InShape (swapAt index dim0 dim1) t.shape ∧
          t'.denote index = t.denote (swapAt index dim0 dim1)

theorem transposePermutes (h : t.Sound) : t.TransposePermutes := by
  intro dim0 dim1 hdim0 hdim1
  have htranspose := transpose_eq h hdim0 hdim1
  refine ⟨_, htranspose, rfl, ?_⟩
  intro index hindex
  have hswapped := inShape_swapAt hindex (by rw [length_swapAt]; exact hdim0)
    (by rw [length_swapAt]; exact hdim1)
  rw [swapAt_swapAt hdim0 hdim1] at hswapped
  exact ⟨hswapped, denote_transpose h htranspose hindex⟩

/-!
## Slices
-/

section

variable (ranges : List IndexRange)

def RangesValid (shape : List Nat) : Prop :=
  List.Forall₂ (fun range n => range.start <= range.stop ∧ range.stop <= n) ranges shape

/-- Every range ends inside its dimension, which is all that `slice` asks. -/
def RangesEnd (shape : List Nat) : Prop :=
  List.Forall₂ (fun range n => range.stop <= n) ranges shape

def sliceStarts : List Nat :=
  ranges.map (·.start)

def sliceShape : List Nat :=
  ranges.map fun range => range.stop - range.start

end

/-- Whatever the ranges start with, the loop goes through. -/
theorem sliceFrom_of_end {i offset : Nat} {ranges : List IndexRange} {shape strides : List Nat}
    (hstrides : strides.length = shape.length) (hend : RangesEnd ranges shape) :
    exists newOffset,
      sliceFrom i ranges shape strides offset =
        .ok (ranges.map fun range => wrappingSub range.stop range.start, newOffset) ∧
      (offset + dot (sliceStarts ranges) strides < usizeLimit ->
        newOffset = offset + dot (sliceStarts ranges) strides) := by
  induction hend generalizing i offset strides with
  | nil => exact ⟨offset, rfl, fun _ => rfl⟩
  | @cons range n ranges shape hrange _ ih =>
    cases strides with
    | nil => cases hstrides
    | cons s strides =>
      rcases @ih (i + 1) (wrappingAdd offset (wrappingMul range.start s)) strides
        (Nat.succ.inj hstrides) with ⟨newOffset, hloop, hexact⟩
      refine ⟨newOffset, ?_, ?_⟩
      · rw [sliceFrom, ensure_of_true _ hrange, ok_bind, hloop]
        rfl
      · unfold sliceStarts at hexact ⊢
        rw [List.map_cons, dot_cons, ← Nat.add_assoc]
        intro hfits
        have hsum : wrappingAdd offset (wrappingMul range.start s) =
            offset + range.start * s := by
          unfold wrappingAdd wrappingMul
          rw [Nat.mod_eq_of_lt (show range.start * s < usizeLimit by omega),
            Nat.mod_eq_of_lt (by omega)]
        rw [hsum] at hexact
        exact hexact hfits

theorem sliceFrom_of_past {i offset : Nat} {ranges : List IndexRange} {shape strides : List Nat}
    (hcount : ranges.length = shape.length) (hstrides : strides.length = shape.length)
    (hpast : ¬RangesEnd ranges shape) :
    exists message, sliceFrom i ranges shape strides offset = report message := by
  induction ranges generalizing i offset shape strides with
  | nil =>
    rw [List.eq_nil_of_length_eq_zero hcount.symm] at hpast
    exact absurd .nil hpast
  | cons range ranges ih =>
    cases shape with
    | nil => cases hcount
    | cons n shape =>
      cases strides with
      | nil => cases hstrides
      | cons s strides =>
        rw [sliceFrom]
        by_cases hstop : range.stop <= n
        · have hlater : ¬RangesEnd ranges shape := fun hend => hpast (.cons hstop hend)
          rcases @ih (i + 1) (wrappingAdd offset (wrappingMul range.start s)) _ _
            (Nat.succ.inj hcount) (Nat.succ.inj hstrides) hlater with ⟨message, hmessage⟩
          rw [ensure_of_true _ hstop, ok_bind, hmessage]
          exact ⟨message, rfl⟩
        · unfold ensure
          rw [if_neg hstop]
          exact ⟨_, rfl⟩

/-- With valid ranges the restricted function; with other ranges an error. -/
def SliceRestricts (t : Tensor) (ranges : List IndexRange) : Prop :=
  (RangesValid ranges t.shape ->
    exists t', t.slice ranges = .ok t' ∧ t'.shape = sliceShape ranges ∧
      forall index, InShape index t'.shape ->
        InShape (List.zipWith (· + ·) index (sliceStarts ranges)) t.shape ∧
          t'.denote index = t.denote (List.zipWith (· + ·) index (sliceStarts ranges))) ∧
  (¬RangesValid ranges t.shape -> exists message, t.slice ranges = report message)

/-- If every range has its dimension and ends inside it, none starts after its end. -/
def SliceFits (t : Tensor) (ranges : List IndexRange) : Prop :=
  RangesEnd ranges t.shape -> forall range, range ∈ ranges -> range.start <= range.stop

section

variable {ranges : List IndexRange} {shape : List Nat}

theorem rangesEnd_of_valid (h : RangesValid ranges shape) : RangesEnd ranges shape :=
  h.imp fun _ _ hrange => hrange.2

theorem ordered_of_valid
    (h : RangesValid ranges shape) : forall range, range ∈ ranges -> range.start <= range.stop := by
  induction h with
  | nil =>
    intro range hrange
    cases hrange
  | cons hfirst _ ih =>
    intro range hrange
    rcases List.mem_cons.mp hrange with hhead | hlater
    · rw [hhead]
      exact hfirst.1
    · exact ih range hlater

theorem valid_of_end (hend : RangesEnd ranges shape)
    (hordered : forall range, range ∈ ranges -> range.start <= range.stop) :
    RangesValid ranges shape := by
  induction hend with
  | nil => exact .nil
  | cons hfirst _ ih =>
    exact .cons ⟨hordered _ List.mem_cons_self, hfirst⟩
      (ih fun range hrange => hordered range (List.mem_cons_of_mem _ hrange))

end

theorem slice_of_end (h : t.Sound) {ranges : List IndexRange} (hend : RangesEnd ranges t.shape) :
    exists newOffset,
      t.slice ranges =
        .ok { t with
          shape := ranges.map fun range => wrappingSub range.stop range.start
          offset := newOffset } ∧
      (t.offset + dot (sliceStarts ranges) t.strides < usizeLimit ->
        newOffset = t.offset + dot (sliceStarts ranges) t.strides) := by
  rcases @sliceFrom_of_end 0 t.offset _ _ _ h.length_strides hend with
    ⟨newOffset, hloop, hexact⟩
  refine ⟨newOffset, ?_, hexact⟩
  unfold slice
  rw [ensure_of_true _ hend.length_eq, ok_bind, hloop]
  rfl

theorem slice_of_past (h : t.Sound) {ranges : List IndexRange}
    (hpast : ¬RangesEnd ranges t.shape) : exists message, t.slice ranges = report message := by
  unfold slice
  by_cases hcount : ranges.length = t.shape.length
  · rcases @sliceFrom_of_past 0 t.offset _ _ _ hcount h.length_strides hpast with
      ⟨message, hmessage⟩
    rw [ensure_of_true _ hcount, ok_bind, hmessage]
    exact ⟨message, rfl⟩
  · unfold ensure
    rw [if_neg hcount]
    exact ⟨_, rfl⟩

section

variable {ranges : List IndexRange}

theorem sliceShape_eq (hordered : forall range, range ∈ ranges -> range.start <= range.stop) :
    (ranges.map fun range => wrappingSub range.stop range.start) = sliceShape ranges := by
  apply List.map_congr_left
  intro range hrange
  unfold wrappingSub
  rw [if_pos (hordered range hrange)]

theorem slice_ends_le {shape : List Nat} (h : RangesValid ranges shape) :
    List.Forall₂ (· <= ·) (List.zipWith (· + ·) (sliceShape ranges) (sliceStarts ranges))
      shape := by
  induction h with
  | nil => exact .nil
  | @cons range n ranges shape hrange _ ih =>
    have hend : range.stop - range.start + range.start <= n := by
      rw [Nat.sub_add_cancel hrange.1]
      exact hrange.2
    exact .cons hend ih

theorem sliceShape_le {shape : List Nat}
    (h : RangesValid ranges shape) : List.Forall₂ (· <= ·) (sliceShape ranges) shape := by
  induction h with
  | nil => exact .nil
  | cons hrange _ ih => exact .cons (Nat.le_trans (Nat.sub_le _ _) hrange.2) ih

theorem inShape_restricted {shape index : List Nat}
    (hvalid : RangesValid ranges shape) (hindex : InShape index (sliceShape ranges)) :
    InShape (List.zipWith (· + ·) index (sliceStarts ranges)) shape := by
  induction hvalid generalizing index with
  | nil =>
    cases hindex
    exact .nil
  | @cons range n ranges shape hrange _ ih =>
    cases hindex with
    | @cons i _ _ _ hi hrest =>
      have hbelow : i < range.stop - range.start := hi
      have hinside : i + range.start < n := by
        have hstop := hrange.2
        omega
      exact .cons hinside (ih hrest)

end

theorem exists_inShape {shape : List Nat} (h : 0 < shape.prod) :
    exists index, InShape index shape :=
  ⟨_, inShape_unravel h⟩

/-- Where the slice has an element its offset is exact. -/
theorem Sound.offset_lt (h : t.Sound) {ranges : List IndexRange}
    (hvalid : RangesValid ranges t.shape) (hpos : 0 < (sliceShape ranges).prod) :
    t.offset + dot (sliceStarts ranges) t.strides < usizeLimit := by
  rcases exists_inShape hpos with ⟨index, hindex⟩
  have hlt := Nat.lt_trans (h.address_lt (inShape_restricted hvalid hindex)) h.elements_lt
  have hlength : (sliceStarts ranges).length = t.strides.length := by
    unfold sliceStarts
    rw [List.length_map, hvalid.length_eq, h.length_strides]
  have hindexLength : index.length = t.strides.length := by
    rw [hindex.length_eq, ← hlength]
    unfold sliceShape sliceStarts
    rw [List.length_map, List.length_map]
  unfold address at hlt
  rw [dot_zipWith_add hindexLength hlength] at hlt
  omega

theorem slice_of_valid (h : t.Sound) {ranges : List IndexRange}
    (hvalid : RangesValid ranges t.shape) :
    exists newOffset,
      t.slice ranges =
        .ok { t with
          shape := sliceShape ranges
          offset := newOffset } ∧
      (0 < (sliceShape ranges).prod ->
        newOffset = t.offset + dot (sliceStarts ranges) t.strides) := by
  rcases slice_of_end h (rangesEnd_of_valid hvalid) with ⟨newOffset, hslice, hexact⟩
  rw [sliceShape_eq (ordered_of_valid hvalid)] at hslice
  exact ⟨newOffset, hslice, fun hpos => hexact (h.offset_lt hvalid hpos)⟩

theorem Sound.slice (h : t.Sound) {ranges : List IndexRange} (hfits : t.SliceFits ranges)
    (hslice : t.slice ranges = .ok t') : t'.Sound := by
  have hend : RangesEnd ranges t.shape := by
    apply Classical.byContradiction
    intro hpast
    rcases slice_of_past h hpast with ⟨message, hmessage⟩
    rw [hmessage] at hslice
    cases hslice
  have hvalid := valid_of_end hend (hfits hend)
  rcases slice_of_valid h hvalid with ⟨newOffset, hsame, hexact⟩
  rw [hsame] at hslice
  cases hslice
  have hlength : ranges.length = t.strides.length := by
    rw [hvalid.length_eq, h.length_strides]
  have hends := @dot_le_dot _ _ t.strides (slice_ends_le hvalid)
  rw [dot_zipWith_add (by unfold sliceShape; rw [List.length_map, hlength])
    (by unfold sliceStarts; rw [List.length_map, hlength])] at hends
  have hprod := (sliceShape_le hvalid).prod_le_prod'
  constructor
  · dsimp only
    unfold sliceShape
    rw [List.length_map, hlength]
  · intro hpos
    have hroom := h.room (Nat.lt_of_lt_of_le hpos hprod)
    change newOffset + dot (sliceShape ranges) t.strides + 1 <= t.elements + t.strides.sum
    rw [hexact hpos]
    omega
  · exact Nat.le_trans hprod h.prod_le
  · exact h.storage_le

theorem denote_slice {ranges : List IndexRange} {index : List Nat}
    (h : t.Sound) (hvalid : RangesValid ranges t.shape)
    (hindex : InShape index (sliceShape ranges)) :
    denote { t with
      shape := sliceShape ranges
      offset := t.offset + dot (sliceStarts ranges) t.strides } index =
        t.denote (List.zipWith (· + ·) index (sliceStarts ranges)) := by
  have hcount := hvalid.length_eq
  have hlength : index.length = t.strides.length := by
    rw [hindex.length_eq, h.length_strides, ← hcount]
    unfold sliceShape
    exact List.length_map _
  have hdot := @dot_zipWith_add index (sliceStarts ranges) t.strides hlength (by
    unfold sliceStarts
    rw [List.length_map, hcount, h.length_strides])
  unfold denote address
  dsimp only
  rw [hdot, Nat.add_assoc, Nat.add_comm (dot (sliceStarts ranges) t.strides)]

theorem sliceRestricts_iff (h : t.Sound) (ranges : List IndexRange) :
    t.SliceRestricts ranges ↔ t.SliceFits ranges := by
  constructor
  · intro hrestricts hend
    apply Classical.byContradiction
    intro hreversed
    rcases hrestricts.2 fun hvalid => hreversed (ordered_of_valid hvalid) with
      ⟨message, hmessage⟩
    rcases slice_of_end h hend with ⟨newOffset, hslice, -⟩
    rw [hslice] at hmessage
    cases hmessage
  · intro hfits
    constructor
    · intro hvalid
      rcases slice_of_valid h hvalid with ⟨newOffset, hslice, hexact⟩
      refine ⟨_, hslice, rfl, ?_⟩
      intro index hindex
      refine ⟨inShape_restricted hvalid hindex, ?_⟩
      rw [hexact (prod_pos_of_inShape hindex)]
      exact denote_slice h hvalid hindex
    · intro hinvalid
      by_cases hend : RangesEnd ranges t.shape
      · exact absurd (valid_of_end hend (hfits hend)) hinvalid
      · exact slice_of_past h hend

/-!
## Copies
-/

theorem foldl_wrappingAdd (xs : List Nat) (start : Nat) :
    xs.foldl wrappingAdd (start % usizeLimit) = (start + xs.sum) % usizeLimit := by
  induction xs generalizing start with
  | nil => rfl
  | cons x xs ih =>
    have hstep : wrappingAdd (start % usizeLimit) x = (start + x) % usizeLimit := by
      unfold wrappingAdd
      rw [Nat.mod_add_mod]
    rw [List.foldl_cons, hstep, ih, List.sum_cons, Nat.add_assoc]

theorem sum_wrappingMul (index strides : List Nat) :
    (List.zipWith wrappingMul index strides).sum % usizeLimit = dot index strides % usizeLimit := by
  induction index generalizing strides with
  | nil =>
    rw [List.zipWith_nil_left, dot_nil]
    rfl
  | cons i index ih =>
    cases strides with
    | nil => rfl
    | cons s strides =>
      rw [List.zipWith_cons_cons, List.sum_cons, dot_cons, Nat.add_mod, ih]
      unfold wrappingMul
      rw [Nat.mod_mod, ← Nat.add_mod]

theorem sourceOffset_eq (h : t.Sound) {index : List Nat} (hindex : InShape index t.shape) :
    t.sourceOffset index = t.address index := by
  have hfold : (List.zipWith wrappingMul index t.strides).foldl wrappingAdd 0 =
      dot index t.strides % usizeLimit := by
    rw [← sum_wrappingMul, ← Nat.zero_add (List.sum _)]
    exact foldl_wrappingAdd _ 0
  have hplace : t.sourceOffset index = t.address index % usizeLimit := by
    unfold sourceOffset address
    rw [hfold]
    exact Nat.add_mod_mod _ _ _
  rw [hplace, Nat.mod_eq_of_lt (Nat.lt_trans (h.address_lt hindex) h.elements_lt)]

theorem unravel_zero (shape : List Nat) : unravel shape 0 = List.replicate shape.length 0 := by
  induction shape with
  | nil => rfl
  | cons n shape ih =>
    unfold unravel
    rw [Nat.zero_div, Nat.zero_mod, ih]
    rfl

theorem region_flatMap_of_uniformRows {row entry : Type} {field : row -> List entry} {width n : Nat}
    {rows : List row} {r : row} (h : UniformRows field width rows) (hr : rows[n]? = some r) :
    region (rows.flatMap field) (n * width) width = field r := by
  have hn : n < rows.length := (List.getElem?_eq_some_iff.mp hr).1
  have hdrop : rows.drop n = r :: rows.drop (n + 1) := by
    rw [List.drop_eq_getElem_cons hn, (List.getElem?_eq_some_iff.mp hr).2]
  have hlength : (field r).length = width := h r (List.mem_of_getElem? hr)
  unfold region
  rw [drop_flatMap_of_uniformRows h, hdrop, List.flatMap_cons,
    List.take_append_of_le_length (Nat.le_of_eq hlength.symm), List.take_of_length_le
      (Nat.le_of_eq hlength)]

theorem run_after {entry : Type} {left part : List entry} {x : entry} {rest : Nat} :
    Write.run (left ++ List.replicate (part.length + rest) x)
        { start := left.length
          part := part } =
      .ok (left ++ part ++ List.replicate rest x) := by
  have hroom : left.length + part.length <=
      (left ++ List.replicate (part.length + rest) x).length := by
    rw [List.length_append, List.length_replicate]
    omega
  have hafter : (left ++ List.replicate (part.length + rest) x).drop (left.length + part.length) =
      List.replicate rest x := by
    rw [List.drop_append, List.drop_of_length_le (Nat.le_add_right _ _), Nat.add_sub_cancel_left,
      List.drop_replicate, Nat.add_sub_cancel_left, List.nil_append]
  unfold Write.run Write.overwrite Write.stop
  dsimp only
  rw [if_pos hroom, List.take_left, hafter]

def firstElements (t : Tensor) (count : Nat) : List UInt8 :=
  (List.range count).flatMap fun k => t.denote (unravel t.shape k)

def rowMajorBytes (t : Tensor) : List UInt8 :=
  (indices t.shape).flatMap t.denote

theorem firstElements_prod (t : Tensor) : t.firstElements t.shape.prod = t.rowMajorBytes := by
  unfold firstElements rowMajorBytes indices
  rw [List.flatMap_map]

theorem Sound.length_firstElements (h : t.Sound) {count : Nat} (hcount : count <= t.shape.prod) :
    (t.firstElements count).length = count * t.dtype.sizeBytes := by
  have huniform : UniformRows (fun k => t.denote (unravel t.shape k)) t.dtype.sizeBytes
      (List.range count) :=
    fun k hk => h.length_denote
      (inShape_unravel (Nat.lt_of_lt_of_le (List.mem_range.mp hk) hcount))
  have hlength := length_flatMap_of_uniformRows huniform
  rw [List.length_range] at hlength
  exact hlength

theorem Sound.size_le (h : t.Sound) : t.shape.prod * t.dtype.sizeBytes <= t.storage.length :=
  Nat.le_trans (Nat.mul_le_mul_right _ h.prod_le) (elements_mul_le t)

/-- The elements that were copied, the zeros behind them, and the odometer. -/
structure Copying (t : Tensor) (count : Nat) (state : List UInt8 × List Nat) : Prop where
  bytes : state.1 = t.firstElements count ++
    List.replicate ((t.shape.prod - count) * t.dtype.sizeBytes) 0
  indices : state.2 = unravel t.shape (count % t.shape.prod)

theorem copyElement_delivers (h : t.Sound) {i : Nat} (hi : i < t.shape.prod)
    {state : List UInt8 × List Nat} (hstate : Copying t i state) :
    Delivers (t.copyElement i state) (Copying t (i + 1)) := by
  have hindex : InShape (unravel t.shape i) t.shape := inShape_unravel hi
  have hbytes := h.bytes_le hindex
  have hlimit := h.storage_le
  have hsize := h.size_le
  have hplace : (i + 1) * t.dtype.sizeBytes <= t.shape.prod * t.dtype.sizeBytes :=
    Nat.mul_le_mul_right _ hi
  have hwritten := h.length_firstElements (Nat.le_of_lt hi)
  have hpart : (t.denote (unravel t.shape i)).length = t.dtype.sizeBytes := h.length_denote hindex
  have hrest : (t.shape.prod - i) * t.dtype.sizeBytes =
      (t.denote (unravel t.shape i)).length + (t.shape.prod - (i + 1)) * t.dtype.sizeBytes := by
    rw [hpart, show t.shape.prod - i = t.shape.prod - (i + 1) + 1 by omega, Nat.succ_mul,
      Nat.add_comm]
  rw [Nat.succ_mul] at hplace
  have hindices := hstate.indices
  rw [Nat.mod_eq_of_lt hi] at hindices
  have hrun := @run_after _ (t.firstElements i) (t.denote (unravel t.shape i)) (0 : UInt8)
    ((t.shape.prod - (i + 1)) * t.dtype.sizeBytes)
  rw [← hrest, hwritten, ← hstate.bytes] at hrun
  have hslice : Library.slice t.storage (t.address (unravel t.shape i) * t.dtype.sizeBytes)
      (t.address (unravel t.shape i) * t.dtype.sizeBytes + t.dtype.sizeBytes) =
        .ok (t.denote (unravel t.shape i)) :=
    slice_eq_region hbytes
  have hmax : isizeMax < usizeLimit := by decide
  unfold copyElement
  dsimp only
  rw [hindices, sourceOffset_eq h hindex]
  unfold wrappingMul wrappingAdd
  rw [Nat.mod_eq_of_lt (show t.address (unravel t.shape i) * t.dtype.sizeBytes < usizeLimit by
      omega), Nat.mod_eq_of_lt (by omega), Nat.mod_eq_of_lt (by omega), hslice, ok_bind, hrun,
    ok_bind]
  apply delivers_ok
  constructor
  · dsimp only
    unfold firstElements
    rw [List.range_succ, List.flatMap_append, List.flatMap_singleton]
  · dsimp only
    rw [advance_unravel hi]

/-- The copy is not larger than a buffer may be. -/
def ContiguousFits (t : Tensor) : Prop :=
  t.isContiguous = false -> t.shape.prod * t.dtype.sizeBytes + 63 <= isizeMax

theorem Sound.copyBytes_eq (h : t.Sound) :
    wrappingMul t.numel t.dtype.sizeBytes = t.shape.prod * t.dtype.sizeBytes := by
  have hlimit : isizeMax < usizeLimit := by decide
  have hbytes := Nat.le_trans h.size_le h.storage_le
  unfold wrappingMul
  rw [h.numel_eq, Nat.mod_eq_of_lt (by omega)]

theorem copied_eq (h : t.Sound) (hfits : t.shape.prod * t.dtype.sizeBytes + 63 <= isizeMax) :
    t.copied =
      .ok { t with
        storage := t.rowMajorBytes
        strides := computeStrides t.shape
        offset := 0 } := by
  have hstart : Copying t 0
      (List.replicate (t.shape.prod * t.dtype.sizeBytes) 0, List.replicate t.shape.length 0) := by
    constructor
    · rfl
    · dsimp only
      rw [Nat.zero_mod, unravel_zero]
  rcases forRange_delivers (Copying t) hstart (fun i hi state hstate =>
    copyElement_delivers h hi hstate) with ⟨final, hfinal, hcopied⟩
  unfold copied alloc
  rw [h.copyBytes_eq, require_of_true _ hfits, ok_bind, h.numel_eq]
  change forRange t.copyElement t.shape.prod _ >>= _ = _
  rw [hfinal, ok_bind, hcopied.bytes, Nat.sub_self, Nat.zero_mul, List.replicate_zero,
    List.append_nil, firstElements_prod]
  rfl

theorem uniform_indices (h : t.Sound) :
    UniformRows t.denote t.dtype.sizeBytes (indices t.shape) := by
  intro index hindex
  unfold indices at hindex
  rcases List.mem_map.mp hindex with ⟨k, hk, hsame⟩
  rw [← hsame]
  exact h.length_denote (inShape_unravel (List.mem_range.mp hk))

theorem Sound.length_rowMajorBytes (h : t.Sound) :
    t.rowMajorBytes.length = t.shape.prod * t.dtype.sizeBytes := by
  rw [← firstElements_prod]
  exact h.length_firstElements (Nat.le_refl _)

theorem contiguous_eq_ok (h : t.Sound) (hcontiguous : t.contiguous = .ok t') :
    t.ContiguousFits := by
  intro hother
  unfold contiguous at hcontiguous
  rw [hother, if_neg Bool.false_ne_true] at hcontiguous
  unfold copied alloc at hcontiguous
  rcases bind_eq_ok hcontiguous with ⟨buf, hbuf, -⟩
  rcases bind_eq_ok hbuf with ⟨_, hrequire, -⟩
  have hroom := require_eq_ok hrequire
  rw [h.copyBytes_eq] at hroom
  exact hroom

theorem contiguous_of_fits (h : t.Sound) (hfits : t.ContiguousFits) :
    t.contiguous = .ok
      (if t.isContiguous then t
      else { t with
        storage := t.rowMajorBytes
        strides := computeStrides t.shape
        offset := 0 }) := by
  unfold contiguous
  cases hsame : t.isContiguous with
  | true => rfl
  | false => exact copied_eq h (hfits hsame)

theorem sound_copy (h : t.Sound) :
    Sound { t with
      storage := t.rowMajorBytes
      strides := computeStrides t.shape
      offset := 0 } := by
  have hlength := h.length_rowMajorBytes
  apply sound_of_stretch rfl
  · intro _
    dsimp only
    rw [elements_of_length hlength, Nat.zero_add]
  · dsimp only
    rw [hlength]
    exact Nat.le_trans h.size_le h.storage_le

theorem isContiguous_copy (t : Tensor) :
    isContiguous { t with
      storage := t.rowMajorBytes
      strides := computeStrides t.shape
      offset := 0 } = true :=
  decide_eq_true rfl

theorem denote_copy (h : t.Sound) {index : List Nat} (hindex : InShape index t.shape) :
    denote { t with
      storage := t.rowMajorBytes
      strides := computeStrides t.shape
      offset := 0 } index = t.denote index := by
  unfold denote address
  dsimp only
  rw [computeStrides_of_pos (prod_pos_of_inShape hindex) h.prod_lt, Nat.zero_add]
  exact region_flatMap_of_uniformRows (uniform_indices h) (getElem?_indices hindex)

theorem Sound.contiguous (h : t.Sound) (hcontiguous : t.contiguous = .ok t') : t'.Sound := by
  rw [contiguous_of_fits h (contiguous_eq_ok h hcontiguous)] at hcontiguous
  cases hcontiguous
  split
  next => exact h
  next => exact sound_copy h

/-- A contiguous tensor of the same function. -/
def ContiguousCopies (t : Tensor) : Prop :=
  exists t', t.contiguous = .ok t' ∧ t'.isContiguous = true ∧ t'.shape = t.shape ∧
    forall index, InShape index t'.shape -> t'.denote index = t.denote index

theorem contiguousCopies_iff (h : t.Sound) : t.ContiguousCopies ↔ t.ContiguousFits := by
  constructor
  · intro hcopies
    rcases hcopies with ⟨t', hcontiguous, -⟩
    exact contiguous_eq_ok h hcontiguous
  · intro hfits
    refine ⟨_, contiguous_of_fits h hfits, ?_⟩
    split
    next hsame => exact ⟨hsame, rfl, fun _ _ => rfl⟩
    next => exact ⟨isContiguous_copy t, rfl, fun _ hindex => denote_copy h hindex⟩

/-!
## Bytes
-/

theorem flatMap_range_region {entry : Type} (buffer : List entry) (start width count : Nat) :
    (List.range count).flatMap (fun k => region buffer ((start + k) * width) width) =
      region buffer (start * width) (count * width) := by
  induction count with
  | zero =>
    rw [Nat.zero_mul]
    rfl
  | succ count ih =>
    rw [List.range_succ, List.flatMap_append, List.flatMap_singleton, ih]
    unfold region
    rw [Nat.succ_mul, List.take_add, List.drop_drop, ← Nat.add_mul]

theorem rowMajorBytes_of_contiguous (hcontiguous : t.strides = rowStrides t.shape) :
    t.rowMajorBytes =
      region t.storage (t.offset * t.dtype.sizeBytes) (t.shape.prod * t.dtype.sizeBytes) := by
  rw [← firstElements_prod, ← flatMap_range_region]
  unfold firstElements
  apply List.flatMap_congr
  intro k hk
  have hplace : dot (unravel t.shape k) t.strides = k := by
    rw [hcontiguous]
    exact ravel_unravel (List.mem_range.mp hk)
  unfold denote address
  rw [hplace]

/-- The row-major bytes of a contiguous tensor, and nothing of another. -/
def AsBytesRowMajor (t : Tensor) : Prop :=
  t.asBytes = .ok (if t.isContiguous then some t.rowMajorBytes else none)

/-- A contiguous tensor without elements starts inside its storage. -/
def AsBytesFits (t : Tensor) : Prop :=
  t.isContiguous = true -> t.shape.prod = 0 ->
    wrappingMul t.offset t.dtype.sizeBytes <= t.storage.length

theorem asBytes_of_pos (h : t.Sound) (hcontiguous : t.isContiguous = true)
    (hpos : 0 < t.shape.prod) : t.asBytes = .ok (some t.rowMajorBytes) := by
  have hlimit : isizeMax < usizeLimit := by decide
  have hbytes := h.storage_le
  have hstretch := Nat.mul_le_mul_right t.dtype.sizeBytes (h.stretch_le hcontiguous hpos)
  have hroom := Nat.le_trans hstretch (elements_mul_le t)
  rw [Nat.add_mul] at hroom
  unfold asBytes
  dsimp only
  rw [hcontiguous, if_pos rfl, h.copyBytes_eq]
  unfold wrappingMul wrappingAdd
  rw [Nat.mod_eq_of_lt (show t.offset * t.dtype.sizeBytes < usizeLimit by omega),
    Nat.mod_eq_of_lt (by omega), slice_eq_region hroom, ok_bind,
    ← rowMajorBytes_of_contiguous (h.rowStrides_of_contiguous hcontiguous hpos)]
  rfl

theorem asBytes_of_empty (h : t.Sound) (hcontiguous : t.isContiguous = true)
    (hempty : t.shape.prod = 0) :
    t.asBytes = .ok (some t.rowMajorBytes) ↔
      wrappingMul t.offset t.dtype.sizeBytes <= t.storage.length := by
  have hword : wrappingMul t.offset t.dtype.sizeBytes < usizeLimit :=
    Nat.mod_lt _ (by decide)
  have hbytes : t.rowMajorBytes = [] := by
    rw [← firstElements_prod, hempty]
    rfl
  have hstop : wrappingAdd (wrappingMul t.offset t.dtype.sizeBytes) 0 =
      wrappingMul t.offset t.dtype.sizeBytes :=
    Nat.mod_eq_of_lt hword
  unfold asBytes
  dsimp only
  rw [hcontiguous, if_pos rfl, h.copyBytes_eq, hempty, Nat.zero_mul, hstop, hbytes]
  constructor
  · intro hasked
    rcases bind_eq_ok hasked with ⟨bytes, hslice, -⟩
    unfold Library.slice at hslice
    split at hslice
    next hinside => exact hinside.2
    next => cases hslice
  · intro hinside
    rw [slice_of_le (Nat.le_refl _) hinside, Nat.sub_self, List.take_zero]
    rfl

theorem asBytesRowMajor_iff (h : t.Sound) : t.AsBytesRowMajor ↔ t.AsBytesFits := by
  unfold AsBytesRowMajor AsBytesFits
  cases hcontiguous : t.isContiguous with
  | false =>
    constructor
    · intro _ hother
      cases hother
    · intro _
      unfold asBytes
      rw [hcontiguous]
      rfl
  | true =>
    rw [if_pos rfl]
    by_cases hpos : 0 < t.shape.prod
    · constructor
      · intro _ _ hempty
        omega
      · intro _
        exact asBytes_of_pos h hcontiguous hpos
    · have hempty : t.shape.prod = 0 := by omega
      rw [asBytes_of_empty h hcontiguous hempty]
      exact ⟨fun hinside _ _ => hinside, fun hfits => hfits rfl hempty⟩

/-!
## Runs
-/

/-- A tensor and a chain of operations on it, where each step meets its condition. -/
inductive FittingChain : Tensor -> Prop where
  | zeros {shape : List Nat} {dtype : DType} {t : Tensor} :
      zeros shape dtype = .ok t -> SizeFits shape dtype -> FittingChain t
  | fromSlice {dtype : DType} {data : Elements dtype} {shape : List Nat} {t : Tensor} :
      fromSlice data shape = .ok t -> SizeFits shape dtype -> FittingChain t
  | fromVec {dtype : DType} {data : Elements dtype} {shape : List Nat} {t : Tensor} :
      fromVec data shape = .ok t -> SizeFits shape dtype -> FittingChain t
  | view {t : Tensor} {newShape : List Nat} {t' : Tensor} :
      FittingChain t -> t.ViewFits newShape -> t.view newShape = .ok t' -> FittingChain t'
  | transpose {t : Tensor} {dim0 dim1 : Nat} {t' : Tensor} :
      FittingChain t -> t.transpose dim0 dim1 = .ok t' -> FittingChain t'
  | slice {t : Tensor} {ranges : List IndexRange} {t' : Tensor} :
      FittingChain t -> t.SliceFits ranges -> t.slice ranges = .ok t' -> FittingChain t'
  | contiguous {t : Tensor} {t' : Tensor} :
      FittingChain t -> t.contiguous = .ok t' -> FittingChain t'

theorem sound_ofElements {dtype : DType} {data : Elements dtype} {shape : List Nat}
    (hlength : data.val.length = numelOf shape) (hfits : SizeFits shape dtype) :
    (ofElements data shape).Sound :=
  (new_ofElements hlength).sound hfits

theorem FittingChain.sound (h : FittingChain t) : t.Sound := by
  induction h with
  | zeros hzeros hfits =>
    rcases new_zeros hzeros with ⟨hnew, hshape, hdtype⟩
    rw [← hshape, ← hdtype] at hfits
    exact hnew.sound hfits
  | fromSlice hbuilt hfits =>
    rcases fromSlice_eq_ok hbuilt with ⟨hlength, hsame⟩
    rw [hsame]
    exact sound_ofElements hlength hfits
  | fromVec hbuilt hfits =>
    rcases fromVec_eq_ok hbuilt with ⟨hlength, hsame⟩
    rw [hsame]
    exact sound_ofElements hlength hfits
  | view _ hfits hview ih => exact ih.view hfits hview
  | transpose _ htranspose ih => exact ih.transpose htranspose
  | slice _ hfits hslice ih => exact ih.slice hfits hslice
  | contiguous _ hcontiguous ih => exact ih.contiguous hcontiguous

/-- What each operation does with the function that the tensor denotes. -/
structure DenotesIffFits (t : Tensor) : Prop where
  inside : t.AddressesInside
  view : forall newShape, t.ViewReshapes newShape ↔ t.ViewFits newShape
  transpose : t.TransposePermutes
  slice : forall ranges, t.SliceRestricts ranges ↔ t.SliceFits ranges
  contiguous : t.ContiguousCopies ↔ t.ContiguousFits
  asBytes : t.AsBytesRowMajor ↔ t.AsBytesFits

theorem Sound.denotesIffFits (h : t.Sound) : t.DenotesIffFits where
  inside := fun _ hindex => h.bytes_le hindex
  view := viewReshapes_iff h
  transpose := transposePermutes h
  slice := sliceRestricts_iff h
  contiguous := contiguousCopies_iff h
  asBytes := asBytesRowMajor_iff h

theorem addressesInside_zeros_iff {shape : List Nat} {dtype : DType}
    (h : zeros shape dtype = .ok t) : t.AddressesInside ↔ SizeFits shape dtype := by
  rcases new_zeros h with ⟨hnew, hshape, hdtype⟩
  rw [hnew.addressesInside_iff, hshape, hdtype]

theorem addressesInside_ofElements_iff {dtype : DType} {data : Elements dtype} {shape : List Nat}
    (h : data.val.length = numelOf shape) :
    (ofElements data shape).AddressesInside ↔ SizeFits shape dtype :=
  (new_ofElements h).addressesInside_iff

theorem fitting_chains_denote (dtype : DType) (data : Elements dtype) (shape : List Nat)
    (t : Tensor) :
    (zeros shape dtype = .ok t -> (t.AddressesInside ↔ SizeFits shape dtype)) ∧
    (fromSlice data shape = .ok t ∨ fromVec data shape = .ok t ->
      (t.AddressesInside ↔ SizeFits shape dtype)) ∧
    (FittingChain t -> t.DenotesIffFits) := by
  refine ⟨addressesInside_zeros_iff, ?_, fun h => h.sound.denotesIffFits⟩
  intro h
  rcases h with hslice | hvec
  · rcases fromSlice_eq_ok hslice with ⟨hlength, hsame⟩
    rw [hsame]
    exact addressesInside_ofElements_iff hlength
  · rcases fromVec_eq_ok hvec with ⟨hlength, hsame⟩
    rw [hsame]
    exact addressesInside_ofElements_iff hlength

theorem fitting_chains_denote_sliced :
    exists t0 t1 t2, zeros [4, 4] .f32 = .ok t0 ∧ t0.transpose 0 1 = .ok t1 ∧
      t1.slice [⟨1, 3⟩, ⟨0, 4⟩] = .ok t2 ∧
      (t0.AddressesInside ↔ SizeFits [4, 4] .f32) ∧ t2.DenotesIffFits := by
  have hrun : exists t0 t1 t2, zeros [4, 4] .f32 = .ok t0 ∧ t0.transpose 0 1 = .ok t1 ∧
      t1.slice [⟨1, 3⟩, ⟨0, 4⟩] = .ok t2 := ⟨_, _, _, rfl, rfl, rfl⟩
  rcases hrun with ⟨t0, t1, t2, hzeros, htranspose, hslice⟩
  have hfits : FittingChain t2 := by
    refine .slice (.transpose (.zeros hzeros (by decide)) htranspose) ?_ hslice
    intro _
    decide
  have h0 := fitting_chains_denote .f32 ⟨[], by decide⟩ [4, 4] t0
  have h2 := fitting_chains_denote .f32 ⟨[], by decide⟩ [4, 4] t2
  exact ⟨t0, t1, t2, hzeros, htranspose, hslice, h0.1 hzeros, h2.2.2 hfits⟩

/-- The start of a range is not compared with its end. -/
theorem slice_reversed_range_returns :
    exists t t', zeros [4, 4] .f32 = .ok t ∧ FittingChain t ∧
      t.slice [⟨3, 1⟩, ⟨0, 4⟩] = .ok t' ∧ t'.shape = [2 ^ 64 - 2, 4] ∧
      ¬t'.AddressesInside ∧ ¬t.SliceRestricts [⟨3, 1⟩, ⟨0, 4⟩] := by
  have hzeros : zeros [4, 4] .f32 = .ok
      { storage := List.replicate 64 0
        shape := [4, 4]
        strides := [4, 1]
        offset := 0
        dtype := .f32 } := rfl
  refine ⟨_, _, hzeros, .zeros hzeros (by decide), rfl, rfl, ?_, ?_⟩
  · intro hinside
    have hroom := hinside [1, 0] (.cons (by decide) (.cons (by decide) .nil))
    exact absurd hroom (by decide)
  · intro hrestricts
    have hinvalid : ¬RangesValid [⟨3, 1⟩, ⟨0, 4⟩] [4, 4] := by
      intro hvalid
      exact absurd (ordered_of_valid hvalid ⟨3, 1⟩ List.mem_cons_self) (by decide)
    rcases hrestricts.2 hinvalid with ⟨message, hmessage⟩
    cases hmessage

end Tensor

end Tensors
end RunNBurn
