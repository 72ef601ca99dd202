import Mathlib.Algebra.BigOperators.Group.List.Basic
import RunNBurn.Gguf.Convert
import RunNBurn.Gguf.RoundTrip
import RunNBurn.Library.Stopping

/-!
# Sizes of tensors

The size that the loaders accept is that of whole blocks, row by row.
-/

namespace RunNBurn
namespace Gguf

open Library
open Tensors (computeStrides)

theorem ggmlQuantParams_pos (ggmlType : GGMLType) :
    0 < (ggmlQuantParams ggmlType).1 ∧ 0 < (ggmlQuantParams ggmlType).2 := by
  cases ggmlType <;> decide

theorem sizeBytes_pos (dtype : DType) : 0 < dtype.sizeBytes := by
  cases dtype <;> decide

/-- The elements of a row, which is the whole of a tensor without dimensions. -/
def rowElements (shape : List Nat) : Nat :=
  shape.getLast?.getD 1

def tensorSize (shape : List Nat) (ggmlType : GGMLType) : Nat :=
  shape.dropLast.prod * (rowElements shape / (ggmlQuantParams ggmlType).1) *
    (ggmlQuantParams ggmlType).2

theorem prod_dropLast_mul_rowElements (shape : List Nat) :
    shape.dropLast.prod * rowElements shape = shape.prod := by
  unfold rowElements
  cases shape using List.reverseRecOn with
  | nil => rfl
  | append_singleton front last =>
    rw [List.dropLast_concat, List.getLast?_concat, List.prod_append, List.prod_singleton]
    rfl

variable {shape : List Nat}

theorem foldlM_checkedUsize {start total : Nat}
    (h : shape.foldlM (fun total dimension => checkedUsize (total * dimension)) start =
      some total) :
    total = start * shape.prod := by
  induction shape generalizing start with
  | nil =>
    cases h
    rw [List.prod_nil, Nat.mul_one]
  | cons dimension rest ih =>
    rw [List.foldlM_cons] at h
    cases hnext : checkedUsize (start * dimension) with
    | none =>
      rw [hnext] at h
      cases h
    | some next =>
      rw [hnext] at h
      unfold checkedUsize at hnext
      split at hnext
      · cases hnext
        rw [ih h, List.prod_cons, Nat.mul_assoc]
      · cases hnext

variable {ggmlType : GGMLType}

theorem checkedTensorSize_eq_ok {size : Nat} (h : checkedTensorSize shape ggmlType = .ok size) :
    (ggmlQuantParams ggmlType).1 ∣ rowElements shape ∧ size = tensorSize shape ggmlType ∧
      size < usizeLimit ∧
      size * (ggmlQuantParams ggmlType).1 = shape.prod * (ggmlQuantParams ggmlType).2 := by
  have hpos := (ggmlQuantParams_pos ggmlType).left
  unfold checkedTensorSize at h
  unfold tensorSize
  generalize ggmlQuantParams ggmlType = params at h hpos
  rcases params with ⟨blockSize, typeBytes⟩
  dsimp only at h hpos ⊢
  split at h
  · cases h
  · rename_i hrow
    have hdvd : blockSize ∣ rowElements shape := Nat.dvd_of_mod_eq_zero (not_not.mp hrow)
    split at h
    · cases h
    · rename_i numel hnumel
      have hwhole := foldlM_checkedUsize hnumel
      rw [Nat.one_mul] at hwhole
      have hprod : numel = shape.dropLast.prod * rowElements shape := by
        rw [hwhole, prod_dropLast_mul_rowElements]
      have hnumelDvd : blockSize ∣ numel := by
        rw [hprod]
        exact hdvd.mul_left _
      have hblocks : numel / blockSize = shape.dropLast.prod * (rowElements shape / blockSize) := by
        rw [hprod, Nat.mul_div_assoc _ hdvd]
      split at h
      · cases h
      · rename_i bytes hbytes
        unfold checkedUsize at hbytes
        split at hbytes
        · rename_i hfits
          cases hbytes
          cases h
          constructor
          · exact hdvd
          · constructor
            · rw [hblocks]
            · constructor
              · exact hfits
              · rw [Nat.mul_right_comm, Nat.div_mul_cancel hnumelDvd, hwhole]
        · cases hbytes

/-!
# Tensors in their file

Every tensor of a mapped file is a view of the bytes that its record names, all of them
inside the file, and the maps say of it what the record says.
-/

def Packed (ggmlType : GGMLType) : Prop :=
  ggmlTypeToDtype ggmlType = .U8 ∨ ggmlTypeToDtype ggmlType = .I8

instance (ggmlType : GGMLType) : Decidable (Packed ggmlType) :=
  inferInstanceAs (Decidable (_ ∨ _))

def GGUFFile.startOf (gguf : GGUFFile) (info : TensorInfo) : Nat :=
  gguf.dataStart + info.offset.toNat

structure InFile (gguf : GGUFFile) (mmap : FileMmapStorage) (info : TensorInfo) : Prop where
  wholeBlocks : (ggmlQuantParams info.ggmlType).1 ∣ rowElements info.shape
  inside : gguf.startOf info + tensorSize info.shape info.ggmlType <= mmap.bytes.length
  noOverflow : gguf.startOf info + tensorSize info.shape info.ggmlType < usizeLimit
  elements : tensorSize info.shape info.ggmlType * (ggmlQuantParams info.ggmlType).1 =
    info.shape.prod * (ggmlQuantParams info.ggmlType).2

structure Views (gguf : GGUFFile) (mmap : FileMmapStorage) (info : TensorInfo)
    (tensor : Tensor) : Prop where
  storage : tensor.storage = mmap
  dtype : tensor.dtype = ggmlTypeToDtype info.ggmlType
  first : tensor.offset * tensor.dtype.sizeBytes = gguf.startOf info
  shape : tensor.shape =
    if Packed info.ggmlType then [tensorSize info.shape info.ggmlType] else info.shape
  bytes : tensor.shape.prod * tensor.dtype.sizeBytes = tensorSize info.shape info.ggmlType

/-- What `mapTensor` adds to the maps. -/
def TensorMaps.put (maps : TensorMaps) (info : TensorInfo) (tensor : Tensor) (start : Nat) :
    TensorMaps where
  tensors := maps.tensors.insert info.name tensor
  floatShapes := if Packed info.ggmlType then maps.floatShapes.insert info.name info.shape
    else maps.floatShapes
  ggmlTypes := maps.ggmlTypes.insert info.name info.ggmlType
  fileOffsets := maps.fileOffsets.insert info.name start

/-!
# One record
-/

theorem yields_parseFailure {alpha : Type} (post : alpha -> Prop) (offset : Nat) (msg : String) :
    Yields post (parseFailure offset msg) :=
  True.intro

theorem yields_checkedOffset (n offset : Nat) (msg : String) :
    Yields (fun m => m = n ∧ n < usizeLimit) (checkedOffset n offset msg) := by
  unfold checkedOffset checkedUsize
  by_cases hn : n < usizeLimit
  · rw [if_pos hn]
    exact ⟨rfl, hn⟩
  · rw [if_neg hn]
    exact yields_parseFailure _ _ _

theorem yields_tensorBytes (gguf : GGUFFile) (info : TensorInfo) :
    Yields (fun bytes => checkedTensorSize info.shape info.ggmlType = .ok bytes)
      (tensorBytes gguf info) := by
  unfold tensorBytes
  cases checkedTensorSize info.shape info.ggmlType with
  | ok bytes => exact rfl
  | error reason => exact yields_parseFailure _ _ _

theorem yields_fromMmap (storage : FileMmapStorage) (byteOffset : Nat) (shape : List Nat)
    (dtype : DType) :
    Yields (fun tensor => tensor.storage = storage ∧ tensor.shape = shape ∧
        tensor.strides = computeStrides shape ∧ tensor.dtype = dtype ∧
        tensor.offset * dtype.sizeBytes = byteOffset)
      (Tensor.fromMmap storage byteOffset shape dtype) := by
  unfold Tensor.fromMmap
  split
  · exact True.intro
  · rename_i haligned
    have hdvd : dtype.sizeBytes ∣ byteOffset := Nat.dvd_of_mod_eq_zero (not_not.mp haligned)
    exact ⟨rfl, rfl, rfl, rfl, Nat.div_mul_cancel hdvd⟩

theorem ggmlQuantParams_of_not_packed (h : ¬ Packed ggmlType) :
    ggmlQuantParams ggmlType = (1, (ggmlTypeToDtype ggmlType).sizeBytes) := by
  revert h
  cases ggmlType <;> decide

theorem sizeBytes_of_packed (h : Packed ggmlType) :
    (ggmlTypeToDtype ggmlType).sizeBytes = 1 := by
  revert h
  cases ggmlType <;> decide

theorem yields_mapTensor (gguf : GGUFFile) (mmap : FileMmapStorage) (maps : TensorMaps)
    (info : TensorInfo) :
    Yields (fun next => exists tensor, InFile gguf mmap info ∧ Views gguf mmap info tensor ∧
        tensor.strides = computeStrides tensor.shape ∧
        next = maps.put info tensor (gguf.startOf info))
      (mapTensor gguf mmap maps info) := by
  unfold mapTensor
  apply Yields.bind (yields_tensorBytes gguf info)
  intro actualBytes hsize
  apply Yields.bind (yields_checkedOffset _ _ _)
  intro byteOffset hstart
  apply Yields.bind (yields_checkedOffset _ _ _)
  intro dataEnd hend
  rcases checkedTensorSize_eq_ok hsize with ⟨hblocks, hactual, _, helements⟩
  rcases hstart with ⟨hstart, _⟩
  rcases hend with ⟨hend, hfits⟩
  have hfirst : byteOffset = gguf.startOf info := hstart
  rw [hactual] at helements hend hfits
  rw [hfirst] at hend hfits
  split
  · exact yields_parseFailure _ _ _
  · rename_i hinside
    have hin : InFile gguf mmap info := {
      wholeBlocks := hblocks
      inside := by
        rw [← hend]
        exact Nat.not_lt.mp hinside
      noOverflow := hfits
      elements := helements }
    apply Yields.bind (yields_fromMmap _ _ _ _)
    intro tensor htensor
    rcases htensor with ⟨hstorage, hshape, hstrides, hdtype, hoffset⟩
    have hshape' : tensor.shape =
        if Packed info.ggmlType then [tensorSize info.shape info.ggmlType] else info.shape := by
      rw [hshape, hactual]
      rfl
    exists tensor
    constructor
    · exact hin
    · constructor
      · exact {
          storage := hstorage
          dtype := hdtype
          first := by
            rw [hdtype, hoffset, hfirst]
          shape := hshape'
          bytes := by
            rw [hshape', hdtype]
            by_cases hpacked : Packed info.ggmlType
            · rw [if_pos hpacked, sizeBytes_of_packed hpacked, List.prod_singleton, Nat.mul_one]
            · rw [if_neg hpacked]
              rw [ggmlQuantParams_of_not_packed hpacked, Nat.mul_one] at helements
              exact helements.symm }
      · constructor
        · rw [hstrides, hshape]
        · rw [← hfirst]
          rfl

/-- The view that `mapTensor` makes. -/
def viewOf (gguf : GGUFFile) (mmap : FileMmapStorage) (info : TensorInfo) : Tensor :=
  let shape := if Packed info.ggmlType then [tensorSize info.shape info.ggmlType] else info.shape
  { storage := mmap
    shape := shape
    strides := computeStrides shape
    offset := gguf.startOf info / (ggmlTypeToDtype info.ggmlType).sizeBytes
    dtype := ggmlTypeToDtype info.ggmlType }

variable {gguf : GGUFFile} {mmap : FileMmapStorage}

theorem mapTensor_eq_ok (maps : TensorMaps) {info : TensorInfo} {size : Nat}
    (hsize : checkedTensorSize info.shape info.ggmlType = .ok size)
    (hinside : gguf.startOf info + size <= mmap.bytes.length)
    (hlimit : mmap.bytes.length < usizeLimit)
    (haligned : (ggmlTypeToDtype info.ggmlType).sizeBytes ∣ gguf.startOf info) :
    mapTensor gguf mmap maps info =
      .ok (maps.put info (viewOf gguf mmap info) (gguf.startOf info)) := by
  have hbytes : tensorBytes gguf info = .ok size := by
    unfold tensorBytes
    rw [hsize]
  have hchecked : forall n offset msg, n < usizeLimit -> checkedOffset n offset msg = .ok n := by
    intro n offset msg hn
    unfold checkedOffset checkedUsize
    rw [if_pos hn]
  have hstart : gguf.dataStart + info.offset.toNat = gguf.startOf info := rfl
  have hmultiple : ¬ gguf.startOf info % (ggmlTypeToDtype info.ggmlType).sizeBytes ≠ 0 :=
    not_not.mpr (Nat.mod_eq_zero_of_dvd haligned)
  rw [(checkedTensorSize_eq_ok hsize).right.left] at hbytes hinside
  unfold mapTensor
  rw [hstart]
  simp only [bind, Except.bind, hbytes, hchecked (gguf.startOf info) _ _ (by omega),
    hchecked (gguf.startOf info + tensorSize info.shape info.ggmlType) _ _ (by omega),
    if_neg (Nat.not_lt.mpr hinside), Tensor.fromMmap, if_neg hmultiple]
  rfl

/-!
# All records
-/

structure Located (gguf : GGUFFile) (mmap : FileMmapStorage) (maps : TensorMaps)
    (info : TensorInfo) (tensor : Tensor) : Prop where
  found : maps.tensors.lookup info.name = some tensor
  ggmlType : maps.ggmlTypes.lookup info.name = some info.ggmlType
  fileOffset : maps.fileOffsets.lookup info.name = some (gguf.startOf info)
  floatShape : maps.floatShapes.lookup info.name =
    if Packed info.ggmlType then some info.shape else none
  inFile : InFile gguf mmap info
  views : Views gguf mmap info tensor

structure TensorMaps.OfTensors (maps : TensorMaps) : Prop where
  floatShapes : forall name, name ∈ maps.floatShapes -> name ∈ maps.tensors
  ggmlTypes : forall name, name ∈ maps.ggmlTypes -> name ∈ maps.tensors
  fileOffsets : forall name, name ∈ maps.fileOffsets -> name ∈ maps.tensors

theorem TensorMaps.ofTensors_empty : TensorMaps.empty.OfTensors where
  floatShapes := fun _ h => h
  ggmlTypes := fun _ h => h
  fileOffsets := fun _ h => h

theorem mem_insert_of_imp {first second : Type} {m : KeyedMap String first}
    {m' : KeyedMap String second} {x : first} {y : second} {name : String}
    (h : forall other, other ∈ m -> other ∈ m') (other : String)
    (hother : other ∈ m.insert name x) :
    other ∈ m'.insert name y := by
  rw [AList.mem_insert] at hother
  rw [AList.mem_insert]
  exact hother.imp_right (h other)

variable {maps : TensorMaps}

theorem TensorMaps.OfTensors.put (h : maps.OfTensors) (info : TensorInfo) (tensor : Tensor)
    (start : Nat) :
    (maps.put info tensor start).OfTensors where
  floatShapes := by
    intro name hname
    apply (AList.mem_insert _).mpr
    change name ∈ (if Packed info.ggmlType then maps.floatShapes.insert _ _ else _) at hname
    split at hname
    · exact ((AList.mem_insert _).mp hname).imp_right (h.floatShapes name)
    · exact Or.inr (h.floatShapes name hname)
  ggmlTypes := mem_insert_of_imp h.ggmlTypes
  fileOffsets := mem_insert_of_imp h.fileOffsets

/-- What holds after some of the records: each has its tensor, and there is no other name. -/
structure Mapped (gguf : GGUFFile) (mmap : FileMmapStorage) (infos : List TensorInfo)
    (maps : TensorMaps) : Prop where
  located : forall info, info ∈ infos -> exists tensor, Located gguf mmap maps info tensor ∧
    tensor.strides = computeStrides tensor.shape
  tensors : forall name, name ∈ maps.tensors -> exists info, info ∈ infos ∧ info.name = name
  ofTensors : maps.OfTensors

theorem mapped_empty (gguf : GGUFFile) (mmap : FileMmapStorage) :
    Mapped gguf mmap [] TensorMaps.empty where
  located := by
    intro info h
    cases h
  tensors := fun name h => absurd h (AList.notMem_empty name)
  ofTensors := TensorMaps.ofTensors_empty

theorem Located.put {info added : TensorInfo} {tensor view : Tensor} {start : Nat}
    (h : Located gguf mmap maps info tensor) (hname : info.name ≠ added.name) :
    Located gguf mmap (maps.put added view start) info tensor where
  found := by
    show (maps.tensors.insert _ _).lookup _ = _
    rw [AList.lookup_insert_ne hname]
    exact h.found
  ggmlType := by
    show (maps.ggmlTypes.insert _ _).lookup _ = _
    rw [AList.lookup_insert_ne hname]
    exact h.ggmlType
  fileOffset := by
    show (maps.fileOffsets.insert _ _).lookup _ = _
    rw [AList.lookup_insert_ne hname]
    exact h.fileOffset
  floatShape := by
    show (if Packed added.ggmlType then maps.floatShapes.insert _ _ else _).lookup _ = _
    rw [← h.floatShape]
    split
    · exact AList.lookup_insert_ne hname
    · rfl
  inFile := h.inFile
  views := h.views

theorem Mapped.put {infos : List TensorInfo} {info : TensorInfo} {tensor : Tensor}
    (h : Mapped gguf mmap infos maps)
    (hnew : forall other, other ∈ infos -> other.name ≠ info.name) (hin : InFile gguf mmap info)
    (hviews : Views gguf mmap info tensor)
    (hstrides : tensor.strides = computeStrides tensor.shape) :
    Mapped gguf mmap (infos ++ [info]) (maps.put info tensor (gguf.startOf info)) where
  located := by
    intro other hother
    rcases List.mem_append.mp hother with hold | hlast
    · rcases h.located other hold with ⟨view, hlocated, hviewStrides⟩
      exists view
      exact ⟨hlocated.put (hnew other hold), hviewStrides⟩
    · rw [List.mem_singleton.mp hlast]
      have hfresh : info.name ∉ maps.floatShapes := by
        intro hmem
        rcases h.tensors info.name (h.ofTensors.floatShapes info.name hmem) with ⟨old, hold, hsame⟩
        exact hnew old hold hsame
      exists tensor
      constructor
      · exact {
          found := AList.lookup_insert _
          ggmlType := AList.lookup_insert _
          fileOffset := AList.lookup_insert _
          floatShape := by
            show (if Packed info.ggmlType then maps.floatShapes.insert _ _ else _).lookup _ = _
            split
            · exact AList.lookup_insert _
            · exact AList.lookup_eq_none.mpr hfresh
          inFile := hin
          views := hviews }
      · exact hstrides
  tensors := by
    intro name hname
    rcases (AList.mem_insert _).mp hname with hlast | hold
    · exists info
      exact ⟨(by simp), hlast.symm⟩
    · rcases h.tensors name hold with ⟨old, hmem, hsame⟩
      exists old
      exact ⟨List.mem_append_left [info] hmem, hsame⟩
  ofTensors := h.ofTensors.put info tensor _

theorem yields_mapTensors (mmap : FileMmapStorage)
    (hnames : (gguf.tensorInfos.map TensorInfo.name).Nodup) :
    Yields (Mapped gguf mmap gguf.tensorInfos) (mapTensors gguf mmap) := by
  unfold mapTensors
  split
  · exact yields_parseFailure _ _ _
  · apply yields_foldlM (Mapped gguf mmap)
    · exact mapped_empty gguf mmap
    · intro earlier info later maps hsplit hmapped
      have hnew : forall other, other ∈ earlier -> other.name ≠ info.name := by
        intro other hother hsame
        rw [hsplit, List.map_append, List.map_cons] at hnames
        have hdisjoint := (List.nodup_append.mp hnames).2.2
        exact hdisjoint other.name (List.mem_map_of_mem hother) info.name List.mem_cons_self hsame
      apply Yields.mono (yields_mapTensor gguf mmap maps info)
      intro next hnext
      rcases hnext with ⟨tensor, hin, hviews, hstrides, hput⟩
      rw [hput]
      exact hmapped.put hnew hin hviews hstrides

end Gguf
end RunNBurn
