import RunNBurn.Gguf.MappedTensors
import RunNBurn.Gguf.MtpSidecar

/-!
# What the two loaders accept

The bytes of every accepted tensor are inside its file.  The strides of a mapped tensor are
right unless a product of its dimensions wraps, which a dimension of zero can hide.
-/

namespace RunNBurn
namespace Gguf

open Library
open Tensors (computeStrides StridesFit computeStrides_eq_iff)

/-!
# Mapped files
-/

/-- Every tensor is the one of a record, and its strides are those of its shape. -/
def RightTensors (gguf : GGUFFile) (mmap : FileMmapStorage) (maps : TensorMaps) : Prop :=
  forall name tensor, maps.tensors.lookup name = some tensor ->
    exists info, info ∈ gguf.tensorInfos ∧ info.name = name ∧
      Located gguf mmap maps info tensor ∧ tensor.strides = rowStrides tensor.shape

/-- No unpacked tensor has dimensions whose product behind a dimension is too large. -/
def DimensionsFit (gguf : GGUFFile) : Prop :=
  forall info, info ∈ gguf.tensorInfos -> ¬ Packed info.ggmlType -> StridesFit info.shape

variable {gguf : GGUFFile}

theorem rowStrides_of_packed {mmap : FileMmapStorage} {info : TensorInfo} {tensor : Tensor}
    (hpacked : Packed info.ggmlType) (hviews : Views gguf mmap info tensor) :
    computeStrides tensor.shape = rowStrides tensor.shape := by
  rw [hviews.shape, if_pos hpacked]
  rfl

theorem rightTensors_iff {mmap : FileMmapStorage} {maps : TensorMaps}
    (h : Mapped gguf mmap gguf.tensorInfos maps) :
    RightTensors gguf mmap maps ↔ DimensionsFit gguf := by
  constructor
  · intro hright info hinfo hpacked
    rcases h.located info hinfo with ⟨tensor, hlocated, hstrides⟩
    rcases hright info.name tensor hlocated.found with ⟨_, _, _, _, hexact⟩
    have hshape := hlocated.views.shape
    rw [if_neg hpacked] at hshape
    rw [hstrides, hshape] at hexact
    exact (computeStrides_eq_iff info.shape).mp hexact
  · intro hfit name tensor hfound
    rcases h.tensors name (AList.lookup_isSome.mp (Option.isSome_of_eq_some hfound)) with
      ⟨info, hinfo, hname⟩
    rcases h.located info hinfo with ⟨other, hlocated, hstrides⟩
    have hsame := hlocated.found
    rw [hname, hfound] at hsame
    cases hsame
    exists info
    constructor
    · exact hinfo
    · constructor
      · exact hname
      · constructor
        · exact hlocated
        · rw [hstrides]
          by_cases hpacked : Packed info.ggmlType
          · exact rowStrides_of_packed hpacked hlocated.views
          · rw [hlocated.views.shape, if_neg hpacked]
            exact (computeStrides_eq_iff info.shape).mpr (hfit info hinfo hpacked)

theorem names_of_parse {bytes : List UInt8} (h : parse bytes = .ok gguf) :
    (gguf.tensorInfos.map TensorInfo.name).Nodup := by
  rcases encoding_of_parse h with ⟨_, _, _, hwell, _⟩
  exact hwell.names

/-!
# Sidecars
-/

namespace MtpSidecar

theorem yields_readExact (len : Nat) (r : Cursor) :
    Yields (fun _ => True) (readExact len r) := by
  unfold readExact
  split
  · exact True.intro
  · rename_i stop hstop
    split
    · exact True.intro
    · rename_i hinside
      have hroom : ¬ r.data.length < r.pos + len := by
        unfold checkedUsize at hstop
        split at hstop
        · cases hstop
          exact hinside
        · cases hstop
      unfold CursorCall.slice
      rw [if_neg hroom]
      exact True.intro

theorem yields_fromLeBytes (width offset : Nat) (msg : String) (raw : List UInt8) (r : Cursor) :
    Yields (fun _ => True) (fromLeBytes width offset msg raw r) := by
  unfold fromLeBytes
  split
  · exact True.intro
  · exact True.intro

theorem yields_readU32 (r : Cursor) : Yields (fun _ => True) (readU32 r) := by
  show Yields _ ((readExact 4 >>= _) r)
  apply yields_cursor_bind (yields_readExact 4 r)
  intro raw left _
  exact yields_fromLeBytes _ _ _ raw left

theorem yields_readU64 (r : Cursor) : Yields (fun _ => True) (readU64 r) := by
  show Yields _ ((readExact 8 >>= _) r)
  apply yields_cursor_bind (yields_readExact 8 r)
  intro raw left _
  exact yields_fromLeBytes _ _ _ raw left

theorem yields_recordError {alpha : Type} (post : alpha × Cursor -> Prop) (offset : Nat)
    (msg : String) (r : Cursor) :
    Yields post (recordError offset msg r) :=
  True.intro

def Header.Sized (header : Header) : Prop :=
  checkedTensorSize header.shape header.ggmlType = .ok header.dataSize

theorem yields_readTypeAndRange (recordOffset : Nat) (name : String) (shape : List Nat)
    (r : Cursor) :
    Yields (fun result => result.1.Sized) (readTypeAndRange recordOffset name shape r) := by
  unfold readTypeAndRange
  apply yields_cursor_bind (yields_readU32 r)
  intro typeRaw left _
  cases GGMLType.tryFrom typeRaw with
  | none => exact True.intro
  | some ggmlType =>
    apply yields_cursor_bind (yields_readU64 left)
    intro dataOffset left _
    apply yields_cursor_bind (yields_readU64 left)
    intro dataSize left _
    cases hexpected : checkedTensorSize shape ggmlType with
    | error reason => exact yields_recordError _ _ _ left
    | ok expected =>
      dsimp only
      split
      · exact yields_recordError _ _ _ left
      · rename_i hsize
        show checkedTensorSize shape ggmlType = .ok dataSize
        rw [not_not.mp hsize]
        exact hexpected

theorem yields_readShape (recordOffset : Nat) (name : String) (r : Cursor) :
    Yields (fun result => result.1.Sized) (readShape recordOffset name r) := by
  unfold readShape
  apply yields_cursor_bind (yields_readU32 r)
  intro dimCount left _
  split
  · exact yields_recordError _ _ _ left
  · apply yields_cursor_bind (@yields_readMany _ _ (fun _ => True) _ yields_readU32 dimCount left)
    intro shape left _
    exact yields_readTypeAndRange recordOffset name shape left

theorem yields_readHeader (headers : List Header) (r : Cursor) :
    Yields (fun result => result.1.Sized) (readHeader headers r) := by
  show Yields _ ((readU32 >>= _) r)
  apply yields_cursor_bind (yields_readU32 r)
  intro nameLen left _
  apply yields_cursor_bind (yields_readExact nameLen left)
  intro nameBytes left _
  cases String.fromUTF8? nameBytes.toByteArray with
  | none => exact yields_recordError _ _ _ left
  | some name =>
    dsimp only
    split
    · exact yields_recordError _ _ _ left
    · exact yields_readShape _ _ left

theorem yields_saturatingRemaining (r : Cursor) :
    Yields (fun _ => True) (saturatingRemaining r) :=
  True.intro

theorem yields_readHeaders (bytes : List UInt8) :
    Yields (fun result => forall header, header ∈ result.1 -> header.Sized)
      (readHeaders ⟨bytes, 0⟩) := by
  unfold readHeaders
  apply yields_cursor_bind (yields_readExact 4 ⟨bytes, 0⟩)
  intro magic left _
  split
  · exact yields_recordError _ _ _ left
  · apply yields_cursor_bind (yields_readU32 left)
    intro tensorCount left _
    apply yields_cursor_bind (yields_saturatingRemaining left)
    intro room left _
    split
    · exact True.intro
    · apply yields_readEach yields_readHeader
      intro header h
      cases h

/-- The tensor is the bytes that its record names, between the header and the end. -/
structure Holds (bytes : List UInt8) (headerEnd : Nat) (header : Header)
    (tensor : MtpSidecarTensor) : Prop where
  name : tensor.name = header.name
  shape : tensor.shape = header.shape
  ggmlType : tensor.ggmlType = header.ggmlType
  wholeBlocks : (ggmlQuantParams tensor.ggmlType).1 ∣ rowElements tensor.shape
  behind : headerEnd <= header.dataOffset
  inside : header.dataOffset + tensorSize tensor.shape tensor.ggmlType <= bytes.length
  noOverflow : header.dataOffset + tensorSize tensor.shape tensor.ggmlType < usizeLimit
  elements : tensorSize tensor.shape tensor.ggmlType * (ggmlQuantParams tensor.ggmlType).1 =
    tensor.shape.prod * (ggmlQuantParams tensor.ggmlType).2
  data : tensor.data =
    (bytes.drop header.dataOffset).take (tensorSize tensor.shape tensor.ggmlType)

theorem yields_takeTensor {bytes : List UInt8} {headerEnd : Nat} {header : Header}
    (h : header.Sized) :
    Yields (Holds bytes headerEnd header) (takeTensor bytes headerEnd header) := by
  rcases checkedTensorSize_eq_ok h with ⟨hblocks, hsize, _, helements⟩
  rw [hsize] at helements
  unfold takeTensor
  rw [hsize]
  split
  · exact True.intro
  · rename_i hbehind
    split
    · exact True.intro
    · rename_i dataEnd hend
      unfold checkedUsize at hend
      split at hend
      · rename_i hfits
        cases hend
        split
        · exact True.intro
        · rename_i hinside
          have hrange : header.dataOffset <= header.dataOffset +
              tensorSize header.shape header.ggmlType ∧
              header.dataOffset + tensorSize header.shape header.ggmlType <= bytes.length :=
            ⟨Nat.le_add_right _ _, Nat.not_lt.mp hinside⟩
          unfold sliceRange
          rw [if_pos hrange, Nat.add_sub_cancel_left]
          exact {
            name := rfl
            shape := rfl
            ggmlType := rfl
            wholeBlocks := hblocks
            behind := Nat.not_lt.mp hbehind
            inside := hrange.right
            noOverflow := hfits
            elements := helements
            data := rfl }
      · cases hend

end MtpSidecar

open MtpSidecar in
theorem yields_parseMtp1SidecarBytes (bytes : List UInt8) :
    Yields (fun tensors => exists headers left,
        readHeaders ⟨bytes, 0⟩ = .ok (headers, left) ∧
        List.Forall₂ (Holds bytes left.pos) headers tensors)
      (parseMtp1SidecarBytes bytes) := by
  have hheaders := yields_readHeaders bytes
  unfold parseMtp1SidecarBytes
  cases hread : readHeaders ⟨bytes, 0⟩ with
  | error stop =>
    rw [hread] at hheaders
    cases stop with
    | panic => exact hheaders
    | fail fault => exact True.intro
  | ok result =>
    rcases result with ⟨headers, left⟩
    rw [hread] at hheaders
    apply Yields.mono (yields_mapM (fun header hheader => yields_takeTensor
      (hheaders header hheader)))
    intro tensors htensors
    exists headers, left

/-!
# The two loaders
-/

open MtpSidecar in
/-- Every mapped tensor is the bytes of its record, inside the file, and its strides are
right exactly when the dimensions of the file fit; every tensor of a sidecar is inside its
file and behind its header. -/
theorem accepted_tensors_in_file (bytes : List UInt8) (mmap : FileMmapStorage) :
    (forall ggmlType, 0 < (ggmlQuantParams ggmlType).1 ∧ 0 < (ggmlTypeToDtype ggmlType).sizeBytes) ∧
    parse bytes ≠ .error .panic ∧
    (forall gguf, parse bytes = .ok gguf ->
      mapTensors gguf mmap ≠ .error .panic ∧
      forall maps, mapTensors gguf mmap = .ok maps ->
        (forall name tensor, maps.tensors.lookup name = some tensor ->
          exists info, info ∈ gguf.tensorInfos ∧ info.name = name ∧
            Located gguf mmap maps info tensor) ∧
        (RightTensors gguf mmap maps ↔ DimensionsFit gguf)) ∧
    parseMtp1SidecarBytes bytes ≠ .error .panic ∧
    forall tensors, parseMtp1SidecarBytes bytes = .ok tensors ->
      exists headers left, readHeaders ⟨bytes, 0⟩ = .ok (headers, left) ∧
        List.Forall₂ (Holds bytes left.pos) headers tensors := by
  constructor
  · intro ggmlType
    exact ⟨(ggmlQuantParams_pos ggmlType).left, sizeBytes_pos _⟩
  · constructor
    · exact parse_ne_panic bytes
    · constructor
      · intro gguf hparse
        have hmapped := yields_mapTensors mmap (names_of_parse hparse)
        constructor
        · exact hmapped.ne_panic
        · intro maps hmaps
          have h := hmapped.post_of_eq_ok hmaps
          constructor
          · intro name tensor hfound
            rcases h.tensors name
              (AList.lookup_isSome.mp (Option.isSome_of_eq_some hfound)) with ⟨info, hinfo, hname⟩
            rcases h.located info hinfo with ⟨other, hlocated, _⟩
            have hsame := hlocated.found
            rw [hname, hfound] at hsame
            cases hsame
            exists info
          · exact rightTensors_iff h
      · have hsidecar := yields_parseMtp1SidecarBytes bytes
        constructor
        · exact hsidecar.ne_panic
        · intro tensors htensors
          exact hsidecar.post_of_eq_ok htensors

def cubeFile (a b c : Nat) : GGUFFile :=
  { version := 3
    metadata := []
    tensorInfos := [⟨"w", [a, b, c], .F32, 0⟩]
    dataStart := 96
    alignment := 32 }

def cubeBytes (a b c : Nat) (data : List UInt8) : List UInt8 :=
  encodeFile (cubeFile a b c) ++ (List.replicate 23 0 ++ data)

section Cubes

variable {a b c : Nat}

theorem cubeFile_wellFormed (ha : a < usizeLimit) (hb : b < usizeLimit) (hc : c < usizeLimit) :
    (cubeFile a b c).WellFormed := by
  constructor
  · show 3 ∈ SUPPORTED_VERSIONS
    decide
  · exact List.nodup_nil
  · intro entry h
    cases h
  · rfl
  · exact List.nodup_singleton _
  · intro info h
    rw [List.mem_singleton.mp h]
    have hname : "w".utf8ByteSize < MAX_TENSOR_NAME_LENGTH := by
      decide
    exact {
      name := hname
      dimensions := Nat.le_of_ble_eq_true rfl
      dims := by
        intro dim hdim
        simp only [List.mem_cons, List.not_mem_nil, or_false] at hdim
        rcases hdim with hdim | hdim | hdim <;> rw [hdim] <;> assumption
      aligned := Nat.dvd_zero 32 }

theorem encodeFile_cubeFile_length : (encodeFile (cubeFile a b c)).length = 73 := by
  have hname : (utf8Bytes "w").length = 1 := by
    decide
  unfold encodeFile
  rw [List.length_append, countsLayout_length]
  simp [cubeFile, tensorLayout, dimsLayout, stringLayout, leBytes_length, hname]

theorem parse_cubeBytes {data : List UInt8} (ha : a < usizeLimit) (hb : b < usizeLimit)
    (hc : c < usizeLimit) (hdata : 96 + data.length < usizeLimit) :
    parse (cubeBytes a b c data) = .ok (cubeFile a b c) := by
  have hfits : forall entry, entry ∈ (cubeFile a b c).metadata ->
      FitsLimits (MAX_ARRAY_NESTING + 1) entry.2 := by
    intro entry h
    cases h
  have hpadding : FirstAligned (cubeFile a b c).alignment (encodeFile (cubeFile a b c)).length
      ((encodeFile (cubeFile a b c)).length + (List.replicate 23 (0 : UInt8)).length) := by
    rw [encodeFile_cubeFile_length]
    exact firstAligned_padding (by decide : (32 : Nat) ≠ 0) 73
  have hlimit : (encodeFile (cubeFile a b c) ++
      (List.replicate 23 0 ++ data)).length < usizeLimit := by
    rw [List.length_append, List.length_append, encodeFile_cubeFile_length, List.length_replicate,
      ← Nat.add_assoc]
    exact hdata
  unfold cubeBytes
  rw [parse_of_encoding (cubeFile_wellFormed ha hb hc) (encodes_encodeFile hfits) hpadding hlimit,
    encodeFile_cubeFile_length]
  rfl

def cubeMmap (a b c : Nat) (data : List UInt8) : FileMmapStorage where
  path := {
    parent := []
    fileName := .text "model.gguf".toList }
  bytes := cubeBytes a b c data

def cubeInfo (a b c : Nat) : TensorInfo :=
  ⟨"w", [a, b, c], .F32, 0⟩

theorem mapTensors_cubeFile {data : List UInt8}
    (hsize : checkedTensorSize [a, b, c] .F32 = .ok data.length)
    (hdata : 96 + data.length < usizeLimit) :
    mapTensors (cubeFile a b c) (cubeMmap a b c data) =
      .ok (TensorMaps.empty.put (cubeInfo a b c)
        (viewOf (cubeFile a b c) (cubeMmap a b c data) (cubeInfo a b c)) 96) := by
  have halignment : ¬ isPowerOfTwo (cubeFile a b c).alignment = false := by
    show ¬ isPowerOfTwo 32 = false
    decide
  have hlength : (cubeMmap a b c data).bytes.length = 96 + data.length := by
    show (cubeBytes a b c data).length = _
    unfold cubeBytes
    rw [List.length_append, List.length_append, encodeFile_cubeFile_length,
      List.length_replicate, ← Nat.add_assoc]
  have hmap := @mapTensor_eq_ok (cubeFile a b c) (cubeMmap a b c data) TensorMaps.empty
    (cubeInfo a b c) data.length hsize (Nat.le_of_eq hlength.symm) (by
      rw [hlength]
      exact hdata) (show 4 ∣ 96 by decide)
  unfold mapTensors
  rw [if_neg halignment]
  show List.foldlM (mapTensor (cubeFile a b c) (cubeMmap a b c data)) TensorMaps.empty
    [cubeInfo a b c] = _
  rw [List.foldlM_cons, hmap]
  rfl

end Cubes

theorem accepted_tensors_in_file_cube :
    exists maps, mapTensors (cubeFile 1 2 3) (cubeMmap 1 2 3 (List.replicate 24 7)) = .ok maps ∧
      RightTensors (cubeFile 1 2 3) (cubeMmap 1 2 3 (List.replicate 24 7)) maps := by
  have hparse : parse (cubeBytes 1 2 3 (List.replicate 24 7)) = .ok (cubeFile 1 2 3) :=
    parse_cubeBytes (by decide) (by decide) (by decide) (by decide)
  have hmaps : mapTensors (cubeFile 1 2 3) (cubeMmap 1 2 3 (List.replicate 24 7)) = _ :=
    mapTensors_cubeFile rfl (by decide)
  have hfit : DimensionsFit (cubeFile 1 2 3) := by
    intro info hinfo _
    rw [List.mem_singleton.mp hinfo]
    apply (computeStrides_eq_iff _).mp
    rfl
  exact Exists.intro _ ⟨hmaps,
    (((accepted_tensors_in_file _ _).2.2.1 _ hparse).2 _ hmaps).2.mpr hfit⟩

/-- A file without rows: the product of its two large dimensions wraps to zero. -/
theorem wideFile_not_right :
    exists maps, parse (cubeBytes 0 (2 ^ 40) (2 ^ 40) []) = .ok (cubeFile 0 (2 ^ 40) (2 ^ 40)) ∧
      mapTensors (cubeFile 0 (2 ^ 40) (2 ^ 40)) (cubeMmap 0 (2 ^ 40) (2 ^ 40) []) = .ok maps ∧
      ¬ RightTensors (cubeFile 0 (2 ^ 40) (2 ^ 40)) (cubeMmap 0 (2 ^ 40) (2 ^ 40) []) maps := by
  have hmaps : mapTensors (cubeFile 0 (2 ^ 40) (2 ^ 40)) (cubeMmap 0 (2 ^ 40) (2 ^ 40) []) = _ :=
    mapTensors_cubeFile rfl (by decide)
  apply Exists.intro _
  constructor
  · exact parse_cubeBytes (by decide) (by decide) (by decide) (by decide)
  · constructor
    · exact hmaps
    · intro hright
      rcases hright "w" _ (AList.lookup_insert _) with ⟨_, _, _, _, hstrides⟩
      have hwrapped : computeStrides [0, 2 ^ 40, 2 ^ 40] = rowStrides [0, 2 ^ 40, 2 ^ 40] :=
        hstrides
      exact absurd hwrapped (by decide)

end Gguf
end RunNBurn
