import RunNBurn.Gguf.Parser
import RunNBurn.Library.KeyedMaps
import RunNBurn.Library.Text
import RunNBurn.Tensors.Layout

/-!
# Tensors of a mapped file

The tensor records of a parsed file as views into its bytes, each under its name.
-/

namespace RunNBurn
namespace Gguf

open Library
open Tensors (computeStrides)

/-- The last component of a path; `other` is one that is no UTF-8 name. -/
inductive FileName where
  | text (name : Text)
  | other (bytes : List UInt8)
deriving DecidableEq

structure FilePath where
  parent : List Text
  fileName : FileName
deriving DecidableEq

inductive LoadError where
  | loader (fault : LoaderError)
  | ioError (msg : String)
  | coreError (msg : String)
deriving DecidableEq

abbrev Loading (alpha : Type) : Type :=
  Except (Stop LoadError) alpha

def parseFailure {alpha : Type} (offset : Nat) (msg : String) : Loading alpha :=
  .error (.fail (.loader (.parseError offset msg)))

/-!
# Sizes
-/

inductive DType where
  | F32 | F16 | BF16 | I8 | I4 | U8
deriving DecidableEq

def DType.sizeBytes : DType -> Nat
  | .F32 => 4
  | .F16 | .BF16 => 2
  | .I8 | .U8 | .I4 => 1

def ggmlTypeToDtype : GGMLType -> DType
  | .F32 => .F32
  | .F16 | .BF16 => .F16
  | .Q8_0 | .Q8_1 => .I8
  | _ => .U8

def ggmlQuantParams : GGMLType -> Nat × Nat
  | .F32 => (1, 4)
  | .F16 | .BF16 => (1, 2)
  | .I32 => (1, 4)
  | .I8 => (1, 1)
  | .I16 => (1, 2)
  | .I64 | .F64 => (1, 8)
  | .Q4_0 => (32, 18)
  | .Q4_1 => (32, 20)
  | .Q5_0 => (32, 22)
  | .Q5_1 => (32, 24)
  | .Q8_0 => (32, 34)
  | .Q8_1 => (32, 36)
  | .Q2_K => (256, 84)
  | .Q3_K => (256, 110)
  | .Q4_K => (256, 144)
  | .Q5_K => (256, 176)
  | .Q6_K => (256, 210)
  | .Q8_K => (256, 292)
  | .IQ2_XXS => (256, 66)
  | .IQ2_XS => (256, 74)
  | .IQ3_XXS => (256, 98)
  | .IQ1_S => (256, 50)
  | .IQ4_NL => (32, 18)
  | .IQ3_S => (256, 110)
  | .IQ2_S => (256, 82)
  | .IQ4_XS => (256, 136)
  | .IQ1_M => (256, 56)
  | .TQ1_0 => (256, 54)
  | .TQ2_0 => (256, 66)
  | .MXFP4 => (32, 17)
  | .NVFP4 => (64, 36)
  | .Q1_0 => (128, 18)
  | .Q2_0 => (64, 18)

def checkedTensorSize (shape : List Nat) (ggmlType : GGMLType) : Except String Nat :=
  let (blockSize, typeBytes) := ggmlQuantParams ggmlType
  let rowElements := shape.getLast?.getD 1
  if rowElements % blockSize ≠ 0 then
    .error s!"row has {rowElements} elements, not divisible by block size {blockSize}"
  else
    match shape.foldlM (fun total dimension => checkedUsize (total * dimension)) 1 with
    | none => .error "element count overflows usize"
    | some numel =>
      match checkedUsize (numel / blockSize * typeBytes) with
      | none => .error "tensor byte size overflows usize"
      | some bytes => .ok bytes

/-!
# Views
-/

structure FileMmapStorage where
  path : FilePath
  bytes : List UInt8
deriving DecidableEq

structure Tensor where
  storage : FileMmapStorage
  shape : List Nat
  strides : List Nat
  offset : Nat
  dtype : DType
deriving DecidableEq

def Tensor.fromMmap (storage : FileMmapStorage) (byteOffset : Nat) (shape : List Nat)
    (dtype : DType) : Loading Tensor :=
  if byteOffset % dtype.sizeBytes ≠ 0 then
    .error (.fail (.coreError
      s!"byte_offset {byteOffset} not aligned to element size {dtype.sizeBytes}"))
  else
    .ok {
      storage := storage
      shape := shape
      strides := computeStrides shape
      offset := byteOffset / dtype.sizeBytes
      dtype := dtype }

structure TensorMaps where
  tensors : KeyedMap String Tensor
  floatShapes : KeyedMap String (List Nat)
  ggmlTypes : KeyedMap String GGMLType
  fileOffsets : KeyedMap String Nat

namespace TensorMaps

def empty : TensorMaps where
  tensors := ∅
  floatShapes := ∅
  ggmlTypes := ∅
  fileOffsets := ∅

end TensorMaps

/-- The sum is checked to be a `usize`. -/
def checkedOffset (n offset : Nat) (msg : String) : Loading Nat :=
  match checkedUsize n with
  | some n => .ok n
  | none => parseFailure offset msg

def tensorBytes (gguf : GGUFFile) (info : TensorInfo) : Loading Nat :=
  match checkedTensorSize info.shape info.ggmlType with
  | .ok bytes => .ok bytes
  | .error reason =>
    parseFailure gguf.dataStart s!"tensor '{info.name}' has invalid shape: {reason}"

def mapTensor (gguf : GGUFFile) (mmap : FileMmapStorage) (maps : TensorMaps)
    (info : TensorInfo) : Loading TensorMaps := do
  let actualBytes <- tensorBytes gguf info
  let byteOffset <- checkedOffset (gguf.dataStart + info.offset.toNat) gguf.dataStart
    s!"tensor '{info.name}' absolute offset overflows usize"
  let dataEnd <- checkedOffset (byteOffset + actualBytes) byteOffset
    s!"tensor '{info.name}' data end overflows usize"
  if dataEnd > mmap.bytes.length then
    parseFailure byteOffset
      s!"tensor '{info.name}' ends at {dataEnd}, beyond file length {mmap.bytes.length}"
  else
    let dtype := ggmlTypeToDtype info.ggmlType
    let packed := dtype = .U8 ∨ dtype = .I8
    let floatShapes := if packed then maps.floatShapes.insert info.name info.shape
      else maps.floatShapes
    let mmapShape := if packed then [actualBytes] else info.shape
    let tensor <- Tensor.fromMmap mmap byteOffset mmapShape dtype
    return {
      tensors := maps.tensors.insert info.name tensor
      floatShapes := floatShapes
      ggmlTypes := maps.ggmlTypes.insert info.name info.ggmlType
      fileOffsets := maps.fileOffsets.insert info.name byteOffset }

def mapTensors (gguf : GGUFFile) (mmap : FileMmapStorage) : Loading TensorMaps :=
  if isPowerOfTwo gguf.alignment = false then
    parseFailure gguf.dataStart s!"invalid GGUF alignment {gguf.alignment}"
  else
    gguf.tensorInfos.foldlM (mapTensor gguf mmap) TensorMaps.empty

end Gguf
end RunNBurn
