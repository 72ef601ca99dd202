import RunNBurn.Gguf.Convert

/-!
# The MTP sidecar

A file of tensors beside the model: a header with a record for each tensor, and the bytes
of the tensors behind it.
-/

namespace RunNBurn
namespace Gguf

open Library

structure MtpSidecarTensor where
  name : String
  shape : List Nat
  ggmlType : GGMLType
  data : List UInt8
deriving DecidableEq

namespace MtpSidecar

/-- `MTP1`. -/
def MAGIC : List UInt8 := [0x4D, 0x54, 0x50, 0x31]
def MIN_TENSOR_HEADER_BYTES : Nat := 28

def readExact (len : Nat) : Reading (List UInt8) :=
  fun r =>
    match checkedUsize (r.pos + len) with
    | none => .error (.fail (.parseError r.pos "MTP sidecar read offset overflows"))
    | some stop =>
      if stop > r.data.length then
        .error (.fail (.parseError r.pos "unexpected end of MTP sidecar"))
      else
        CursorCall.slice len r

def fromLeBytes (width offset : Nat) (msg : String) (raw : List UInt8) : Reading Nat :=
  if raw.length = width then pure (leValue raw)
  else CursorCall.failing fun _ => .parseError offset msg

def readU32 : Reading Nat := do
  let offset <- CursorCall.position
  let raw <- readExact 4
  fromLeBytes 4 offset "failed to read u32 from MTP sidecar" raw

/-- Every `u64` is a `usize`, so what reads an offset or a size stops here. -/
def readU64 : Reading Nat := do
  let offset <- CursorCall.position
  let raw <- readExact 8
  fromLeBytes 8 offset "failed to read u64 from MTP sidecar" raw

structure Header where
  name : String
  shape : List Nat
  ggmlType : GGMLType
  dataOffset : Nat
  dataSize : Nat
deriving DecidableEq

def recordError {alpha : Type} (recordOffset : Nat) (msg : String) : Reading alpha :=
  CursorCall.failing fun _ => .parseError recordOffset msg

def readTypeAndRange (recordOffset : Nat) (name : String) (shape : List Nat) : Reading Header := do
  let ggmlTypeRaw <- readU32
  match GGMLType.tryFrom ggmlTypeRaw with
  | none => CursorCall.failing fun _ => .unsupportedGGMLType ggmlTypeRaw
  | some ggmlType => do
      let dataOffset <- readU64
      let dataSize <- readU64
      match checkedTensorSize shape ggmlType with
      | .error reason =>
        recordError recordOffset s!"MTP tensor '{name}' has invalid shape: {reason}"
      | .ok expectedSize =>
        if dataSize ≠ expectedSize then
          recordError recordOffset
            s!"MTP tensor '{name}' byte size {dataSize} != expected {expectedSize}"
        else
          return {
            name := name
            shape := shape
            ggmlType := ggmlType
            dataOffset := dataOffset
            dataSize := dataSize }

def readShape (recordOffset : Nat) (name : String) : Reading Header := do
  let dimCount <- readU32
  if dimCount > 4 then
    recordError recordOffset s!"MTP tensor '{name}' has {dimCount} dimensions; maximum is 4"
  else do
    let shape <- CursorCall.readMany readU32 dimCount
    readTypeAndRange recordOffset name shape

def readHeader (headers : List Header) : Reading Header := do
  let recordOffset <- CursorCall.position
  let nameLen <- readU32
  let nameBytes <- readExact nameLen
  match String.fromUTF8? nameBytes.toByteArray with
  | none => recordError recordOffset "invalid UTF-8 tensor name"
  | some name =>
    if headers.any (fun header => header.name == name) then
      recordError recordOffset s!"duplicate MTP tensor name '{name}'"
    else
      readShape recordOffset name

def saturatingRemaining : Reading Nat :=
  fun r => .ok (r.data.length - r.pos, r)

def readHeaders : Reading (List Header) := do
  let magic <- readExact 4
  if magic ≠ MAGIC then
    recordError 0 "invalid MTP sidecar magic"
  else do
    let tensorCount <- readU32
    let left <- saturatingRemaining
    if tensorCount > left / MIN_TENSOR_HEADER_BYTES then
      CursorCall.failing fun pos =>
        .parseError pos s!"MTP tensor count {tensorCount} cannot fit in the remaining file"
    else
      CursorCall.readEach readHeader tensorCount []

/-- A range of the bytes; it panics when there is no such range. -/
def sliceRange (bytes : List UInt8) (start stop : Nat) :
    Except (Stop LoaderError) (List UInt8) :=
  if start <= stop ∧ stop <= bytes.length then .ok ((bytes.drop start).take (stop - start))
  else .error .panic

def rangeError {alpha : Type} (header : Header) (msg : String) :
    Except (Stop LoaderError) alpha :=
  .error (.fail (.parseError header.dataOffset msg))

def takeTensor (bytes : List UInt8) (headerEnd : Nat) (header : Header) :
    Except (Stop LoaderError) MtpSidecarTensor :=
  if header.dataOffset < headerEnd then
    rangeError header s!"MTP tensor '{header.name}' data overlaps the header"
  else
    match checkedUsize (header.dataOffset + header.dataSize) with
    | none => rangeError header s!"MTP tensor '{header.name}' byte range overflows"
    | some dataEnd =>
      if dataEnd > bytes.length then
        rangeError header s!"MTP tensor '{header.name}' byte range exceeds file size"
      else do
        let data <- sliceRange bytes header.dataOffset dataEnd
        return {
          name := header.name
          shape := header.shape
          ggmlType := header.ggmlType
          data := data }

end MtpSidecar

def parseMtp1SidecarBytes (bytes : List UInt8) :
    Except (Stop LoaderError) (List MtpSidecarTensor) :=
  match MtpSidecar.readHeaders ⟨bytes, 0⟩ with
  | .error stop => .error stop
  | .ok (headers, left) => headers.mapM (MtpSidecar.takeTensor bytes left.pos)

end Gguf
end RunNBurn
