import Mathlib.Init
import Mathlib.Data.Nat.Log
import RunNBurn.Library.ByteCursor
import RunNBurn.Library.Checked

/-!
# Values of a GGUF file

The tensor types, the metadata values, and the errors of the loader.
-/

namespace RunNBurn
namespace Gguf

inductive GGMLType where
  | F32 | F16 | BF16 | Q4_0 | Q4_1 | Q5_0 | Q5_1 | Q8_0 | Q8_1
  | Q2_K | Q3_K | Q4_K | Q5_K | Q6_K | Q8_K
  | IQ2_XXS | IQ2_XS | IQ3_XXS | IQ1_S | IQ4_NL | IQ3_S | IQ2_S | IQ4_XS | IQ1_M
  | TQ1_0 | TQ2_0 | MXFP4 | NVFP4 | Q1_0 | Q2_0
  | I32 | I8 | I16 | I64 | F64
deriving DecidableEq, Repr

namespace GGMLType

/-- The discriminant. -/
def code : GGMLType -> Nat
  | F32 => 0 | F16 => 1 | BF16 => 30 | Q4_0 => 2 | Q4_1 => 3 | Q5_0 => 6 | Q5_1 => 7
  | Q8_0 => 8 | Q8_1 => 9 | Q2_K => 10 | Q3_K => 11 | Q4_K => 12 | Q5_K => 13 | Q6_K => 14
  | Q8_K => 15 | IQ2_XXS => 16 | IQ2_XS => 17 | IQ3_XXS => 18 | IQ1_S => 19 | IQ4_NL => 20
  | IQ3_S => 21 | IQ2_S => 22 | IQ4_XS => 23 | IQ1_M => 29 | TQ1_0 => 34 | TQ2_0 => 35
  | MXFP4 => 39 | NVFP4 => 40 | Q1_0 => 41 | Q2_0 => 42 | I32 => 26 | I8 => 24 | I16 => 25
  | I64 => 27 | F64 => 28

def tryFrom : Nat -> Option GGMLType
  | 0 => some F32
  | 1 => some F16
  | 30 => some BF16
  | 2 => some Q4_0
  | 3 => some Q4_1
  | 6 => some Q5_0
  | 7 => some Q5_1
  | 8 => some Q8_0
  | 9 => some Q8_1
  | 10 => some Q2_K
  | 11 => some Q3_K
  | 12 => some Q4_K
  | 13 => some Q5_K
  | 14 => some Q6_K
  | 15 => some Q8_K
  | 16 => some IQ2_XXS
  | 17 => some IQ2_XS
  | 18 => some IQ3_XXS
  | 19 => some IQ1_S
  | 20 => some IQ4_NL
  | 21 => some IQ3_S
  | 22 => some IQ2_S
  | 23 => some IQ4_XS
  | 29 => some IQ1_M
  | 34 => some TQ1_0
  | 35 => some TQ2_0
  | 39 => some MXFP4
  | 40 => some NVFP4
  | 41 => some Q1_0
  | 42 => some Q2_0
  | 24 => some I8
  | 25 => some I16
  | 27 => some I64
  | 28 => some F64
  | 26 => some I32
  | _ => none

theorem tryFrom_code (t : GGMLType) : tryFrom t.code = some t := by
  cases t <;> rfl

theorem code_of_tryFrom {raw : Nat} {t : GGMLType} (h : tryFrom raw = some t) :
    raw = t.code := by
  unfold tryFrom at h
  split at h <;> cases h <;> rfl

theorem code_lt (t : GGMLType) : t.code < 256 ^ 4 := by
  cases t <;> decide

end GGMLType

inductive GGUFValue where
  | u8 (v : UInt8)
  | i8 (v : Int8)
  | u16 (v : UInt16)
  | i16 (v : Int16)
  | u32 (v : UInt32)
  | i32 (v : Int32)
  | u64 (v : UInt64)
  | i64 (v : Int64)
  | f32 (bits : UInt32)
  | f64 (bits : UInt64)
  | bool (v : Bool)
  | string (v : String)
  | array (items : List GGUFValue)

def GGUFValue.valueType : GGUFValue -> Nat
  | .u8 _ => 0
  | .i8 _ => 1
  | .u16 _ => 2
  | .i16 _ => 3
  | .u32 _ => 4
  | .i32 _ => 5
  | .f32 _ => 6
  | .bool _ => 7
  | .string _ => 8
  | .array _ => 9
  | .u64 _ => 10
  | .i64 _ => 11
  | .f64 _ => 12

structure TensorInfo where
  name : String
  shape : List Nat
  ggmlType : GGMLType
  offset : UInt64
deriving DecidableEq, Repr

inductive LoaderError where
  | invalidMagic
  | unsupportedVersion (version : Nat)
  | parseError (offset : Nat) (msg : String)
  | unsupportedGGMLType (raw : Nat)
deriving DecidableEq, Repr

structure GGUFFile where
  version : Nat
  metadata : List (String × GGUFValue)
  tensorInfos : List TensorInfo
  dataStart : Nat
  alignment : Nat

/-!
# The GGUF parser

A reader over the bytes of the file, and the parser on it.
-/

open Library
open Library.CursorCall

def GGUF_MAGIC : List UInt8 := [0x47, 0x47, 0x55, 0x46]
def SUPPORTED_VERSIONS : List Nat := [2, 3]
def MAX_STRING_LENGTH : Nat := 64 * 1024 * 1024
def MAX_ARRAY_ELEMENTS : Nat := 4 * 1024 * 1024
def MAX_ARRAY_NESTING : Nat := 64
def MAX_METADATA_KEY_LENGTH : Nat := 65535
def MAX_TENSOR_NAME_LENGTH : Nat := 64
def MIN_METADATA_RECORD_BYTES : Nat := 13
def MIN_TENSOR_INFO_BYTES : Nat := 24

abbrev Reading (alpha : Type) : Type :=
  CursorCall LoaderError alpha

/-!
# The reader
-/

def parseErrorAt (msg : String) (offset : Nat) : LoaderError :=
  .parseError offset msg

def needBytes (n : Nat) (offset left : Nat) : LoaderError :=
  .parseError offset s!"need {n} bytes, only {left} remain"

def readBytes (n : Nat) : Reading (List UInt8) :=
  take n (needBytes n)

def readLe {alpha : Type} (width : Nat) (convert : Nat -> alpha) : Reading alpha := do
  let n <- word width (needBytes width)
  return convert n

def readU8 : Reading UInt8 := readLe 1 UInt8.ofNat
def readI8 : Reading Int8 := readLe 1 fun n => (UInt8.ofNat n).toInt8
def readU16 : Reading UInt16 := readLe 2 UInt16.ofNat
def readI16 : Reading Int16 := readLe 2 fun n => (UInt16.ofNat n).toInt16
def readU32 : Reading UInt32 := readLe 4 UInt32.ofNat
def readI32 : Reading Int32 := readLe 4 fun n => (UInt32.ofNat n).toInt32
def readU64 : Reading UInt64 := readLe 8 UInt64.ofNat
def readI64 : Reading Int64 := readLe 8 fun n => (UInt64.ofNat n).toInt64
def readF32 : Reading UInt32 := readLe 4 UInt32.ofNat
def readF64 : Reading UInt64 := readLe 8 UInt64.ofNat

def readUsize (label : String) : Reading Nat := do
  let offset <- position
  let value <- readU64
  if value.toNat < usizeLimit then
    return value.toNat
  else
    failing fun _ => parseErrorAt s!"{label} {value} does not fit usize" offset

def readString : Reading String := do
  let len <- readUsize "string length"
  if len > MAX_STRING_LENGTH then
    failingBack 8 (parseErrorAt
      s!"string length {len} exceeds maximum supported length {MAX_STRING_LENGTH}")
  else do
    let offset <- position
    let bytes <- readBytes len
    match String.fromUTF8? bytes.toByteArray with
    | some text => pure text
    | none => failing fun _ => parseErrorAt "invalid UTF-8 in string" offset

def readBool : Reading Bool := do
  let offset <- position
  let value <- readU8
  match value.toNat with
  | 0 => pure false
  | 1 => pure true
  | value =>
    failing fun _ => parseErrorAt s!"invalid GGUF boolean value {value}; expected 0 or 1" offset

/-!
# Values
-/

def unknownType (valueType : Nat) : String :=
  s!"unknown GGUF value type: {valueType}"

def countExceeds (count offset left : Nat) : LoaderError :=
  .parseError offset s!"array element count {count} exceeds {left} remaining bytes"

/-- The array branch of `readValueAtDepth`, given the reader of an element. -/
def readArray (readItem : Nat -> Reading GGUFValue) : Reading GGUFValue := do
  let elemType <- readU32
  if elemType.toNat > 12 then
    failingBack 4 (parseErrorAt (unknownType elemType.toNat))
  else do
    let count <- readUsize "array element count"
    if count > MAX_ARRAY_ELEMENTS then
      failingBack 8 (parseErrorAt
        s!"array element count {count} exceeds maximum {MAX_ARRAY_ELEMENTS}")
    else do
      require count (countExceeds count)
      let items <- readMany (readItem elemType.toNat) count
      return .array items

/-- `levels` is how many levels of values may still be read, which is
`MAX_ARRAY_NESTING + 1 - depth`. -/
def readValueAtDepth : (levels : Nat) -> (valueType : Nat) -> Reading GGUFValue
  | 0, valueType =>
    if valueType > 12 then
      failing (parseErrorAt (unknownType valueType))
    else
      failing (parseErrorAt s!"GGUF array nesting exceeds {MAX_ARRAY_NESTING} levels")
  | levels + 1, valueType =>
    match valueType with
    | 0 => do return .u8 (<- readU8)
    | 1 => do return .i8 (<- readI8)
    | 2 => do return .u16 (<- readU16)
    | 3 => do return .i16 (<- readI16)
    | 4 => do return .u32 (<- readU32)
    | 5 => do return .i32 (<- readI32)
    | 6 => do return .f32 (<- readF32)
    | 7 => do return .bool (<- readBool)
    | 8 => do return .string (<- readString)
    | 9 => readArray (readValueAtDepth levels)
    | 10 => do return .u64 (<- readU64)
    | 11 => do return .i64 (<- readI64)
    | 12 => do return .f64 (<- readF64)
    | valueType => failing (parseErrorAt (unknownType valueType))

def readValue (valueType : Nat) : Reading GGUFValue :=
  readValueAtDepth (MAX_ARRAY_NESTING + 1) valueType

def isPowerOfTwo (n : Nat) : Bool :=
  n != 0 && 2 ^ n.log2 == n

/-- A value as a `usize`, when it is an integer that fits. -/
def asUsize : GGUFValue -> Option Nat
  | .u8 value => some value.toNat
  | .i8 value => if value.toInt < 0 then none else some value.toInt.toNat
  | .u16 value => some value.toNat
  | .i16 value => if value.toInt < 0 then none else some value.toInt.toNat
  | .u32 value => some value.toNat
  | .i32 value => if value.toInt < 0 then none else some value.toInt.toNat
  | .u64 value => some value.toNat
  | .i64 value => if value.toInt < 0 then none else some value.toInt.toNat
  | _ => none

def metadataAlignment (metadata : List (String × GGUFValue)) : Except LoaderError Nat :=
  match metadata.find? (fun entry => entry.1 == "general.alignment") with
  | none => .ok 32
  | some (_, value) =>
    match asUsize value with
    | none =>
      .error (.parseError 0 "general.alignment must be a non-negative integer fitting usize")
    | some alignment =>
      if isPowerOfTwo alignment then
        .ok alignment
      else
        .error (.parseError 0 s!"general.alignment {alignment} must be a positive power of two")

/-!
# The file
-/

def utf8Bytes (text : String) : List UInt8 :=
  text.toByteArray.data.toList

def isAscii (text : String) : Bool :=
  (utf8Bytes text).all fun byte => byte < 128

def keyIsValid (key : String) : Bool :=
  !key.isEmpty && key.utf8ByteSize <= MAX_METADATA_KEY_LENGTH && isAscii key

def readEntry (metadata : List (String × GGUFValue)) : Reading (String × GGUFValue) := do
  let key <- readString
  if !keyIsValid key then
    failingBack key.utf8ByteSize (parseErrorAt
      s!"metadata key must be non-empty ASCII and at most {MAX_METADATA_KEY_LENGTH} bytes")
  else if metadata.any (fun entry => entry.1 == key) then
    failingBack key.utf8ByteSize (parseErrorAt s!"duplicate metadata key '{key}'")
  else do
    let valueType <- readU32
    let value <- readValue valueType.toNat
    return (key, value)

/-- The remainder panics when the divisor is zero. -/
def remainder (n divisor : Nat) : Reading Nat :=
  if divisor = 0 then panicking else pure (n % divisor)

def tensorNameTooLong (name : String) : String :=
  s!"tensor name is {name.utf8ByteSize} bytes; GGML requires fewer than {MAX_TENSOR_NAME_LENGTH}"

def readTypeAndOffset (alignment : Nat) (name : String) (dims : List Nat) :
    Reading TensorInfo := do
  let typeRaw <- readU32
  match GGMLType.tryFrom typeRaw.toNat with
  | none => failing fun _ => .unsupportedGGMLType typeRaw.toNat
  | some ggmlType => do
      let offset <- readU64
      let misaligned <- remainder offset.toNat alignment
      if misaligned ≠ 0 then
        failingBack 8 (parseErrorAt
          s!"tensor '{name}' offset {offset} is not aligned to {alignment} bytes")
      else
        return { name := name, shape := dims.reverse, ggmlType := ggmlType, offset := offset }

def readTensorRecord (alignment : Nat) (name : String) : Reading TensorInfo := do
  let nDims <- readU32
  if nDims.toNat > 4 then
    failingBack 4 (parseErrorAt s!"tensor '{name}' has {nDims} dimensions; GGUF supports at most 4")
  else do
    let dims <- readMany (readUsize "tensor dimension") nDims.toNat
    readTypeAndOffset alignment name dims

def readTensorInfo (alignment : Nat) (infos : List TensorInfo) : Reading TensorInfo := do
  let name <- readString
  if name.utf8ByteSize >= MAX_TENSOR_NAME_LENGTH then
    failingBack name.utf8ByteSize (parseErrorAt (tensorNameTooLong name))
  else if infos.any (fun info => info.name == name) then
    failingBack name.utf8ByteSize (parseErrorAt s!"duplicate tensor name '{name}'")
  else
    readTensorRecord alignment name

def beValue (bytes : List UInt8) : Nat :=
  leValue bytes.reverse

def readVersion : Reading Nat := do
  let versionOffset <- position
  let bytes <- readBytes 4
  let versionBytes <- exactly 4 bytes
  let version := leValue versionBytes
  if version ∈ SUPPORTED_VERSIONS then
    return version
  else if beValue versionBytes ∈ SUPPORTED_VERSIONS then
    failing fun _ =>
      parseErrorAt "big-endian GGUF is not supported by the mmap tensor runtime" versionOffset
  else
    failing fun _ => .unsupportedVersion version

def checkedUsize (n : Nat) : Option Nat :=
  if n < usizeLimit then some n else none

/-- The smallest header with so many records, or nothing when it overflows. -/
def minimumHeaderBytes (kvCount tensorCount : Nat) : Option Nat := do
  let bytes <- checkedUsize (kvCount * MIN_METADATA_RECORD_BYTES)
  let tensorBytes <- checkedUsize (tensorCount * MIN_TENSOR_INFO_BYTES)
  checkedUsize (bytes + tensorBytes)

def cannotFit (kvCount tensorCount offset left : Nat) : LoaderError :=
  .parseError offset
    s!"tensor count {tensorCount} and metadata count {kvCount} cannot fit in {left} remaining bytes"

def checkCounts (kvCount tensorCount : Nat) : Reading Unit :=
  match minimumHeaderBytes kvCount tensorCount with
  | none =>
    failing (parseErrorAt
      s!"tensor count {tensorCount} and metadata count {kvCount} overflow header size")
  | some minimum => require minimum (cannotFit kvCount tensorCount)

def locateData (alignment tensorCount : Nat) : Reading Nat :=
  fun r =>
    match remainder r.pos alignment r with
    | .error stop => .error stop
    | .ok (rest, _) =>
      match checkedUsize (r.pos + (alignment - rest) % alignment) with
      | none => .error (.fail (.parseError r.pos "tensor data offset overflows usize"))
      | some dataStart =>
        if tensorCount > 0 && dataStart > r.data.length then
          .error (.fail (.parseError r.pos
            s!"tensor data starts at {dataStart}, beyond file length {r.data.length}"))
        else
          .ok (dataStart, r)

def lift {alpha : Type} (result : Except LoaderError alpha) : Reading alpha :=
  match result with
  | .ok x => pure x
  | .error fault => failing fun _ => fault

/-- What `parse` knows before it looks for the tensor data. -/
structure Header where
  version : Nat
  tensorCount : Nat
  metadata : List (String × GGUFValue)
  alignment : Nat
  tensorInfos : List TensorInfo

def readRecords (version kvCount tensorCount : Nat) : Reading Header := do
  let metadata <- readEach readEntry kvCount []
  let alignment <- lift (metadataAlignment metadata)
  let tensorInfos <- readEach (readTensorInfo alignment) tensorCount []
  return {
    version := version
    tensorCount := tensorCount
    metadata := metadata
    alignment := alignment
    tensorInfos := tensorInfos }

def readHeader : Reading Header := do
  let magic <- readBytes 4
  if magic ≠ GGUF_MAGIC then
    failing fun _ => .invalidMagic
  else do
    let version <- readVersion
    let tensorCount <- readUsize "tensor count"
    let kvCount <- readUsize "metadata count"
    checkCounts kvCount tensorCount
    readRecords version kvCount tensorCount

def readFile : Reading GGUFFile := do
  let header <- readHeader
  let dataStart <- locateData header.alignment header.tensorCount
  return {
    version := header.version
    metadata := header.metadata
    tensorInfos := header.tensorInfos
    dataStart := dataStart
    alignment := header.alignment }

def parse (data : List UInt8) : Except (Stop LoaderError) GGUFFile :=
  match readFile ⟨data, 0⟩ with
  | .ok (file, _) => .ok file
  | .error stop => .error stop

end Gguf
end RunNBurn
