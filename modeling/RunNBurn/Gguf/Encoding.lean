import Mathlib.Order.Bounds.Basic
import RunNBurn.Gguf.Parser

/-!
# The layout of a GGUF file

What the bytes of a file are: a relation, because an empty array may carry any
element type, and one encoding of every file whose values keep the limits.
-/

namespace RunNBurn
namespace Gguf

open Library
open Library.CursorCall

def stringLayout (text : String) : List UInt8 :=
  leBytes 8 text.utf8ByteSize ++ utf8Bytes text

def boolByte (v : Bool) : Nat :=
  if v then 1 else 0

/-- The bytes of a value that is not an array. -/
def scalarLayout : GGUFValue -> List UInt8
  | .u8 v => leBytes 1 v.toNat
  | .i8 v => leBytes 1 v.toUInt8.toNat
  | .u16 v => leBytes 2 v.toNat
  | .i16 v => leBytes 2 v.toUInt16.toNat
  | .u32 v => leBytes 4 v.toNat
  | .i32 v => leBytes 4 v.toUInt32.toNat
  | .u64 v => leBytes 8 v.toNat
  | .i64 v => leBytes 8 v.toUInt64.toNat
  | .f32 bits => leBytes 4 bits.toNat
  | .f64 bits => leBytes 8 bits.toNat
  | .bool v => leBytes 1 (boolByte v)
  | .string text => stringLayout text
  | .array _ => []

/-- The bytes are an encoding of a value of at most so many levels. -/
def EncodesValue : (levels : Nat) -> GGUFValue -> List UInt8 -> Prop
  | 0, _, _ => False
  | levels + 1, .array items, bytes =>
    exists elemType itemBytes, elemType <= 12 ∧ items.length <= MAX_ARRAY_ELEMENTS ∧
      Repeats (fun item xs => item.valueType = elemType ∧ EncodesValue levels item xs)
        items itemBytes ∧
      bytes = leBytes 4 elemType ++ (leBytes 8 items.length ++ itemBytes)
  | _ + 1, .string text, bytes => text.utf8ByteSize <= MAX_STRING_LENGTH ∧ bytes = stringLayout text
  | _ + 1, value, bytes => bytes = scalarLayout value

def EncodesEntry (entry : String × GGUFValue) (bytes : List UInt8) : Prop :=
  exists valueBytes, EncodesValue (MAX_ARRAY_NESTING + 1) entry.2 valueBytes ∧
    bytes = stringLayout entry.1 ++ (leBytes 4 entry.2.valueType ++ valueBytes)

def dimsLayout (shape : List Nat) : List UInt8 :=
  shape.reverse.flatMap (leBytes 8)

def tensorLayout (info : TensorInfo) : List UInt8 :=
  stringLayout info.name ++ (leBytes 4 info.shape.length ++ (dimsLayout info.shape ++
    (leBytes 4 info.ggmlType.code ++ leBytes 8 info.offset.toNat)))

def countsLayout (file : GGUFFile) : List UInt8 :=
  GGUF_MAGIC ++ (leBytes 4 file.version ++ (leBytes 8 file.tensorInfos.length ++
    leBytes 8 file.metadata.length))

def EncodesFile (file : GGUFFile) (header : List UInt8) : Prop :=
  exists metadataBytes, Repeats EncodesEntry file.metadata metadataBytes ∧
    header = countsLayout file ++ (metadataBytes ++ file.tensorInfos.flatMap tensorLayout)

structure TensorInfo.WellFormed (alignment : Nat) (info : TensorInfo) : Prop where
  name : info.name.utf8ByteSize < MAX_TENSOR_NAME_LENGTH
  dimensions : info.shape.length <= 4
  dims : forall dim, dim ∈ info.shape -> dim < usizeLimit
  aligned : alignment ∣ info.offset.toNat

structure GGUFFile.WellFormed (file : GGUFFile) : Prop where
  version : file.version ∈ SUPPORTED_VERSIONS
  keys : (file.metadata.map Prod.fst).Nodup
  keysValid : forall entry, entry ∈ file.metadata -> entry.1 ≠ "" ∧
    entry.1.utf8ByteSize <= MAX_METADATA_KEY_LENGTH ∧ isAscii entry.1 = true
  alignment : metadataAlignment file.metadata = .ok file.alignment
  names : (file.tensorInfos.map TensorInfo.name).Nodup
  tensors : forall info, info ∈ file.tensorInfos -> info.WellFormed file.alignment

def FirstAligned (alignment header dataStart : Nat) : Prop :=
  IsLeast { offset | header <= offset ∧ alignment ∣ offset } dataStart

/-!
# One encoding of every file
-/

/-- The element type of an array, which is free when the array is empty. -/
def elementType : List GGUFValue -> Nat
  | [] => 0
  | item :: _ => item.valueType

mutual

def encodeValue : GGUFValue -> List UInt8
  | .array items => leBytes 4 (elementType items) ++ (leBytes 8 items.length ++ encodeItems items)
  | value => scalarLayout value

def encodeItems : List GGUFValue -> List UInt8
  | [] => []
  | item :: rest => encodeValue item ++ encodeItems rest

end

/-- The value keeps the limits: the length of its strings and arrays, one type
for the elements of an array, and the levels. -/
def FitsLimits : (levels : Nat) -> GGUFValue -> Prop
  | 0, _ => False
  | levels + 1, .array items =>
    items.length <= MAX_ARRAY_ELEMENTS ∧
      forall item, item ∈ items -> item.valueType = elementType items ∧ FitsLimits levels item
  | _ + 1, .string text => text.utf8ByteSize <= MAX_STRING_LENGTH
  | _ + 1, _ => True

def encodeEntry (entry : String × GGUFValue) : List UInt8 :=
  stringLayout entry.1 ++ (leBytes 4 entry.2.valueType ++ encodeValue entry.2)

def encodeFile (file : GGUFFile) : List UInt8 :=
  countsLayout file ++ (file.metadata.flatMap encodeEntry ++ file.tensorInfos.flatMap tensorLayout)

theorem repeats_encodeItems
    {spec : GGUFValue -> List UInt8 -> Prop} {items : List GGUFValue}
    (h : forall item, item ∈ items -> spec item (encodeValue item)) :
    Repeats spec items (encodeItems items) := by
  induction items with
  | nil => exact Repeats.nil
  | cons item rest ih =>
    exact Repeats.cons (h item List.mem_cons_self)
      (ih (fun other hother => h other (List.mem_cons_of_mem item hother)))

theorem valueType_le (value : GGUFValue) : value.valueType <= 12 := by
  cases value <;> exact Nat.le_of_ble_eq_true rfl

theorem elementType_le (items : List GGUFValue) : elementType items <= 12 := by
  cases items with
  | nil => decide
  | cons item rest => exact valueType_le item

theorem encodes_encodeValue
    {levels : Nat} {value : GGUFValue} (h : FitsLimits levels value) :
    EncodesValue levels value (encodeValue value) := by
  induction levels generalizing value with
  | zero => exact h
  | succ levels ih =>
    cases value with
    | array items =>
      rcases h with ⟨hcount, hitems⟩
      refine ⟨elementType items, encodeItems items, elementType_le items, hcount, ?_, rfl⟩
      exact repeats_encodeItems
        (fun item hitem => ⟨(hitems item hitem).1, ih (hitems item hitem).2⟩)
    | string text => exact ⟨h, rfl⟩
    | _ => rfl

theorem repeats_flatMap {item : Type}
    {spec : item -> List UInt8 -> Prop} {encode : item -> List UInt8} {items : List item}
    (h : forall x, x ∈ items -> spec x (encode x)) :
    Repeats spec items (items.flatMap encode) := by
  induction items with
  | nil => exact Repeats.nil
  | cons x rest ih =>
    exact Repeats.cons (h x List.mem_cons_self)
      (ih (fun other hother => h other (List.mem_cons_of_mem x hother)))

theorem encodes_encodeFile
    {file : GGUFFile}
    (h : forall entry, entry ∈ file.metadata -> FitsLimits (MAX_ARRAY_NESTING + 1) entry.2) :
    EncodesFile file (encodeFile file) := by
  refine ⟨file.metadata.flatMap encodeEntry, ?_, rfl⟩
  exact repeats_flatMap (fun entry hentry => ⟨_, encodes_encodeValue (h entry hentry), rfl⟩)

end Gguf
end RunNBurn
