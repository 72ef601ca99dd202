import Mathlib.Data.List.Nodup
import RunNBurn.Gguf.Encoding

/-!
# Round trips of the GGUF parser

Each reader reads the layout that it is for in front of every suffix, and accepts
nothing else; the parser inherits both.
-/

namespace RunNBurn
namespace Gguf

open Library
open Library.CursorCall

/-!
# The reader
-/

section Words

variable {alpha : Type} {width : Nat} {convert : Nat -> alpha}

theorem reads_readLe {n : Nat} {x : alpha} (h : n < 256 ^ width) (hx : convert n = x) :
    Reads (readLe width convert) x (leBytes width n) := by
  rw [← hx]
  exact reads_bind_last (reads_word h (needBytes width)) (reads_pure (convert n))

theorem accepts_readLe (low : Nat) :
    Accepts low (readLe width convert) (fun x bytes =>
      exists n, n < 256 ^ width ∧ x = convert n ∧ bytes = leBytes width n) := by
  refine accepts_mono (accepts_bind _ (accepts_word low width (needBytes width))
    (fun n bytes _ => accepts_pure _ (convert n))) ?_
  rintro x bytes ⟨n, xs, ys, ⟨hn, hxs⟩, ⟨hx, hys⟩, hbytes⟩
  rw [hys, List.append_nil] at hbytes
  exact ⟨n, hn, hx, hbytes.trans hxs⟩

theorem accepts_readLe_of_inverse
    {digits : alpha -> Nat} (h : forall n, n < 256 ^ width -> digits (convert n) = n) (low : Nat) :
    Accepts low (readLe width convert) (fun x bytes => bytes = leBytes width (digits x)) := by
  refine accepts_mono (accepts_readLe low) ?_
  rintro x bytes ⟨n, hn, hx, hbytes⟩
  rw [hx, h n hn]
  exact hbytes

end Words

theorem reads_readU32 (v : UInt32) : Reads readU32 v (leBytes 4 v.toNat) :=
  reads_readLe v.toNat_lt UInt32.ofNat_toNat

variable (low : Nat)

theorem accepts_readU32 :
    Accepts low readU32 (fun v bytes => bytes = leBytes 4 v.toNat) :=
  accepts_readLe_of_inverse (fun _ hn => UInt32.toNat_ofNat_of_lt hn) low

theorem reads_readU64 (v : UInt64) : Reads readU64 v (leBytes 8 v.toNat) :=
  reads_readLe v.toNat_lt UInt64.ofNat_toNat

theorem accepts_readU64 :
    Accepts low readU64 (fun v bytes => bytes = leBytes 8 v.toNat) :=
  accepts_readLe_of_inverse (fun _ hn => UInt64.toNat_ofNat_of_lt hn) low

theorem accepts_readU8 :
    Accepts low readU8 (fun v bytes => bytes = leBytes 1 v.toNat) :=
  accepts_readLe_of_inverse (fun _ hn => UInt8.toNat_ofNat_of_lt hn) low

section Position

variable {alpha : Type}

theorem reads_position
    {next : Nat -> Reading alpha} {x : alpha} {bytes : List UInt8}
    (h : forall offset, Reads (next offset) x bytes) :
    Reads (position >>= next) x bytes := by
  intro before after
  exact h before.length before after

theorem accepts_position
    {low : Nat} {next : Nat -> Reading alpha} {spec : alpha -> List UInt8 -> Prop}
    (h : forall offset, Accepts low (next offset) spec) :
    Accepts low (position >>= next) spec := by
  intro before rest hlow
  exact h before.length before rest hlow

end Position

theorem reads_readUsize (label : String) {n : Nat} (h : n < usizeLimit) :
    Reads (readUsize label) n (leBytes 8 n) := by
  have hvalue : (UInt64.ofNat n).toNat = n := UInt64.toNat_ofNat_of_lt h
  refine reads_position (fun offset => ?_)
  have hword := reads_readU64 (UInt64.ofNat n)
  rw [hvalue] at hword
  refine reads_bind_last hword ?_
  rw [if_pos (hvalue.symm ▸ h : (UInt64.ofNat n).toNat < usizeLimit), hvalue]
  exact reads_pure n

theorem accepts_readUsize (label : String) :
    Accepts low (readUsize label) (fun n bytes => n < usizeLimit ∧ bytes = leBytes 8 n) := by
  refine accepts_position (fun offset => ?_)
  refine accepts_mono (accepts_bind _ (accepts_readU64 low) (fun value bytes _ =>
    accepts_ite (fun _ => accepts_pure _ value.toNat) (fun _ => accepts_failing _ _ _))) ?_
  rintro n bytes ⟨value, xs, ys, hxs, ⟨hn, hys⟩, hbytes⟩
  rw [hys, List.append_nil, hxs] at hbytes
  rw [hn]
  exact ⟨value.toNat_lt, hbytes⟩

/-!
# Strings
-/

theorem utf8Bytes_length (text : String) : (utf8Bytes text).length = text.utf8ByteSize :=
  rfl

theorem utf8Bytes_toByteArray (text : String) :
    (utf8Bytes text).toByteArray = text.toByteArray := by
  apply ByteArray.ext
  exact List.data_toByteArray

theorem fromUTF8_utf8Bytes (text : String) :
    String.fromUTF8? (utf8Bytes text).toByteArray = some text := by
  rw [utf8Bytes_toByteArray]
  exact dif_pos text.isValidUTF8

variable {bytes : List UInt8}

theorem utf8Bytes_of_fromUTF8 {text : String} (h : String.fromUTF8? bytes.toByteArray = some text) :
    utf8Bytes text = bytes := by
  unfold String.fromUTF8? at h
  split at h
  · cases h
    exact List.toList_data_toByteArray
  · cases h

theorem maxStringLength_lt : MAX_STRING_LENGTH < usizeLimit := by
  decide

theorem reads_readString
    {text : String} (h : text.utf8ByteSize <= MAX_STRING_LENGTH) :
    Reads readString text (stringLayout text) := by
  have hsize : text.utf8ByteSize < usizeLimit := Nat.lt_of_le_of_lt h maxStringLength_lt
  refine reads_bind (reads_readUsize "string length" hsize) ?_
  rw [if_neg (Nat.not_lt_of_le h)]
  refine reads_position (fun offset => ?_)
  refine reads_bind_last (reads_take (utf8Bytes text) (needBytes text.utf8ByteSize)) ?_
  rw [fromUTF8_utf8Bytes]
  exact reads_pure text

theorem accepts_stringBytes (low len : Nat) :
    Accepts low (position >>= fun offset => readBytes len >>= fun bytes =>
      match String.fromUTF8? bytes.toByteArray with
      | some text => pure text
      | none => failing fun _ => parseErrorAt "invalid UTF-8 in string" offset)
      (fun text bytes => text.utf8ByteSize = len ∧ bytes = utf8Bytes text) := by
  refine accepts_position (fun offset => ?_)
  refine accepts_mono (accepts_bind (fun bytes text ys => utf8Bytes text = bytes ∧ ys = [])
    (accepts_take low len (needBytes len)) (fun bytes xs _ => ?_)) ?_
  · cases htext : String.fromUTF8? bytes.toByteArray with
    | some text =>
      refine accepts_mono (accepts_pure _ text) ?_
      rintro read ys ⟨hread, hys⟩
      rw [hread]
      exact ⟨utf8Bytes_of_fromUTF8 htext, hys⟩
    | none => exact accepts_failing _ _ _
  · rintro text bytes ⟨x, xs, ys, ⟨hx, hlength⟩, ⟨htext, hys⟩, hbytes⟩
    rw [hys, List.append_nil] at hbytes
    rw [hbytes, ← hlength, ← hx, ← htext]
    exact ⟨(utf8Bytes_length text).symm, rfl⟩

theorem accepts_readString :
    Accepts low readString (fun text bytes =>
      text.utf8ByteSize <= MAX_STRING_LENGTH ∧ bytes = stringLayout text) := by
  refine accepts_mono (accepts_bind
    (fun len text ys => len <= MAX_STRING_LENGTH ∧ text.utf8ByteSize = len ∧
      ys = utf8Bytes text)
    (accepts_readUsize low "string length") (fun len bytes hlen => ?_)) ?_
  · refine accepts_ite (fun _ => accepts_failingBack ?_ _ _) (fun hshort => ?_)
    · rw [hlen.2, leBytes_length]
      exact Nat.le_add_left _ _
    · refine accepts_mono (accepts_stringBytes _ len) ?_
      rintro text ys ⟨htext, hys⟩
      exact ⟨Nat.le_of_not_lt hshort, htext, hys⟩
  · rintro text bytes ⟨len, xs, ys, ⟨_, hxs⟩, ⟨hlen, htext, hys⟩, hbytes⟩
    rw [hbytes, hxs, hys, ← htext]
    exact ⟨htext ▸ hlen, rfl⟩

/-!
# Values
-/

variable {alpha : Type}

theorem reads_wrapped {width n : Nat} {convert : Nat -> alpha} {v : alpha}
    (wrap : alpha -> GGUFValue) (h : n < 256 ^ width) (hv : convert n = v) :
    Reads (readLe width convert >>= fun v => pure (wrap v)) (wrap v) (leBytes width n) :=
  reads_bind_last (reads_readLe h hv) (reads_pure _)

theorem accepts_wrapped {low width : Nat} {convert : Nat -> alpha} {digits : alpha -> Nat}
    (wrap : alpha -> GGUFValue) {spec : GGUFValue -> List UInt8 -> Prop}
    (h : forall n, n < 256 ^ width -> digits (convert n) = n)
    (hspec : forall v, spec (wrap v) (leBytes width (digits v))) :
    Accepts low (readLe width convert >>= fun v => pure (wrap v)) spec := by
  refine accepts_mono (accepts_bind _ (accepts_readLe_of_inverse h low)
    (fun v bytes _ => accepts_pure _ (wrap v))) ?_
  rintro x bytes ⟨v, xs, ys, hxs, ⟨hx, hys⟩, hbytes⟩
  rw [hys, List.append_nil] at hbytes
  rw [hx, hbytes, hxs]
  exact hspec v

theorem reads_readBool (v : Bool) : Reads readBool v (leBytes 1 (boolByte v)) := by
  refine reads_position (fun offset => ?_)
  cases v with
  | false => exact reads_bind_last (reads_readLe (by decide) rfl) (reads_pure false)
  | true => exact reads_bind_last (reads_readLe (by decide) rfl) (reads_pure true)

theorem accepts_readBool :
    Accepts low readBool (fun v bytes => bytes = leBytes 1 (boolByte v)) := by
  refine accepts_position (fun offset => ?_)
  refine accepts_mono (accepts_bind (fun value v ys => value.toNat = boolByte v ∧ ys = [])
    (accepts_readU8 low) (fun value bytes _ => ?_)) ?_
  · split
    · rename_i hvalue
      refine accepts_mono (accepts_pure _ false) ?_
      rintro v ys ⟨hv, hys⟩
      rw [hv]
      exact ⟨hvalue, hys⟩
    · rename_i hvalue
      refine accepts_mono (accepts_pure _ true) ?_
      rintro v ys ⟨hv, hys⟩
      rw [hv]
      exact ⟨hvalue, hys⟩
    · exact accepts_failing _ _ _
  · rintro v bytes ⟨value, xs, ys, hxs, ⟨hvalue, hys⟩, hbytes⟩
    rw [hys, List.append_nil] at hbytes
    rw [hbytes, hxs, hvalue]

theorem encodesValue_length {levels : Nat} {value : GGUFValue}
    (h : EncodesValue levels value bytes) :
    1 <= bytes.length := by
  cases levels with
  | zero => exact h.elim
  | succ levels =>
    cases value with
    | array items =>
      rcases h with ⟨elemType, itemBytes, _, _, _, hbytes⟩
      rw [hbytes, List.length_append, leBytes_length]
      omega
    | string text =>
      rw [h.2]
      unfold stringLayout
      rw [List.length_append, leBytes_length]
      omega
    | _ =>
      rw [h]
      exact Nat.succ_le_succ (Nat.zero_le _)

theorem reads_readArray
    {readItem : Nat -> Reading GGUFValue} {spec : GGUFValue -> List UInt8 -> Prop}
    {elemType : Nat} {items : List GGUFValue} {itemBytes : List UInt8} (helem : elemType <= 12)
    (hcount : items.length <= MAX_ARRAY_ELEMENTS) (hitems : Repeats spec items itemBytes)
    (hlength : forall item xs, spec item xs -> 1 <= xs.length)
    (hread : forall item xs, spec item xs -> Reads (readItem elemType) item xs) :
    Reads (readArray readItem) (.array items)
      (leBytes 4 elemType ++ (leBytes 8 items.length ++ itemBytes)) := by
  have hword : (UInt32.ofNat elemType).toNat = elemType :=
    UInt32.toNat_ofNat_of_lt (Nat.lt_of_le_of_lt helem (by decide))
  have htype := reads_readU32 (UInt32.ofNat elemType)
  rw [hword] at htype
  have hfits : items.length < usizeLimit :=
    Nat.lt_of_le_of_lt hcount (by decide)
  have henough : items.length <= itemBytes.length :=
    Nat.mul_one items.length ▸ hitems.length_le hlength
  refine reads_bind htype ?_
  rw [hword, if_neg (Nat.not_lt_of_le helem)]
  refine reads_bind (reads_readUsize _ hfits) ?_
  rw [if_neg (Nat.not_lt_of_le hcount)]
  refine reads_require henough ?_
  exact reads_bind_last (reads_readMany hitems (fun item xs _ hspec => hread item xs hspec))
    (reads_pure _)

theorem reads_readValueAtDepth {levels : Nat} {value : GGUFValue}
    (h : EncodesValue levels value bytes) :
    Reads (readValueAtDepth levels value.valueType) value bytes := by
  induction levels generalizing value bytes with
  | zero => exact h.elim
  | succ levels ih =>
    cases value with
    | array items =>
      rcases h with ⟨elemType, itemBytes, helem, hcount, hitems, hbytes⟩
      rw [hbytes]
      exact reads_readArray helem hcount hitems (fun item xs hitem => encodesValue_length hitem.2)
        (fun item xs hitem => hitem.1 ▸ ih hitem.2)
    | string text =>
      rw [h.2]
      exact reads_bind_last (reads_readString h.1) (reads_pure _)
    | bool v =>
      rw [h]
      exact reads_bind_last (reads_readBool v) (reads_pure _)
    | u8 v =>
      rw [h]
      exact reads_wrapped .u8 v.toNat_lt UInt8.ofNat_toNat
    | i8 v =>
      rw [h]
      refine reads_wrapped .i8 v.toUInt8.toNat_lt ?_
      rw [UInt8.ofNat_toNat]
      exact Int8.toInt8_toUInt8 v
    | u16 v =>
      rw [h]
      exact reads_wrapped .u16 v.toNat_lt UInt16.ofNat_toNat
    | i16 v =>
      rw [h]
      refine reads_wrapped .i16 v.toUInt16.toNat_lt ?_
      rw [UInt16.ofNat_toNat]
      exact Int16.toInt16_toUInt16 v
    | u32 v =>
      rw [h]
      exact reads_wrapped .u32 v.toNat_lt UInt32.ofNat_toNat
    | i32 v =>
      rw [h]
      refine reads_wrapped .i32 v.toUInt32.toNat_lt ?_
      rw [UInt32.ofNat_toNat]
      exact Int32.toInt32_toUInt32 v
    | f32 bits =>
      rw [h]
      exact reads_wrapped .f32 bits.toNat_lt UInt32.ofNat_toNat
    | u64 v =>
      rw [h]
      exact reads_wrapped .u64 v.toNat_lt UInt64.ofNat_toNat
    | i64 v =>
      rw [h]
      refine reads_wrapped .i64 v.toUInt64.toNat_lt ?_
      rw [UInt64.ofNat_toNat]
      exact Int64.toInt64_toUInt64 v
    | f64 bits =>
      rw [h]
      exact reads_wrapped .f64 bits.toNat_lt UInt64.ofNat_toNat

theorem accepts_readArray
    {readItem : Nat -> Reading GGUFValue} {spec : Nat -> GGUFValue -> List UInt8 -> Prop}
    (hread : forall elemType low, Accepts low (readItem elemType) (spec elemType)) (low : Nat) :
    Accepts low (readArray readItem) (fun value bytes => exists items elemType itemBytes,
      value = .array items ∧ elemType <= 12 ∧ items.length <= MAX_ARRAY_ELEMENTS ∧
      Repeats (spec elemType) items itemBytes ∧
      bytes = leBytes 4 elemType ++ (leBytes 8 items.length ++ itemBytes)) := by
  refine accepts_mono (accepts_bind (fun elemType value ys => exists items itemBytes,
      value = .array items ∧ elemType.toNat <= 12 ∧ items.length <= MAX_ARRAY_ELEMENTS ∧
      Repeats (spec elemType.toNat) items itemBytes ∧
      ys = leBytes 8 items.length ++ itemBytes)
    (accepts_readU32 low) (fun elemType bytes hbytes => ?_)) ?_
  · refine accepts_ite (fun _ => accepts_failingBack ?_ _ _) (fun helem => ?_)
    · rw [hbytes, leBytes_length]
      exact Nat.le_add_left _ _
    · refine accepts_mono (accepts_bind (fun count value ys => exists items,
          value = .array items ∧ items.length = count ∧ count <= MAX_ARRAY_ELEMENTS ∧
          Repeats (spec elemType.toNat) items ys)
        (accepts_readUsize _ "array element count") (fun count xs hcount => ?_)) ?_
      · refine accepts_ite (fun _ => accepts_failingBack ?_ _ _) (fun hmany => ?_)
        · rw [hcount.2, leBytes_length]
          exact Nat.le_add_left _ _
        · refine accepts_mono (accepts_bind
            (fun _ value ys => exists items, value = .array items ∧ items.length = count ∧
              Repeats (spec elemType.toNat) items ys)
            (accepts_require _ count (countExceeds count)) (fun _ _ _ => ?_)) ?_
          · refine accepts_mono (accepts_bind _ (accepts_readMany (hread elemType.toNat) count)
              (fun items _ _ => accepts_pure _ (GGUFValue.array items))) ?_
            rintro value ys ⟨items, zs, ws, ⟨hlength, hitems⟩, ⟨hvalue, hws⟩, hys⟩
            rw [hws, List.append_nil] at hys
            exact ⟨items, hvalue, hlength, hys ▸ hitems⟩
          · rintro value ys ⟨_, zs, ws, hzs, ⟨items, hvalue, hlength, hitems⟩, hys⟩
            rw [hzs, List.nil_append] at hys
            exact ⟨items, hvalue, hlength, Nat.le_of_not_lt hmany, hys ▸ hitems⟩
      · rintro value ys ⟨count, zs, ws, ⟨_, hzs⟩, ⟨items, hvalue, hlength, hmany, hitems⟩, hys⟩
        rw [hzs, ← hlength] at hys
        exact ⟨items, ws, hvalue, Nat.le_of_not_lt helem, hlength ▸ hmany, hitems, hys⟩
  · rintro value bytes ⟨elemType, xs, ys, hxs,
      ⟨items, itemBytes, hvalue, helem, hcount, hitems, hys⟩, hbytes⟩
    rw [hxs, hys] at hbytes
    exact ⟨items, elemType.toNat, itemBytes, hvalue, helem, hcount, hitems, hbytes⟩

theorem accepts_readValueAtDepth (levels valueType low : Nat) :
    Accepts low (readValueAtDepth levels valueType) (fun value bytes =>
      value.valueType = valueType ∧ EncodesValue levels value bytes) := by
  induction levels generalizing valueType low with
  | zero => exact accepts_ite (fun _ => accepts_failing _ _ _) (fun _ => accepts_failing _ _ _)
  | succ levels ih =>
    unfold readValueAtDepth
    split
    · exact accepts_wrapped .u8 (fun _ hn => UInt8.toNat_ofNat_of_lt hn) (fun _ => ⟨rfl, rfl⟩)
    · exact accepts_wrapped .i8 (fun _ hn => UInt8.toNat_ofNat_of_lt hn) (fun _ => ⟨rfl, rfl⟩)
    · exact accepts_wrapped .u16 (fun _ hn => UInt16.toNat_ofNat_of_lt hn) (fun _ => ⟨rfl, rfl⟩)
    · exact accepts_wrapped .i16 (fun _ hn => UInt16.toNat_ofNat_of_lt hn) (fun _ => ⟨rfl, rfl⟩)
    · exact accepts_wrapped .u32 (fun _ hn => UInt32.toNat_ofNat_of_lt hn) (fun _ => ⟨rfl, rfl⟩)
    · exact accepts_wrapped .i32 (fun _ hn => UInt32.toNat_ofNat_of_lt hn) (fun _ => ⟨rfl, rfl⟩)
    · exact accepts_wrapped .f32 (fun _ hn => UInt32.toNat_ofNat_of_lt hn) (fun _ => ⟨rfl, rfl⟩)
    · refine accepts_mono (accepts_bind _ (accepts_readBool low)
        (fun v _ _ => accepts_pure _ (GGUFValue.bool v))) ?_
      rintro value bytes ⟨v, xs, ys, hxs, ⟨hvalue, hys⟩, hbytes⟩
      rw [hys, List.append_nil, hxs] at hbytes
      rw [hvalue, hbytes]
      exact ⟨rfl, rfl⟩
    · refine accepts_mono (accepts_bind _ (accepts_readString low)
        (fun text _ _ => accepts_pure _ (GGUFValue.string text))) ?_
      rintro value bytes ⟨text, xs, ys, ⟨hshort, hxs⟩, ⟨hvalue, hys⟩, hbytes⟩
      rw [hys, List.append_nil, hxs] at hbytes
      rw [hvalue, hbytes]
      exact ⟨rfl, hshort, rfl⟩
    · refine accepts_mono (accepts_readArray (fun elemType low => ih elemType low) low) ?_
      rintro value bytes ⟨items, elemType, itemBytes, hvalue, helem, hcount, hitems, hbytes⟩
      rw [hvalue]
      exact ⟨rfl, elemType, itemBytes, helem, hcount, hitems, hbytes⟩
    · exact accepts_wrapped .u64 (fun _ hn => UInt64.toNat_ofNat_of_lt hn) (fun _ => ⟨rfl, rfl⟩)
    · exact accepts_wrapped .i64 (fun _ hn => UInt64.toNat_ofNat_of_lt hn) (fun _ => ⟨rfl, rfl⟩)
    · exact accepts_wrapped .f64 (fun _ hn => UInt64.toNat_ofNat_of_lt hn) (fun _ => ⟨rfl, rfl⟩)
    · exact accepts_failing _ _ _

/-!
# Metadata entries
-/

theorem keyIsValid_iff (key : String) :
    keyIsValid key = true ↔ key ≠ "" ∧ key.utf8ByteSize <= MAX_METADATA_KEY_LENGTH ∧
      isAscii key = true := by
  unfold keyIsValid
  rw [Bool.and_eq_true, Bool.and_eq_true, Bool.not_eq_true', decide_eq_true_iff, and_assoc]
  apply and_congr_left'
  rw [← Bool.not_eq_true, String.isEmpty_iff]

variable {metadata : List (String × GGUFValue)}

theorem any_key_eq_false {key : String} :
    ¬ metadata.any (fun entry => entry.1 == key) = true ↔
      forall entry, entry ∈ metadata -> entry.1 ≠ key := by
  rw [List.any_eq_true, not_exists]
  apply forall_congr'
  intro entry
  rw [not_and, beq_iff_eq]

theorem reads_readEntry {entry : String × GGUFValue} (hvalid : keyIsValid entry.1 = true)
    (hfresh : forall other, other ∈ metadata -> other.1 ≠ entry.1) (h : EncodesEntry entry bytes) :
    Reads (readEntry metadata) entry bytes := by
  rcases h with ⟨valueBytes, hvalue, hbytes⟩
  rw [hbytes]
  have hshort : entry.1.utf8ByteSize <= MAX_STRING_LENGTH :=
    Nat.le_trans ((keyIsValid_iff entry.1).mp hvalid).2.1 (by decide)
  have htype : (UInt32.ofNat entry.2.valueType).toNat = entry.2.valueType :=
    UInt32.toNat_ofNat_of_lt (Nat.lt_of_le_of_lt (valueType_le entry.2) (by decide))
  have hword := reads_readU32 (UInt32.ofNat entry.2.valueType)
  rw [htype] at hword
  refine reads_bind (reads_readString hshort) ?_
  rw [if_neg (by rw [hvalid]; decide), if_neg (any_key_eq_false.mpr hfresh)]
  refine reads_bind hword ?_
  rw [htype]
  exact reads_bind_last (reads_readValueAtDepth hvalue) (reads_pure entry)

def AdmitsEntry (metadata : List (String × GGUFValue)) (entry : String × GGUFValue) : Prop :=
  keyIsValid entry.1 = true ∧ forall other, other ∈ metadata -> other.1 ≠ entry.1

theorem stringLayout_length (text : String) :
    (stringLayout text).length = 8 + text.utf8ByteSize := by
  unfold stringLayout
  rw [List.length_append, leBytes_length, utf8Bytes_length]

theorem accepts_readEntry (metadata : List (String × GGUFValue)) (low : Nat) :
    Accepts low (readEntry metadata) (fun entry bytes =>
      AdmitsEntry metadata entry ∧ EncodesEntry entry bytes) := by
  refine accepts_mono (accepts_bind
    (fun key entry ys => entry.1 = key ∧ AdmitsEntry metadata entry ∧
      exists valueBytes, EncodesValue (MAX_ARRAY_NESTING + 1) entry.2 valueBytes ∧
        ys = leBytes 4 entry.2.valueType ++ valueBytes)
    (accepts_readString low) (fun key bytes hkey => ?_)) ?_
  · have hback : key.utf8ByteSize <= low + bytes.length := by
      rw [hkey.2, stringLayout_length]
      omega
    refine accepts_ite (fun _ => accepts_failingBack hback _ _) (fun hvalid => ?_)
    refine accepts_ite (fun _ => accepts_failingBack hback _ _) (fun hfresh => ?_)
    refine accepts_mono (accepts_bind _ (accepts_readU32 _) (fun valueType _ _ =>
      accepts_bind _ (accepts_readValueAtDepth _ valueType.toNat _)
        (fun value _ _ => accepts_pure _ (key, value)))) ?_
    rintro entry ys ⟨valueType, xs, zs, hxs, ⟨value, vs, ws, ⟨htype, hvalue⟩, ⟨hentry, hws⟩,
      hzs⟩, hys⟩
    rw [hws, List.append_nil] at hzs
    rw [hxs, hzs, ← htype] at hys
    rw [hentry]
    refine ⟨rfl, ⟨?_, any_key_eq_false.mp hfresh⟩, vs, hvalue, hys⟩
    rw [Bool.not_eq_true', Bool.not_eq_false] at hvalid
    exact hvalid
  · rintro entry bytes ⟨key, xs, ys, ⟨_, hxs⟩, ⟨hkey, hadmits, valueBytes, hvalue, hys⟩, hbytes⟩
    rw [hxs, hys, ← hkey] at hbytes
    exact ⟨hadmits, valueBytes, hvalue, hbytes⟩

/-!
# Tensor records
-/

variable {alignment : Nat}

theorem metadataAlignment_pos (h : metadataAlignment metadata = .ok alignment) :
    alignment ≠ 0 := by
  unfold metadataAlignment at h
  split at h
  · cases h
    decide
  · split at h
    · cases h
    · rename_i value found
      split at h
      · rename_i hpower
        cases h
        rw [isPowerOfTwo, Bool.and_eq_true, bne_iff_ne] at hpower
        exact hpower.1
      · cases h

theorem reads_remainder (h : alignment ≠ 0) (n : Nat) :
    Reads (remainder n alignment) (n % alignment) [] := by
  unfold remainder
  rw [if_neg h]
  exact reads_pure _

theorem accepts_remainder (h : alignment ≠ 0) (low n : Nat) :
    Accepts low (remainder n alignment) (fun rest bytes => rest = n % alignment ∧ bytes = []) := by
  unfold remainder
  rw [if_neg h]
  exact accepts_pure low _

def IsDim (dim : Nat) (bytes : List UInt8) : Prop :=
  dim < usizeLimit ∧ bytes = leBytes 8 dim

theorem repeats_dims
    {dims : List Nat} (h : forall dim, dim ∈ dims -> dim < usizeLimit) :
    Repeats IsDim dims (dims.flatMap (leBytes 8)) :=
  repeats_flatMap (fun dim hdim => ⟨h dim hdim, rfl⟩)

theorem flatMap_of_repeats_dims {dims : List Nat} (h : Repeats IsDim dims bytes) :
    bytes = dims.flatMap (leBytes 8) ∧ forall dim, dim ∈ dims -> dim < usizeLimit := by
  induction h with
  | nil => exact ⟨rfl, fun dim hdim => absurd hdim List.not_mem_nil⟩
  | @cons dim rest bytes others head tail ih =>
    rw [List.flatMap_cons, head.2, ih.1]
    refine ⟨rfl, fun other hother => ?_⟩
    rcases List.mem_cons.mp hother with hsame | hrest
    · exact hsame ▸ head.1
    · exact ih.2 other hrest

def recordLayout (info : TensorInfo) : List UInt8 :=
  leBytes 4 info.shape.length ++ (dimsLayout info.shape ++
    (leBytes 4 info.ggmlType.code ++ leBytes 8 info.offset.toNat))

theorem reads_readTensorRecord {info : TensorInfo} (halignment : alignment ≠ 0)
    (h : info.WellFormed alignment) :
    Reads (readTensorRecord alignment info.name) info (recordLayout info) := by
  have hcount : (UInt32.ofNat info.shape.length).toNat = info.shape.length :=
    UInt32.toNat_ofNat_of_lt (Nat.lt_of_le_of_lt h.dimensions (by decide))
  have hcountWord := reads_readU32 (UInt32.ofNat info.shape.length)
  rw [hcount] at hcountWord
  have hcode : (UInt32.ofNat info.ggmlType.code).toNat = info.ggmlType.code :=
    UInt32.toNat_ofNat_of_lt info.ggmlType.code_lt
  have hcodeWord := reads_readU32 (UInt32.ofNat info.ggmlType.code)
  rw [hcode] at hcodeWord
  have hdims := reads_readMany
    (repeats_dims (fun dim hdim => h.dims dim (List.mem_reverse.mp hdim)))
    (fun dim xs _ hdim => hdim.2 ▸ reads_readUsize "tensor dimension" hdim.1)
  rw [List.length_reverse] at hdims
  refine reads_bind hcountWord ?_
  rw [hcount, if_neg (Nat.not_lt_of_le h.dimensions)]
  refine reads_bind hdims ?_
  refine reads_bind hcodeWord ?_
  rw [hcode, GGMLType.tryFrom_code]
  refine reads_bind_last (reads_readU64 info.offset) ?_
  refine reads_bind_nil (reads_remainder halignment info.offset.toNat) ?_
  rw [Nat.mod_eq_zero_of_dvd h.aligned, if_neg (not_not.mpr rfl), List.reverse_reverse]
  exact reads_pure info

theorem accepts_readTypeAndOffset (halignment : alignment ≠ 0) (low : Nat) (name : String)
    (dims : List Nat) :
    Accepts low (readTypeAndOffset alignment name dims)
      (fun info bytes => info.name = name ∧ info.shape = dims.reverse ∧
        alignment ∣ info.offset.toNat ∧
        bytes = leBytes 4 info.ggmlType.code ++ leBytes 8 info.offset.toNat) := by
  refine accepts_mono (accepts_bind
    (fun typeRaw (info : TensorInfo) ys => info.name = name ∧ info.shape = dims.reverse ∧
      alignment ∣ info.offset.toNat ∧ typeRaw.toNat = info.ggmlType.code ∧
      ys = leBytes 8 info.offset.toNat)
    (accepts_readU32 low) (fun typeRaw bytes _ => ?_)) ?_
  · cases htype : GGMLType.tryFrom typeRaw.toNat with
    | none => exact accepts_failing _ _ _
    | some ggmlType =>
      refine accepts_mono (accepts_bind
        (fun offset (info : TensorInfo) ys => info.name = name ∧ info.shape = dims.reverse ∧
          alignment ∣ info.offset.toNat ∧ typeRaw.toNat = info.ggmlType.code ∧
          info.offset = offset ∧ ys = [])
        (accepts_readU64 _) (fun offset xs hxs => ?_)) ?_
      · refine accepts_mono (accepts_bind (fun misaligned info ys => misaligned = 0 ∧
            info = (⟨name, dims.reverse, ggmlType, offset⟩ : TensorInfo) ∧ ys = [])
          (accepts_remainder halignment _ offset.toNat) (fun misaligned zs _ => ?_)) ?_
        · refine accepts_ite (fun _ => accepts_failingBack ?_ _ _) (fun haligned => ?_)
          · rw [hxs, leBytes_length]
            omega
          · refine accepts_mono (accepts_pure _ _) ?_
            rintro info ys ⟨hinfo, hys⟩
            exact ⟨not_not.mp haligned, hinfo, hys⟩
        · rintro info ys ⟨misaligned, zs, ws, ⟨hrest, hzs⟩, ⟨hzero, hinfo, hws⟩, hys⟩
          rw [hzs, hws] at hys
          rw [hinfo]
          exact ⟨rfl, rfl, Nat.dvd_of_mod_eq_zero (hrest.symm.trans hzero),
            GGMLType.code_of_tryFrom htype, rfl, hys⟩
      · rintro info ys ⟨offset, zs, ws, hzs, ⟨hname, hshape, haligned, hcode, hoffset, hws⟩, hys⟩
        rw [hws, List.append_nil, hzs, ← hoffset] at hys
        exact ⟨hname, hshape, haligned, hcode, hys⟩
  · rintro info bytes ⟨typeRaw, xs, ys, hxs, ⟨hname, hshape, haligned, hcode, hys⟩, hbytes⟩
    rw [hxs, hcode, hys] at hbytes
    exact ⟨hname, hshape, haligned, hbytes⟩

theorem accepts_readTensorRecord (halignment : alignment ≠ 0) (low : Nat) (name : String) :
    Accepts low (readTensorRecord alignment name) (fun info bytes => info.name = name ∧
      info.shape.length <= 4 ∧ (forall dim, dim ∈ info.shape -> dim < usizeLimit) ∧
      alignment ∣ info.offset.toNat ∧ bytes = recordLayout info) := by
  refine accepts_mono (accepts_bind
    (fun nDims (info : TensorInfo) ys => info.name = name ∧ info.shape.length = nDims.toNat ∧
      nDims.toNat <= 4 ∧ (forall dim, dim ∈ info.shape -> dim < usizeLimit) ∧
      alignment ∣ info.offset.toNat ∧ ys = dimsLayout info.shape ++
        (leBytes 4 info.ggmlType.code ++ leBytes 8 info.offset.toNat))
    (accepts_readU32 low) (fun nDims bytes hbytes => ?_)) ?_
  · refine accepts_ite (fun _ => accepts_failingBack ?_ _ _) (fun hmany => ?_)
    · rw [hbytes, leBytes_length]
      exact Nat.le_add_left _ _
    · refine accepts_mono (accepts_bind _
        (accepts_readMany (fun low => accepts_readUsize low "tensor dimension") nDims.toNat)
        (fun dims _ _ => accepts_readTypeAndOffset halignment _ name dims)) ?_
      rintro info ys ⟨dims, xs, zs, ⟨hlength, hdims⟩, ⟨hname, hshape, haligned, hzs⟩, hys⟩
      rcases flatMap_of_repeats_dims hdims with ⟨hxs, hbound⟩
      unfold dimsLayout
      rw [hshape, List.length_reverse, List.reverse_reverse]
      rw [hxs, hzs] at hys
      exact ⟨hname, hlength, Nat.le_of_not_lt hmany,
        fun dim hdim => hbound dim (List.mem_reverse.mp hdim), haligned, hys⟩
  · rintro info bytes ⟨nDims, xs, ys, hxs, ⟨hname, hlength, hfew, hdims, haligned, hys⟩, hbytes⟩
    rw [hxs, hys, ← hlength] at hbytes
    exact ⟨hname, hlength ▸ hfew, hdims, haligned, hbytes⟩

variable {infos : List TensorInfo}

theorem any_name_eq_false {name : String} :
    ¬ infos.any (fun info => info.name == name) = true ↔
      forall info, info ∈ infos -> info.name ≠ name := by
  rw [List.any_eq_true, not_exists]
  apply forall_congr'
  intro info
  rw [not_and, beq_iff_eq]

theorem reads_readTensorInfo {info : TensorInfo} (halignment : alignment ≠ 0)
    (h : info.WellFormed alignment)
    (hfresh : forall other, other ∈ infos -> other.name ≠ info.name) :
    Reads (readTensorInfo alignment infos) info (tensorLayout info) := by
  have hshort : info.name.utf8ByteSize <= MAX_STRING_LENGTH :=
    Nat.le_trans (Nat.le_of_lt h.name) (by decide)
  refine reads_bind (reads_readString hshort) ?_
  rw [if_neg (Nat.not_le_of_lt h.name), if_neg (any_name_eq_false.mpr hfresh)]
  exact reads_readTensorRecord halignment h

def AdmitsTensor (alignment : Nat) (infos : List TensorInfo) (info : TensorInfo) : Prop :=
  info.WellFormed alignment ∧ forall other, other ∈ infos -> other.name ≠ info.name

theorem accepts_readTensorInfo (halignment : alignment ≠ 0) (infos : List TensorInfo) (low : Nat) :
    Accepts low (readTensorInfo alignment infos) (fun info bytes =>
      AdmitsTensor alignment infos info ∧ bytes = tensorLayout info) := by
  refine accepts_mono (accepts_bind
    (fun name (info : TensorInfo) ys => info.name = name ∧ AdmitsTensor alignment infos info ∧
      ys = recordLayout info)
    (accepts_readString low) (fun name bytes hname => ?_)) ?_
  · have hback : name.utf8ByteSize <= low + bytes.length := by
      rw [hname.2, stringLayout_length]
      omega
    refine accepts_ite (fun _ => accepts_failingBack hback _ _) (fun hshort => ?_)
    refine accepts_ite (fun _ => accepts_failingBack hback _ _) (fun hfresh => ?_)
    refine accepts_mono (accepts_readTensorRecord halignment _ name) ?_
    rintro info ys ⟨hinfo, hfew, hdims, haligned, hys⟩
    refine ⟨hinfo, ⟨⟨?_, hfew, hdims, haligned⟩, ?_⟩, hys⟩
    · rw [hinfo]
      exact Nat.lt_of_not_le hshort
    · rw [hinfo]
      exact any_name_eq_false.mp hfresh
  · rintro info bytes ⟨name, xs, ys, ⟨_, hxs⟩, ⟨hname, hadmits, hys⟩, hbytes⟩
    rw [hxs, hys, ← hname] at hbytes
    exact ⟨hadmits, hbytes⟩

/-!
# The counts
-/

theorem reads_readVersion
    {version : Nat} (h : version ∈ SUPPORTED_VERSIONS) :
    Reads readVersion version (leBytes 4 version) := by
  have hsmall : version < 256 ^ 4 := by
    rcases List.mem_cons.mp h with hv | hv
    · rw [hv]
      decide
    · rw [List.mem_singleton.mp hv]
      decide
  have hbytes := reads_take (leBytes 4 version) (needBytes 4)
  rw [leBytes_length] at hbytes
  refine reads_position (fun offset => reads_bind_last hbytes ?_)
  unfold exactly
  rw [if_pos (leBytes_length 4 version)]
  refine reads_bind_nil (reads_pure _) ?_
  dsimp only
  rw [leValue_leBytes hsmall, if_pos h]
  exact reads_pure version

theorem accepts_readVersion :
    Accepts low readVersion (fun version bytes =>
      version ∈ SUPPORTED_VERSIONS ∧ bytes = leBytes 4 version) := by
  refine accepts_position (fun offset => ?_)
  refine accepts_mono (accepts_bind
    (fun bytes version ys => version ∈ SUPPORTED_VERSIONS ∧ version = leValue bytes ∧ ys = [])
    (accepts_take low 4 (needBytes 4)) (fun bytes xs hbytes => ?_)) ?_
  · have hlength : bytes.length = 4 := hbytes.1 ▸ hbytes.2
    unfold exactly
    rw [if_pos hlength]
    refine accepts_mono (accepts_bind
      (fun digits version ys => version ∈ SUPPORTED_VERSIONS ∧ version = leValue digits ∧ ys = [])
      (accepts_pure _ bytes) (fun digits _ _ => ?_)) ?_
    · refine accepts_ite (fun hsupported => ?_) (fun _ =>
        accepts_ite (fun _ => accepts_failing _ _ _) (fun _ => accepts_failing _ _ _))
      refine accepts_mono (accepts_pure _ _) ?_
      rintro version ys ⟨hversion, hys⟩
      exact ⟨hversion ▸ hsupported, hversion, hys⟩
    · rintro version ys ⟨digits, zs, ws, ⟨hdigits, hzs⟩, ⟨hsupported, hversion, hws⟩, hys⟩
      rw [hzs, hws] at hys
      exact ⟨hsupported, hdigits ▸ hversion, hys⟩
  · rintro version bytes ⟨digits, xs, ys, ⟨hdigits, hlength⟩, ⟨hsupported, hversion, hys⟩, hbytes⟩
    rw [hys, List.append_nil] at hbytes
    refine ⟨hsupported, ?_⟩
    rw [hversion, hdigits, hbytes, ← hlength]
    exact (leBytes_leValue xs).symm

theorem minimumHeaderBytes_of_lt
    {kvCount tensorCount : Nat}
    (h : kvCount * MIN_METADATA_RECORD_BYTES + tensorCount * MIN_TENSOR_INFO_BYTES < usizeLimit) :
    minimumHeaderBytes kvCount tensorCount =
      some (kvCount * MIN_METADATA_RECORD_BYTES + tensorCount * MIN_TENSOR_INFO_BYTES) := by
  unfold minimumHeaderBytes checkedUsize
  rw [if_pos (Nat.lt_of_le_of_lt (Nat.le_add_right _ _) h),
    if_pos (Nat.lt_of_le_of_lt (Nat.le_add_left _ _) h)]
  exact if_pos h

theorem reads_checkCounts {next : Unit -> Reading alpha} {x : alpha} {kvCount tensorCount : Nat}
    (hroom : kvCount * MIN_METADATA_RECORD_BYTES + tensorCount * MIN_TENSOR_INFO_BYTES <=
      bytes.length) (hlimit : bytes.length < usizeLimit) (hnext : Reads (next ()) x bytes) :
    Reads (checkCounts kvCount tensorCount >>= next) x bytes := by
  unfold checkCounts
  rw [minimumHeaderBytes_of_lt (Nat.lt_of_le_of_lt hroom hlimit)]
  exact reads_require hroom hnext

theorem accepts_checkCounts (low kvCount tensorCount : Nat) :
    Accepts low (checkCounts kvCount tensorCount) (fun _ bytes => bytes = []) := by
  unfold checkCounts
  split
  · exact accepts_failing _ _ _
  · exact accepts_require _ _ _

theorem reads_lift {result : Except LoaderError alpha} {x : alpha} (h : result = .ok x) :
    Reads (lift result) x [] := by
  rw [h]
  exact reads_pure x

theorem accepts_lift (result : Except LoaderError alpha) :
    Accepts low (lift result) (fun x bytes => result = .ok x ∧ bytes = []) := by
  cases result with
  | ok x =>
    refine accepts_mono (accepts_pure low x) ?_
    rintro y bytes ⟨hy, hbytes⟩
    rw [hy]
    exact ⟨rfl, hbytes⟩
  | error fault => exact fun _ _ _ => trivial

/-!
# The header
-/

/-- What the parser knows of a file before it looks for the tensor data. -/
def GGUFFile.header (file : GGUFFile) : Header where
  version := file.version
  tensorCount := file.tensorInfos.length
  metadata := file.metadata
  alignment := file.alignment
  tensorInfos := file.tensorInfos

def Header.file (header : Header) (dataStart : Nat) : GGUFFile where
  version := header.version
  metadata := header.metadata
  tensorInfos := header.tensorInfos
  dataStart := dataStart
  alignment := header.alignment

theorem encodesEntry_length {entry : String × GGUFValue} (h : EncodesEntry entry bytes) :
    MIN_METADATA_RECORD_BYTES <= bytes.length := by
  rcases h with ⟨valueBytes, hvalue, hbytes⟩
  have hlength := encodesValue_length hvalue
  rw [hbytes, List.length_append, List.length_append, stringLayout_length, leBytes_length]
  unfold MIN_METADATA_RECORD_BYTES
  omega

theorem tensorLayout_length (info : TensorInfo) :
    MIN_TENSOR_INFO_BYTES <= (tensorLayout info).length := by
  unfold tensorLayout
  rw [List.length_append, List.length_append, List.length_append, List.length_append,
    stringLayout_length, leBytes_length, leBytes_length, leBytes_length]
  unfold MIN_TENSOR_INFO_BYTES
  omega

theorem repeats_tensors (infos : List TensorInfo) :
    Repeats (fun info xs => xs = tensorLayout info) infos (infos.flatMap tensorLayout) :=
  repeats_flatMap (fun _ _ => rfl)

theorem flatMap_of_repeats_tensors
    (h : Repeats (fun info xs => xs = tensorLayout info) infos bytes) :
    bytes = infos.flatMap tensorLayout := by
  induction h with
  | nil => rfl
  | cons head tail ih => rw [List.flatMap_cons, head, ih]

variable {file : GGUFFile}

theorem records_length {metadataBytes : List UInt8}
    (h : Repeats EncodesEntry file.metadata metadataBytes) :
    file.metadata.length * MIN_METADATA_RECORD_BYTES +
        file.tensorInfos.length * MIN_TENSOR_INFO_BYTES <=
      (metadataBytes ++ file.tensorInfos.flatMap tensorLayout).length := by
  rw [List.length_append]
  apply Nat.add_le_add
  · exact h.length_le (fun entry xs hentry => encodesEntry_length hentry)
  · exact (repeats_tensors file.tensorInfos).length_le
      (fun info xs hinfo => hinfo ▸ tensorLayout_length info)

theorem countsLayout_length (file : GGUFFile) : (countsLayout file).length = 24 := by
  unfold countsLayout
  rw [List.length_append, List.length_append, List.length_append, leBytes_length,
    leBytes_length, leBytes_length]
  rfl

theorem nodup_of_fresh {item name : Type} {f : item -> name} {items : List item}
    (h : forall earlier x later, items = earlier ++ x :: later ->
      forall other, other ∈ earlier -> f other ≠ f x) :
    (items.map f).Nodup := by
  rw [List.Nodup, List.pairwise_map]
  induction items with
  | nil => exact List.Pairwise.nil
  | cons x rest ih =>
    apply List.Pairwise.cons
    · intro y hy
      rcases List.append_of_mem hy with ⟨earlier, later, hsplit⟩
      exact h (x :: earlier) y later (by rw [hsplit]; rfl) x List.mem_cons_self
    · exact ih (fun earlier y later hsplit other hother =>
        h (x :: earlier) y later (by rw [hsplit]; rfl) other (List.mem_cons_of_mem x hother))

theorem fresh_of_nodup {item name : Type} {f : item -> name} {items earlier later : List item}
    {x : item} (h : (items.map f).Nodup) (hsplit : items = earlier ++ x :: later) :
    forall other, other ∈ earlier -> f other ≠ f x := by
  intro other hother hsame
  rw [hsplit, List.map_append] at h
  exact List.disjoint_of_nodup_append h (List.mem_map_of_mem hother)
    (hsame ▸ List.mem_map_of_mem List.mem_cons_self)

theorem reads_readRecords {metadataBytes : List UInt8} (hwell : file.WellFormed)
    (h : Repeats EncodesEntry file.metadata metadataBytes) :
    Reads (readRecords file.version file.metadata.length file.tensorInfos.length) file.header
      (metadataBytes ++ file.tensorInfos.flatMap tensorLayout) := by
  have halignment := metadataAlignment_pos hwell.alignment
  have hentries : Reads (readEach readEntry file.metadata.length [])
      ([] ++ file.metadata) metadataBytes := by
    refine reads_readEach h (fun earlier entry later xs hsplit hentry => ?_)
    have hmem : entry ∈ file.metadata := by
      rw [List.nil_append] at hsplit
      rw [hsplit]
      exact List.mem_append_right _ List.mem_cons_self
    exact reads_readEntry ((keyIsValid_iff entry.1).mpr (hwell.keysValid entry hmem))
      (fresh_of_nodup hwell.keys hsplit) hentry
  have htensors : Reads (readEach (readTensorInfo file.alignment) file.tensorInfos.length [])
      ([] ++ file.tensorInfos) (file.tensorInfos.flatMap tensorLayout) := by
    refine reads_readEach (repeats_tensors file.tensorInfos)
      (fun earlier info later xs hsplit hinfo => ?_)
    have hmem : info ∈ file.tensorInfos := by
      rw [List.nil_append] at hsplit
      rw [hsplit]
      exact List.mem_append_right _ List.mem_cons_self
    rw [hinfo]
    exact reads_readTensorInfo halignment (hwell.tensors info hmem)
      (fresh_of_nodup hwell.names hsplit)
  refine reads_bind hentries ?_
  refine reads_bind_nil (reads_lift hwell.alignment) ?_
  exact reads_bind_last htensors (reads_pure _)

theorem reads_readHeader (hwell : file.WellFormed) (h : EncodesFile file bytes)
    (hlimit : bytes.length < usizeLimit) :
    Reads readHeader file.header bytes := by
  rcases h with ⟨metadataBytes, hmetadata, hbytes⟩
  have hrecords := records_length hmetadata
  have hroom : (metadataBytes ++ file.tensorInfos.flatMap tensorLayout).length < usizeLimit := by
    rw [hbytes, List.length_append] at hlimit
    exact Nat.lt_of_le_of_lt (Nat.le_add_left _ _) hlimit
  have htensorCount : file.tensorInfos.length < usizeLimit := by
    unfold MIN_TENSOR_INFO_BYTES at hrecords
    omega
  have hkvCount : file.metadata.length < usizeLimit := by
    unfold MIN_METADATA_RECORD_BYTES at hrecords
    omega
  rw [hbytes]
  unfold countsLayout
  rw [List.append_assoc, List.append_assoc, List.append_assoc]
  refine reads_bind (reads_take GGUF_MAGIC (needBytes 4)) ?_
  rw [if_neg (not_not.mpr rfl)]
  refine reads_bind (reads_readVersion hwell.version) ?_
  refine reads_bind (reads_readUsize "tensor count" htensorCount) ?_
  refine reads_bind (reads_readUsize "metadata count" hkvCount) ?_
  exact reads_checkCounts hrecords hroom (reads_readRecords hwell hmetadata)

structure HasRecords (header : Header) (bytes : List UInt8) : Prop where
  tensorCount : header.tensorCount = header.tensorInfos.length
  keys : (header.metadata.map Prod.fst).Nodup
  keysValid : forall entry, entry ∈ header.metadata -> keyIsValid entry.1 = true
  alignment : metadataAlignment header.metadata = .ok header.alignment
  names : (header.tensorInfos.map TensorInfo.name).Nodup
  tensors : forall info, info ∈ header.tensorInfos -> info.WellFormed header.alignment
  layout : exists metadataBytes, Repeats EncodesEntry header.metadata metadataBytes ∧
    bytes = metadataBytes ++ header.tensorInfos.flatMap tensorLayout

theorem accepts_readRecords (low version kvCount tensorCount : Nat) :
    Accepts low (readRecords version kvCount tensorCount) (fun header bytes =>
      header.version = version ∧ header.metadata.length = kvCount ∧
      header.tensorInfos.length = tensorCount ∧ HasRecords header bytes) := by
  refine accepts_mono (accepts_bind
    (fun metadata header ys => header.metadata = metadata ∧ header.version = version ∧
      header.tensorCount = tensorCount ∧ header.tensorInfos.length = tensorCount ∧
      metadataAlignment metadata = .ok header.alignment ∧
      (header.tensorInfos.map TensorInfo.name).Nodup ∧
      (forall info, info ∈ header.tensorInfos -> info.WellFormed header.alignment) ∧
      ys = header.tensorInfos.flatMap tensorLayout)
    (accepts_readEach accepts_readEntry kvCount low []) (fun metadata bytes _ => ?_)) ?_
  · refine accepts_mono (accepts_bind
      (fun alignment header ys => header.alignment = alignment ∧ header.metadata = metadata ∧
        header.version = version ∧ header.tensorCount = tensorCount ∧
        header.tensorInfos.length = tensorCount ∧
        (header.tensorInfos.map TensorInfo.name).Nodup ∧
        (forall info, info ∈ header.tensorInfos -> info.WellFormed alignment) ∧
        ys = header.tensorInfos.flatMap tensorLayout)
      (accepts_lift _ (metadataAlignment metadata)) (fun alignment xs halignment => ?_)) ?_
    · refine accepts_mono (accepts_bind _
        (accepts_readEach (accepts_readTensorInfo (metadataAlignment_pos halignment.1))
          tensorCount _ [])
        (fun tensorInfos _ _ => accepts_pure _ (Header.mk version tensorCount metadata alignment
          tensorInfos))) ?_
      rintro header ys ⟨tensorInfos, zs, ws,
        ⟨infos, hinfos, hlength, hrepeats, hadmits⟩, ⟨hheader, hws⟩, hys⟩
      rw [List.nil_append] at hinfos
      rw [hws, List.append_nil] at hys
      rw [hheader, hinfos]
      refine ⟨rfl, rfl, rfl, rfl, hlength, ?_, ?_, ?_⟩
      · exact nodup_of_fresh (fun earlier info later hsplit =>
          (hadmits earlier info later hsplit).2)
      · intro info hinfo
        rcases List.append_of_mem hinfo with ⟨earlier, later, hsplit⟩
        exact (hadmits earlier info later hsplit).1
      · rw [hys]
        exact flatMap_of_repeats_tensors hrepeats
    · rintro header ys ⟨alignment, zs, ws, ⟨halignment, hzs⟩,
        ⟨hsame, hmetadata, hversion, hcount, hlength, hnames, htensors, hws⟩, hys⟩
      rw [hzs, List.nil_append, hws] at hys
      exact ⟨hmetadata, hversion, hcount, hlength, hsame ▸ halignment, hnames, hsame ▸ htensors,
        hys⟩
  · rintro header bytes ⟨metadata, xs, ys, ⟨entries, hentries, hlength, hrepeats, hadmits⟩,
      ⟨hmetadata, hversion, hcount, htensorCount, halignment, hnames, htensors, hys⟩, hbytes⟩
    rw [List.nil_append] at hentries
    rw [hentries] at hmetadata halignment
    rw [← hmetadata] at hlength hrepeats hadmits halignment
    refine ⟨hversion, hlength, htensorCount, ?_⟩
    exact {
      tensorCount := hcount.trans htensorCount.symm
      keys := nodup_of_fresh (fun earlier entry later hsplit =>
        (hadmits earlier entry later hsplit).2)
      keysValid := fun entry hentry => by
        rcases List.append_of_mem hentry with ⟨earlier, later, hsplit⟩
        exact (hadmits earlier entry later hsplit).1
      alignment := halignment
      names := hnames
      tensors := htensors
      layout := ⟨xs, hrepeats, hys ▸ hbytes⟩ }

theorem accepts_readHeader :
    Accepts low readHeader (fun header bytes =>
      header.tensorCount = header.tensorInfos.length ∧ forall dataStart,
        (header.file dataStart).WellFormed ∧ EncodesFile (header.file dataStart) bytes) := by
  have hcounts (low version : Nat) : Accepts low
      (readUsize "tensor count" >>= fun tensorCount =>
        readUsize "metadata count" >>= fun kvCount =>
          checkCounts kvCount tensorCount >>= fun _ => readRecords version kvCount tensorCount)
      (fun header bytes => header.version = version ∧ exists records,
        HasRecords header records ∧ bytes = leBytes 8 header.tensorInfos.length ++
          (leBytes 8 header.metadata.length ++ records)) := by
    refine accepts_mono (accepts_bind _ (accepts_readUsize low "tensor count")
      (fun tensorCount _ _ => accepts_bind _ (accepts_readUsize _ "metadata count")
        (fun kvCount _ _ => accepts_bind _ (accepts_checkCounts _ kvCount tensorCount)
          (fun _ _ _ => accepts_readRecords _ version kvCount tensorCount)))) ?_
    rintro header bytes ⟨tensorCount, xs, ys, ⟨_, hxs⟩, ⟨kvCount, zs, ws, ⟨_, hzs⟩,
      ⟨_, us, vs, hus, ⟨hversion, hkvCount, htensorCount, hrecords⟩, hws⟩, hys⟩, hbytes⟩
    rw [hus, List.nil_append] at hws
    rw [hxs, hys, hzs, hws, ← hkvCount, ← htensorCount] at hbytes
    exact ⟨hversion, vs, hrecords, hbytes⟩
  refine accepts_mono (accepts_bind (fun magic header ys => magic = GGUF_MAGIC ∧ exists records,
      header.version ∈ SUPPORTED_VERSIONS ∧ HasRecords header records ∧
      ys = leBytes 4 header.version ++ (leBytes 8 header.tensorInfos.length ++
        (leBytes 8 header.metadata.length ++ records)))
    (accepts_take low 4 (needBytes 4)) (fun magic bytes _ => ?_)) ?_
  · refine accepts_ite (fun _ => accepts_failing _ _ _) (fun hmagic => ?_)
    refine accepts_mono (accepts_bind _ (accepts_readVersion _)
      (fun version _ _ => hcounts _ version)) ?_
    rintro header ys ⟨version, xs, zs, ⟨hsupported, hxs⟩, ⟨hversion, records, hrecords, hzs⟩, hys⟩
    rw [hxs, hzs, ← hversion] at hys
    exact ⟨not_not.mp hmagic, records, hversion ▸ hsupported, hrecords, hys⟩
  · rintro header bytes ⟨magic, xs, ys, ⟨hxs, _⟩, ⟨hmagic, records, hversion, hrecords, hys⟩,
      hbytes⟩
    refine ⟨hrecords.tensorCount, fun dataStart => ⟨?_, ?_⟩⟩
    · exact {
        version := hversion
        keys := hrecords.keys
        keysValid := fun entry hentry => (keyIsValid_iff entry.1).mp
          (hrecords.keysValid entry hentry)
        alignment := hrecords.alignment
        names := hrecords.names
        tensors := hrecords.tensors }
    · rcases hrecords.layout with ⟨metadataBytes, hmetadata, hlayout⟩
      refine ⟨metadataBytes, hmetadata, ?_⟩
      rw [← hxs, hmagic, hys, hlayout] at hbytes
      unfold countsLayout
      rw [List.append_assoc, List.append_assoc, List.append_assoc]
      exact hbytes

/-!
# The tensor data
-/

theorem firstAligned_padding (h : alignment ≠ 0) (n : Nat) :
    FirstAligned alignment n (n + (alignment - n % alignment) % alignment) := by
  have hpos : 0 < alignment := Nat.pos_of_ne_zero h
  have hrest := Nat.mod_lt n hpos
  have hsplit := Nat.div_add_mod n alignment
  by_cases hzero : n % alignment = 0
  · rw [hzero, Nat.sub_zero, Nat.mod_self, Nat.add_zero]
    exact ⟨⟨Nat.le_refl n, Nat.dvd_of_mod_eq_zero hzero⟩, fun m hm => hm.1⟩
  · have hpadding : (alignment - n % alignment) % alignment = alignment - n % alignment :=
      Nat.mod_eq_of_lt (Nat.sub_lt hpos (Nat.pos_of_ne_zero hzero))
    have hnext : n + (alignment - n % alignment) = alignment * (n / alignment + 1) := by
      rw [Nat.mul_succ]
      omega
    rw [hpadding]
    refine ⟨⟨Nat.le_add_right _ _, hnext ▸ Nat.dvd_mul_right _ _⟩, ?_⟩
    rintro m ⟨hm, multiple, hmultiple⟩
    rw [hnext, hmultiple]
    apply Nat.mul_le_mul_left
    apply Nat.succ_le_of_lt
    have hless : alignment * (n / alignment) < alignment * multiple := by omega
    exact Nat.lt_of_mul_lt_mul_left hless

theorem locateData_of_ne_zero (h : alignment ≠ 0) (tensorCount : Nat) (r : Cursor) :
    locateData alignment tensorCount r =
      match checkedUsize (r.pos + (alignment - r.pos % alignment) % alignment) with
      | none => .error (.fail (.parseError r.pos "tensor data offset overflows usize"))
      | some dataStart =>
        if tensorCount > 0 && dataStart > r.data.length then
          .error (.fail (.parseError r.pos
            s!"tensor data starts at {dataStart}, beyond file length {r.data.length}"))
        else
          .ok (dataStart, r) := by
  unfold locateData remainder
  rw [if_neg h]
  rfl

theorem locateData_eq
    {alignment tensorCount : Nat} {r : Cursor} (halignment : alignment ≠ 0)
    (hlimit : r.pos + (alignment - r.pos % alignment) % alignment < usizeLimit)
    (hroom : tensorCount > 0 ->
      r.pos + (alignment - r.pos % alignment) % alignment <= r.data.length) :
    locateData alignment tensorCount r =
      .ok (r.pos + (alignment - r.pos % alignment) % alignment, r) := by
  rw [locateData_of_ne_zero halignment, checkedUsize, if_pos hlimit]
  dsimp only
  rw [if_neg]
  rw [Bool.and_eq_true, decide_eq_true_iff, decide_eq_true_iff]
  rintro ⟨hpos, hbeyond⟩
  exact Nat.not_lt_of_le (hroom hpos) hbeyond

theorem locateData_ok
    {alignment tensorCount dataStart : Nat} {r left : Cursor} (halignment : alignment ≠ 0)
    (h : locateData alignment tensorCount r = .ok (dataStart, left)) :
    dataStart = r.pos + (alignment - r.pos % alignment) % alignment ∧
      (tensorCount > 0 -> dataStart <= r.data.length) := by
  rw [locateData_of_ne_zero halignment, checkedUsize] at h
  by_cases hlimit : r.pos + (alignment - r.pos % alignment) % alignment < usizeLimit
  · rw [if_pos hlimit] at h
    dsimp only at h
    split at h
    · cases h
    · rename_i hfits
      cases h
      refine ⟨rfl, fun hpos => ?_⟩
      rw [Bool.and_eq_true, decide_eq_true_iff, decide_eq_true_iff, not_and] at hfits
      exact Nat.le_of_not_lt (hfits hpos)
  · rw [if_neg hlimit] at h
    cases h

theorem locateData_ne_panic (halignment : alignment ≠ 0) (tensorCount : Nat) (r : Cursor) :
    locateData alignment tensorCount r ≠ .error .panic := by
  rw [locateData_of_ne_zero halignment]
  split
  · rintro ⟨⟩
  · split
    · rintro ⟨⟩
    · rintro ⟨⟩

/-!
# The parser
-/

theorem parse_of_encoding {header padding data : List UInt8} (hwell : file.WellFormed)
    (h : EncodesFile file header)
    (hpadding : FirstAligned file.alignment header.length (header.length + padding.length))
    (hlimit : (header ++ (padding ++ data)).length < usizeLimit) :
    parse (header ++ (padding ++ data)) =
      .ok { file with dataStart := header.length + padding.length } := by
  have halignment := metadataAlignment_pos hwell.alignment
  rw [List.length_append, List.length_append] at hlimit
  have hheader := reads_readHeader hwell h (by omega) [] (padding ++ data)
  rw [List.nil_append, List.length_nil, Nat.zero_add] at hheader
  have hstart : header.length + (file.alignment - header.length % file.alignment) %
      file.alignment = header.length + padding.length :=
    IsLeast.unique (firstAligned_padding halignment header.length) hpadding
  have hlocate : locateData file.header.alignment file.header.tensorCount
      ⟨header ++ (padding ++ data), header.length⟩ =
      .ok (header.length + padding.length, ⟨header ++ (padding ++ data), header.length⟩) := by
    rw [← hstart]
    apply locateData_eq halignment
    · dsimp only
      rw [hstart]
      omega
    · intro _
      dsimp only
      rw [hstart, List.length_append, List.length_append]
      omega
  have hfile : readFile ⟨header ++ (padding ++ data), 0⟩ =
      .ok ({ file with dataStart := header.length + padding.length },
        ⟨header ++ (padding ++ data), header.length⟩) := by
    unfold readFile
    rw [bind_of_ok hheader, bind_of_ok hlocate]
    rfl
  unfold parse
  rw [hfile]

theorem encoding_of_parse (h : parse bytes = .ok file) :
    exists header rest, bytes = header ++ rest ∧ file.WellFormed ∧ EncodesFile file header ∧
      FirstAligned file.alignment header.length file.dataStart ∧
      (file.tensorInfos ≠ [] -> file.dataStart <= bytes.length) := by
  have haccepts := accepts_readHeader 0 [] bytes (Nat.le_refl 0)
  rw [List.nil_append, List.length_nil] at haccepts
  unfold parse readFile at h
  cases hheader : readHeader ⟨bytes, 0⟩ with
  | error stop =>
    rw [bind_of_error hheader] at h
    cases h
  | ok result =>
    rcases result with ⟨header, left⟩
    rw [hheader] at haccepts
    rcases haccepts with ⟨read, rest, hbytes, ⟨hcount, hencodes⟩, hleft⟩
    rw [bind_of_ok hheader] at h
    have halignment : header.alignment ≠ 0 :=
      metadataAlignment_pos (hencodes 0).1.alignment
    cases hlocate : locateData header.alignment header.tensorCount left with
    | error stop =>
      rw [bind_of_error hlocate] at h
      cases h
    | ok found =>
      rcases found with ⟨dataStart, last⟩
      rw [bind_of_ok hlocate] at h
      cases h
      rcases locateData_ok halignment hlocate with ⟨hstart, hroom⟩
      rw [hleft, Nat.zero_add] at hstart hroom
      refine ⟨read, rest, hbytes, (hencodes dataStart).1, (hencodes dataStart).2, ?_, ?_⟩
      · dsimp only
        rw [hstart]
        exact firstAligned_padding halignment read.length
      · intro htensors
        apply hroom
        rw [hcount]
        exact List.length_pos_of_ne_nil htensors

theorem parse_ne_panic (bytes : List UInt8) : parse bytes ≠ .error .panic := by
  have haccepts := accepts_readHeader 0 [] bytes (Nat.le_refl 0)
  rw [List.nil_append, List.length_nil] at haccepts
  unfold parse readFile
  cases hheader : readHeader ⟨bytes, 0⟩ with
  | error stop =>
    rw [hheader] at haccepts
    rw [bind_of_error hheader]
    cases stop with
    | panic => exact haccepts.elim
    | fail fault => rintro ⟨⟩
  | ok result =>
    rcases result with ⟨header, left⟩
    rw [hheader] at haccepts
    rcases haccepts with ⟨read, rest, _, ⟨_, hencodes⟩, _⟩
    have halignment : header.alignment ≠ 0 :=
      metadataAlignment_pos (hencodes 0).1.alignment
    have hsafe := locateData_ne_panic halignment header.tensorCount left
    rw [bind_of_ok hheader]
    cases hlocate : locateData header.alignment header.tensorCount left with
    | error stop =>
      rw [bind_of_error hlocate]
      rw [hlocate] at hsafe
      rintro ⟨⟩
      exact hsafe rfl
    | ok found =>
      rw [bind_of_ok hlocate]
      rintro ⟨⟩

theorem minimumHeaderBytes_of_encoding {header : List UInt8} (h : EncodesFile file header)
    (hlimit : header.length < usizeLimit) :
    exists minimum, minimumHeaderBytes file.metadata.length file.tensorInfos.length =
        some minimum ∧ 24 + minimum <= header.length := by
  rcases h with ⟨metadataBytes, hmetadata, hbytes⟩
  have hrecords : file.metadata.length * MIN_METADATA_RECORD_BYTES +
      file.tensorInfos.length * MIN_TENSOR_INFO_BYTES <=
    (metadataBytes ++ file.tensorInfos.flatMap tensorLayout).length := records_length hmetadata
  have hheader : 24 + (metadataBytes ++ file.tensorInfos.flatMap tensorLayout).length =
      header.length := by
    rw [hbytes, @List.length_append _ (countsLayout file), countsLayout_length]
  refine ⟨_, minimumHeaderBytes_of_lt ?_, ?_⟩
  · omega
  · omega

/-- The parser reads every encoding back, accepts nothing else, and never reads out
of range. -/
theorem parse_round_trip :
    (forall file : GGUFFile,
      (forall entry, entry ∈ file.metadata -> FitsLimits (MAX_ARRAY_NESTING + 1) entry.2) ->
      EncodesFile file (encodeFile file)) ∧
    (forall (file : GGUFFile) (header padding data : List UInt8),
      file.WellFormed -> EncodesFile file header ->
      FirstAligned file.alignment header.length (header.length + padding.length) ->
      (header ++ (padding ++ data)).length < usizeLimit ->
      parse (header ++ (padding ++ data)) =
        .ok { file with dataStart := header.length + padding.length }) ∧
    (forall (bytes : List UInt8) (file : GGUFFile), parse bytes = .ok file ->
      exists header rest, bytes = header ++ rest ∧ file.WellFormed ∧ EncodesFile file header ∧
        FirstAligned file.alignment header.length file.dataStart ∧
        (file.tensorInfos ≠ [] -> file.dataStart <= bytes.length)) ∧
    (forall (file : GGUFFile) (header : List UInt8), EncodesFile file header ->
      header.length < usizeLimit ->
      exists minimum, minimumHeaderBytes file.metadata.length file.tensorInfos.length =
        some minimum ∧ 24 + minimum <= header.length) ∧
    forall bytes : List UInt8, parse bytes ≠ .error .panic :=
  ⟨fun _ hfits => encodes_encodeFile hfits,
    fun _ _ _ _ hwell h hpadding hlimit => parse_of_encoding hwell h hpadding hlimit,
    fun _ _ h => encoding_of_parse h,
    fun _ _ h hlimit => minimumHeaderBytes_of_encoding h hlimit,
    parse_ne_panic⟩

/-- A file with an array and a tensor, whose header ends five bytes before its data. -/
def smallFile : GGUFFile :=
  { version := 3
    metadata := [("general.alignment", .u32 8), ("tokens", .array [.string "a", .string "é"])]
    tensorInfos := [⟨"w", [2, 3], .F32, 8⟩]
    dataStart := 152
    alignment := 8 }

theorem smallFile_fitsLimits (entry : String × GGUFValue) (h : entry ∈ smallFile.metadata) :
    FitsLimits (MAX_ARRAY_NESTING + 1) entry.2 := by
  simp only [smallFile, List.mem_cons, List.not_mem_nil, or_false] at h
  rcases h with h | h
  · rw [h]
    trivial
  · rw [h]
    show 2 <= MAX_ARRAY_ELEMENTS ∧ _
    simp [FitsLimits, elementType, GGUFValue.valueType, MAX_ARRAY_ELEMENTS, MAX_STRING_LENGTH]
    decide

theorem smallFile_wellFormed : smallFile.WellFormed := by
  refine ⟨by decide, by decide, ?_, by decide, by decide, ?_⟩
  · intro entry h
    simp only [smallFile, List.mem_cons, List.not_mem_nil, or_false] at h
    rcases h with h | h <;> rw [h] <;> decide
  · intro info h
    simp only [smallFile, List.mem_cons, List.not_mem_nil, or_false] at h
    rw [h]
    exact ⟨by decide, by decide, by decide, by decide⟩

theorem encodeFile_smallFile_length : (encodeFile smallFile).length = 147 := by
  decide +kernel

theorem parse_round_trip_smallFile :
    parse (encodeFile smallFile ++ ([0, 0, 0, 0, 0] ++ [1, 2])) = .ok smallFile := by
  have hlength := encodeFile_smallFile_length
  have hpadding : FirstAligned smallFile.alignment (encodeFile smallFile).length
      ((encodeFile smallFile).length + [(0 : UInt8), 0, 0, 0, 0].length) := by
    rw [hlength]
    exact firstAligned_padding (by decide : (8 : Nat) ≠ 0) 147
  have hlimit : (encodeFile smallFile ++ ([0, 0, 0, 0, 0] ++ [1, 2])).length < usizeLimit := by
    rw [List.length_append, hlength]
    decide
  have h := parse_round_trip.2.1 smallFile (encodeFile smallFile) [0, 0, 0, 0, 0] [1, 2]
    smallFile_wellFormed (parse_round_trip.1 smallFile smallFile_fitsLimits) hpadding hlimit
  rw [h, hlength]
  rfl

end Gguf
end RunNBurn
