import Mathlib.Data.List.DropRight
import Mathlib.Data.List.Basic
import Mathlib.Tactic.IntervalCases

/-!
# Texts

A text is a list of characters.  White space is what Unicode calls so.
-/

namespace RunNBurn
namespace Library

section Text

abbrev Text : Type := List Char

/-- The Unicode property `White_Space`. -/
def isWhitespace (c : Char) : Bool :=
  (9 <= c.toNat && c.toNat <= 13) || c.toNat == 0x20 || c.toNat == 0x85 || c.toNat == 0xA0 ||
    c.toNat == 0x1680 || (0x2000 <= c.toNat && c.toNat <= 0x200A) || c.toNat == 0x2028 ||
    c.toNat == 0x2029 || c.toNat == 0x202F || c.toNat == 0x205F || c.toNat == 0x3000

def trimStart (text : Text) : Text :=
  text.dropWhile isWhitespace

def trimEnd (text : Text) : Text :=
  text.rdropWhile isWhitespace

def trim (text : Text) : Text :=
  trimEnd (trimStart text)

def stripSuffix (ending text : Text) : Option Text :=
  if ending <:+ text then some (text.take (text.length - ending.length)) else none

/-!
# Trimming
-/

variable {text lead more : Text} {c : Char}

theorem trimStart_lead (h : forall c, c ∈ lead -> isWhitespace c = true) (rest : Text) :
    trimStart (lead ++ rest) = trimStart rest := by
  unfold trimStart
  rw [List.dropWhile_append_of_pos h]

theorem trimStart_cons (h : isWhitespace c = false) (rest : Text) :
    trimStart (c :: rest) = c :: rest := by
  unfold trimStart
  rw [List.dropWhile_cons_of_neg]
  rw [h]
  exact Bool.false_ne_true

theorem trimStart_append (h : trimStart text ≠ []) (more : Text) :
    trimStart (text ++ more) = trimStart text ++ more := by
  induction text with
  | nil => exact absurd rfl h
  | cons c text ih =>
    by_cases hc : isWhitespace c = true
    · have hskip : forall rest, trimStart (c :: rest) = trimStart rest :=
        fun rest => List.dropWhile_cons_of_pos hc
      rw [hskip] at h
      rw [List.cons_append, hskip, hskip, ih h]
    · rw [Bool.not_eq_true] at hc
      rw [List.cons_append, trimStart_cons hc, trimStart_cons hc, List.cons_append]

theorem length_trimStart_le (text : Text) : (trimStart text).length <= text.length :=
  (List.dropWhile_suffix isWhitespace).length_le

theorem length_trimEnd_le (text : Text) : (trimEnd text).length <= text.length :=
  (List.rdropWhile_prefix isWhitespace text).length_le

theorem length_trim_le (text : Text) : (trim text).length <= text.length :=
  Nat.le_trans (length_trimEnd_le _) (length_trimStart_le text)

theorem mem_trimStart (hc : isWhitespace c = false) (h : c ∈ text) : c ∈ trimStart text := by
  induction text with
  | nil => cases h
  | cons d text ih =>
    by_cases hd : isWhitespace d = true
    · have hskip : trimStart (d :: text) = trimStart text := List.dropWhile_cons_of_pos hd
      rw [hskip]
      cases h with
      | head =>
        rw [hc] at hd
        cases hd
      | tail _ hrest => exact ih hrest
    · rw [Bool.not_eq_true] at hd
      rw [trimStart_cons hd]
      exact h

theorem mem_trimEnd (hc : isWhitespace c = false) (h : c ∈ text) : c ∈ trimEnd text := by
  have hmem := mem_trimStart hc (List.mem_reverse.mpr h)
  exact List.mem_reverse.mpr hmem

theorem mem_trim (hc : isWhitespace c = false) (h : c ∈ text) : c ∈ trim text :=
  mem_trimEnd hc (mem_trimStart hc h)

theorem trimStart_split (text : Text) :
    exists lead, (forall c, c ∈ lead -> isWhitespace c = true) ∧
      text = lead ++ trimStart text := by
  refine ⟨text.takeWhile isWhitespace, ?_, List.takeWhile_append_dropWhile.symm⟩
  intro c hc
  exact List.mem_takeWhile_imp hc

/-!
# Suffixes
-/

variable {ending : Text}

theorem stripSuffix_append (text ending : Text) :
    stripSuffix ending (text ++ ending) = some text := by
  unfold stripSuffix
  rw [if_pos (List.suffix_append text ending), List.length_append, Nat.add_sub_cancel,
    List.take_left]

theorem stripSuffix_of_not_suffix (h : ¬ ending <:+ text) :
    stripSuffix ending text = none :=
  if_neg h

theorem stripSuffix_eq_some {stripped : Text} (h : stripSuffix ending text = some stripped) :
    text = stripped ++ ending := by
  unfold stripSuffix at h
  split at h
  · rename_i hsuffix
    rcases hsuffix with ⟨front, hfront⟩
    cases h
    rw [← hfront, List.length_append, Nat.add_sub_cancel, List.take_left]
  · cases h

end Text

/-!
# Padded decimals

A number written to a least width, and a text of digits read back.  Read and written to
its own width a text of digits is itself.
-/

def zeroPadded (width n : Nat) : Text :=
  List.replicate (width - (Nat.toDigits 10 n).length) '0' ++ Nat.toDigits 10 n

def decimalValue (digits : Text) : Nat :=
  Nat.ofDigitChars 10 digits 0

variable (width n : Nat)

theorem decimalValue_zeroPadded : decimalValue (zeroPadded width n) = n := by
  unfold decimalValue zeroPadded
  rw [Nat.ofDigitChars_append, Nat.ofDigitChars_replicate_zero, Nat.mul_zero,
    Nat.ofDigitChars_ten_toDigits]

theorem length_zeroPadded :
    (zeroPadded width n).length = max width (Nat.toDigits 10 n).length := by
  unfold zeroPadded
  rw [List.length_append, List.length_replicate]
  omega

theorem zeroPadded_length :
    zeroPadded (zeroPadded width n).length n = zeroPadded width n := by
  have hpad : max width (Nat.toDigits 10 n).length - (Nat.toDigits 10 n).length =
      width - (Nat.toDigits 10 n).length := by
    omega
  rw [length_zeroPadded]
  unfold zeroPadded
  rw [hpad]

theorem zeroPadded_ne_nil : zeroPadded width n ≠ [] := by
  unfold zeroPadded
  intro hnil
  exact Nat.toDigits_ne_nil (List.append_eq_nil_iff.mp hnil).right

theorem isDigit_of_mem_zeroPadded {width n : Nat} {c : Char} (hc : c ∈ zeroPadded width n) :
    c.isDigit = true := by
  rcases List.mem_append.mp hc with hzero | hdigit
  · rw [List.eq_of_mem_replicate hzero]
    rfl
  · exact Nat.isDigit_of_mem_toDigits (by decide) (by decide) hdigit

theorem digitChar_toNat {c : Char} (hc : c.isDigit = true) :
    c.toNat - 48 < 10 ∧ Nat.digitChar (c.toNat - 48) = c := by
  have hbounds : 48 <= c.toNat ∧ c.toNat <= 57 := by
    unfold Char.isDigit at hc
    simp only [ge_iff_le, Bool.and_eq_true, decide_eq_true_eq] at hc
    exact hc
  have hchar : c = Char.ofNat c.toNat := (Char.ofNat_toNat c).symm
  rcases hbounds with ⟨hlow, hhigh⟩
  generalize c.toNat = n at hlow hhigh hchar
  rw [hchar]
  interval_cases n <;> exact ⟨(by decide), rfl⟩

theorem zeroPadded_append_digit {width n d : Nat} (hwidth : 0 < width) (hd : d < 10) :
    zeroPadded (width + 1) (10 * n + d) = zeroPadded width n ++ [Nat.digitChar d] := by
  have hlast : Nat.toDigits 10 d = [Nat.digitChar d] := Nat.toDigits_of_lt_base hd
  unfold zeroPadded
  cases n with
  | zero =>
    rw [Nat.mul_zero, Nat.zero_add, hlast, Nat.toDigits_zero, List.length_singleton,
      List.length_singleton, Nat.add_sub_cancel, ← List.replicate_succ', Nat.sub_add_cancel hwidth]
  | succ n =>
    rw [← Nat.toDigits_append_toDigits (by decide) (Nat.succ_pos n) hd, hlast,
      List.length_append, List.length_singleton, Nat.add_sub_add_right, List.append_assoc]

theorem zeroPadded_decimalValue {digits : Text} (hne : digits ≠ [])
    (hdigits : forall c, c ∈ digits -> c.isDigit = true) :
    zeroPadded digits.length (decimalValue digits) = digits := by
  induction digits using List.reverseRecOn with
  | nil => exact absurd rfl hne
  | append_singleton front c ih =>
    rcases digitChar_toNat (hdigits c (by simp)) with ⟨hd, hc⟩
    have hvalue : decimalValue (front ++ [c]) = 10 * decimalValue front + (c.toNat - 48) := by
      unfold decimalValue
      rw [Nat.ofDigitChars_append]
      rfl
    rw [hvalue, List.length_append, List.length_singleton]
    cases hfront : front with
    | nil =>
      show zeroPadded 1 (0 + (c.toNat - 48)) = [c]
      unfold zeroPadded
      rw [Nat.zero_add, Nat.toDigits_of_lt_base hd, hc]
      rfl
    | cons first rest =>
      have hnonempty : front ≠ [] := by
        rw [hfront]
        exact List.cons_ne_nil _ _
      rw [← hfront, zeroPadded_append_digit (List.length_pos_of_ne_nil hnonempty) hd, hc,
        ih hnonempty (fun other hother => hdigits other (List.mem_append_left [c] hother))]

end Library
end RunNBurn
