import Mathlib.Data.List.Basic
import Mathlib.Data.Nat.Bitwise

/-!
# Little-endian words

A word of a given width as bytes, the low byte first.
-/

namespace RunNBurn
namespace Library

def leBytes : Nat -> Nat -> List UInt8
  | 0, _ => []
  | width + 1, n => UInt8.ofNat (n % 256) :: leBytes width (n / 256)

def leValue : List UInt8 -> Nat
  | [] => 0
  | byte :: rest => byte.toNat + 256 * leValue rest

@[simp] theorem leBytes_length (width n : Nat) : (leBytes width n).length = width := by
  induction width generalizing n with
  | zero => rfl
  | succ width ih =>
    unfold leBytes
    rw [List.length_cons, ih]

theorem leValue_lt (bytes : List UInt8) : leValue bytes < 256 ^ bytes.length := by
  induction bytes with
  | nil => decide
  | cons byte rest ih =>
    have hbyte := byte.toNat_lt
    unfold leValue
    rw [List.length_cons, Nat.pow_succ]
    omega

theorem leValue_leBytes {width n : Nat} (h : n < 256 ^ width) :
    leValue (leBytes width n) = n := by
  induction width generalizing n with
  | zero => exact (Nat.lt_one_iff.mp h).symm
  | succ width ih =>
    have hrest : n / 256 < 256 ^ width := by
      apply Nat.div_lt_of_lt_mul
      rw [Nat.mul_comm, ← Nat.pow_succ]
      exact h
    have hbyte : (UInt8.ofNat (n % 256)).toNat = n % 256 := by
      rw [UInt8.toNat_ofNat']
      exact Nat.mod_eq_of_lt (Nat.mod_lt n (by decide))
    unfold leBytes leValue
    rw [ih hrest, hbyte]
    exact Nat.mod_add_div n 256

theorem leBytes_leValue (bytes : List UInt8) : leBytes bytes.length (leValue bytes) = bytes := by
  induction bytes with
  | nil => rfl
  | cons byte rest ih =>
    have hbyte := byte.toNat_lt
    have hmod : (byte.toNat + 256 * leValue rest) % 256 = byte.toNat := by
      rw [Nat.add_mul_mod_self_left]
      exact Nat.mod_eq_of_lt hbyte
    have hdiv : (byte.toNat + 256 * leValue rest) / 256 = leValue rest := by
      rw [Nat.add_mul_div_left _ _ (by decide), Nat.div_eq_of_lt hbyte, Nat.zero_add]
    unfold leValue
    rw [List.length_cons, leBytes, hmod, hdiv, ih, UInt8.ofNat_toNat]

/-!
# Bits of a byte

Masks and shifts of a byte as numbers.
-/

variable (x : UInt8)

theorem toNat_and_low : (x &&& (0x0F : UInt8)).toNat = x.toNat % 16 := by
  rw [UInt8.toNat_and]
  exact Nat.and_two_pow_sub_one_eq_mod x.toNat 4

theorem toNat_and_one : (x &&& (1 : UInt8)).toNat = x.toNat % 2 := by
  rw [UInt8.toNat_and]
  exact Nat.and_two_pow_sub_one_eq_mod x.toNat 1

theorem toNat_and_three : (x &&& (3 : UInt8)).toNat = x.toNat % 4 := by
  rw [UInt8.toNat_and]
  exact Nat.and_two_pow_sub_one_eq_mod x.toNat 2

theorem toNat_shiftRight_ofNat {s : Nat} (hs : s < 8) :
    (x >>> UInt8.ofNat s).toNat = x.toNat / 2 ^ s := by
  have hshift : (UInt8.ofNat s).toNat = s := by
    rw [UInt8.toNat_ofNat']
    exact Nat.mod_eq_of_lt (Nat.lt_trans hs (by decide))
  rw [UInt8.toNat_shiftRight, hshift, Nat.mod_eq_of_lt hs, Nat.shiftRight_eq_div_pow]

theorem toNat_or_shiftLeft {low high : UInt8} (hlow : low.toNat < 16) (hhigh : high.toNat < 16) :
    (low ||| (high <<< 4)).toNat = low.toNat + 16 * high.toNat := by
  have hshift : (high <<< 4).toNat = 2 ^ 4 * high.toNat := by
    rw [UInt8.toNat_shiftLeft, Nat.shiftLeft_eq]
    change high.toNat * 2 ^ 4 % 2 ^ 8 = 2 ^ 4 * high.toNat
    rw [Nat.mod_eq_of_lt (by omega), Nat.mul_comm]
  rw [UInt8.toNat_or, hshift, Nat.lor_comm, ← Nat.two_pow_add_eq_or_of_lt hlow, Nat.add_comm]

theorem and_mask_ne_zero_iff {mask : UInt8} {s : Nat} (hmask : mask.toNat = 2 ^ s) :
    x &&& mask ≠ 0 ↔ x.toNat / 2 ^ s % 2 = 1 := by
  have hvalue : (x &&& mask).toNat = (x.toNat / 2 ^ s % 2) * 2 ^ s := by
    rw [UInt8.toNat_and, hmask, Nat.and_two_pow, Nat.toNat_testBit]
  constructor
  · intro hne
    rcases Nat.mod_two_eq_zero_or_one (x.toNat / 2 ^ s) with hzero | hone
    · rw [hzero, Nat.zero_mul] at hvalue
      exact absurd (UInt8.toNat_inj.mp hvalue) hne
    · exact hone
  · intro hone hzero
    rw [hone, Nat.one_mul, hzero] at hvalue
    exact absurd hvalue.symm (Nat.ne_of_gt (Nat.two_pow_pos s))

end Library
end RunNBurn
