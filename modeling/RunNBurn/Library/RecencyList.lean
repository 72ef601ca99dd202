import Mathlib.Algebra.GroupWithZero.Nat
import Mathlib.Algebra.Order.Group.Nat
import Mathlib.Algebra.BigOperators.Group.List.Basic
import Mathlib.Order.Nat

/-!
# Recency lists

Keys with sizes, the one touched longest ago in front.  A list over its budget loses the
shortest front part that brings it back within the budget.
-/

namespace RunNBurn
namespace Library

variable {key : Type}

def totalSize (entries : List (key × Nat)) : Nat :=
  (entries.map Prod.snd).sum

@[simp] theorem totalSize_nil : totalSize ([] : List (key × Nat)) = 0 := rfl

@[simp] theorem totalSize_cons (entry : key × Nat) (entries : List (key × Nat)) :
    totalSize (entry :: entries) = entry.2 + totalSize entries := by
  simp [totalSize]

@[simp] theorem totalSize_append (left right : List (key × Nat)) :
    totalSize (left ++ right) = totalSize left + totalSize right := by
  simp [totalSize]

section Keys

variable [DecidableEq key]

def without (k : key) (entries : List (key × Nat)) : List (key × Nat) :=
  entries.filter fun entry => entry.1 ≠ k

def moveToEnd (k : key) (size : Nat) (entries : List (key × Nat)) : List (key × Nat) :=
  without k entries ++ [(k, size)]

end Keys

theorem exists_fits (budget : Nat) (entries : List (key × Nat)) :
    exists n, totalSize (entries.drop n) <= budget := by
  exists entries.length
  rw [List.drop_length, totalSize_nil]
  exact Nat.zero_le budget

def excess (budget : Nat) (entries : List (key × Nat)) : Nat :=
  Nat.find (exists_fits budget entries)

theorem excess_eq_zero {budget : Nat} {entries : List (key × Nat)}
    (h : totalSize entries <= budget) :
    excess budget entries = 0 :=
  (Nat.find_eq_zero _).mpr h

theorem excess_cons {budget : Nat} {entry : key × Nat} {rest : List (key × Nat)}
    (h : budget < totalSize (entry :: rest)) :
    excess budget (entry :: rest) = excess budget rest + 1 := by
  unfold excess
  rw [Nat.find_eq_iff]
  constructor
  · exact Nat.find_spec (exists_fits budget rest)
  · intro n hn hfits
    cases n with
    | zero => exact Nat.not_lt_of_le hfits h
    | succ n => exact Nat.find_min (exists_fits budget rest) (Nat.lt_of_succ_lt_succ hn) hfits

end Library
end RunNBurn
