import RunNBurn.Library.Checked
import RunNBurn.Library.KeyedMaps
import Mathlib.Data.List.Sort
import Mathlib.Order.Defs.LinearOrder

/-!
# Byte-budgeted recency accounting

The policy counts the bytes under each key and remembers when the key was last
touched.  Its heap is lazy: a touch pushes a new element and leaves the old one
behind, to be skipped when it is popped.
-/

namespace RunNBurn
namespace Memory

open Library

def u64Max : Nat :=
  usizeLimit - 1

/-- `Entry` of the policy. -/
structure ByteLruEntry where
  bytes : Nat
  lastTouch : Nat
deriving DecidableEq, Repr

structure ByteLruPolicy (key : Type) where
  maxBytes : Nat
  residentBytes : Nat
  clock : Nat
  entries : KeyedMap key ByteLruEntry
  oldest : List (Nat × key)

namespace ByteLruPolicy

variable {key : Type}

def new (maxBytes : Nat) : ByteLruPolicy key where
  maxBytes := maxBytes
  residentBytes := 0
  clock := 0
  entries := ∅
  oldest := []

section Operations

variable [LinearOrder key]

def PopsBefore (a b : Nat × key) : Prop :=
  a.1 < b.1 ∨ (a.1 = b.1 ∧ a.2 <= b.2)

instance : DecidableRel (PopsBefore : Nat × key -> Nat × key -> Prop) :=
  fun _ _ => inferInstanceAs (Decidable (_ ∨ _))

def push (item : Nat × key) (oldest : List (Nat × key)) : List (Nat × key) :=
  oldest.orderedInsert PopsBefore item

def popCurrent (entries : KeyedMap key ByteLruEntry) :
    List (Nat × key) -> Option (key × ByteLruEntry × List (Nat × key))
  | [] => none
  | (candidateTouch, candidateKey) :: rest =>
    match entries.lookup candidateKey with
    | none => popCurrent entries rest
    | some entry =>
      if entry.lastTouch ≠ candidateTouch then
        popCurrent entries rest
      else
        some (candidateKey, entry, rest)

def popOldest (policy : ByteLruPolicy key) : Option key × ByteLruPolicy key :=
  match popCurrent policy.entries policy.oldest with
  | none => (none, { policy with oldest := [] })
  | some (candidate, entry, rest) =>
    (some candidate, { policy with
      entries := policy.entries.erase candidate
      residentBytes := policy.residentBytes - entry.bytes
      oldest := rest })

/-- The eviction loop of `touch`; every round pops a heap element. -/
def evictOver : Nat -> ByteLruPolicy key -> List key × ByteLruPolicy key
  | 0, policy => ([], policy)
  | rounds + 1, policy =>
    if policy.residentBytes > policy.maxBytes then
      match policy.popOldest with
      | (none, popped) => ([], popped)
      | (some evicted, popped) =>
        (evicted :: (evictOver rounds popped).1, (evictOver rounds popped).2)
    else
      ([], policy)

section

variable (policy : ByteLruPolicy key) (k : key)

/-- The accounting of `touch`, before it evicts. -/
def account (bytes : Nat) : ByteLruPolicy key :=
  let clock := wrappingAdd policy.clock 1
  { policy with
    clock := clock
    residentBytes :=
      match policy.entries.lookup k with
      | some entry => saturatingAdd (policy.residentBytes - entry.bytes) bytes
      | none => saturatingAdd policy.residentBytes bytes
    entries := policy.entries.insert k { bytes := bytes, lastTouch := clock }
    oldest := push (clock, k) policy.oldest }

def touch (bytes : Nat) :
    List key × ByteLruPolicy key :=
  let accounted := policy.account k bytes
  evictOver accounted.oldest.length accounted

def remove : Bool × ByteLruPolicy key :=
  match policy.entries.lookup k with
  | none => (false, policy)
  | some entry =>
    (true, { policy with
      entries := policy.entries.erase k
      residentBytes := policy.residentBytes - entry.bytes })

def recorded : Option Nat :=
  (policy.entries.lookup k).map ByteLruEntry.bytes

end

end Operations

def totalBytes (policy : ByteLruPolicy key) : Nat :=
  policy.entries.total ByteLruEntry.bytes

end ByteLruPolicy

end Memory
end RunNBurn
