import Mathlib.Algebra.GroupWithZero.Nat
import Mathlib.Data.List.Basic

/-!
# The registry of host storages

Ranges of bytes are named by the storage they are in.  The registry refers to storages weakly, by
the addresses of their reference counts, and what it holds of a dead storage is thrown out by the
next registration.
-/

namespace RunNBurn
namespace Tensors

structure Span where
  base : Nat
  len : Nat
deriving DecidableEq

namespace Span

def Covers (span : Span) (i : Nat) : Prop :=
  span.base <= i ∧ i < span.base + span.len

def Apart (left right : Span) : Prop :=
  forall i, left.Covers i -> ¬right.Covers i

def Inside (inner outer : Span) : Prop :=
  outer.base <= inner.base ∧ inner.base + inner.len <= outer.base + outer.len

end Span

def checkedAdd (a b : Nat) : Option Nat :=
  if a + b < 2 ^ 64 then some (a + b) else none

structure HostStorageIdentity where
  allocationId : Nat
  byteOffset : Nat
  len : Nat
deriving DecidableEq

structure HostStorageLease where
  identity : HostStorageIdentity
  storage : Nat
deriving DecidableEq

structure HostStorageRegistration where
  allocationId : Nat
  storage : Nat
  base : Nat
  len : Nat
deriving DecidableEq

def HostStorageRegistration.span (entry : HostStorageRegistration) : Span where
  base := entry.base
  len := entry.len

/-- The block behind an `Arc<Storage>`.  It stays while there are weak references to it. -/
structure ArcBlock where
  allocation : Nat
  slice : Option Span
  handles : Nat
  registered : Bool
deriving DecidableEq

structure HeapBuffer where
  allocation : Nat
  span : Span
deriving DecidableEq

/-- The blocks by their addresses, and the registry.  Allocations are numbered; `issued` lists
those that were given identities, in order. -/
structure Memory where
  blocks : Nat -> Option ArcBlock
  buffers : List HeapBuffer
  leases : List HostStorageLease
  registry : List HostStorageRegistration
  nextHostStorageId : Nat
  allocations : Nat
  issued : List Nat

namespace Memory

def start : Memory where
  blocks := fun _ => none
  buffers := []
  leases := []
  registry := []
  nextHostStorageId := 1
  allocations := 0
  issued := []

section

variable (m : Memory) (storage : Nat)

def leasesOf : Nat :=
  m.leases.countP fun lease => lease.storage == storage

/-- `Weak::strong_count` -/
def strongCount : Nat :=
  match m.blocks storage with
  | some block => block.handles + m.leasesOf storage
  | none => 0

/-- `Weak::upgrade` -/
def upgrade : Option Nat :=
  if 0 < m.strongCount storage then some storage else none

def asSlice : Option Span :=
  match m.blocks storage with
  | some block => block.slice
  | none => none

def allocationOf : List Nat :=
  match m.blocks storage with
  | some block => [block.allocation]
  | none => []

end

/-!
## Registration and lookup
-/

def retained (m : Memory) : List HostStorageRegistration :=
  m.registry.filter fun entry => decide (0 < m.strongCount entry.storage)

def pushRegistration (m : Memory) (storage : Nat) (bytes : Span) : Memory :=
  { m with
    registry := m.retained ++
      [{ allocationId := m.nextHostStorageId
         storage := storage
         base := bytes.base
         len := bytes.len }]
    nextHostStorageId := (m.nextHostStorageId + 1) % 2 ^ 64
    issued := m.issued ++ m.allocationOf storage }

def registerHostStorage (m : Memory) (storage : Nat) : Memory :=
  match m.asSlice storage with
  | none => m
  | some bytes =>
    if m.retained.any fun entry => entry.storage == storage then
      { m with registry := m.retained }
    else m.pushRegistration storage bytes

/-- One entry of the registry, for a range from `bytes.base` to `stop`. -/
def resolveEntry (m : Memory) (bytes : Span) (stop : Nat) (entry : HostStorageRegistration) :
    Option HostStorageLease := do
  let storage <- m.upgrade entry.storage
  let storageEnd <- checkedAdd entry.base entry.len
  if bytes.base < entry.base ∨ storageEnd < stop then none
  else some {
    identity := {
      allocationId := entry.allocationId
      byteOffset := bytes.base - entry.base
      len := bytes.len }
    storage := storage }

def hostStorageLease (m : Memory) (bytes : Span) : Option HostStorageLease := do
  let stop <- checkedAdd bytes.base bytes.len
  m.registry.findSome? (m.resolveEntry bytes stop)

/-- As for a lease, but the upgraded reference is dropped at once. -/
def hostStorageIdentity (m : Memory) (bytes : Span) : Option HostStorageIdentity := do
  let stop <- checkedAdd bytes.base bytes.len
  m.registry.findSome? fun entry => (m.resolveEntry bytes stop entry).map (·.identity)

/-!
## Live memory
-/

def Live (m : Memory) (allocation : Nat) (span : Span) : Prop :=
  (exists storage block, m.blocks storage = some block ∧ 0 < m.strongCount storage ∧
    block.slice = some span ∧ block.allocation = allocation) ∨
  exists buffer, buffer ∈ m.buffers ∧ buffer.allocation = allocation ∧ buffer.span = span

/-- A range of an allocation, not empty. -/
def Within (m : Memory) (bytes : Span) (allocation offset : Nat) : Prop :=
  0 < bytes.len ∧ exists span, m.Live allocation span ∧ bytes.Inside span ∧
    offset = bytes.base - span.base

def Registered (m : Memory) (storage : Nat) (span : Span) : Prop :=
  exists block, m.blocks storage = some block ∧ block.slice = some span ∧
    block.registered = true ∧ 0 < m.strongCount storage

def Free (m : Memory) (span : Span) : Prop :=
  span.base + span.len < 2 ^ 64 ∧ forall allocation other, m.Live allocation other ->
    span.Apart other

/-!
## Events
-/

def release (m : Memory) : Memory :=
  { m with
    blocks := fun storage =>
      if 0 < m.strongCount storage ∨ (m.registry.any fun entry => entry.storage == storage) then
        m.blocks storage
      else none }

def setBlock (m : Memory) (storage : Nat) (block : ArcBlock) : Memory :=
  { m with
    blocks := fun other => if other = storage then some block else m.blocks other }

def changeBlock (m : Memory) (storage : Nat) (change : ArcBlock -> ArcBlock) : Memory :=
  match m.blocks storage with
  | some block => m.setBlock storage (change block)
  | none => m

end Memory

inductive Event where
  | newStorage (storage : Nat) (slice : Option Span)
  | newBuffer (span : Span)
  | freeBuffer (buffer : HeapBuffer)
  | cloneHandle (storage : Nat)
  | dropHandle (storage : Nat)
  | register (storage : Nat)
  | identify (bytes : Span)
  | lease (bytes : Span)
  | cloneLease (lease : HostStorageLease)
  | dropLease (lease : HostStorageLease)

def Event.isRegister : Event -> Bool
  | .register _ => true
  | _ => false

namespace Memory

/-- What an event changes, before blocks without references are released. -/
def act (m : Memory) : Event -> Memory
  | .newStorage storage slice =>
    { m.setBlock storage
        { allocation := m.allocations
          slice := slice
          handles := 1
          registered := false } with
      allocations := m.allocations + 1 }
  | .newBuffer span =>
    { m with
      buffers :=
        { allocation := m.allocations
          span := span } :: m.buffers
      allocations := m.allocations + 1 }
  | .freeBuffer buffer => { m with buffers := m.buffers.erase buffer }
  | .cloneHandle storage =>
    m.changeBlock storage fun block => { block with handles := block.handles + 1 }
  | .dropHandle storage =>
    m.changeBlock storage fun block => { block with handles := block.handles - 1 }
  | .register storage =>
    (m.registerHostStorage storage).changeBlock storage fun block =>
      { block with registered := true }
  | .identify _ => m
  | .lease bytes => { m with leases := (m.hostStorageLease bytes).toList ++ m.leases }
  | .cloneLease lease => { m with leases := lease :: m.leases }
  | .dropLease lease => { m with leases := m.leases.erase lease }

def step (m : Memory) (event : Event) : Memory :=
  (m.act event).release

/-- What a program and its allocator may do.  A block is put at an address where none is, and
bytes where nothing is alive; a program uses the references it has. -/
def Allowed (m : Memory) : Event -> Prop
  | .newStorage storage slice => m.blocks storage = none ∧ forall span, slice = some span ->
      m.Free span
  | .newBuffer span => m.Free span
  | .freeBuffer buffer => buffer ∈ m.buffers
  | .cloneHandle storage => exists block, m.blocks storage = some block ∧ 0 < block.handles
  | .dropHandle storage => exists block, m.blocks storage = some block ∧ 0 < block.handles
  | .register storage => exists block, m.blocks storage = some block ∧ 0 < block.handles
  | .identify bytes => exists allocation offset, m.Within bytes allocation offset
  | .lease bytes => exists allocation offset, m.Within bytes allocation offset
  | .cloneLease lease => lease ∈ m.leases
  | .dropLease lease => lease ∈ m.leases

def after (m : Memory) (events : List Event) : Memory :=
  events.foldl step m

def Permitted : Memory -> List Event -> Prop
  | _, [] => True
  | m, event :: rest => m.Allowed event ∧ (m.step event).Permitted rest

end Memory

end Tensors
end RunNBurn
