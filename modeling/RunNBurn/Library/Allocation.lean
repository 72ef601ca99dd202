import Mathlib.Data.List.Basic

/-!
# Vectors with their allocation

A vector holds its items in an allocation of at least their number.  Copies are
allocated exactly, and cutting a vector keeps its allocation.
-/

namespace RunNBurn
namespace Library

variable {item : Type}

structure Buffer (item : Type) where
  items : List item
  capacity : Nat
  fits : items.length <= capacity

namespace Buffer

/-- `to_vec` and `collect` from an iterator of known length. -/
def ofList (items : List item) : Buffer item where
  items := items
  capacity := items.length
  fits := Nat.le_refl items.length

/-- `Vec::clone`, with the copy of an item. -/
def cloneWith (copy : item -> item) (buffer : Buffer item) : Buffer item :=
  ofList (buffer.items.map copy)

/-- `Vec::clone` of plain items. -/
def clone (buffer : Buffer item) : Buffer item :=
  ofList buffer.items

def truncate (buffer : Buffer item) (len : Nat) : Buffer item where
  items := buffer.items.take len
  capacity := buffer.capacity
  fits := Nat.le_trans (List.length_take_le' len buffer.items) buffer.fits

def clear (buffer : Buffer item) : Buffer item :=
  buffer.truncate 0

@[simp] theorem items_ofList (items : List item) : (ofList items).items = items := rfl

@[simp] theorem capacity_ofList (items : List item) :
    (ofList items).capacity = items.length := rfl

variable (buffer : Buffer item)

@[simp] theorem items_clone : buffer.clone.items = buffer.items := rfl

@[simp] theorem capacity_clone :
    buffer.clone.capacity = buffer.items.length := rfl

@[simp] theorem items_cloneWith (copy : item -> item) (buffer : Buffer item) :
    (buffer.cloneWith copy).items = buffer.items.map copy := rfl

@[simp] theorem capacity_cloneWith (copy : item -> item) (buffer : Buffer item) :
    (buffer.cloneWith copy).capacity = buffer.items.length :=
  List.length_map copy

@[simp] theorem items_truncate (len : Nat) :
    (buffer.truncate len).items = buffer.items.take len := rfl

@[simp] theorem capacity_truncate (len : Nat) :
    (buffer.truncate len).capacity = buffer.capacity := rfl

@[simp] theorem items_clear : buffer.clear.items = [] := rfl

@[simp] theorem capacity_clear :
    buffer.clear.capacity = buffer.capacity := rfl

end Buffer

end Library
end RunNBurn
