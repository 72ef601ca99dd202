/-!
# Floating point, uninterpreted

Nothing is known of the operations.  Results that are the same come from the same operations
in the same order.
-/

namespace RunNBurn
namespace Library

structure FloatOps (F : Type) where
  zero : F
  one : F
  negInfinity : F
  /-- What a sum starts from. -/
  sumStart : F
  literal : Int -> F
  neg : F -> F
  add : F -> F -> F
  sub : F -> F -> F
  mul : F -> F -> F
  div : F -> F -> F
  max : F -> F -> F
  min : F -> F -> F
  /-- The value, its lower bound and its upper bound. -/
  clamp : F -> F -> F -> F
  exp : F -> F
  ln1p : F -> F
  sqrt : F -> F
  lt : F -> F -> Bool
  partialCmp : F -> F -> Option Ordering

namespace FloatOps

variable {F : Type} (f32 : FloatOps F)

/-- `values.iter().sum()` -/
def sum (values : List F) : F :=
  values.foldl f32.add f32.sumStart

/-- The larger value first; what cannot be compared is equal. -/
def descending (x y : F) : Ordering :=
  (f32.partialCmp y x).getD .eq

def ofInt : FloatOps Int where
  zero := 0
  one := 1
  negInfinity := -1000
  sumStart := 0
  literal := fun x => x
  neg := fun x => -x
  add := fun x y => x + y
  sub := fun x y => x - y
  mul := fun x y => x * y
  div := fun x y => x / y
  max := fun x y => if x < y then y else x
  min := fun x y => if x < y then x else y
  clamp := fun x low high => if x < low then low else if high < x then high else x
  exp := fun x => if x < 0 then 0 else 1 + x
  ln1p := fun x => x
  sqrt := fun x => x
  lt := fun x y => decide (x < y)
  partialCmp := fun x y => some (compare x y)

end FloatOps

end Library
end RunNBurn
