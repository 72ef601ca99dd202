import Mathlib.Algebra.BigOperators.Fin
import Mathlib.Data.Matrix.Mul
import Mathlib.LinearAlgebra.Pi
import Mathlib.Tactic.Abel
import Mathlib.Tactic.LinearCombination
import Mathlib.GroupTheory.GroupAction.Ring

/-!
# Reflections of buffers

A symmetric linear map that is its own inverse up to a factor, and the buffer programs
that compute one.  Sums and differences of two halves double the factor, and a division
by the root takes it away.
-/

namespace RunNBurn
namespace Library

open scoped Matrix

variable {F : Type} [Field F]

structure Reflects (factor : F) {n : Nat} (transform : (Fin n -> F) →ₗ[F] (Fin n -> F)) :
    Prop where
  symmetric : forall v w, transform v ⬝ᵥ w = v ⬝ᵥ transform w
  square : forall v, transform (transform v) = factor • v

theorem Reflects.orthonormal {n : Nat} {transform : (Fin n -> F) →ₗ[F] (Fin n -> F)}
    (h : Reflects 1 transform) (v w : Fin n -> F) :
    transform v ⬝ᵥ transform w = v ⬝ᵥ w := by
  rw [h.symmetric, h.square, one_smul]

/-!
# Halves
-/

section Halves

variable {m n : Nat}

def lowPart : (Fin (m + n) -> F) →ₗ[F] (Fin m -> F) :=
  LinearMap.funLeft F F (Fin.castAdd n)

def highPart : (Fin (m + n) -> F) →ₗ[F] (Fin n -> F) :=
  LinearMap.funLeft F F (Fin.natAdd m)

@[simp] theorem lowPart_append (a : Fin m -> F) (b : Fin n -> F) :
    lowPart (Fin.append a b) = a := by
  funext i
  exact Fin.append_left a b i

@[simp] theorem highPart_append (a : Fin m -> F) (b : Fin n -> F) :
    highPart (Fin.append a b) = b := by
  funext i
  exact Fin.append_right a b i

theorem append_parts (v : Fin (m + n) -> F) : Fin.append (lowPart v) (highPart v) = v :=
  Fin.append_castAdd_natAdd

theorem append_add (a c : Fin m -> F) (b d : Fin n -> F) :
    Fin.append (a + c) (b + d) = Fin.append a b + Fin.append c d := by
  rw [← append_parts (Fin.append a b + Fin.append c d)]
  simp

theorem append_smul (factor : F) (a : Fin m -> F) (b : Fin n -> F) :
    Fin.append (factor • a) (factor • b) = factor • Fin.append a b := by
  rw [← append_parts (factor • Fin.append a b)]
  simp

theorem append_dot (a c : Fin m -> F) (b d : Fin n -> F) :
    Fin.append a b ⬝ᵥ Fin.append c d = a ⬝ᵥ c + b ⬝ᵥ d := by
  unfold dotProduct
  rw [Fin.sum_univ_add]
  simp

def besideMap (f : (Fin m -> F) →ₗ[F] (Fin m -> F)) (g : (Fin n -> F) →ₗ[F] (Fin n -> F)) :
    (Fin (m + n) -> F) →ₗ[F] (Fin (m + n) -> F) where
  toFun v := Fin.append (f (lowPart v)) (g (highPart v))
  map_add' v w := by
    rw [map_add, map_add, map_add, map_add, append_add]
  map_smul' factor v := by
    rw [map_smul, map_smul, map_smul, map_smul, append_smul]
    rfl

/-- Both halves are mapped, and replaced by their sum and their difference. -/
def doubledMap (f : (Fin n -> F) →ₗ[F] (Fin n -> F)) :
    (Fin (n + n) -> F) →ₗ[F] (Fin (n + n) -> F) where
  toFun v := Fin.append (f (lowPart v) + f (highPart v)) (f (lowPart v) - f (highPart v))
  map_add' v w := by
    rw [map_add, map_add, map_add, map_add, ← append_add, add_add_add_comm, add_sub_add_comm]
  map_smul' factor v := by
    rw [map_smul, map_smul, map_smul, map_smul, ← smul_add, ← smul_sub, append_smul]
    rfl

theorem Reflects.beside {factor : F} {f : (Fin m -> F) →ₗ[F] (Fin m -> F)}
    {g : (Fin n -> F) →ₗ[F] (Fin n -> F)} (hf : Reflects factor f) (hg : Reflects factor g) :
    Reflects factor (besideMap f g) where
  symmetric v w := by
    rw [← append_parts v, ← append_parts w]
    show Fin.append (f _) (g _) ⬝ᵥ _ = _ ⬝ᵥ Fin.append (f _) (g _)
    rw [append_dot, append_dot]
    simp only [lowPart_append, highPart_append]
    rw [hf.symmetric, hg.symmetric]
  square v := by
    show Fin.append (f (lowPart (Fin.append (f _) (g _))))
      (g (highPart (Fin.append (f _) (g _)))) = _
    rw [lowPart_append, highPart_append, hf.square, hg.square, append_smul, append_parts]

theorem Reflects.doubled {factor : F} {f : (Fin n -> F) →ₗ[F] (Fin n -> F)}
    (hf : Reflects factor f) : Reflects (2 * factor) (doubledMap f) where
  symmetric v w := by
    rw [← append_parts v, ← append_parts w]
    show Fin.append (f _ + f _) (f _ - f _) ⬝ᵥ _ = _ ⬝ᵥ Fin.append (f _ + f _) (f _ - f _)
    rw [append_dot, append_dot]
    simp only [lowPart_append, highPart_append, add_dotProduct, sub_dotProduct, dotProduct_add,
      dotProduct_sub, hf.symmetric]
    ring
  square v := by
    show Fin.append
      (f (lowPart (Fin.append (f _ + f _) (f _ - f _))) +
        f (highPart (Fin.append (f _ + f _) (f _ - f _))))
      (f (lowPart (Fin.append (f _ + f _) (f _ - f _))) -
        f (highPart (Fin.append (f _ + f _) (f _ - f _)))) = _
    simp only [lowPart_append, highPart_append, map_add, map_sub, hf.square]
    have hlow : factor • lowPart v + factor • highPart v +
        (factor • lowPart v - factor • highPart v) = (2 * factor) • lowPart v := by
      rw [add_add_sub_cancel, ← add_smul, two_mul]
    have hhigh : factor • lowPart v + factor • highPart v -
        (factor • lowPart v - factor • highPart v) = (2 * factor) • highPart v := by
      rw [add_sub_sub_cancel, ← add_smul, two_mul]
    rw [hlow, hhigh, append_smul, append_parts]

theorem Reflects.scaled {factor : F} {f : (Fin n -> F) →ₗ[F] (Fin n -> F)}
    (hf : Reflects factor f) (scale : F) : Reflects (scale * scale * factor) (scale • f) where
  symmetric v w := by
    rw [LinearMap.smul_apply, LinearMap.smul_apply, smul_dotProduct, dotProduct_smul, hf.symmetric]
  square v := by
    rw [LinearMap.smul_apply, LinearMap.smul_apply, map_smul, hf.square, smul_smul, smul_smul,
      mul_assoc]

end Halves

theorem reflects_id (n : Nat) : Reflects (1 : F) (LinearMap.id : (Fin n -> F) →ₗ[F] _) where
  symmetric _ _ := rfl
  square v := (one_smul F v).symm

/-!
# Programs on buffers
-/

theorem zipWith_ofFn {entry : Type} {n : Nat} (op : entry -> entry -> entry)
    (a b : Fin n -> entry) :
    List.zipWith op (List.ofFn a) (List.ofFn b) = List.ofFn fun i => op (a i) (b i) := by
  apply List.ext_getElem
  · simp
  · intro i _ _
    simp

/-- On buffers of length `n` the program computes a reflection. -/
def Reflecting (factor : F) (n : Nat) (program : List F -> List F) : Prop :=
  exists transform : (Fin n -> F) →ₗ[F] (Fin n -> F), Reflects factor transform ∧
    forall v, program (List.ofFn v) = List.ofFn (transform v)

namespace Reflecting

variable {factor : F} {m n : Nat} {program other : List F -> List F}

theorem congr (h : Reflecting factor n program)
    (heq : forall xs, xs.length = n -> other xs = program xs) : Reflecting factor n other := by
  rcases h with ⟨transform, hreflects, hcomputes⟩
  exists transform
  constructor
  · exact hreflects
  · intro v
    rw [heq _ List.length_ofFn]
    exact hcomputes v

theorem self (h : forall xs, xs.length = n -> program xs = xs) :
    Reflecting (1 : F) n program := by
  exists LinearMap.id
  constructor
  · exact reflects_id n
  · intro v
    exact h _ List.length_ofFn

theorem scaled (h : Reflecting factor n program) (scale : F) :
    Reflecting (scale * scale * factor) n
      (fun xs => (program xs).map fun x => x * scale) := by
  rcases h with ⟨transform, hreflects, hcomputes⟩
  exists scale • transform
  constructor
  · exact hreflects.scaled scale
  · intro v
    dsimp only
    rw [hcomputes, List.map_ofFn]
    apply congrArg
    funext i
    exact mul_comm _ _

theorem beside (hleft : Reflecting factor m program) (hright : Reflecting factor n other) :
    Reflecting factor (m + n) (fun xs => program (xs.take m) ++ other (xs.drop m)) := by
  rcases hleft with ⟨f, hf, hprogram⟩
  rcases hright with ⟨g, hg, hother⟩
  exists besideMap f g
  constructor
  · exact hf.beside hg
  · intro v
    have hparts : List.ofFn v = List.ofFn (lowPart v) ++ List.ofFn (highPart v) := by
      rw [← List.ofFn_fin_append, append_parts]
    dsimp only
    rw [hparts, List.take_left' List.length_ofFn, List.drop_left' List.length_ofFn, hprogram,
      hother, ← List.ofFn_fin_append]
    rfl

theorem doubled (h : Reflecting factor n program) :
    Reflecting (2 * factor) (n + n) (fun xs =>
      List.zipWith (fun left right => left + right) (program (xs.take n))
          (program (xs.drop n)) ++
        List.zipWith (fun left right => left - right) (program (xs.take n))
          (program (xs.drop n))) := by
  rcases h with ⟨f, hf, hprogram⟩
  exists doubledMap f
  constructor
  · exact hf.doubled
  · intro v
    have hparts : List.ofFn v = List.ofFn (lowPart v) ++ List.ofFn (highPart v) := by
      rw [← List.ofFn_fin_append, append_parts]
    dsimp only
    rw [hparts, List.take_left' List.length_ofFn, List.drop_left' List.length_ofFn, hprogram,
      hprogram, zipWith_ofFn, zipWith_ofFn, ← List.ofFn_fin_append]
    rfl

end Reflecting

end Library
end RunNBurn
