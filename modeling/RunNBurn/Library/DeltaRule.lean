import Mathlib.Algebra.BigOperators.Ring.Finset
import Mathlib.Algebra.BigOperators.Group.Finset.Sigma
import Mathlib.Tactic.Ring

/-!
# The gated delta rule

One row of the state of a gated linear recurrence: at each token it decays, and
what is missing towards a target is written along the key of the token.  Seen
from the state in front of a chunk, the state after some tokens is the decayed
state and the corrections of the chunk, each decayed since its token.
-/

namespace RunNBurn
namespace Library

variable {F : Type}

structure DeltaTokens (F : Type) where
  key : Nat -> Nat -> F
  value : Nat -> F
  gate : Nat -> F
  beta : Nat -> F

namespace DeltaTokens

section Shift

/-- The tokens from `start` on. -/
def shift (tokens : DeltaTokens F) (start : Nat) : DeltaTokens F where
  key t := tokens.key (start + t)
  value t := tokens.value (start + t)
  gate t := tokens.gate (start + t)
  beta t := tokens.beta (start + t)

/-- The same tokens, as far as `count` tokens of `dim` key entries go. -/
structure SameUpTo (dim count : Nat) (left right : DeltaTokens F) : Prop where
  key : forall t, t < count -> forall i, i < dim -> left.key t i = right.key t i
  value : forall t, t < count -> left.value t = right.value t
  gate : forall t, t < count -> left.gate t = right.gate t
  beta : forall t, t < count -> left.beta t = right.beta t

end Shift

variable [CommRing F] (exp : F -> F) (dim : Nat) (tokens : DeltaTokens F)

/-- What is written along the key of token `t` when it meets the row `state`. -/
def correctionOf (t : Nat) (state : Nat -> F) : F :=
  (tokens.value t -
    ∑ i ∈ Finset.range dim, exp (tokens.gate t) * state i * tokens.key t i) * tokens.beta t

def step (t : Nat) (state : Nat -> F) : Nat -> F :=
  fun i => exp (tokens.gate t) * state i + tokens.key t i * tokens.correctionOf exp dim t state

def run (state : Nat -> F) : Nat -> Nat -> F
  | 0 => state
  | t + 1 => tokens.step exp dim t (run state t)

theorem run_zero (state : Nat -> F) : tokens.run exp dim state 0 = state := rfl

theorem run_succ (state : Nat -> F) (t : Nat) :
    tokens.run exp dim state (t + 1) = tokens.step exp dim t (tokens.run exp dim state t) := rfl

theorem run_add (state : Nat -> F) (first second : Nat) :
    tokens.run exp dim state (first + second) =
      (tokens.shift first).run exp dim (tokens.run exp dim state first) second := by
  induction second with
  | zero => rfl
  | succ second ih =>
    rw [← Nat.add_assoc, run_succ, ih, run_succ]
    rfl

theorem run_congr {left right : DeltaTokens F} {count : Nat} {state other : Nat -> F}
    (h : SameUpTo dim count left right)
    (hstate : forall i, i < dim -> state i = other i) {t : Nat} (ht : t <= count)
    {i : Nat} (hi : i < dim) :
    left.run exp dim state t i = right.run exp dim other t i := by
  induction t generalizing i with
  | zero => exact hstate i hi
  | succ t ih =>
    have hlt : t < count := ht
    have hrow : forall i, i < dim ->
        left.run exp dim state t i = right.run exp dim other t i :=
      fun i hi => ih (Nat.le_of_lt hlt) hi
    have hsum : (∑ i ∈ Finset.range dim,
          exp (left.gate t) * left.run exp dim state t i * left.key t i) =
        ∑ i ∈ Finset.range dim,
          exp (right.gate t) * right.run exp dim other t i * right.key t i := by
      apply Finset.sum_congr rfl
      intro i hmem
      have hlow := Finset.mem_range.mp hmem
      rw [h.gate t hlt, hrow i hlow, h.key t hlt i hlow]
    rw [run_succ, run_succ]
    unfold step correctionOf
    rw [hsum, h.gate t hlt, h.value t hlt, h.beta t hlt, h.key t hlt i hi, hrow i hi]

/-!
## A chunk
-/

def logDecay (t : Nat) : F :=
  ∑ m ∈ Finset.range t, tokens.gate m

/-- The correction that token `t` writes in a run from `state`. -/
def correction (state : Nat -> F) (t : Nat) : F :=
  tokens.correctionOf exp dim t (tokens.run exp dim state t)

/-- The decay from after token `j` to after `t` tokens. -/
def decaySince (t j : Nat) : F :=
  exp (tokens.logDecay t - tokens.logDecay (j + 1))

theorem logDecay_succ (t : Nat) :
    tokens.logDecay (t + 1) = tokens.logDecay t + tokens.gate t :=
  Finset.sum_range_succ _ _

section Exp

variable {exp} (hadd : forall a b, exp (a + b) = exp a * exp b)
include hadd

theorem decaySince_succ (t j : Nat) :
    tokens.decaySince exp (t + 1) j = exp (tokens.gate t) * tokens.decaySince exp t j := by
  unfold decaySince
  rw [logDecay_succ, ← hadd]
  congr 1
  ring

variable (hzero : exp 0 = 1)
include hzero

theorem run_eq (state : Nat -> F) (t i : Nat) :
    tokens.run exp dim state t i = exp (tokens.logDecay t) * state i +
      ∑ j ∈ Finset.range t,
        tokens.decaySince exp t j * tokens.correction exp dim state j * tokens.key j i := by
  induction t with
  | zero => simp [run_zero, logDecay, hzero]
  | succ t ih =>
    have hself : tokens.decaySince exp (t + 1) t = 1 := by
      unfold decaySince
      rw [sub_self, hzero]
    have hpast : (∑ j ∈ Finset.range t, tokens.decaySince exp (t + 1) j *
          tokens.correction exp dim state j * tokens.key j i) =
        exp (tokens.gate t) * ∑ j ∈ Finset.range t, tokens.decaySince exp t j *
          tokens.correction exp dim state j * tokens.key j i := by
      rw [Finset.mul_sum]
      apply Finset.sum_congr rfl
      intro j _
      rw [tokens.decaySince_succ hadd]
      ring
    rw [Finset.sum_range_succ, hself, hpast, logDecay_succ, hadd]
    change exp (tokens.gate t) * tokens.run exp dim state t i +
      tokens.key t i * tokens.correction exp dim state t = _
    rw [ih]
    ring

theorem sum_run_mul (state query : Nat -> F) (t : Nat) :
    (∑ i ∈ Finset.range dim, tokens.run exp dim state t i * query i) =
      exp (tokens.logDecay t) * (∑ i ∈ Finset.range dim, state i * query i) +
        ∑ j ∈ Finset.range t, (∑ i ∈ Finset.range dim, query i * tokens.key j i) *
          tokens.decaySince exp t j * tokens.correction exp dim state j := by
  have hcross : (∑ j ∈ Finset.range t, (∑ i ∈ Finset.range dim, query i * tokens.key j i) *
        tokens.decaySince exp t j * tokens.correction exp dim state j) =
      ∑ i ∈ Finset.range dim, (∑ j ∈ Finset.range t, tokens.decaySince exp t j *
        tokens.correction exp dim state j * tokens.key j i) * query i := by
    simp only [Finset.sum_mul]
    rw [Finset.sum_comm]
    apply Finset.sum_congr rfl
    intro i _
    apply Finset.sum_congr rfl
    intro j _
    ring
  rw [hcross, Finset.mul_sum, ← Finset.sum_add_distrib]
  apply Finset.sum_congr rfl
  intro i _
  rw [tokens.run_eq dim hadd hzero]
  ring

theorem correction_eq (state : Nat -> F) (t : Nat) :
    tokens.correction exp dim state t = tokens.beta t *
      (tokens.value t -
        exp (tokens.logDecay (t + 1)) * (∑ i ∈ Finset.range dim, state i * tokens.key t i) -
        ∑ j ∈ Finset.range t, (∑ i ∈ Finset.range dim, tokens.key j i * tokens.key t i) *
          tokens.decaySince exp (t + 1) j * tokens.correction exp dim state j) := by
  have hread := tokens.sum_run_mul dim hadd hzero state (tokens.key t) t
  have hdecayed : (∑ i ∈ Finset.range dim,
        exp (tokens.gate t) * tokens.run exp dim state t i * tokens.key t i) =
      exp (tokens.gate t) *
        ∑ i ∈ Finset.range dim, tokens.run exp dim state t i * tokens.key t i := by
    rw [Finset.mul_sum]
    apply Finset.sum_congr rfl
    intro i _
    ring
  have hpast : (∑ j ∈ Finset.range t,
        (∑ i ∈ Finset.range dim, tokens.key j i * tokens.key t i) *
          tokens.decaySince exp (t + 1) j * tokens.correction exp dim state j) =
      exp (tokens.gate t) * ∑ j ∈ Finset.range t,
        (∑ i ∈ Finset.range dim, tokens.key t i * tokens.key j i) *
          tokens.decaySince exp t j * tokens.correction exp dim state j := by
    rw [Finset.mul_sum]
    apply Finset.sum_congr rfl
    intro j _
    have hdot : (∑ i ∈ Finset.range dim, tokens.key j i * tokens.key t i) =
        ∑ i ∈ Finset.range dim, tokens.key t i * tokens.key j i :=
      Finset.sum_congr rfl (fun i _ => mul_comm _ _)
    rw [tokens.decaySince_succ hadd, hdot]
    ring
  rw [hpast, logDecay_succ, hadd]
  change (tokens.value t - ∑ i ∈ Finset.range dim,
      exp (tokens.gate t) * tokens.run exp dim state t i * tokens.key t i) *
    tokens.beta t = _
  rw [hdecayed, hread]
  ring

end Exp

end DeltaTokens

end Library
end RunNBurn
