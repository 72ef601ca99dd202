import RunNBurn.Attention.DecodeFlash
import RunNBurn.KvCache.KvarnAttentionStates

/-!
# The four accumulators

A fused head keeps a sum of weights and a sum of weighted values: in the output itself, with
compensations, in a wider format or in half precision.  Without rounding each of them holds the
two sums.
-/

namespace RunNBurn
namespace Attention

open Library
open KvCache (vecOf ofFn_vecOf)

variable {F H : Type} [Field F]

/-- What exact arithmetic is: a positive exponential that turns sums into products, and half
precision that loses nothing. -/
structure AttentionMath.Exact [LinearOrder F] (math : AttentionMath F H) : Prop where
  exp_pos : forall x, 0 < math.exp x
  exp_add : forall x y, math.exp (x + y) = math.exp x * math.exp y
  ofF16_toF16 : forall x, math.ofF16 (math.toF16 x) = x

/-!
## What a buffer stands for
-/

structure ReadsAs {entry : Type} (read : entry -> F) (good : entry -> Prop) {n : Nat}
    (v : Fin n -> F) (buffer : List entry) : Prop where
  good : forall a, a ∈ buffer -> good a
  read_eq : buffer.map read = List.ofFn v

namespace ReadsAs

variable {entry : Type} {read : entry -> F} {good : entry -> Prop} {n : Nat} {v : Fin n -> F}
  {buffer : List entry}

omit [Field F] in
theorem length_eq (h : ReadsAs read good v buffer) : buffer.length = n := by
  have hlength := congrArg List.length h.read_eq
  rw [List.length_map, List.length_ofFn] at hlength
  exact hlength

theorem replicate (n : Nat) {a : entry} (hgood : good a) (hread : read a = 0) :
    ReadsAs read good (0 : Fin n -> F) (List.replicate n a) where
  good := by
    intro b hb
    rw [(List.mem_replicate.mp hb).2]
    exact hgood
  read_eq := by
    rw [List.map_replicate, hread, ← List.ofFn_const]
    rfl

theorem map {change : entry -> entry} {alpha : F} (h : ReadsAs read good v buffer)
    (hgood : forall a, good a -> good (change a))
    (hread : forall a, good a -> read (change a) = read a * alpha) :
    ReadsAs read good (alpha • v) (buffer.map change) where
  good := by
    intro b hb
    rcases List.mem_map.mp hb with ⟨a, ha, heq⟩
    rw [← heq]
    exact hgood a (h.good a ha)
  read_eq := by
    have hmap : (buffer.map change).map read = (buffer.map read).map fun x => x * alpha := by
      rw [List.map_map, List.map_map]
      apply List.map_congr_left
      intro a ha
      exact hread a (h.good a ha)
    rw [hmap, h.read_eq, List.map_ofFn]
    apply congrArg
    funext d
    exact mul_comm _ _

theorem zipInto {change : entry -> H -> entry} {ofF16 : H -> F} {p : F} {row : List H}
    (h : ReadsAs read good v buffer) (hrow : row.length = n)
    (hgood : forall a y, good a -> good (change a y))
    (hread : forall a y, good a -> read (change a y) = read a + p * ofF16 y) :
    ReadsAs read good (v + p • vecOf n (row.map ofF16)) (zipInto change buffer row) where
  good := by
    intro b hb
    rw [zipInto_of_length_eq (by rw [h.length_eq, hrow])] at hb
    rcases List.mem_iff_getElem.mp hb with ⟨i, hi, heq⟩
    rw [← heq, List.getElem_zipWith]
    exact hgood _ _ (h.good _ (List.getElem_mem _))
  read_eq := by
    have hvalues : List.ofFn (vecOf n (row.map ofF16)) = row.map ofF16 :=
      ofFn_vecOf (by rw [List.length_map, hrow])
    rw [zipInto_of_length_eq (by rw [h.length_eq, hrow])]
    apply List.ext_getElem
    · rw [List.length_map, List.length_zipWith, h.length_eq, hrow, Nat.min_self, List.length_ofFn]
    · intro i hleft hright
      have hi : i < n := by
        rw [List.length_ofFn] at hright
        exact hright
      have hentry : read (buffer.get ⟨i, by rw [h.length_eq]; exact hi⟩) = v ⟨i, hi⟩ := by
        have hget := List.getElem_of_eq h.read_eq
          (by rw [List.length_map, h.length_eq]; exact hi)
        rw [List.getElem_map, List.getElem_ofFn] at hget
        exact hget
      have hvalue : ofF16 (row.get ⟨i, by rw [hrow]; exact hi⟩) =
          vecOf n (row.map ofF16) ⟨i, hi⟩ := by
        have hget := List.getElem_of_eq hvalues (by rw [List.length_ofFn]; exact hi)
        rw [List.getElem_map, List.getElem_ofFn] at hget
        exact hget.symm
      rw [List.getElem_map, List.getElem_zipWith, List.getElem_ofFn,
        hread _ _ (h.good _ (List.getElem_mem _))]
      show read (buffer.get _) + p * ofF16 (row.get _) = v ⟨i, hi⟩ + p * vecOf n _ ⟨i, hi⟩
      rw [hentry, hvalue]

theorem write {factor : F} (h : ReadsAs read good v buffer) :
    buffer.map (fun a => read a * factor) = List.ofFn (factor • v) := by
  have hmap : buffer.map (fun a => read a * factor) =
      (buffer.map read).map fun x => x * factor := by
    rw [List.map_map]
    rfl
  rw [hmap, h.read_eq, List.map_ofFn]
  apply congrArg
  funext d
  exact mul_comm _ _

end ReadsAs

/-!
## The four accumulators
-/

namespace HeadPath

variable {acc : Type}

/-- The accumulator holds a sum of weights and a sum of weighted values, and every operation
does to these two sums what its name says. -/
structure Sound [LinearOrder F] (math : AttentionMath F H) (n : Nat) (path : HeadPath F H acc)
    (holds : acc -> F -> (Fin n -> F) -> Prop) : Prop where
  query_eq : forall query, path.query query = query
  start : forall outHead, outHead.length = n -> holds (path.start outHead n) 0 0
  rescale : forall {a s v} alpha, holds a s v ->
    holds (path.rescale alpha a) (s * alpha) (alpha • v)
  addOne : forall {a s v row}, holds a s v -> row.length = n ->
    holds (path.addOne row a) (s + 1) (v + (1 : F) • vecOf n (row.map math.ofF16))
  add : forall {a s v row} p, holds a s v -> row.length = n ->
    holds (path.add p row a) (s + p) (v + p • vecOf n (row.map math.ofF16))
  sum_eq : forall {a s v}, holds a s v -> path.sum a = s
  finish_eq : forall {a s v} factor, holds a s v ->
    path.finish factor a = List.ofFn (factor • v)

section Accumulators

variable [LinearOrder F] (math : AttentionMath F H) (n : Nat)

def holdsPlain (a : PlainAcc F) (s : F) (v : Fin n -> F) : Prop :=
  ReadsAs id (fun _ => True) v a.out ∧ a.s = s

theorem sound_plainPath : (plainPath math).Sound math n (holdsPlain n) where
  query_eq := fun _ => rfl
  start := by
    intro outHead hlength
    constructor
    · show ReadsAs id _ _ (outHead.map fun _ => (0 : F))
      rw [List.map_const', hlength]
      exact ReadsAs.replicate n trivial rfl
    · rfl
  rescale := by
    intro a s v alpha h
    constructor
    · exact h.1.map (fun _ _ => trivial) (fun _ _ => rfl)
    · show a.s * alpha = s * alpha
      rw [h.2]
  addOne := by
    intro a s v row h hrow
    constructor
    · exact h.1.zipInto hrow (fun _ _ _ => trivial) (fun _ _ _ => rfl)
    · show a.s + 1 = s + 1
      rw [h.2]
  add := by
    intro a s v row p h hrow
    constructor
    · exact h.1.zipInto hrow (fun _ _ _ => trivial) (fun _ _ _ => rfl)
    · show a.s + p = s + p
      rw [h.2]
  sum_eq := fun h => h.2
  finish_eq := fun _ h => h.1.write

theorem sound_f64Path : (f64Path math).Sound math n (holdsPlain n) where
  query_eq := fun _ => rfl
  start := by
    intro outHead _
    constructor
    · exact ReadsAs.replicate n trivial rfl
    · rfl
  rescale := by
    intro a s v alpha h
    constructor
    · exact h.1.map (fun _ _ => trivial) (fun _ _ => rfl)
    · show a.s * alpha = s * alpha
      rw [h.2]
  addOne := by
    intro a s v row h hrow
    constructor
    · apply h.1.zipInto hrow (fun _ _ _ => trivial)
      intro a y _
      rw [one_mul]
      rfl
    · show a.s + 1 = s + 1
      rw [h.2]
  add := by
    intro a s v row p h hrow
    constructor
    · exact h.1.zipInto hrow (fun _ _ _ => trivial) (fun _ _ _ => rfl)
    · show a.s + p = s + p
      rw [h.2]
  sum_eq := fun h => h.2
  finish_eq := fun _ h => h.1.write

end Accumulators

end HeadPath

namespace Compensated

variable {a : Compensated F}

theorem add_of_exact (h : a.c = 0) (x : F) :
    (a.add x).sum = a.sum + x ∧ (a.add x).c = 0 := by
  unfold Compensated.add
  dsimp only
  rw [h, sub_zero]
  constructor
  · rfl
  · rw [add_sub_cancel_left, sub_self]

theorem rescale_of_exact (h : a.c = 0) (alpha : F) :
    (a.rescale alpha).sum = a.sum * alpha ∧ (a.rescale alpha).c = 0 := by
  constructor
  · rfl
  · show a.c * alpha = 0
    rw [h, zero_mul]

end Compensated

namespace HeadPath

section Accumulators

variable [LinearOrder F] (math : AttentionMath F H) (n : Nat)

def holdsKahan (a : KahanAcc F) (s : F) (v : Fin n -> F) : Prop :=
  ReadsAs Compensated.sum (fun x => x.c = 0) v a.acc ∧ a.s.sum = s ∧ a.s.c = 0

theorem sound_kahanPath : (kahanPath math).Sound math n (holdsKahan n) where
  query_eq := fun _ => rfl
  start := by
    intro outHead _
    constructor
    · exact ReadsAs.replicate n rfl rfl
    · exact ⟨rfl, rfl⟩
  rescale := by
    intro a s v alpha h
    have hsum := Compensated.rescale_of_exact h.2.2 alpha
    constructor
    · apply h.1.map
      · intro x hx
        exact (Compensated.rescale_of_exact hx alpha).2
      · intro x hx
        exact (Compensated.rescale_of_exact hx alpha).1
    · rw [← h.2.1]
      exact hsum
  addOne := by
    intro a s v row h hrow
    have hsum := Compensated.add_of_exact h.2.2 1
    constructor
    · apply h.1.zipInto hrow
      · intro x y hx
        exact (Compensated.add_of_exact hx _).2
      · intro x y hx
        rw [one_mul]
        exact (Compensated.add_of_exact hx _).1
    · rw [← h.2.1]
      exact hsum
  add := by
    intro a s v row p h hrow
    have hsum := Compensated.add_of_exact h.2.2 p
    constructor
    · apply h.1.zipInto hrow
      · intro x y hx
        exact (Compensated.add_of_exact hx _).2
      · intro x y hx
        exact (Compensated.add_of_exact hx _).1
    · rw [← h.2.1]
      exact hsum
  sum_eq := fun h => h.2.1
  finish_eq := fun _ h => h.1.write

def holdsF16 (a : F16Acc F H) (s : F) (v : Fin n -> F) : Prop :=
  ReadsAs math.ofF16 (fun _ => True) v a.accF16 ∧ a.s = s

theorem sound_f16AccPath (h : math.Exact) (noQRound : Bool) :
    (f16AccPath math noQRound).Sound math n (holdsF16 math n) where
  query_eq := by
    intro query
    cases noQRound with
    | true => rfl
    | false =>
      show query.map (fun v => math.ofF16 (math.toF16 v)) = query
      simp only [h.ofF16_toF16, List.map_id']
  start := by
    intro outHead _
    constructor
    · exact ReadsAs.replicate n trivial (h.ofF16_toF16 0)
    · rfl
  rescale := by
    intro a s v alpha hholds
    constructor
    · apply hholds.1.map (fun _ _ => trivial)
      intro x _
      exact h.ofF16_toF16 _
    · show a.s * alpha = s * alpha
      rw [hholds.2]
  addOne := by
    intro a s v row hholds hrow
    constructor
    · apply hholds.1.zipInto hrow (fun _ _ _ => trivial)
      intro x y _
      rw [one_mul]
      exact h.ofF16_toF16 _
    · show a.s + 1 = s + 1
      rw [hholds.2]
  add := by
    intro a s v row p hholds hrow
    constructor
    · apply hholds.1.zipInto hrow (fun _ _ _ => trivial)
      intro x y _
      rw [mul_comm]
      exact h.ofF16_toF16 _
    · show a.s + p = s + p
      rw [hholds.2]
  sum_eq := fun h => h.2
  finish_eq := fun _ h => h.1.write

end Accumulators

end HeadPath

end Attention
end RunNBurn
