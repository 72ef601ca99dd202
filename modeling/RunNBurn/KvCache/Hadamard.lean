import RunNBurn.KvCache.KvarnAttentionBlocks
import RunNBurn.Library.Reflection

/-!
# The Hadamard transform

The transform of the rows as the program computes it, in blocks of powers of two.  In
exact arithmetic it is a rotation that undoes itself.
-/

namespace RunNBurn
namespace KvCache

open Library
open scoped Matrix

/-!
# The program
-/

section Program

variable {F : Type} [Zero F] [One F] [NatCast F] [Add F] [Sub F] [Mul F] [Div F]

/-- The pairs that stand one span apart: their sum and their difference. -/
def hadamardPairs (span : Nat) (block : List F) : List F :=
  List.zipWith (fun left right => left + right) (block.take span) (block.drop span) ++
    List.zipWith (fun left right => left - right) (block.take span) (block.drop span)

/-- The loop over `base`, one block of two spans after another. -/
def hadamardPass (values : List F) (span : Nat) : List F :=
  (chunks (span * 2) (values.length / (span * 2)) values).flatMap (hadamardPairs span)

/-- The spans that the outer loop takes below `len`, a power of two. -/
def hadamardSpans (len : Nat) : List Nat :=
  (List.range (Nat.log2 len)).map fun round => 2 ^ round

def normalizedHadamardScalar (sqrt : F -> F) (values : List F) : List F :=
  let normalization := 1 / sqrt (values.length : F)
  ((hadamardSpans values.length).foldl hadamardPass values).map
    fun value => value * normalization

def largestPowerOfTwoAtMost (value : Nat) : Nat :=
  2 ^ Nat.log2 value

/-- The loop over `offset`; every block has an entry, so as many rounds as there are
entries are enough. -/
def normalizedHadamardBlocks (sqrt : F -> F) : Nat -> List F -> List F
  | 0, values => values
  | _ + 1, [] => []
  | rounds + 1, value :: rest =>
    let blockLen := largestPowerOfTwoAtMost (rest.length + 1)
    normalizedHadamardScalar sqrt ((value :: rest).take blockLen) ++
      normalizedHadamardBlocks sqrt rounds ((value :: rest).drop blockLen)

def normalizedHadamardInPlace (sqrt : F -> F) (values : List F) : List F :=
  normalizedHadamardBlocks sqrt values.length values

/-- The block lengths that the transform of `n` entries takes. -/
def hadamardBlockLengths : Nat -> Nat -> List Nat
  | 0, _ => []
  | _ + 1, 0 => []
  | rounds + 1, n + 1 =>
    let blockLen := largestPowerOfTwoAtMost (n + 1)
    blockLen :: hadamardBlockLengths rounds (n + 1 - blockLen)

end Program

/-!
# Passes
-/

section Passes

variable {F : Type} [Field F]

theorem hadamardPass_facts {values : List F} {span count : Nat} (hspan : 0 < span)
    (h : values.length = count * (span * 2)) :
    hadamardPass values span =
        (chunks (span * 2) count values).flatMap (hadamardPairs span) ∧
      (hadamardPass values span).length = values.length := by
  have hpass : hadamardPass values span =
      (chunks (span * 2) count values).flatMap (hadamardPairs span) := by
    unfold hadamardPass
    rw [h, Nat.mul_div_cancel _ (Nat.mul_pos hspan Nat.two_pos)]
  have huniform : UniformRows (hadamardPairs (F := F) span) (span * 2)
      (chunks (span * 2) count values) := by
    intro block hblock
    have hlength := length_of_mem_chunks (Nat.le_of_eq h.symm) hblock
    unfold hadamardPairs
    rw [List.length_append, List.length_zipWith, List.length_zipWith, List.length_take,
      List.length_drop]
    omega
  constructor
  · exact hpass
  · rw [hpass, length_flatMap_of_uniformRows huniform, length_chunks, h]

theorem hadamardPass_append {left right : List F} {span count more : Nat} (hspan : 0 < span)
    (hleft : left.length = count * (span * 2)) (hright : right.length = more * (span * 2)) :
    hadamardPass (left ++ right) span = hadamardPass left span ++ hadamardPass right span := by
  have hboth : (left ++ right).length = (count + more) * (span * 2) := by
    rw [List.length_append, hleft, hright, Nat.add_mul]
  rw [(hadamardPass_facts hspan hboth).left, (hadamardPass_facts hspan hleft).left,
    (hadamardPass_facts hspan hright).left, chunks_append hleft, List.flatMap_append]

theorem foldl_hadamardPass_append {left right : List F} (rounds : Nat) {k : Nat}
    (hrounds : rounds <= k) (hleft : left.length = 2 ^ k) (hright : right.length = 2 ^ k) :
    let passes := ((List.range rounds).map fun round => 2 ^ round).foldl hadamardPass
    passes (left ++ right) = passes left ++ passes right ∧
      (passes left).length = 2 ^ k ∧ (passes right).length = 2 ^ k := by
  induction rounds with
  | zero => exact ⟨rfl, hleft, hright⟩
  | succ rounds ih =>
    rcases ih (Nat.le_of_succ_le hrounds) with ⟨happend, hpassLeft, hpassRight⟩
    have hpow : 2 ^ k = 2 ^ (k - (rounds + 1)) * (2 ^ rounds * 2) := by
      rw [← Nat.pow_succ, ← Nat.pow_add, Nat.sub_add_cancel hrounds]
    have hspan : 0 < 2 ^ rounds := Nat.pow_pos Nat.two_pos
    dsimp only at happend hpassLeft hpassRight ⊢
    rw [List.range_succ, List.map_append, List.foldl_append, List.foldl_append,
      List.foldl_append, happend]
    have hnextLeft := hpassLeft.trans hpow
    have hnextRight := hpassRight.trans hpow
    constructor
    · exact hadamardPass_append hspan hnextLeft hnextRight
    constructor
    · exact (hadamardPass_facts hspan hnextLeft).right.trans hpassLeft
    · exact (hadamardPass_facts hspan hnextRight).right.trans hpassRight

theorem reflecting_passes (k : Nat) :
    Reflecting (2 ^ k : F) (2 ^ k)
      (((List.range k).map fun round => 2 ^ round).foldl hadamardPass) := by
  induction k with
  | zero =>
    rw [pow_zero]
    exact Reflecting.self fun _ _ => rfl
  | succ k ih =>
    rw [pow_succ' (2 : F), Nat.pow_succ, Nat.mul_two]
    apply ih.doubled.congr
    intro xs hlength
    have hleft : (xs.take (2 ^ k)).length = 2 ^ k := by
      rw [List.length_take]
      omega
    have hright : (xs.drop (2 ^ k)).length = 2 ^ k := by
      rw [List.length_drop]
      omega
    rcases foldl_hadamardPass_append k (Nat.le_refl k) hleft hright with
      ⟨happend, hpassLeft, hpassRight⟩
    rw [List.take_append_drop] at happend
    have htotal := congrArg List.length happend
    rw [List.length_append, hpassLeft, hpassRight, ← Nat.mul_two, ← Nat.one_mul (2 ^ k * 2)]
      at htotal
    have hlast := (hadamardPass_facts (Nat.pow_pos Nat.two_pos) htotal).left
    rw [List.range_succ, List.map_append, List.foldl_append]
    show hadamardPass _ (2 ^ k) = _
    rw [hlast, happend]
    rw [happend] at htotal
    rw [Nat.one_mul] at htotal
    rw [chunks, chunks, List.take_of_length_le (Nat.le_of_eq htotal), List.flatMap_singleton]
    unfold hadamardPairs
    rw [List.take_left' hpassLeft, List.drop_left' hpassLeft]

variable [CharZero F] {sqrt : F -> F}

theorem reflecting_scalar {k : Nat}
    (hsqrt : sqrt ((2 ^ k : Nat) : F) * sqrt ((2 ^ k : Nat) : F) = ((2 ^ k : Nat) : F)) :
    Reflecting (1 : F) (2 ^ k) (normalizedHadamardScalar sqrt) := by
  have hcast : ((2 ^ k : Nat) : F) = 2 ^ k := by
    rw [Nat.cast_pow, Nat.cast_two]
  have hpow : ((2 ^ k : Nat) : F) ≠ 0 := by
    rw [hcast]
    exact pow_ne_zero k two_ne_zero
  have hroot : sqrt ((2 ^ k : Nat) : F) ≠ 0 := by
    intro hzero
    rw [hzero, zero_mul] at hsqrt
    exact hpow hsqrt.symm
  have hscaled := (reflecting_passes (F := F) k).scaled (1 / sqrt ((2 ^ k : Nat) : F))
  have hone : 1 / sqrt ((2 ^ k : Nat) : F) * (1 / sqrt ((2 ^ k : Nat) : F)) * 2 ^ k = 1 := by
    rw [← hcast, div_mul_div_comm, hsqrt, one_mul, one_div_mul_cancel hpow]
  rw [hone] at hscaled
  apply hscaled.congr
  intro xs hlength
  unfold normalizedHadamardScalar hadamardSpans
  dsimp only
  rw [hlength, Nat.log2_two_pow]

theorem reflecting_blocks (rounds : Nat) {n : Nat} (hn : n <= rounds)
    (hsqrt : forall m, m ∈ hadamardBlockLengths rounds n ->
      sqrt (m : F) * sqrt (m : F) = (m : F)) :
    Reflecting (1 : F) n (normalizedHadamardBlocks sqrt rounds) := by
  induction rounds generalizing n with
  | zero => exact Reflecting.self fun _ _ => rfl
  | succ rounds ih =>
    cases n with
    | zero =>
      apply Reflecting.self
      intro xs hlength
      rw [List.length_eq_zero_iff.mp hlength]
      rfl
    | succ n =>
      have hlen : largestPowerOfTwoAtMost (n + 1) <= n + 1 :=
        Nat.log2_self_le (Nat.succ_ne_zero n)
      have hpos : 0 < largestPowerOfTwoAtMost (n + 1) := Nat.pow_pos Nat.two_pos
      have hfirst := reflecting_scalar (hsqrt _ List.mem_cons_self)
      have hrest := ih (n := n + 1 - largestPowerOfTwoAtMost (n + 1)) (by omega)
        (fun m hm => hsqrt m (List.mem_cons_of_mem _ hm))
      have hboth := hfirst.beside hrest
      have htotal : 2 ^ Nat.log2 (n + 1) + (n + 1 - largestPowerOfTwoAtMost (n + 1)) =
          n + 1 := Nat.add_sub_cancel' hlen
      rw [htotal] at hboth
      apply hboth.congr
      intro xs hlength
      cases xs with
      | nil => cases hlength
      | cons value rest =>
        have hvalue : rest.length + 1 = n + 1 := hlength
        rw [normalizedHadamardBlocks, hvalue]
        rfl

theorem exists_rotates (math : KvarnMath F)
    (hmath : math.normalizedHadamard = normalizedHadamardInPlace math.sqrt) (n : Nat)
    (hsqrt : forall m, m ∈ hadamardBlockLengths n n ->
      math.sqrt (m : F) * math.sqrt (m : F) = (m : F)) :
    exists rotation, Rotates math n rotation := by
  rcases reflecting_blocks n (Nat.le_refl n) hsqrt with ⟨rotation, hreflects, hcomputes⟩
  exists rotation
  exact {
    apply_eq := by
      intro xs hlength
      have hxs := hcomputes (vecOf n xs)
      rw [ofFn_vecOf hlength] at hxs
      rw [hmath]
      unfold normalizedHadamardInPlace
      rw [hlength]
      exact hxs
    orthonormal := hreflects.orthonormal
    involutive := by
      intro v
      rw [hreflects.square, one_smul] }

end Passes

end KvCache
end RunNBurn
