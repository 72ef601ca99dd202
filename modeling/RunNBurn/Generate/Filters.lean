import RunNBurn.Generate.Sampling
import RunNBurn.Library.KthLargest
import RunNBurn.Library.CategoricalChoice
import Mathlib.Algebra.Order.BigOperators.Group.List
import Mathlib.Data.Rat.Cast.Order

/-!
# Logit filters

Softmax and the filters of the sampler chain over exact scores.  A logit is a
number of an ordered field or negative infinity, and a filter lowers some logits
to negative infinity.
-/

namespace RunNBurn
namespace Generate

open Library
open Inference

variable {K : Type}

/-!
# What a filter leaves
-/

def Alive (logits : List (WithBot K)) (token : TokenId) : Prop :=
  exists score : K, logits[token]? = some (score : WithBot K)

/-- The second list is the first with some logits lowered to negative infinity. -/
structure Lowers (before after : List (WithBot K)) : Prop where
  length_eq : after.length = before.length
  kept : forall (token : TokenId) (score : K), after[token]? = some (score : WithBot K) ->
    before[token]? = some (score : WithBot K)

variable {logits : List (WithBot K)}

theorem Alive.lt_length {token : TokenId} (h : Alive logits token) :
    token < logits.length := by
  rcases h with ⟨score, hscore⟩
  exact (List.getElem?_eq_some_iff.mp hscore).1

theorem alive_iff {token : TokenId} :
    Alive logits token ↔ exists logit, logits[token]? = some logit ∧ logit ≠ ⊥ := by
  constructor
  · intro h
    rcases h with ⟨score, hscore⟩
    exact ⟨score, hscore, WithBot.coe_ne_bot⟩
  · intro h
    rcases h with ⟨logit, hlogit, hne⟩
    rcases WithBot.ne_bot_iff_exists.mp hne with ⟨score, hscore⟩
    exact ⟨score, by rw [hlogit, hscore]⟩

namespace Lowers

theorem refl (logits : List (WithBot K)) : Lowers logits logits where
  length_eq := rfl
  kept _ _ h := h

theorem trans {first second third : List (WithBot K)}
    (h : Lowers first second) (h' : Lowers second third) : Lowers first third where
  length_eq := h'.length_eq.trans h.length_eq
  kept token score hscore := h.kept token score (h'.kept token score hscore)

theorem alive {before after : List (WithBot K)} {token : TokenId}
    (h : Lowers before after) (halive : Alive after token) : Alive before token := by
  rcases halive with ⟨score, hscore⟩
  exact ⟨score, h.kept token score hscore⟩

end Lowers

theorem lowers_set (logits : List (WithBot K)) (token : TokenId) :
    Lowers logits (logits.set token ⊥) where
  length_eq := List.length_set
  kept i score h := by
    rw [List.getElem?_set] at h
    split at h
    · split at h
      · cases h
      · cases h
    · exact h

/-!
# The largest logit
-/

section Maximum

variable [LinearOrder K]

def maximumLogit (logits : List (WithBot K)) : WithBot K :=
  logits.foldl max ⊥

variable {logits : List (WithBot K)}

theorem le_foldl_max {start logit : WithBot K} (h : logit = start ∨ logit ∈ logits) :
    logit <= logits.foldl max start := by
  induction logits generalizing start logit with
  | nil =>
    cases h with
    | inl h => exact le_of_eq h
    | inr h => cases h
  | cons head rest ih =>
    rw [List.foldl_cons]
    rcases h with h | h
    · rw [h]
      exact le_trans (le_max_left start head) (ih (Or.inl rfl))
    · rcases List.mem_cons.mp h with h | h
      · rw [h]
        exact le_trans (le_max_right start head) (ih (Or.inl rfl))
      · exact ih (Or.inr h)

theorem foldl_max_mem (logits : List (WithBot K)) (start : WithBot K) :
    logits.foldl max start = start ∨ logits.foldl max start ∈ logits := by
  induction logits generalizing start with
  | nil => exact Or.inl rfl
  | cons head rest ih =>
    rw [List.foldl_cons]
    rcases ih (max start head) with h | h
    · rw [h]
      rcases max_choice start head with hmax | hmax
      · exact Or.inl hmax
      · rw [hmax]
        exact Or.inr List.mem_cons_self
    · exact Or.inr (List.mem_cons_of_mem head h)

theorem le_maximumLogit {logit : WithBot K} (h : logit ∈ logits) : logit <= maximumLogit logits :=
  le_foldl_max (Or.inr h)

theorem maximumLogit_mem (h : maximumLogit logits ≠ ⊥) : maximumLogit logits ∈ logits := by
  rcases foldl_max_mem logits ⊥ with hbot | hmem
  · exact absurd hbot h
  · exact hmem

theorem maximumLogit_of_alive {token : TokenId} (h : Alive logits token) :
    exists max : K, maximumLogit logits = (max : WithBot K) := by
  rcases h with ⟨score, hscore⟩
  have hle := le_maximumLogit (List.mem_of_getElem? hscore)
  have hne : maximumLogit logits ≠ ⊥ := ne_bot_of_le_ne_bot WithBot.coe_ne_bot hle
  rcases WithBot.ne_bot_iff_exists.mp hne with ⟨max, hmax⟩
  exact ⟨max, hmax.symm⟩

theorem maximumLogit_of_not_alive (h : forall token, ¬ Alive logits token) :
    maximumLogit logits = ⊥ := by
  by_contra hne
  rcases List.mem_iff_getElem?.mp (maximumLogit_mem hne) with ⟨token, htoken⟩
  exact h token (alive_iff.mpr ⟨_, htoken, hne⟩)

end Maximum

/-!
# Softmax
-/

structure ExponentialMaths (K : Type) [Field K] [LinearOrder K] where
  exp : K -> K
  log2 : K -> K
  exp_pos : forall x, 0 < exp x

variable [Field K] [LinearOrder K]


def expBelow (maths : ExponentialMaths K) (max : K) : WithBot K -> K
  | ⊥ => 0
  | (logit : K) => maths.exp (logit - max)

section

variable (maths : ExponentialMaths K) (logits : List (WithBot K))

/-- Below a maximum of negative infinity every difference is `NaN`, and so is
every probability. -/
def softmax : Option (List K) :=
  match maximumLogit logits with
  | ⊥ => none
  | (max : K) => some (normalise (logits.map (expBelow maths max)))

/-- The weights of the logits above negative infinity, with their indexes.  Where
the maximum is negative infinity there is no such logit. -/
def survivors : List (K × Nat) :=
  match maximumLogit logits with
  | ⊥ => []
  | (max : K) =>
    (logits.zipIdx.filter (fun candidate => decide (candidate.1 ≠ ⊥))).map
      (fun candidate => (expBelow maths max candidate.1, candidate.2))

def survivorProbabilities :
    List (K × Nat) :=
  let weighted := survivors maths logits
  (normalise (weighted.map Prod.fst)).zip (weighted.map Prod.snd)

end

/-!
# The filters
-/

/-- The loop of `TopK::apply` with the number of logits kept so far. -/
def keepTop (k : Nat) (threshold : WithBot K) : Nat -> List (WithBot K) -> List (WithBot K)
  | _, [] => []
  | kept, logit :: rest =>
    if threshold <= logit ∧ kept < k then logit :: keepTop k threshold (kept + 1) rest
    else ⊥ :: keepTop k threshold kept rest

def topKFilter (k : Nat) (logits : List (WithBot K)) : List (WithBot K) :=
  if logits.length <= k then logits
  else match kthLargest k logits with
    | some threshold => keepTop k threshold 0 logits
    | none => logits

/-- The loop of `TopP::apply` over the survivors in descending order. -/
def dropPastCutoff (p : K) : K -> Bool -> List (K × Nat) -> List (WithBot K) -> List (WithBot K)
  | _, _, [], logits => logits
  | cumsum, true, (_, index) :: rest, logits =>
    dropPastCutoff p cumsum true rest (logits.set index ⊥)
  | cumsum, false, (probability, _) :: rest, logits =>
    dropPastCutoff p (cumsum + probability) (decide (p < cumsum + probability)) rest logits

def topPFilter (maths : ExponentialMaths K) (p : K) (logits : List (WithBot K)) :
    List (WithBot K) :=
  let indexed := (survivorProbabilities maths logits).mergeSort
    (fun a b => decide (b.1 <= a.1))
  dropPastCutoff p 0 false indexed logits

/-- No comparison with `NaN` holds. -/
def minPFilter (maths : ExponentialMaths K) (minP : K) (logits : List (WithBot K)) :
    List (WithBot K) :=
  match softmax maths logits with
  | none => logits
  | some probs =>
    let maxProb := maximumLogit (probs.map WithBot.some)
    let threshold := maxProb.map (fun prob => prob * minP)
    List.zipWith (fun logit (prob : K) => if (prob : WithBot K) < threshold then ⊥ else logit)
      logits probs

variable (maths : ExponentialMaths K)

theorem softmax_of_not_alive (h : forall token, ¬ Alive logits token) :
    softmax maths logits = none := by
  unfold softmax
  rw [maximumLogit_of_not_alive h]

theorem expBelow_pos (max : K) {logit : WithBot K} (h : logit ≠ ⊥) :
    0 < expBelow maths max logit := by
  rcases WithBot.ne_bot_iff_exists.mp h with ⟨score, rfl⟩
  exact maths.exp_pos _

theorem expBelow_nonneg (max : K) (logit : WithBot K) :
    0 <= expBelow maths max logit := by
  by_cases h : logit = ⊥
  · rw [h]
    exact le_refl _
  · exact le_of_lt (expBelow_pos maths max h)

/-!
Where some logit is alive, the probabilities sum to one and the positive ones are
those of the alive logits.
-/

section Probabilities

variable [IsStrictOrderedRing K] {logits : List (WithBot K)} {token : TokenId}
  (maths : ExponentialMaths K)

theorem sum_expBelow_pos (max : K) (h : Alive logits token) :
    0 < (logits.map (expBelow maths max)).sum := by
  rcases h with ⟨score, hscore⟩
  have hmem : (score : WithBot K) ∈ logits := List.mem_of_getElem? hscore
  apply lt_of_lt_of_le (expBelow_pos maths max (WithBot.coe_ne_bot (a := score)))
  apply List.single_le_sum
  · intro weight hweight
    rcases List.mem_map.mp hweight with ⟨logit, _, rfl⟩
    exact expBelow_nonneg maths max logit
  · exact List.mem_map_of_mem hmem

structure Distribution (logits : List (WithBot K)) (probs : List K) : Prop where
  length_eq : probs.length = logits.length
  sum_eq : probs.sum = 1
  nonneg : forall prob, prob ∈ probs -> 0 <= prob
  pos_iff : forall (token : TokenId) (prob : K), probs[token]? = some prob ->
    (0 < prob ↔ Alive logits token)

theorem softmax_of_alive (h : Alive logits token) :
    exists probs, softmax maths logits = some probs ∧ Distribution logits probs := by
  rcases maximumLogit_of_alive h with ⟨max, hmax⟩
  have hsum := sum_expBelow_pos maths max h
  refine ⟨normalise (logits.map (expBelow maths max)), ?_, ?_⟩
  · unfold softmax
    rw [hmax]
  · constructor
    · rw [length_normalise, List.length_map]
    · exact sum_normalise hsum
    · intro prob hprob
      rw [normalise_of_pos hsum] at hprob
      rcases List.mem_map.mp hprob with ⟨weight, hweight, rfl⟩
      rcases List.mem_map.mp hweight with ⟨logit, _, rfl⟩
      exact div_nonneg (expBelow_nonneg maths max logit) (le_of_lt hsum)
    · intro index prob hprob
      rw [normalise_of_pos hsum, List.getElem?_map, List.getElem?_map] at hprob
      cases hlogit : logits[index]? with
      | none =>
        rw [hlogit] at hprob
        cases hprob
      | some logit =>
        rw [hlogit] at hprob
        cases hprob
        rw [div_pos_iff_of_pos_right hsum, alive_iff]
        constructor
        · intro hpos
          refine ⟨logit, hlogit, ?_⟩
          intro hbot
          rw [hbot] at hpos
          exact lt_irrefl _ hpos
        · intro halive
          rcases halive with ⟨found, hfound, hne⟩
          rw [hlogit] at hfound
          cases hfound
          exact expBelow_pos maths max hne

omit [IsStrictOrderedRing K] in
theorem Distribution.exists_pos {probs : List K} (h : Distribution logits probs)
    (halive : Alive logits token) :
    exists prob, probs[token]? = some prob ∧ 0 < prob := by
  have htoken : token < probs.length := by
    rw [h.length_eq]
    exact halive.lt_length
  have hprob := List.getElem?_eq_getElem htoken
  exact ⟨probs[token], hprob, (h.pos_iff token _ hprob).mpr halive⟩

/-- The candidates of the compact path: positive, one for each alive logit. -/
structure Candidates (logits : List (WithBot K)) (indexed : List (K × Nat)) : Prop where
  sum_eq : (indexed.map Prod.fst).sum = 1
  nodup : (indexed.map Prod.snd).Nodup
  pos : forall candidate, candidate ∈ indexed -> 0 < candidate.1
  alive : forall candidate, candidate ∈ indexed -> Alive logits candidate.2

omit [IsStrictOrderedRing K] in
theorem survivors_of_alive (h : Alive logits token) :
    survivors maths logits ≠ [] ∧
      ((survivors maths logits).map Prod.snd).Nodup ∧
      forall candidate, candidate ∈ survivors maths logits ->
        0 < candidate.1 ∧ Alive logits candidate.2 := by
  rcases maximumLogit_of_alive h with ⟨max, hmax⟩
  have hsurvivors : survivors maths logits =
      (logits.zipIdx.filter (fun candidate => decide (candidate.1 ≠ ⊥))).map
        (fun candidate => (expBelow maths max candidate.1, candidate.2)) := by
    unfold survivors
    rw [hmax]
  rw [hsurvivors]
  constructor
  · rcases alive_iff.mp h with ⟨logit, hlogit, hne⟩
    have hmem : (logit, token) ∈ logits.zipIdx := List.mem_zipIdx_iff_getElem?.mpr hlogit
    have hkept : (logit, token) ∈
        logits.zipIdx.filter (fun candidate => decide (candidate.1 ≠ ⊥)) :=
      List.mem_filter.mpr ⟨hmem, decide_eq_true hne⟩
    exact List.ne_nil_of_mem (List.mem_map_of_mem hkept)
  constructor
  · rw [List.map_map]
    have hsub := (List.filter_sublist (p := fun candidate => decide (candidate.1 ≠ ⊥))
      (l := logits.zipIdx)).map Prod.snd
    rw [List.zipIdx_map_snd] at hsub
    exact List.Nodup.sublist hsub List.nodup_range'
  · intro candidate hcandidate
    rcases List.mem_map.mp hcandidate with ⟨found, hfound, rfl⟩
    have hmem := List.mem_filter.mp hfound
    have hne : found.1 ≠ ⊥ := of_decide_eq_true hmem.2
    constructor
    · exact expBelow_pos maths max hne
    · exact alive_iff.mpr ⟨found.1, List.mem_zipIdx_iff_getElem?.mp hmem.1, hne⟩

theorem survivorProbabilities_of_alive (h : Alive logits token) :
    survivorProbabilities maths logits ≠ [] ∧
      Candidates logits (survivorProbabilities maths logits) := by
  rcases survivors_of_alive maths h with ⟨hne, hnodup, hcandidates⟩
  have hsum : 0 < ((survivors maths logits).map Prod.fst).sum := by
    apply List.sum_pos
    · intro weight hweight
      rcases List.mem_map.mp hweight with ⟨candidate, hcandidate, rfl⟩
      exact (hcandidates candidate hcandidate).1
    · intro hnil
      exact hne (List.map_eq_nil_iff.mp hnil)
  have hlength : (normalise ((survivors maths logits).map Prod.fst)).length =
      ((survivors maths logits).map Prod.snd).length := by
    rw [length_normalise, List.length_map, List.length_map]
  have hfst : (survivorProbabilities maths logits).map Prod.fst =
      normalise ((survivors maths logits).map Prod.fst) :=
    List.map_fst_zip (le_of_eq hlength)
  have hsnd : (survivorProbabilities maths logits).map Prod.snd =
      (survivors maths logits).map Prod.snd :=
    List.map_snd_zip (le_of_eq hlength.symm)
  constructor
  · intro hnil
    rw [hnil] at hsnd
    exact hne (List.map_eq_nil_iff.mp hsnd.symm)
  constructor
  · rw [hfst]
    exact sum_normalise hsum
  · rw [hsnd]
    exact hnodup
  · intro candidate hcandidate
    have hprob := List.mem_map_of_mem (f := Prod.fst) hcandidate
    rw [hfst, normalise_of_pos hsum] at hprob
    rcases List.mem_map.mp hprob with ⟨weight, hweight, hdiv⟩
    rcases List.mem_map.mp hweight with ⟨found, hfound, rfl⟩
    rw [← hdiv]
    exact div_pos (hcandidates found hfound).1 hsum
  · intro candidate hcandidate
    have hindex := List.mem_map_of_mem (f := Prod.snd) hcandidate
    rw [hsnd] at hindex
    rcases List.mem_map.mp hindex with ⟨found, hfound, heq⟩
    rw [← heq]
    exact (hcandidates found hfound).2

end Probabilities

end Generate
end RunNBurn
