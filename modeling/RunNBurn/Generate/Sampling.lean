import RunNBurn.Inference.Engine
import RunNBurn.Library.LastOccurrences
import Mathlib.Data.List.Dedup

/-!
# Sampling

The generation parameters, the sampler chain, and the two greedy choices: the
sampler's own and the argmax with one excluded token.  Score arithmetic and the
choice made with a random draw are floating-point code and stay parameters.
-/

namespace RunNBurn
namespace Generate

open Library
open Inference

structure GenerateParams where
  maxTokens : Nat
  temperature : Rat
  repetitionPenalty : Rat
  presencePenalty : Rat
  frequencyPenalty : Rat
  /-- Whether mirostat parameters are given. -/
  mirostat : Bool
  stopTokens : List TokenId
  ignoreEos : Bool
  specK : Nat

namespace GenerateParams

def shouldStop (params : GenerateParams) (token eos : TokenId) : Bool :=
  params.stopTokens.contains token || (!params.ignoreEos && token == eos)

/-- `backend_argmax_allowed` for a request without a constraint. -/
def backendArgmaxAllowed (params : GenerateParams) : Bool :=
  params.temperature == 0
    && params.repetitionPenalty == 1
    && params.presencePenalty == 0
    && params.frequencyPenalty == 0
    && !params.mirostat

def excludedToken (params : GenerateParams) (eos : TokenId) : Option TokenId :=
  if params.ignoreEos then some eos else none

end GenerateParams

/-!
# Greedy choices
-/

theorem filter_zipIdx_set {Score : Type} (logits : List Score) (token start : Nat) (score : Score) :
    ((logits.set token score).zipIdx start).filter
        (fun candidate => decide (some candidate.2 ≠ some (start + token))) =
      (logits.zipIdx start).filter
        (fun candidate => decide (some candidate.2 ≠ some (start + token))) := by
  induction logits generalizing token start with
  | nil => rfl
  | cons first rest ih =>
    cases token with
    | zero =>
      rw [List.set_cons_zero, List.zipIdx_cons, List.zipIdx_cons,
        List.filter_cons_of_neg (by simp), List.filter_cons_of_neg (by simp)]
    | succ token =>
      have hrest := ih token (start + 1)
      rw [Nat.add_right_comm, Nat.add_assoc] at hrest
      rw [List.set_cons_succ, List.zipIdx_cons, List.zipIdx_cons, List.filter_cons,
        List.filter_cons, hrest]

section Greedy

variable {Score : Type} [LinearOrder Score]

def greedySample (logits : List Score) : TokenId :=
  match lastMaximumBy Prod.fst logits.zipIdx with
  | some (_, token) => token
  | none => 0

def argmaxTokenExcluding (logits : List Score) (excluded : Option TokenId) :
    Option TokenId :=
  (lastMaximumBy Prod.fst
    (logits.zipIdx.filter (fun candidate => decide (some candidate.2 ≠ excluded)))).map Prod.snd

variable {logits : List Score}

theorem lastMaximumBy_greedySample (h : logits ≠ []) :
    exists score, lastMaximumBy Prod.fst logits.zipIdx = some (score, greedySample logits) := by
  cases hbest : lastMaximumBy Prod.fst logits.zipIdx with
  | none =>
    have hempty : logits.zipIdx = [] := lastMaximumBy_eq_none hbest
    exact absurd (List.zipIdx_eq_nil_iff.mp hempty) h
  | some best =>
    rcases best with ⟨score, token⟩
    refine ⟨score, ?_⟩
    simp [greedySample, hbest]

theorem greedySample_spec (h : logits ≠ []) :
    exists score, logits[greedySample logits]? = some score ∧
      forall i other, logits[i]? = some other ->
        other <= score ∧ (greedySample logits < i -> other < score) := by
  rcases lastMaximumBy_greedySample h with ⟨score, hbest⟩
  rcases lastMaximumBy_split hbest with ⟨front, back, hsplit, hmaximum⟩
  refine ⟨score, List.mem_zipIdx_iff_getElem?.mp (lastMaximumBy_mem hbest), ?_⟩
  intro i other hother
  have hmem : (other, i) ∈ logits.zipIdx := List.mem_zipIdx_iff_getElem?.mpr hother
  refine ⟨lastMaximumBy_ge hbest hmem, ?_⟩
  intro hpast
  rw [hsplit] at hmem
  have hsorted : (logits.zipIdx.map Prod.snd).Pairwise (· < ·) := by
    rw [List.zipIdx_map_snd]
    exact List.pairwise_lt_range'
  rw [hsplit, List.map_append, List.pairwise_append] at hsorted
  rcases List.mem_append.mp hmem with hfront | hrest
  · have hbefore : i < greedySample logits :=
      hsorted.2.2 i (List.mem_map_of_mem hfront) _ List.mem_cons_self
    exact absurd hbefore (Nat.lt_asymm hpast)
  · rcases List.mem_cons.mp hrest with heq | hback
    · rw [(Prod.mk.inj heq).2] at hpast
      exact absurd hpast (Nat.lt_irrefl _)
    · exact hmaximum.after_lt _ hback

theorem argmaxTokenExcluding_of_ne {excluded : Option TokenId} (hlogits : logits ≠ [])
    (h : some (greedySample logits) ≠ excluded) :
    argmaxTokenExcluding logits excluded = some (greedySample logits) := by
  rcases lastMaximumBy_greedySample hlogits with ⟨score, hbest⟩
  have hkept := lastMaximumBy_filter
    (fun candidate : Score × Nat => decide (some candidate.2 ≠ excluded))
    hbest (decide_eq_true h)
  unfold argmaxTokenExcluding
  rw [hkept]
  rfl

theorem argmaxTokenExcluding_ne {excluded : Option TokenId} {token : TokenId}
    (h : argmaxTokenExcluding logits excluded = some token) :
    some token ≠ excluded := by
  unfold argmaxTokenExcluding at h
  rcases Option.map_eq_some_iff.mp h with ⟨best, hbest, rfl⟩
  have hmem := lastMaximumBy_mem hbest
  exact of_decide_eq_true (List.mem_filter.mp hmem).2

theorem exists_argmaxTokenExcluding (excluded : Option TokenId) (h : 1 < logits.length) :
    exists token, argmaxTokenExcluding logits excluded = some token := by
  cases hbest : argmaxTokenExcluding logits excluded with
  | some token => exact ⟨token, rfl⟩
  | none =>
    unfold argmaxTokenExcluding at hbest
    have hnil := lastMaximumBy_eq_none (Option.map_eq_none_iff.mp hbest)
    rw [List.filter_eq_nil_iff] at hnil
    have hexcluded : forall i, i < logits.length -> some i = excluded := by
      intro i hi
      have hmem : (logits[i], i) ∈ logits.zipIdx :=
        List.mem_zipIdx_iff_getElem?.mpr (List.getElem?_eq_getElem hi)
      have hdropped := hnil _ hmem
      by_contra hne
      exact hdropped (decide_eq_true hne)
    have hzero := hexcluded 0 (Nat.lt_of_succ_lt h)
    have hone := hexcluded 1 h
    rw [← hone] at hzero
    cases hzero

end Greedy

/-!
# EOS suppression
-/

section Suppression

variable {Score : Type} [LinearOrder Score] [OrderBot Score]

/-- Negative infinity is the least score. -/
def suppressEosLogit (params : GenerateParams) (logits : List Score) (eos : TokenId) :
    Checked (List Score) :=
  if params.ignoreEos then
    let logitsLen := logits.length
    if eos < logitsLen then .ok (logits.set eos ⊥)
    else report s!"EOS token {eos} exceeds logits length {logitsLen}"
  else
    .ok logits

def suppressed (params : GenerateParams) (logits : List Score) (eos : TokenId) :
    List Score :=
  if params.ignoreEos then logits.set eos ⊥ else logits

variable {logits : List Score}

theorem suppressEosLogit_of_lt {eos : TokenId} (params : GenerateParams) (h : eos < logits.length) :
    suppressEosLogit params logits eos = .ok (suppressed params logits eos) := by
  unfold suppressEosLogit suppressed
  split
  · exact if_pos h
  · rfl

/-- Nothing but the suppressed token is above negative infinity, and it stands last. -/
def LeavesOnlyEos (logits : List Score) (eos : TokenId) : Prop :=
  eos + 1 = logits.length ∧ forall i score, logits[i]? = some score -> i ≠ eos -> score = ⊥

theorem greedySample_set_eq_iff {eos : TokenId} (h : eos < logits.length) :
    greedySample (logits.set eos ⊥) = eos ↔ LeavesOnlyEos logits eos := by
  have hlength : (logits.set eos ⊥).length = logits.length := List.length_set
  have hnil : logits.set eos ⊥ ≠ [] :=
    List.ne_nil_of_length_pos (hlength.symm ▸ Nat.zero_lt_of_lt h)
  rcases greedySample_spec hnil with ⟨score, hscore, hbest⟩
  constructor
  · intro hsame
    rw [hsame, List.getElem?_set_self h] at hscore
    cases hscore
    refine ⟨?_, ?_⟩
    · by_contra hlast
      have hnext : eos + 1 < logits.length := Nat.lt_of_le_of_ne h hlast
      have hbehind := (hbest (eos + 1) _ (List.getElem?_eq_getElem (hlength.symm ▸ hnext))).2
        (hsame.symm ▸ Nat.lt_succ_self eos)
      exact not_lt_bot hbehind
    · intro i other hother hne
      rw [<- List.getElem?_set_ne (Ne.symm hne)] at hother
      exact le_bot_iff.mp (hbest i other hother).1
  · intro honly
    have heos := hbest eos ⊥ (List.getElem?_set_self h)
    by_contra hne
    rw [List.getElem?_set_ne (Ne.symm hne)] at hscore
    have hbot := honly.2 _ score hscore hne
    have hinside := (List.getElem?_eq_some_iff.mp hscore).1
    have hbefore : greedySample (logits.set eos ⊥) < eos :=
      Nat.lt_of_le_of_ne (Nat.le_of_lt_succ (hinside.trans_eq honly.1.symm)) hne
    exact not_lt_bot (hbot ▸ heos.2 hbefore)

/-- Excluding a token and suppressing it choose the same, unless the suppressed token is all
that is left to the sampler. -/
theorem argmaxTokenExcluding_eq {eos : TokenId} (h : eos < logits.length)
    (honly : ¬ LeavesOnlyEos logits eos) :
    argmaxTokenExcluding logits (some eos) = some (greedySample (logits.set eos ⊥)) := by
  have hnil : logits.set eos ⊥ ≠ [] :=
    List.ne_nil_of_length_pos (List.length_set.symm ▸ Nat.zero_lt_of_lt h)
  have hset := filter_zipIdx_set logits eos 0 ⊥
  rw [Nat.zero_add] at hset
  rw [<- argmaxTokenExcluding_of_ne hnil
    (fun hsame => honly ((greedySample_set_eq_iff h).mp (Option.some.inj hsame)))]
  unfold argmaxTokenExcluding
  rw [hset]

end Suppression

/-!
# The sampler chain
-/

/-- The score arithmetic of the penalties: `minus s p n` is `s - p * n`. -/
structure ScoreArithmetic (Score : Type) [LinearOrder Score] [OrderBot Score] where
  zero : Score
  times : Score -> Rat -> Score
  quotient : Score -> Rat -> Score
  minus : Score -> Rat -> Nat -> Score
  times_bot : forall penalty, 0 < penalty -> times ⊥ penalty = ⊥
  minus_bot : forall penalty count, minus ⊥ penalty count = ⊥

/-- The random stream, and the token that the filters and the categorical choice
pick with one draw of it. -/
structure SamplingBackend (Score : Type) [LinearOrder Score] [OrderBot Score] where
  arithmetic : ScoreArithmetic Score
  Draw : Type
  stream : Nat -> Draw
  choose : List Score -> Draw -> TokenId

structure SamplerChain where
  repetition : Option { penalty : Rat // 0 < penalty }
  presence : Option Rat
  frequency : Option Rat
  greedy : Bool

namespace SamplerChain

def repetitionOf (params : GenerateParams) :
    Checked (Option { penalty : Rat // 0 < penalty }) :=
  if params.repetitionPenalty = 1 then .ok none
  else if h : 0 < params.repetitionPenalty then .ok (some ⟨params.repetitionPenalty, h⟩)
  else abort "repetition_penalty must be > 0"

def fromParams (params : GenerateParams) : Checked SamplerChain := do
  let repetition <- repetitionOf params
  return {
    repetition := repetition
    presence := if params.presencePenalty = 0 then none else some params.presencePenalty
    frequency := if params.frequencyPenalty = 0 then none else some params.frequencyPenalty
    greedy := params.temperature == 0
  }

variable {Score : Type} [LinearOrder Score] [OrderBot Score]

section

variable (arithmetic : ScoreArithmetic Score) (penalty : Rat) (context : List TokenId)
  (logits : List Score)

def applyRepetition : List Score :=
  context.foldl
    (fun logits token => logits.modify token (fun score =>
      if arithmetic.zero < score then arithmetic.quotient score penalty
      else arithmetic.times score penalty))
    logits

def applyPresence : List Score :=
  context.dedup.foldl
    (fun logits token => logits.modify token (fun score => arithmetic.minus score penalty 1))
    logits

def applyFrequency : List Score :=
  context.dedup.foldl
    (fun logits token => logits.modify token (fun score =>
      arithmetic.minus score penalty (context.count token)))
    logits

end

def penalise (arithmetic : ScoreArithmetic Score) (chain : SamplerChain)
    (context : List TokenId) (logits : List Score) : List Score :=
  let repeated := match chain.repetition with
    | some penalty => applyRepetition arithmetic penalty.val context logits
    | none => logits
  let present := match chain.presence with
    | some penalty => applyPresence arithmetic penalty context repeated
    | none => repeated
  match chain.frequency with
  | some penalty => applyFrequency arithmetic penalty context present
  | none => present

/-- One call of the sampler: the token, and the number of draws consumed after
it. -/
def sample (backend : SamplingBackend Score) (chain : SamplerChain)
    (logits : List Score) (context : List TokenId) (drawn : Nat) : TokenId × Nat :=
  let processed := chain.penalise backend.arithmetic context logits
  if chain.greedy then (greedySample processed, drawn)
  else (backend.choose processed (backend.stream drawn), drawn + 1)

end SamplerChain

end Generate
end RunNBurn
