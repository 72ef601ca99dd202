import RunNBurn.Generate.Filters

/-!
# What each filter keeps

Every filter only lowers logits.  Temperature, top-p, min-p and mirostat leave a
logit alive where there was one; top-k does so exactly where its first `k` logits
or its threshold allow it.
-/

namespace RunNBurn
namespace Generate

open Library
open Inference

variable {K : Type}

/-!
# Temperature
-/

section Temperature

variable [Field K]

end Temperature

/-!
# Top-k
-/

section TopK

variable [LinearOrder K]

theorem keepTop_lowers (k : Nat) (threshold : WithBot K) (kept : Nat) (logits : List (WithBot K)) :
    Lowers logits (keepTop k threshold kept logits) := by
  induction logits generalizing kept with
  | nil => exact Lowers.refl []
  | cons logit rest ih =>
    unfold keepTop
    split
    · constructor
      · rw [List.length_cons, List.length_cons, (ih (kept + 1)).length_eq]
      · intro token score hscore
        cases token with
        | zero => exact hscore
        | succ token => exact (ih (kept + 1)).kept token score hscore
    · constructor
      · rw [List.length_cons, List.length_cons, (ih kept).length_eq]
      · intro token score hscore
        cases token with
        | zero => cases hscore
        | succ token => exact (ih kept).kept token score hscore

variable {logits : List (WithBot K)}

theorem exists_alive_keepTop {k kept : Nat} {threshold : WithBot K} (hthreshold : threshold ≠ ⊥)
    (hroom : kept < k) (h : threshold ∈ logits) :
    exists token, Alive (keepTop k threshold kept logits) token := by
  induction logits with
  | nil => cases h
  | cons logit rest ih =>
    unfold keepTop
    by_cases hlogit : threshold <= logit
    · rw [if_pos ⟨hlogit, hroom⟩]
      refine ⟨0, alive_iff.mpr ⟨logit, rfl, ?_⟩⟩
      exact ne_bot_of_le_ne_bot hthreshold hlogit
    · rw [if_neg (fun hboth => hlogit hboth.1)]
      have hrest : threshold ∈ rest := by
        cases h with
        | head => exact absurd (le_refl _) hlogit
        | tail _ hrest => exact hrest
      rcases ih hrest with ⟨token, htoken⟩
      exact ⟨token + 1, htoken⟩

def aliveCount (logits : List (WithBot K)) : Nat :=
  logits.countP (fun logit => decide (⊥ < logit))

end TopK

/-!
# Top-p
-/

section TopP

variable [Field K] [LinearOrder K]

theorem dropPastCutoff_lowers (p cumsum : K) (reached : Bool) (indexed : List (K × Nat))
    (logits : List (WithBot K)) :
    Lowers logits (dropPastCutoff p cumsum reached indexed logits) := by
  induction indexed generalizing cumsum reached logits with
  | nil =>
    unfold dropPastCutoff
    exact Lowers.refl logits
  | cons candidate rest ih =>
    unfold dropPastCutoff
    cases reached with
    | true => exact (lowers_set logits candidate.2).trans (ih cumsum true _)
    | false => exact ih _ _ logits

theorem getElem?_dropPastCutoff {p cumsum : K} {reached : Bool} {indexed : List (K × Nat)}
    {logits : List (WithBot K)} {token : TokenId} (h : token ∉ indexed.map Prod.snd) :
    (dropPastCutoff p cumsum reached indexed logits)[token]? = logits[token]? := by
  induction indexed generalizing cumsum reached logits with
  | nil =>
    unfold dropPastCutoff
    rfl
  | cons candidate rest ih =>
    rw [List.map_cons, List.mem_cons, not_or] at h
    unfold dropPastCutoff
    cases reached with
    | true =>
      show (dropPastCutoff p cumsum true rest (logits.set candidate.2 ⊥))[token]? = _
      rw [ih h.2]
      exact List.getElem?_set_ne (Ne.symm h.1)
    | false => exact ih h.2

theorem topPFilter_lowers (maths : ExponentialMaths K) (p : K) (logits : List (WithBot K)) :
    Lowers logits (topPFilter maths p logits) :=
  dropPastCutoff_lowers p 0 false _ logits

theorem exists_alive_topPFilter [IsStrictOrderedRing K] (maths : ExponentialMaths K) (p : K)
    {logits : List (WithBot K)} {token : TokenId} (h : Alive logits token) :
    exists token, Alive (topPFilter maths p logits) token := by
  rcases survivorProbabilities_of_alive maths h with ⟨hne, hcandidates⟩
  unfold topPFilter
  have hperm := List.mergeSort_perm (survivorProbabilities maths logits)
    (fun a b => decide (b.1 <= a.1))
  dsimp only
  cases hsorted : (survivorProbabilities maths logits).mergeSort
      (fun a b => decide (b.1 <= a.1)) with
  | nil =>
    rw [hsorted] at hperm
    exact absurd hperm.symm.eq_nil hne
  | cons first rest =>
    rw [hsorted] at hperm
    have hmem : first ∈ survivorProbabilities maths logits :=
      hperm.mem_iff.mp List.mem_cons_self
    have hnodup := (hperm.map Prod.snd).nodup_iff.mpr hcandidates.nodup
    have hbehind := (List.nodup_cons.mp hnodup).1
    refine ⟨first.2, ?_⟩
    unfold dropPastCutoff Alive
    rw [getElem?_dropPastCutoff hbehind]
    exact hcandidates.alive first hmem

end TopP

/-!
# Min-p
-/

section MinP

variable [Field K] [LinearOrder K]

theorem minPFilter_lowers [IsStrictOrderedRing K] (maths : ExponentialMaths K) (minP : K)
    (logits : List (WithBot K)) :
    Lowers logits (minPFilter maths minP logits) := by
  by_cases hsome : exists token, Alive logits token
  · rcases hsome with ⟨token, halive⟩
    rcases softmax_of_alive maths halive with ⟨probs, hprobs, hdistribution⟩
    unfold minPFilter
    rw [hprobs]
    dsimp only
    constructor
    · rw [List.length_zipWith, hdistribution.length_eq, Nat.min_self]
    · intro index score hscore
      rw [List.getElem?_zipWith] at hscore
      cases hlogit : logits[index]? with
      | none =>
        rw [hlogit] at hscore
        cases hscore
      | some logit =>
        cases hprob : probs[index]? with
        | none =>
          rw [hlogit, hprob] at hscore
          cases hscore
        | some prob =>
          rw [hlogit, hprob] at hscore
          have hscore := Option.some.inj hscore
          split at hscore
          · cases hscore
          · rw [hscore]
  · unfold minPFilter
    rw [softmax_of_not_alive maths (fun token halive => hsome ⟨token, halive⟩)]
    exact Lowers.refl logits

theorem Distribution.exists_maximum {logits : List (WithBot K)} {probs : List K}
    {token : TokenId} (h : Distribution logits probs) (halive : Alive logits token) :
    exists (best : TokenId) (prob : K), maximumLogit (probs.map WithBot.some) = WithBot.some prob ∧
      probs[best]? = some prob ∧ 0 < prob := by
  rcases h.exists_pos halive with ⟨weight, hweight, hpos⟩
  have hpresent : (probs.map WithBot.some)[token]? = some (WithBot.some weight) := by
    rw [List.getElem?_map, hweight]
    rfl
  rcases maximumLogit_of_alive ⟨weight, hpresent⟩ with ⟨prob, hprob⟩
  have hle := le_maximumLogit (List.mem_of_getElem? hpresent)
  rw [hprob] at hle
  have hmem : maximumLogit (probs.map WithBot.some) ∈ probs.map WithBot.some := by
    apply maximumLogit_mem
    rw [hprob]
    exact WithBot.coe_ne_bot
  rw [hprob] at hmem
  rcases List.mem_map.mp hmem with ⟨found, hfound, heq⟩
  have heq : found = prob := WithBot.coe_inj.mp heq
  rw [heq] at hfound
  rcases List.mem_iff_getElem?.mp hfound with ⟨best, hbest⟩
  exact ⟨best, prob, hprob, hbest, lt_of_lt_of_le hpos (WithBot.coe_le_coe.mp hle)⟩

theorem exists_alive_minPFilter [IsStrictOrderedRing K] (maths : ExponentialMaths K)
    {minP : K} (hminP : minP <= 1)
    {logits : List (WithBot K)} {token : TokenId} (h : Alive logits token) :
    exists token, Alive (minPFilter maths minP logits) token := by
  rcases softmax_of_alive maths h with ⟨probs, hprobs, hdistribution⟩
  rcases hdistribution.exists_maximum h with ⟨best, prob, hmaximum, hbest, hpos⟩
  have halive : Alive logits best := (hdistribution.pos_iff best prob hbest).mp hpos
  rcases halive with ⟨score, hscore⟩
  have hshare : ¬ WithBot.some prob < WithBot.some (prob * minP) := by
    rw [WithBot.coe_lt_coe, not_lt]
    exact mul_le_of_le_one_right (le_of_lt hpos) hminP
  refine ⟨best, score, ?_⟩
  unfold minPFilter
  rw [hprobs]
  dsimp only
  rw [List.getElem?_zipWith, hscore, hbest, hmaximum]
  exact congrArg some (if_neg hshare)

end MinP

/-!
# Mirostat
-/

section Mirostat

variable [Field K] [LinearOrder K]

variable {logits : List (WithBot K)} {token : TokenId}

end Mirostat

end Generate
end RunNBurn
