import RunNBurn.Generate.FilterRules

/-!
# Constrained sampling

A constrained step masks the logits with the grammar, suppresses an ignored EOS,
and samples with the full chain: penalties, filters, and a draw.
-/

namespace RunNBurn
namespace Generate

open Library
open Inference

namespace SamplingParams

end SamplingParams

variable {K : Type} [Field K] [LinearOrder K]

def sampleDenseFromLogits (maths : ExponentialMaths K) (logits : List (WithBot K)) (r : K) :
    TokenId :=
  match softmax maths logits with
  | none => logits.length - 1
  | some probs => (runningChoice r 0 probs.zipIdx).getD (probs.length - 1)

def survivorCount (candidateLimit : Option Nat) (logits : List (WithBot K)) : Nat :=
  match candidateLimit with
  | none => aliveCount logits
  | some limit => min limit logits.length

def takesDensePath (candidateLimit : Option Nat) (logits : List (WithBot K)) : Bool :=
  decide (logits.length * 4 <= survivorCount candidateLimit logits * 8)

def sampleFromLogits (maths : ExponentialMaths K) (candidateLimit : Option Nat)
    (logits : List (WithBot K)) (r : K) : TokenId :=
  if takesDensePath candidateLimit logits then sampleDenseFromLogits maths logits r
  else (runningChoice r 0 (survivorProbabilities maths logits)).getD (logits.length - 1)

def masked (mask : List Bool) (logits : List (WithBot K)) : List (WithBot K) :=
  List.zipWith (fun allowed logit => if allowed then logit else ⊥) mask logits

structure Shows (logits : List (WithBot K)) (pattern : List Bool) : Prop where
  length_eq : logits.length = pattern.length
  alive_iff : forall (token : TokenId), Alive logits token ↔ pattern[token]? = some true

namespace Shows

variable {pattern : List Bool}

omit [Field K] [LinearOrder K] in
theorem exists_alive {logits : List (WithBot K)} (h : Shows logits pattern)
    (hsome : true ∈ pattern) :
    exists token, Alive logits token := by
  rcases List.mem_iff_getElem?.mp hsome with ⟨token, htoken⟩
  exact ⟨token, (h.alive_iff token).mpr htoken⟩

omit [Field K] [LinearOrder K] in
theorem congr {before after : List (WithBot K)} (h : Shows before pattern)
    (hlength : after.length = before.length)
    (halive : forall token, Alive after token ↔ Alive before token) :
    Shows after pattern where
  length_eq := hlength.trans h.length_eq
  alive_iff token := (halive token).trans (h.alive_iff token)

end Shows

variable {logits : List (WithBot K)}

structure Narrows (before after : List (WithBot K)) : Prop where
  length_eq : after.length = before.length
  alive : forall (token : TokenId), Alive after token -> Alive before token

omit [Field K] [LinearOrder K] in
theorem Narrows.trans {first second third : List (WithBot K)}
    (h : Narrows first second) (h' : Narrows second third) : Narrows first third where
  length_eq := h'.length_eq.trans h.length_eq
  alive token halive := h.alive token (h'.alive token halive)

section Filtered

variable [IsStrictOrderedRing K]

end Filtered

end Generate
end RunNBurn
