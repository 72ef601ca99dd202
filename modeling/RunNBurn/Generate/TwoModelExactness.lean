import RunNBurn.Generate.TwoModelRounds

/-!
# Exactness of the two-model loop

The whole window is forwarded by the target and cut by length, so a rejected
draft stays in a recurrent target state.  The draft engine forwards one token
less than a fully accepted round commits.  A cut inside a full KVarN block keeps
what the block decodes to.
-/

namespace RunNBurn
namespace Generate

open Library
open Inference

variable {DraftRow DraftRec Row Rec Score : Type} [LinearOrder Score] [OrderBot Score]

namespace TwoModelSession

/-!
# The target engine
-/

variable {session : TwoModelSession DraftRow DraftRec Row Rec Score} {allLogits : List (List Score)}
  {drafts : List TokenId} {chain : SamplerChain} {prompt : List TokenId}

theorem prompt_ne_nil_of_prefill {draft : Engine DraftRow DraftRec} {target : Engine Row Rec}
    {start : TwoModelState DraftRow DraftRec Row Rec Score}
    (h : session.prefill draft target prompt = .ok start) :
    prompt ≠ [] := by
  intro hempty
  subst hempty
  cases h

/-- Whatever the two models do, the call returns unless a cache is full, and the target's
rows are computed of the emitted tokens. -/
theorem generateStreamTwoModel_triple (draft : Engine DraftRow DraftRec)
    (target : Engine Row Rec) (hchain : SamplerChain.fromParams session.params = .ok chain)
    (hprompt : prompt ≠ []) :
    Triple (fun fault => fault = Engine.overflow)
      (generateStreamTwoModel session draft target prompt)
      (fun final =>
        session.model.computedView.TracksPrefix final.target (prompt ++ final.generated)) := by
  have hback := goesBack_computedView session.model
  have hfits : session.Fits (fun fault => fault = Engine.overflow) prompt := Or.inr rfl
  have hmeets : forall (s : TwoModelState DraftRow DraftRec Row Rec Score) first counted drafts
      allLogits, session.Drafted chain s first counted drafts allLogits ->
      session.RoundMeets chain session.model.computedView False False
        (prompt ++ s.generated) first counted drafts allLogits :=
    fun s first counted drafts allLogits _ => {
      keeps := fun _ _ => CommitKeeps.of_goesBack hback _ _ _ _
      whole := False.elim
      draft := False.elim }
  have hrun := run_triple draft target hchain hprompt hfits hmeets
  exact hrun.mono fun _ hleft => hleft hback

/-!
# The draft engine
-/

end TwoModelSession

end Generate
end RunNBurn
