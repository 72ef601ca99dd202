import RunNBurn.Inference.Engine
import RunNBurn.Library.Autoregressive

/-!
# The accept loop

Every speculative round emits a first token and walks over its drafts: the
target's token at a position is compared with the draft, a matching draft is
tested for a stop token and emitted, and the first difference ends the walk.
How the target's token is obtained is a parameter.
-/

namespace RunNBurn
namespace Generate

open Library
open Inference

/-!
# The first token
-/

/-- A round either leaves the loop with its first token, or goes on to draft
behind it. -/
inductive FirstEmission where
  | ended (generated : List TokenId) (remaining : Nat)
  | goesOn (generated : List TokenId) (remaining : Nat)

/-- The budget is spent only on a token that the callback accepts. -/
def emitFirst (stops : TokenId -> Bool) (keepGoing : List TokenId -> Bool)
    (first : TokenId) (generated : List TokenId) (remaining : Nat) : FirstEmission :=
  if stops first then
    .ended generated remaining
  else if keepGoing (generated ++ [first]) = false then
    .ended (generated ++ [first]) remaining
  else if remaining - 1 = 0 then
    .ended (generated ++ [first]) (remaining - 1)
  else
    .goesOn (generated ++ [first]) (remaining - 1)

def FirstEmission.Satisfies (onEnded onGoesOn : List TokenId -> Nat -> Prop) :
    FirstEmission -> Prop
  | ended generated remaining => onEnded generated remaining
  | goesOn generated remaining => onGoesOn generated remaining

theorem emitFirst_satisfies
    (stops : TokenId -> Bool) (keepGoing : List TokenId -> Bool) (first : TokenId)
    (generated : List TokenId) {remaining : Nat} (hpos : remaining ≠ 0) :
    (emitFirst stops keepGoing first generated remaining).Satisfies
      (fun out _ => List.IsPrefix generated out)
      (fun out left => out = generated ++ [first] ∧ left + 1 = remaining ∧ 0 < left) := by
  unfold emitFirst
  split
  · exact List.prefix_refl _
  · split
    · exact List.prefix_append _ _
    · split
      · exact List.prefix_append _ _
      · rename_i hleft
        exact ⟨rfl, Nat.sub_add_cancel (Nat.pos_of_ne_zero hpos), Nat.pos_of_ne_zero hleft⟩

/-!
# The drafts
-/

/-- The target's token at a position, and what it leaves for the next round. -/
structure Verdict (Env Carry : Type) where
  env : Env
  target : TokenId
  carry : Carry

structure AcceptState (Env Carry : Type) where
  env : Env
  generated : List TokenId
  remaining : Nat
  accepted : Nat
  stopped : Bool
  mismatch : Option Carry

section Loop

variable {Env Carry : Type}

def AcceptState.start (env : Env) (generated : List TokenId) (remaining : Nat) :
    AcceptState Env Carry where
  env := env
  generated := generated
  remaining := remaining
  accepted := 0
  stopped := false
  mismatch := none

def acceptLoop (stops : TokenId -> Bool) (keepGoing : List TokenId -> Bool)
    (verify : Env -> List TokenId -> Nat -> Checked (Verdict Env Carry)) :
    List TokenId -> AcceptState Env Carry -> Checked (AcceptState Env Carry)
  | [], s => .ok s
  | draft :: rest, s => do
      let verdict <- verify s.env s.generated s.accepted
      if verdict.target = draft then
        if stops draft then
          return { s with env := verdict.env, stopped := true }
        else
          let emitted := {
            s with
            env := verdict.env
            generated := s.generated ++ [draft]
            remaining := s.remaining - 1
            accepted := s.accepted + 1 }
          if keepGoing emitted.generated = false then
            return { emitted with stopped := true }
          else if emitted.remaining = 0 then
            return emitted
          else
            acceptLoop stops keepGoing verify rest emitted
      else
        return { s with env := verdict.env, mismatch := some verdict.carry }

/-!
# Exits

The loop has five exits.  `judged i target` says that the target's token at
position `i` is `target`; `inv env i` describes the environment before position
`i` is verified, `after env carry i` the environment once it has been.
-/

variable (stops : TokenId -> Bool) (keepGoing : List TokenId -> Bool)
  (judged : Nat -> TokenId -> Prop) (inv : Env -> Nat -> Prop)
  (after : Env -> Carry -> Nat -> Prop) (drafts base : List TokenId) (budget : Nat)

/-- The loop gets past the drafts before `i`. -/
def Passed (i : Nat) : Prop :=
  forall j draft, j < i -> drafts[j]? = some draft ->
    judged j draft ∧ stops draft = false ∧
      keepGoing (base ++ drafts.take (j + 1)) = true

inductive AcceptExit : AcceptState Env Carry -> Prop where
  | stopped {env : Env} {carry : Carry} {i : Nat} {draft : TokenId} :
      drafts[i]? = some draft ->
      i < budget ->
      Passed stops keepGoing judged drafts base i ->
      judged i draft ->
      after env carry i ->
      stops draft = true ->
      AcceptExit {
        env := env
        generated := base ++ drafts.take i
        remaining := budget - i
        accepted := i
        stopped := true
        mismatch := none }
  | refused {env : Env} {carry : Carry} {i : Nat} {draft : TokenId} :
      drafts[i]? = some draft ->
      i < budget ->
      Passed stops keepGoing judged drafts base i ->
      judged i draft ->
      after env carry i ->
      stops draft = false ->
      keepGoing (base ++ drafts.take (i + 1)) = false ->
      AcceptExit {
        env := env
        generated := base ++ drafts.take (i + 1)
        remaining := budget - (i + 1)
        accepted := i + 1
        stopped := true
        mismatch := none }
  | spent {env : Env} {carry : Carry} {i : Nat} {draft : TokenId} :
      drafts[i]? = some draft ->
      i + 1 = budget ->
      Passed stops keepGoing judged drafts base (i + 1) ->
      after env carry i ->
      AcceptExit {
        env := env
        generated := base ++ drafts.take (i + 1)
        remaining := 0
        accepted := i + 1
        stopped := false
        mismatch := none }
  | rejected {env : Env} {carry : Carry} {i : Nat} {draft target : TokenId} :
      drafts[i]? = some draft ->
      i < budget ->
      Passed stops keepGoing judged drafts base i ->
      judged i target ->
      after env carry i ->
      target ≠ draft ->
      AcceptExit {
        env := env
        generated := base ++ drafts.take i
        remaining := budget - i
        accepted := i
        stopped := false
        mismatch := some carry }
  | exhausted {env : Env} :
      drafts.length < budget ->
      Passed stops keepGoing judged drafts base drafts.length ->
      inv env drafts.length ->
      AcceptExit {
        env := env
        generated := base ++ drafts
        remaining := budget - drafts.length
        accepted := drafts.length
        stopped := false
        mismatch := none }

variable {stops keepGoing judged inv after drafts base budget}

/-- Position `i` is where the loop rejects its draft. -/
def Rejects (stops : TokenId -> Bool) (keepGoing : List TokenId -> Bool)
    (judged : Nat -> TokenId -> Prop) (drafts base : List TokenId) (i : Nat) : Prop :=
  exists draft target, drafts[i]? = some draft ∧
    Passed stops keepGoing judged drafts base i ∧ judged i target ∧ target ≠ draft

/-- The loop ends behind the first `n` drafts, whatever its budget. -/
inductive EndsBehind (stops : TokenId -> Bool) (keepGoing : List TokenId -> Bool)
    (judged : Nat -> TokenId -> Prop) (drafts base : List TokenId) : Nat -> Prop where
  | stopped {n : Nat} {draft : TokenId} :
      drafts[n]? = some draft ->
      Passed stops keepGoing judged drafts base n ->
      judged n draft ->
      stops draft = true ->
      EndsBehind stops keepGoing judged drafts base n
  | refused {i : Nat} {draft : TokenId} :
      drafts[i]? = some draft ->
      Passed stops keepGoing judged drafts base i ->
      judged i draft ->
      stops draft = false ->
      keepGoing (base ++ drafts.take (i + 1)) = false ->
      EndsBehind stops keepGoing judged drafts base (i + 1)
  | rejected {n : Nat} :
      Rejects stops keepGoing judged drafts base n ->
      EndsBehind stops keepGoing judged drafts base n

theorem passed_zero : Passed stops keepGoing judged drafts base 0 := by
  intro j draft hj
  cases hj

variable {i : Nat} {draft : TokenId}

theorem Passed.succ (h : Passed stops keepGoing judged drafts base i)
    (hdraft : drafts[i]? = some draft) (hjudged : judged i draft) (hstops : stops draft = false)
    (hkeep : keepGoing (base ++ drafts.take (i + 1)) = true) :
    Passed stops keepGoing judged drafts base (i + 1) := by
  intro j other hj hother
  rcases Nat.lt_succ_iff_lt_or_eq.mp hj with hlt | heq
  · exact h j other hlt hother
  · subst heq
    rw [hdraft] at hother
    cases hother
    exact ⟨hjudged, hstops, hkeep⟩

theorem take_succ_of_getElem? (h : drafts[i]? = some draft) :
    drafts.take (i + 1) = drafts.take i ++ [draft] := by
  rw [List.take_add_one, h]
  rfl

section Loop

variable {allowed : Fault -> Prop} {verify : Env -> List TokenId -> Nat -> Checked (Verdict Env Carry)}
  (hverify : forall env i draft, drafts[i]? = some draft -> i < budget ->
    Passed stops keepGoing judged drafts base i -> inv env i ->
    Triple allowed (verify env (base ++ drafts.take i) i)
      (fun verdict => judged i verdict.target ∧ after verdict.env verdict.carry i))
  (haccept : forall env carry i draft, drafts[i]? = some draft -> i + 1 < budget ->
    after env carry i -> inv env (i + 1))

include hverify haccept

/-- The loop behind the drafts `front`, which have been accepted. -/
theorem acceptLoop_from_triple
    {env : Env} {front rest : List TokenId} (hdrafts : drafts = front ++ rest)
    (hbudget : front.length < budget)
    (hpassed : Passed stops keepGoing judged drafts base front.length)
    (hinv : inv env front.length) :
    Triple allowed
      (acceptLoop stops keepGoing verify rest {
        env := env
        generated := base ++ front
        remaining := budget - front.length
        accepted := front.length
        stopped := false
        mismatch := none })
      (AcceptExit stops keepGoing judged inv after drafts base budget) := by
  induction rest generalizing env front with
  | nil =>
    rw [List.append_nil] at hdrafts
    subst hdrafts
    exact triple_ok (AcceptExit.exhausted hbudget hpassed hinv)
  | cons draft rest ih =>
    have hdraft : drafts[front.length]? = some draft := by
      rw [hdrafts, List.getElem?_append_right (Nat.le_refl _), Nat.sub_self]
      rfl
    have htake : drafts.take front.length = front := by
      rw [hdrafts, List.take_left]
    have htakeSucc : drafts.take (front.length + 1) = front ++ [draft] := by
      rw [take_succ_of_getElem? hdraft, htake]
    have hcall := hverify env front.length draft hdraft hbudget hpassed hinv
    rw [htake] at hcall
    unfold acceptLoop
    refine hcall.bind ?_
    intro verdict hverdict
    rcases hverdict with ⟨hjudged, hafter⟩
    by_cases hmatch : verdict.target = draft
    · rw [if_pos hmatch]
      rw [hmatch] at hjudged
      cases hstops : stops draft with
      | true =>
        have hexit : AcceptExit stops keepGoing judged inv after drafts base budget _ :=
          AcceptExit.stopped hdraft hbudget hpassed hjudged hafter hstops
        rw [htake] at hexit
        exact triple_pure hexit
      | false =>
        rw [if_neg Bool.false_ne_true]
        dsimp only
        rw [List.append_assoc, ← htakeSucc]
        cases hkeep : keepGoing (base ++ drafts.take (front.length + 1)) with
        | false =>
          rw [if_pos rfl]
          exact triple_pure (AcceptExit.refused hdraft hbudget hpassed hjudged hafter hstops hkeep)
        | true =>
          rw [if_neg Bool.false_ne_true.symm]
          have hpassedNext := hpassed.succ hdraft hjudged hstops hkeep
          by_cases hspent : front.length + 1 = budget
          · have hzero : budget - front.length - 1 = 0 := by
              rw [← hspent]
              simp
            rw [if_pos hzero, hzero]
            exact triple_pure (AcceptExit.spent hdraft hspent hpassedNext hafter)
          · have hlt : front.length + 1 < budget := Nat.lt_of_le_of_ne hbudget hspent
            have hpos : budget - front.length - 1 ≠ 0 := by
              rw [Nat.sub_sub]
              exact Nat.sub_ne_zero_of_lt hlt
            rw [if_neg hpos, Nat.sub_sub, htakeSucc]
            have hnext := haccept verdict.env verdict.carry front.length draft hdraft
              hlt hafter
            have hlength : (front ++ [draft]).length = front.length + 1 :=
              List.length_append
            rw [← hlength] at hlt hnext hpassedNext ⊢
            apply ih _ hlt hpassedNext hnext
            rw [hdrafts, List.append_assoc]
            rfl
    · rw [if_neg hmatch]
      have hexit : AcceptExit stops keepGoing judged inv after drafts base budget _ :=
        AcceptExit.rejected hdraft hbudget hpassed hjudged hafter hmatch
      rw [htake] at hexit
      exact triple_pure hexit

variable (judged inv after)

theorem acceptLoop_triple {env : Env} (hbudget : 0 < budget) (hinv : inv env 0) :
    Triple allowed
      (acceptLoop stops keepGoing verify drafts (AcceptState.start env base budget))
      (AcceptExit stops keepGoing judged inv after drafts base budget) := by
  have hnone : drafts = [] ++ drafts := rfl
  have hloop := acceptLoop_from_triple hverify haccept hnone hbudget passed_zero hinv
  rw [List.append_nil] at hloop
  exact hloop

end Loop

/-!
# The accounts of an exit
-/

variable {s : AcceptState Env Carry}

theorem AcceptExit.generated_eq
    (h : AcceptExit stops keepGoing judged inv after drafts base budget s) :
    s.generated = base ++ drafts.take s.accepted := by
  cases h with
  | exhausted _ _ _ => rw [List.take_length]
  | stopped _ _ _ _ _ _ => rfl
  | refused _ _ _ _ _ _ _ => rfl
  | spent _ _ _ _ => rfl
  | rejected _ _ _ _ _ _ => rfl

theorem Passed.mono {judged' : Nat -> TokenId -> Prop}
    (hjudged : forall i target, judged i target -> judged' i target)
    (h : Passed stops keepGoing judged drafts base i) :
    Passed stops keepGoing judged' drafts base i :=
  fun j draft hj hdraft => ⟨hjudged j draft (h j draft hj hdraft).1, (h j draft hj hdraft).2⟩

theorem AcceptExit.mono {judged' : Nat -> TokenId -> Prop}
    (hjudged : forall i target, judged i target -> judged' i target)
    (h : AcceptExit stops keepGoing judged inv after drafts base budget s) :
    AcceptExit stops keepGoing judged' inv after drafts base budget s := by
  cases h with
  | stopped hdraft hi hpassed hmatch hafter hstops =>
    exact AcceptExit.stopped hdraft hi (hpassed.mono hjudged) (hjudged _ _ hmatch) hafter hstops
  | refused hdraft hi hpassed hmatch hafter hstops hkeep =>
    exact AcceptExit.refused hdraft hi (hpassed.mono hjudged) (hjudged _ _ hmatch) hafter
      hstops hkeep
  | spent hdraft hi hpassed hafter => exact AcceptExit.spent hdraft hi (hpassed.mono hjudged) hafter
  | rejected hdraft hi hpassed hfound hafter hne =>
    exact AcceptExit.rejected hdraft hi (hpassed.mono hjudged) (hjudged _ _ hfound) hafter hne
  | exhausted hlt hpassed hinv => exact AcceptExit.exhausted hlt (hpassed.mono hjudged) hinv

theorem succ_le_length_of_getElem? (h : drafts[i]? = some draft) :
    i + 1 <= drafts.length :=
  (List.getElem?_eq_some_iff.mp h).1

section

variable (h : AcceptExit stops keepGoing judged inv after drafts base budget s)
include h

theorem AcceptExit.accepted_le :
    s.accepted <= drafts.length := by
  cases h with
  | exhausted _ _ _ => exact Nat.le_refl _
  | stopped hdraft _ _ _ _ _ => exact Nat.le_of_succ_le (succ_le_length_of_getElem? hdraft)
  | refused hdraft _ _ _ _ _ _ => exact succ_le_length_of_getElem? hdraft
  | spent hdraft _ _ _ => exact succ_le_length_of_getElem? hdraft
  | rejected hdraft _ _ _ _ _ => exact Nat.le_of_succ_le (succ_le_length_of_getElem? hdraft)

theorem AcceptExit.remaining_eq :
    s.remaining + s.accepted = budget := by
  cases h with
  | exhausted hlt _ _ => exact Nat.sub_add_cancel (Nat.le_of_lt hlt)
  | stopped _ hi _ _ _ _ => exact Nat.sub_add_cancel (Nat.le_of_lt hi)
  | refused _ hi _ _ _ _ _ => exact Nat.sub_add_cancel hi
  | spent _ hi _ _ =>
    rw [Nat.zero_add]
    exact hi
  | rejected _ hi _ _ _ _ => exact Nat.sub_add_cancel (Nat.le_of_lt hi)

theorem AcceptExit.count :
    s.generated.length + s.remaining = base.length + budget := by
  have hlength : s.generated.length = base.length + s.accepted := by
    rw [h.generated_eq, List.length_append, List.length_take, Nat.min_eq_left h.accepted_le]
  rw [hlength, ← h.remaining_eq, Nat.add_assoc, Nat.add_comm s.accepted]

end

/-- A loop that is not stopped commits its window whole, or has met a difference
inside it. -/
theorem AcceptExit.committed_cases {windowLen : Nat}
    (h : AcceptExit stops keepGoing judged inv after drafts base budget s)
    (hstopped : s.stopped = false) (hdrafts : drafts.length <= budget)
    (hle : 1 + s.accepted <= windowLen) (hge : windowLen <= drafts.length + 1) :
    1 + s.accepted = windowLen ∨
      (s.accepted + 1 < windowLen ∧
        Rejects stops keepGoing judged drafts base s.accepted) := by
  cases h with
  | stopped _ _ _ _ _ _ => cases hstopped
  | refused _ _ _ _ _ _ _ => cases hstopped
  | spent _ hspent _ _ =>
    rw [← hspent] at hdrafts
    rw [Nat.add_comm] at hle ⊢
    exact Or.inl (Nat.le_antisymm hle (Nat.le_trans hge (Nat.succ_le_succ hdrafts)))
  | @rejected env carry i draft target hdraft _ hpassed hjudged _ hne =>
    rw [Nat.add_comm] at hle
    rw [Nat.add_comm]
    rcases Nat.lt_or_eq_of_le hle with hlt | heq
    · exact Or.inr ⟨hlt, draft, target, hdraft, hpassed, hjudged, hne⟩
    · exact Or.inl heq
  | exhausted _ _ _ =>
    rw [Nat.add_comm] at hle ⊢
    exact Or.inl (Nat.le_antisymm hle hge)

/-- A loop with the budget for all its drafts accepts them, or ends behind fewer. -/
theorem AcceptExit.accepted_cases
    (h : AcceptExit stops keepGoing judged inv after drafts base budget s)
    (hdrafts : drafts.length <= budget) :
    s.accepted = drafts.length ∨
      (s.accepted < drafts.length ∧
        EndsBehind stops keepGoing judged drafts base s.accepted) := by
  cases h with
  | stopped hdraft _ hpassed hjudged _ hstops =>
    exact Or.inr ⟨succ_le_length_of_getElem? hdraft, .stopped hdraft hpassed hjudged hstops⟩
  | @refused env carry i draft hdraft _ hpassed hjudged _ hstops hkeep =>
    rcases Nat.lt_or_eq_of_le (succ_le_length_of_getElem? hdraft) with hlt | heq
    · exact Or.inr ⟨hlt, .refused hdraft hpassed hjudged hstops hkeep⟩
    · exact Or.inl heq
  | spent hdraft hspent _ _ =>
    rw [← hspent] at hdrafts
    exact Or.inl (Nat.le_antisymm (succ_le_length_of_getElem? hdraft) hdrafts)
  | @rejected env carry i draft target hdraft _ hpassed hjudged _ hne =>
    exact Or.inr ⟨succ_le_length_of_getElem? hdraft,
      .rejected ⟨draft, target, hdraft, hpassed, hjudged, hne⟩⟩
  | exhausted _ _ _ => exact Or.inl rfl

theorem AcceptExit.accepted_of_rejected {draft target : TokenId}
    (h : AcceptExit stops keepGoing judged inv after drafts base budget s)
    (hunique : forall j left right, judged j left -> judged j right -> left = right)
    (hdrafts : drafts.length <= budget) (hdraft : drafts[i]? = some draft)
    (hpassed : Passed stops keepGoing judged drafts base i) (hjudged : judged i target)
    (hne : target ≠ draft) :
    s.accepted = i ∧ s.stopped = false ∧ s.remaining ≠ 0 ∧
      exists carry, after s.env carry i := by
  have hpast : forall j, Passed stops keepGoing judged drafts base j -> j <= i := by
    intro j hj
    by_contra hlt
    exact hne (hunique i target draft hjudged (hj i draft (Nat.lt_of_not_le hlt) hdraft).1)
  cases h with
  | @stopped env carry j other hother _ hbefore hmatch _ hstops =>
    rcases Nat.lt_or_eq_of_le (hpast j hbefore) with hlt | heq
    · rw [(hpassed j other hlt hother).2.1] at hstops
      cases hstops
    · subst heq
      rw [hdraft] at hother
      cases hother
      exact absurd (hunique j target draft hjudged hmatch) hne
  | @refused env carry j other hother _ hbefore hmatch _ _ hkeep =>
    rcases Nat.lt_or_eq_of_le (hpast j hbefore) with hlt | heq
    · rw [(hpassed j other hlt hother).2.2] at hkeep
      cases hkeep
    · subst heq
      rw [hdraft] at hother
      cases hother
      exact absurd (hunique j target draft hjudged hmatch) hne
  | @spent env carry j other _ hspent hbefore _ =>
    have hinside := succ_le_length_of_getElem? hdraft
    have hover := Nat.le_trans hinside (Nat.le_trans hdrafts (Nat.le_of_eq hspent.symm))
    exact absurd (Nat.le_trans hover (hpast (j + 1) hbefore)) (Nat.not_succ_le_self i)
  | @rejected env carry j other found hother hj hbefore hfound hafter hdiffers =>
    rcases Nat.lt_or_eq_of_le (hpast j hbefore) with hlt | heq
    · exact absurd (hunique j found other hfound (hpassed j other hlt hother).1) hdiffers
    · subst heq
      exact ⟨rfl, rfl, Nat.sub_ne_zero_of_lt hj, ⟨carry, hafter⟩⟩
  | exhausted _ hbefore _ =>
    have hinside := succ_le_length_of_getElem? hdraft
    exact absurd (hpast drafts.length hbefore) (Nat.not_le_of_lt hinside)

end Loop

end Generate
end RunNBurn
