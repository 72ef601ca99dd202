import RunNBurn.Library.Checked

/-!
# Loops with an exit

A loop body either hands the next state on or leaves the loop.  The loop itself
runs on fuel; a measure that every round decreases shows that the fuel suffices.
-/

namespace RunNBurn
namespace Library

inductive Step (state : Type) where
  | next (s : state)
  | done (s : state)

namespace Step

variable {state : Type}

def Satisfies (onNext onDone : state -> Prop) : Step state -> Prop
  | next s => onNext s
  | done s => onDone s

end Step

variable {state : Type}

def loop (body : state -> Checked (Step state)) : Nat -> state -> Checked state
  | 0, _ => abort "loop fuel exhausted"
  | fuel + 1, s => do
      match <- body s with
      | .next following => loop body fuel following
      | .done final => return final

/-- The states at the head of the loop that are reached through heads that all
meet a condition. -/
inductive ReachThrough (meets : state -> Prop) (body : state -> Checked (Step state))
    (start : state) : state -> Prop where
  | start : ReachThrough meets body start start
  | next {s following : state} :
      ReachThrough meets body start s ->
      meets s ->
      body s = .ok (Step.next following) ->
      ReachThrough meets body start following

def Reach (body : state -> Checked (Step state)) (start : state) : state -> Prop :=
  ReachThrough (fun _ => True) body start

variable {body : state -> Checked (Step state)}

theorem reach_next {start s following : state} (h : Reach body start s)
    (hstep : body s = .ok (Step.next following)) :
    Reach body start following :=
  ReachThrough.next h trivial hstep

variable (inv : state -> Prop)

theorem reach_invariant {meets : state -> Prop} {start s : state} (hstart : inv start)
    (hstep : forall s following, inv s -> meets s ->
      body s = .ok (Step.next following) -> inv following) (h : ReachThrough meets body start s) :
    inv s := by
  induction h with
  | start => exact hstart
  | next _ hmeets hround ih => exact hstep _ _ ih hmeets hround

variable {fuel : Nat}

theorem loop_triple {allowed : Fault -> Prop} {s : state} (inv post : state -> Prop)
    (measure : state -> Nat) (hstep : forall s, inv s -> Triple allowed (body s)
      (Step.Satisfies (fun following => inv following ∧ measure following < measure s)
        post)) (hinv : inv s) (hfuel : measure s < fuel) :
    Triple allowed (loop body fuel s) post := by
  induction fuel generalizing s with
  | zero => cases hfuel
  | succ fuel ih =>
    refine (hstep s hinv).bind ?_
    intro step hpost
    cases step with
    | next following =>
      exact ih hpost.left (Nat.lt_of_lt_of_le hpost.right (Nat.le_of_lt_succ hfuel))
    | done final => exact triple_pure hpost

theorem loop_triple_bounded {allowed : Fault -> Prop} {s : state} (rounds : Nat)
    (inv : Nat -> state -> Prop) (post : state -> Prop)
    (hstep : forall rounds s, inv rounds s -> Triple allowed (body s)
      (Step.Satisfies (fun following => exists fewer, fewer < rounds ∧ inv fewer following)
        post)) (hinv : inv rounds s) (hfuel : rounds < fuel) :
    Triple allowed (loop body fuel s) post := by
  induction fuel generalizing s rounds with
  | zero => cases hfuel
  | succ fuel ih =>
    refine (hstep rounds s hinv).bind ?_
    intro step hpost
    cases step with
    | next following =>
      rcases hpost with ⟨fewer, hfewer, hkept⟩
      exact ih fewer hkept (Nat.lt_of_lt_of_le hfewer (Nat.le_of_lt_succ hfuel))
    | done final => exact triple_pure hpost

theorem loop_of_reach {start s final : state} (hreach : Reach body start s)
    (h : loop body fuel start = .ok final) :
    exists rest, loop body rest s = .ok final := by
  induction hreach with
  | start => exact ⟨fuel, h⟩
  | next _ _ hstep ih =>
    rcases ih with ⟨rest, hrest⟩
    cases rest with
    | zero => cases hrest
    | succ rest =>
      refine ⟨rest, ?_⟩
      unfold loop at hrest
      rw [hstep] at hrest
      exact hrest

/-!
# Loops that cannot fail
-/

def iterate (body : state -> Step state) : Nat -> state -> state
  | 0, s => s
  | fuel + 1, s =>
    match body s with
    | .next following => iterate body fuel following
    | .done final => final

/-- A body that cannot fail, as a body of `loop`. -/
def total (body : state -> Step state) (s : state) : Checked (Step state) :=
  .ok (body s)

theorem iterate_leaves {body : state -> Step state} {start s : state} (measure : state -> Nat)
    (hstep : forall s following, inv s -> body s = Step.next following ->
      inv following ∧ measure following < measure s) (hreach : Reach (total body) start s)
    (hinv : inv s) (hfuel : measure s < fuel) :
    exists last, Reach (total body) start last ∧ inv last ∧
      body last = Step.done (iterate body fuel s) := by
  induction fuel generalizing s with
  | zero => cases hfuel
  | succ fuel ih =>
    unfold iterate
    cases hbody : body s with
    | next following =>
      rcases hstep s following hinv hbody with ⟨hkept, hless⟩
      exact ih (reach_next hreach (congrArg Except.ok hbody)) hkept
        (Nat.lt_of_lt_of_le hless (Nat.le_of_lt_succ hfuel))
    | done final => exact ⟨s, hreach, hinv, hbody⟩

theorem iterate_invariant {body : state -> Step state} {s : state} (fuel : Nat)
    (hround : forall s, inv s -> Step.Satisfies inv inv (body s)) (hinv : inv s) :
    inv (iterate body fuel s) := by
  induction fuel generalizing s with
  | zero => exact hinv
  | succ fuel ih =>
    have hkept := hround s hinv
    unfold iterate
    cases hbody : body s with
    | next following =>
      rw [hbody] at hkept
      exact ih hkept
    | done final =>
      rw [hbody] at hkept
      exact hkept

end Library
end RunNBurn
