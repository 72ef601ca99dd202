import RunNBurn.Library.Checked
import RunNBurn.Library.InPlace

/-!
# Runs of calls that may fail

A run makes one call after another on the state that the last one left, also when that call
reported an error; a call that panics ends the run.  What every turn of a run meets is
proved from one turn with an invariant of the turns so far.
-/

namespace RunNBurn
namespace Library

structure Turn (state call answer : Type) where
  before : state
  call : call
  result : Checked answer
  after : state

section Turns

variable {state call answer : Type}

def Fault.Reported : Fault -> Prop
  | .reported _ => True
  | .panicked _ => False

/-- Whether the call returned, with a value or with an error. -/
def panics : Checked answer -> Bool
  | .error (.panicked _) => true
  | _ => false

def turns (make : call -> InPlace Fault state answer) :
    state -> List call -> List (Turn state call answer)
  | _, [] => []
  | s, c :: rest =>
    if panics (make c s).2 then []
    else ⟨s, c, (make c s).2, (make c s).1⟩ :: turns make (make c s).1 rest

/-- Every turn meets `holds`, given the turns before it with the latest one first. -/
def EveryTurn (holds : List (Turn state call answer) -> Turn state call answer -> Prop) :
    List (Turn state call answer) -> List (Turn state call answer) -> Prop
  | _, [] => True
  | earlier, turn :: later => holds earlier turn ∧ EveryTurn holds (turn :: earlier) later

variable {make : call -> InPlace Fault state answer}

/-- As long as the allowed turns keep an invariant, under which a turn is allowed exactly
when it meets `holds`, every turn of a run meets it exactly when they are all allowed. -/
theorem everyTurn_turns_iff
    {holds allowed : List (Turn state call answer) -> Turn state call answer -> Prop}
    (inv : List (Turn state call answer) -> state -> Prop)
    (hturn : forall earlier s c, inv earlier s -> panics (make c s).2 = false ->
      (holds earlier ⟨s, c, (make c s).2, (make c s).1⟩ ↔
        allowed earlier ⟨s, c, (make c s).2, (make c s).1⟩))
    (hkept : forall earlier s c, inv earlier s -> panics (make c s).2 = false ->
      allowed earlier ⟨s, c, (make c s).2, (make c s).1⟩ ->
      inv (⟨s, c, (make c s).2, (make c s).1⟩ :: earlier) (make c s).1)
    {earlier : List (Turn state call answer)} {s : state}
    (hinv : inv earlier s) (calls : List call) :
    EveryTurn holds earlier (turns make s calls) ↔
      EveryTurn allowed earlier (turns make s calls) := by
  induction calls generalizing earlier s with
  | nil => exact Iff.rfl
  | cons c rest ih =>
    unfold turns
    by_cases hpanics : panics (make c s).2 = true
    · rw [if_pos hpanics]
      exact Iff.rfl
    · rw [if_neg hpanics]
      have hreturned : panics (make c s).2 = false := Bool.eq_false_iff.mpr hpanics
      have hfirst := hturn earlier s c hinv hreturned
      constructor
      · intro h
        have hallowed := hfirst.mp h.1
        exact ⟨hallowed, (ih (hkept earlier s c hinv hreturned hallowed)).mp h.2⟩
      · intro h
        exact ⟨hfirst.mpr h.1, (ih (hkept earlier s c hinv hreturned h.1)).mpr h.2⟩

end Turns

end Library
end RunNBurn
