import Mathlib.Data.List.Basic

/-!
# Calls that work in place

A call on a mutable state leaves the state behind even when it fails.  The
state is passed along explicitly, next to what the call returns or the error
that ends it.
-/

namespace RunNBurn
namespace Library

abbrev InPlace (error state alpha : Type) : Type :=
  state -> state × Except error alpha

namespace InPlace

variable {error state part alpha beta : Type}

def andThen (call : InPlace error state alpha) (next : alpha -> InPlace error state beta) :
    InPlace error state beta :=
  fun s =>
    match call s with
    | (left, .ok x) => next x left
    | (left, .error fault) => (left, .error fault)

instance : Monad (InPlace error state) where
  pure x := fun s => (s, .ok x)
  bind := andThen

def reading (call : state -> Except error alpha) : InPlace error state alpha :=
  fun s => (s, call s)

def failing (fault : error) : InPlace error state alpha :=
  fun s => (s, .error fault)

def modifying (update : state -> state) : InPlace error state Unit :=
  fun s => (update s, .ok ())

def onPart (get : state -> part) (set : part -> state -> state)
    (call : InPlace error part alpha) : InPlace error state alpha :=
  fun s => (set (call (get s)).1 s, (call (get s)).2)

/-- Call `body` on the states of a list in turn, one item each, up to the end of
the shorter list. -/
def eachZip {item : Type} (body : item -> InPlace error state Unit) :
    List item -> InPlace error (List state) Unit
  | [], states => (states, .ok ())
  | _ :: _, [] => ([], .ok ())
  | head :: rest, s :: others =>
    match body head s with
    | (left, .error fault) => (left :: others, .error fault)
    | (left, .ok ()) => (left :: (eachZip body rest others).1, (eachZip body rest others).2)

variable {next : alpha -> InPlace error state beta}

theorem bind_of_ok {call : InPlace error state alpha} {s left : state} {x : alpha}
    (h : call s = (left, .ok x)) :
    (call >>= next) s = next x left := by
  change andThen call next s = next x left
  unfold andThen
  rw [h]

theorem bind_of_error {call : InPlace error state alpha} {s left : state} {fault : error}
    (h : call s = (left, .error fault)) :
    (call >>= next) s = (left, .error fault) := by
  change andThen call next s = (left, .error fault)
  unfold andThen
  rw [h]

theorem reading_of_eq
    {call : state -> Except error alpha} {s : state} {result : Except error alpha}
    (h : call s = result) :
    reading call s = (s, result) :=
  congrArg (Prod.mk s) h

theorem left_reading_bind (inv : state -> Prop) {call : state -> Except error alpha} {s : state}
    (hfails : inv s) (hnext : forall x, call s = .ok x -> inv (next x s).1) :
    inv ((reading call >>= next) s).1 := by
  cases hcall : call s with
  | ok x =>
    rw [bind_of_ok (reading_of_eq hcall)]
    exact hnext x hcall
  | error fault =>
    rw [bind_of_error (reading_of_eq hcall)]
    exact hfails

theorem modifying_bind (update : state -> state) (next : Unit -> InPlace error state beta)
    (s : state) :
    (modifying update >>= next) s = next () (update s) := rfl

theorem onPart_of_eq
    {get : state -> part} {set : part -> state -> state}
    {call : InPlace error part alpha} {s : state} {left : part} {result : Except error alpha}
    (h : call (get s) = (left, result)) :
    onPart get set call s = (set left s, result) := by
  unfold onPart
  rw [h]

/-!
# What a call does to the state

`Moves` bounds how a call changes the state, whether it fails or not.
-/

def Moves (rel : state -> state -> Prop) (call : InPlace error state alpha) : Prop :=
  forall s, rel s (call s).1

section Moves

variable {rel : state -> state -> Prop}

theorem moves_bind
    {call : InPlace error state alpha} {next : alpha -> InPlace error state beta}
    (htrans : forall first second third, rel first second -> rel second third ->
      rel first third)
    (hcall : Moves rel call) (hnext : forall x, Moves rel (next x)) :
    Moves rel (call >>= next) := by
  intro s
  have hfirst := hcall s
  cases hresult : call s with
  | mk left result =>
    rw [hresult] at hfirst
    cases result with
    | ok x =>
      rw [bind_of_ok hresult]
      exact htrans _ _ _ hfirst (hnext x left)
    | error fault =>
      rw [bind_of_error hresult]
      exact hfirst

theorem moves_pure (hrefl : forall s, rel s s) (x : alpha) :
    Moves rel (pure x : InPlace error state alpha) :=
  hrefl

theorem moves_reading (hrefl : forall s, rel s s) (call : state -> Except error alpha) :
    Moves rel (reading call) :=
  hrefl

theorem moves_failing (hrefl : forall s, rel s s) (fault : error) :
    Moves rel (failing fault : InPlace error state alpha) :=
  hrefl

theorem moves_modifying {update : state -> state} (h : forall s, rel s (update s)) :
    Moves rel (modifying update : InPlace error state Unit) :=
  h

theorem moves_ite {condition : Prop} [Decidable condition]
    {first second : InPlace error state alpha} (hfirst : Moves rel first)
    (hsecond : Moves rel second) :
    Moves rel (if condition then first else second) := by
  split
  · exact hfirst
  · exact hsecond

end Moves

/-!
# Where a call ends

`Ends` says what holds of the state a call leaves, with the value it returns and with the
error that ends it.
-/

def Ends (call : InPlace error state alpha) (s : state)
    (returned : alpha -> state -> Prop) (failed : error -> state -> Prop) : Prop :=
  match call s with
  | (left, .ok x) => returned x left
  | (left, .error fault) => failed fault left

section Ends

variable {call : InPlace error state alpha} {s left : state}
  {returned : alpha -> state -> Prop} {failed : error -> state -> Prop}

theorem Ends.of_ok {x : alpha} (h : Ends call s returned failed) (hcall : call s = (left, .ok x)) :
    returned x left := by
  unfold Ends at h
  rw [hcall] at h
  exact h

theorem Ends.of_error {fault : error} (h : Ends call s returned failed)
    (hcall : call s = (left, .error fault)) :
    failed fault left := by
  unfold Ends at h
  rw [hcall] at h
  exact h

theorem ends_of_eq {result : Except error alpha} (hcall : call s = (left, result))
    (hok : forall x, result = .ok x -> returned x left)
    (herror : forall fault, result = .error fault -> failed fault left) :
    Ends call s returned failed := by
  unfold Ends
  rw [hcall]
  cases result with
  | ok x => exact hok x rfl
  | error fault => exact herror fault rfl

theorem Ends.imp
    {returned' : alpha -> state -> Prop} {failed' : error -> state -> Prop}
    (h : Ends call s returned failed)
    (hreturned : forall x left, returned x left -> returned' x left)
    (hfailed : forall fault left, failed fault left -> failed' fault left) :
    Ends call s returned' failed' := by
  cases hcall : call s with
  | mk left result =>
    cases result with
    | ok x =>
      exact ends_of_eq hcall (fun y hy => by cases hy; exact hreturned x left (h.of_ok hcall))
        (fun fault hfault => by cases hfault)
    | error fault =>
      exact ends_of_eq hcall (fun y hy => by cases hy)
        (fun other hother => by cases hother; exact hfailed fault left (h.of_error hcall))

theorem ends_pure {x : alpha} (h : returned x s) :
    Ends (pure x : InPlace error state alpha) s returned failed := h

theorem ends_bind {next : alpha -> InPlace error state beta} {returned' : beta -> state -> Prop}
    {reached : alpha -> state -> Prop} (h : Ends call s reached failed)
    (hnext : forall x left, reached x left -> Ends (next x) left returned' failed) :
    Ends (call >>= next) s returned' failed := by
  cases hcall : call s with
  | mk left result =>
    cases result with
    | ok x =>
      unfold Ends
      rw [bind_of_ok hcall]
      exact hnext x left (h.of_ok hcall)
    | error fault =>
      unfold Ends
      rw [bind_of_error hcall]
      exact h.of_error hcall

theorem ends_reading {call : state -> Except error alpha}
    (hok : forall x, call s = .ok x -> returned x s)
    (herror : forall fault, call s = .error fault -> failed fault s) :
    Ends (reading call) s returned failed :=
  ends_of_eq rfl hok herror

theorem ends_onPart {get : state -> part} {set : part -> state -> state}
    {call : InPlace error part alpha}
    {returned : alpha -> part -> Prop} {failed : error -> part -> Prop}
    (h : Ends call (get s) returned failed) :
    Ends (onPart get set call) s
      (fun x left => exists inner, left = set inner s ∧ returned x inner)
      (fun fault left => exists inner, left = set inner s ∧ failed fault inner) := by
  cases hcall : call (get s) with
  | mk inner result =>
    refine ends_of_eq (onPart_of_eq hcall) ?_ ?_
    · intro x hx
      cases hx
      exact ⟨inner, rfl, h.of_ok hcall⟩
    · intro fault hfault
      cases hfault
      exact ⟨inner, rfl, h.of_error hcall⟩

end Ends

section EachZip

variable {item : Type} {body : item -> InPlace error state Unit}
  {states : List state} {items : List item}

theorem eachZip_of_ok (hlength : items.length = states.length)
    (hok : forall (i : Nat) x s, items[i]? = some x -> states[i]? = some s ->
      (body x s).2 = .ok ()) :
    eachZip body items states =
      (List.zipWith (fun x s => (body x s).1) items states, .ok ()) := by
  induction items generalizing states with
  | nil =>
    cases states with
    | nil => rfl
    | cons s others => cases hlength
  | cons head rest ih =>
    cases states with
    | nil => cases hlength
    | cons s others =>
      have hhead := hok 0 head s rfl rfl
      have hrest := ih (Nat.succ.inj hlength) (fun i x t hx ht =>
        hok (i + 1) x t hx ht)
      unfold eachZip
      cases hcall : body head s with
      | mk left result =>
        rw [hcall] at hhead
        cases hhead
        dsimp only
        rw [hrest, List.zipWith_cons_cons, hcall]

theorem eachZip_error {fault : error} (h : (eachZip body items states).2 = .error fault) :
    exists (i : Nat) (x : item) (s : state), items[i]? = some x ∧
      states[i]? = some s ∧ (body x s).2 = .error fault := by
  induction items generalizing states with
  | nil => cases h
  | cons head rest ih =>
    cases states with
    | nil => cases h
    | cons s others =>
      unfold eachZip at h
      cases hcall : body head s with
      | mk left result =>
        rw [hcall] at h
        cases result with
        | error other =>
          refine ⟨0, head, s, rfl, rfl, ?_⟩
          rw [hcall]
          exact h
        | ok done =>
          rcases ih h with ⟨i, x, t, hx, ht, hfault⟩
          exact ⟨i + 1, x, t, hx, ht, hfault⟩

theorem eachZip_ok_iff (hlength : items.length = states.length) :
    (eachZip body items states).2 = .ok () ↔
      forall (i : Nat) x s, items[i]? = some x -> states[i]? = some s ->
        (body x s).2 = .ok () := by
  constructor
  · intro h
    induction items generalizing states with
    | nil =>
      intro i x s hx
      cases hx
    | cons head rest ih =>
      cases states with
      | nil => cases hlength
      | cons s others =>
        unfold eachZip at h
        cases hcall : body head s with
        | mk left result =>
          rw [hcall] at h
          cases result with
          | error fault => cases h
          | ok done =>
            intro i x t hx ht
            cases i with
            | zero =>
              cases hx
              cases ht
              rw [hcall]
            | succ i => exact ih (Nat.succ.inj hlength) h i x t hx ht
  · intro hok
    rw [eachZip_of_ok hlength hok]

end EachZip

end InPlace

end Library
end RunNBurn
