import Mathlib.Data.List.Forall2
import RunNBurn.Library.ByteCursor
import RunNBurn.Library.Checked

/-!
# Calls that may stop

What a call that fails or panics guarantees: that it does not panic, and what holds of
the value it returns.
-/

namespace RunNBurn
namespace Library

variable {error alpha beta : Type} {call : Except (Stop error) alpha}

/-- The call does not panic, and the value it returns satisfies the condition. -/
def Yields (post : alpha -> Prop) : Except (Stop error) alpha -> Prop
  | .ok x => post x
  | .error (.fail _) => True
  | .error .panic => False

theorem yields_iff_triple {post : alpha -> Prop} :
    Yields post call ↔ Triple (fun stop => stop ≠ .panic) call post := by
  cases call with
  | ok x => exact Iff.rfl
  | error stop =>
    cases stop with
    | panic => exact ⟨fun h => h.elim, fun h => h rfl⟩
    | fail fault =>
      have hfault : Stop.fail fault ≠ (Stop.panic : Stop error) := by
        intro hpanic
        cases hpanic
      exact ⟨fun _ => hfault, fun _ => True.intro⟩

theorem Yields.of_ne_panic (h : call ≠ .error .panic) :
    Yields (fun x => call = .ok x) call := by
  cases call with
  | ok x => exact rfl
  | error stop =>
    cases stop with
    | panic => exact absurd rfl h
    | fail fault => exact True.intro

theorem Yields.mono {post weaker : alpha -> Prop} (h : Yields post call)
    (himp : forall x, post x -> weaker x) :
    Yields weaker call := by
  cases call with
  | ok x => exact himp x h
  | error stop =>
    cases stop with
    | panic => exact h
    | fail fault => exact True.intro

variable {post : alpha -> Prop}

theorem Yields.bind {goal : beta -> Prop} {next : alpha -> Except (Stop error) beta}
    (h : Yields post call) (hnext : forall x, post x -> Yields goal (next x)) :
    Yields goal (call >>= next) := by
  cases call with
  | ok x => exact hnext x h
  | error stop =>
    cases stop with
    | panic => exact h
    | fail fault => exact True.intro

theorem Yields.post_of_eq_ok {x : alpha} (h : Yields post call) (hx : call = .ok x) :
    post x := by
  rw [hx] at h
  exact h

theorem Yields.ne_panic (h : Yields post call) :
    call ≠ .error .panic := by
  intro hpanic
  rw [hpanic] at h
  exact h

theorem Yields.exists_fail (h : Yields post call) (himpossible : forall x, ¬ post x) :
    exists fault, call = .error (.fail fault) := by
  cases call with
  | ok x => exact absurd h (himpossible x)
  | error stop =>
    cases stop with
    | panic => exact h.elim
    | fail fault => exact Exists.intro fault rfl

theorem yields_foldlM {item : Type} {body : alpha -> item -> Except (Stop error) alpha}
    (inv : List item -> alpha -> Prop) {items : List item} {start : alpha} (hstart : inv [] start)
    (hbody : forall earlier x later s, items = earlier ++ x :: later -> inv earlier s ->
      Yields (inv (earlier ++ [x])) (body s x)) :
    Yields (inv items) (items.foldlM body start) := by
  apply yields_iff_triple.mpr
  apply triple_foldlM inv hstart
  intro earlier x later s hitems hs
  exact yields_iff_triple.mp (hbody earlier x later s hitems hs)

theorem yields_mapM {item : Type} {rel : item -> alpha -> Prop}
    {call : item -> Except (Stop error) alpha} {items : List item}
    (h : forall x, x ∈ items -> Yields (rel x) (call x)) :
    Yields (List.Forall₂ rel items) (items.mapM call) := by
  induction items with
  | nil => exact List.Forall₂.nil
  | cons x rest ih =>
    rw [List.mapM_cons]
    apply Yields.bind (h x List.mem_cons_self)
    intro y hy
    apply Yields.bind (ih (fun z hz => h z (List.mem_cons_of_mem x hz)))
    intro ys hys
    exact List.Forall₂.cons hy hys

/-!
# Calls on a cursor
-/

theorem yields_cursor_bind {call : CursorCall error alpha} {next : alpha -> CursorCall error beta}
    {post : alpha × Cursor -> Prop} {goal : beta × Cursor -> Prop} {r : Cursor}
    (h : Yields post (call r))
    (hnext : forall x left, post (x, left) -> Yields goal (next x left)) :
    Yields goal ((call >>= next) r) := by
  show Yields goal (CursorCall.andThen call next r)
  unfold CursorCall.andThen
  cases hcall : call r with
  | ok result =>
    rcases result with ⟨x, left⟩
    rw [hcall] at h
    exact hnext x left h
  | error stop =>
    rw [hcall] at h
    cases stop with
    | panic => exact h
    | fail fault => exact True.intro

theorem yields_readMany {read : CursorCall error alpha}
    (h : forall r, Yields (fun result => post result.1) (read r)) (n : Nat) (r : Cursor) :
    Yields (fun result => forall x, x ∈ result.1 -> post x) (CursorCall.readMany read n r) := by
  induction n generalizing r with
  | zero =>
    intro x hx
    cases hx
  | succ n ih =>
    apply yields_cursor_bind (h r)
    intro first left hfirst
    apply yields_cursor_bind (ih left)
    intro rest last hrest x hx
    rcases List.mem_cons.mp hx with hhead | htail
    · rw [hhead]
      exact hfirst
    · exact hrest x htail

theorem yields_readEach {read : List alpha -> CursorCall error alpha}
    (h : forall seen r, Yields (fun result => post result.1) (read seen r)) (n : Nat)
    {seen : List alpha} (hseen : forall x, x ∈ seen -> post x) (r : Cursor) :
    Yields (fun result => forall x, x ∈ result.1 -> post x)
      (CursorCall.readEach read n seen r) := by
  induction n generalizing seen r with
  | zero => exact hseen
  | succ n ih =>
    apply yields_cursor_bind (h seen r)
    intro next left hnext
    apply ih
    intro x hx
    rcases List.mem_append.mp hx with hold | hlast
    · exact hseen x hold
    · rw [List.mem_singleton.mp hlast]
      exact hnext

end Library
end RunNBurn
