import Mathlib.Algebra.GroupWithZero.Nat
import Mathlib.Data.List.Forall2

/-!
# Checked computations

A call either returns a value, reports an error, or panics.  This module fixes
the result type, the checked list and machine-word operations that the models
are written with, and the two triples used to reason about them: `Returns`
speaks about every value that is returned, `Delivers` also promises one.
-/

namespace RunNBurn
namespace Library

inductive Fault where
  | reported (message : String)
  | panicked (message : String)
deriving DecidableEq, Repr

abbrev Checked (alpha : Type) : Type :=
  Except Fault alpha

variable {alpha : Type}

def report (message : String) : Checked alpha :=
  .error (.reported message)

def abort (message : String) : Checked alpha :=
  .error (.panicked message)

theorem ok_bind {error beta : Type} (x : alpha) (next : alpha -> Except error beta) :
    ((.ok x : Except error alpha) >>= next) = next x := rfl

theorem bind_eq_ok {error beta : Type}
    {call : Except error alpha} {next : alpha -> Except error beta} {y : beta}
    (h : (call >>= next) = .ok y) :
    exists x, call = .ok x ∧ next x = .ok y := by
  cases hx : call with
  | error complaint =>
    rw [hx] at h
    cases h
  | ok x =>
    rw [hx] at h
    exists x

/-!
# Guards and slices
-/

def require (condition : Prop) [Decidable condition] (message : String) :
    Checked Unit :=
  if condition then .ok () else abort message

variable {condition : Prop}

theorem require_of_true [Decidable condition] (message : String) (h : condition) :
    require condition message = .ok () := by
  simp [require, h]

def ensure (condition : Prop) [Decidable condition] (message : String) : Checked Unit :=
  if condition then .ok () else report message

theorem ensure_of_true [Decidable condition] (message : String) (h : condition) :
    ensure condition message = .ok () := by
  simp [ensure, h]

variable {message : String}

theorem ensure_eq_ok [Decidable condition] {result : Unit}
    (h : ensure condition message = .ok result) :
    condition := by
  unfold ensure at h
  split at h
  · rename_i hcondition
    exact hcondition
  · cases h

/-- The half-open slice `xs[lo..hi]`, which panics when it leaves the list. -/
def slice (xs : List alpha) (lo hi : Nat) : Checked (List alpha) :=
  if lo <= hi ∧ hi <= xs.length then .ok ((xs.drop lo).take (hi - lo))
  else abort "slice index out of range"

theorem require_eq_ok [Decidable condition] {result : Unit}
    (h : require condition message = .ok result) :
    condition := by
  unfold require at h
  split at h
  · rename_i hcondition
    exact hcondition
  · cases h

variable {xs : List alpha}

theorem slice_of_le {lo hi : Nat} (hlo : lo <= hi) (hhi : hi <= xs.length) :
    slice xs lo hi = .ok ((xs.drop lo).take (hi - lo)) := by
  simp [slice, hlo, hhi]

theorem slice_zero_of_le {hi : Nat} (hhi : hi <= xs.length) :
    slice xs 0 hi = .ok (xs.take hi) := by
  simp [slice, hhi]

theorem slice_zero_eq_ok_iff {xs part : List alpha} {hi : Nat} :
    slice xs 0 hi = .ok part ↔ hi <= xs.length ∧ part = xs.take hi := by
  constructor
  · intro h
    unfold slice at h
    split at h
    · rename_i hbounds
      cases h
      exact ⟨hbounds.right, rfl⟩
    · cases h
  · intro h
    rw [slice_zero_of_le h.left, h.right]

/-- `Vec::split_off`: what stands from `at` on, or a panic past the end. -/
def splitOff (xs : List alpha) (start : Nat) : Checked (List alpha) :=
  if start <= xs.length then .ok (xs.drop start)
  else abort "split_off index out of range"

theorem splitOff_of_le {start : Nat} (h : start <= xs.length) :
    splitOff xs start = .ok (xs.drop start) := by
  simp [splitOff, h]

def index (xs : List alpha) (i : Nat) : Checked alpha :=
  match xs[i]? with
  | some x => .ok x
  | none => abort "index out of bounds"

variable {i : Nat} {x : alpha}

theorem index_of_getElem?_eq_some (h : xs[i]? = some x) :
    index xs i = .ok x := by
  simp [index, h]

theorem getElem?_of_index_eq_ok (h : index xs i = .ok x) :
    xs[i]? = some x := by
  unfold index at h
  cases hget : xs[i]? with
  | none =>
    rw [hget] at h
    cases h
  | some found =>
    rw [hget] at h
    cases h
    rfl

/-- Change one entry in place, which panics past the end. -/
def modifyAt (xs : List alpha) (i : Nat) (change : alpha -> alpha) : Checked (List alpha) :=
  if i < xs.length then .ok (xs.modify i change) else abort "index out of bounds"

theorem modifyAt_of_lt {change : alpha -> alpha} (h : i < xs.length) :
    modifyAt xs i change = .ok (xs.modify i change) := by
  simp [modifyAt, h]

theorem getElem?_modify_eq_map (xs : List alpha) (i j : Nat) (change : alpha -> alpha) :
    (xs.modify j change)[i]? = xs[i]?.map (fun x => if i = j then change x else x) := by
  rw [List.getElem?_modify]
  cases xs[i]? with
  | none => rfl
  | some x => simp [eq_comm]

def divide (numerator denominator : Nat) : Checked Nat :=
  if denominator = 0 then abort "attempt to divide by zero"
  else .ok (numerator / denominator)

theorem divide_of_pos
    {numerator denominator : Nat} (h : 0 < denominator) :
    divide numerator denominator = .ok (numerator / denominator) := by
  simp [divide, Nat.ne_of_gt h]

/-!
# Machine words
-/

def usizeLimit : Nat :=
  2 ^ 64

def isizeMax : Nat :=
  2 ^ 63 - 1

def wrappingAdd (a b : Nat) : Nat :=
  (a + b) % usizeLimit

def wrappingMul (a b : Nat) : Nat :=
  a * b % usizeLimit

def wrappingSub (a b : Nat) : Nat :=
  if b <= a then a - b else a + (usizeLimit - b)

def checkedMul (message : String) (a b : Nat) : Checked Nat :=
  if a * b < usizeLimit then .ok (a * b) else report message

def checkedAdd (message : String) (a b : Nat) : Checked Nat :=
  if a + b < usizeLimit then .ok (a + b) else report message

def saturatingAdd (a b : Nat) : Nat :=
  min (a + b) (usizeLimit - 1)

theorem checkedMul_bind_eq_ok {a b : Nat} {next : Nat -> Checked alpha} {y : alpha}
    (h : (checkedMul message a b >>= next) = .ok y) :
    a * b < usizeLimit ∧ next (a * b) = .ok y := by
  unfold checkedMul at h
  split at h
  · rename_i hlt
    exact ⟨hlt, h⟩
  · cases h

theorem saturatingAdd_le {a b bound : Nat} (h : a + b <= bound) :
    saturatingAdd a b <= bound :=
  Nat.le_trans (Nat.min_le_left _ _) h

/-!
# Partial and total triples
-/

/-- Whatever the call returns satisfies `post`. -/
def Returns (call : Checked alpha) (post : alpha -> Prop) : Prop :=
  forall x, call = .ok x -> post x

/-- The call returns a value, and the value satisfies `post`. -/
def Delivers (call : Checked alpha) (post : alpha -> Prop) : Prop :=
  exists x, call = .ok x ∧ post x

variable {post : alpha -> Prop}

theorem returns_ok (h : post x) :
    Returns (.ok x) post := by
  intro y hy
  cases hy
  exact h

theorem returns_error (fault : Fault) (post : alpha -> Prop) :
    Returns (.error fault) post := by
  intro y hy
  cases hy

theorem returns_self (call : Checked alpha) :
    Returns call (fun x => call = .ok x) :=
  fun _ hx => hx

variable {call : Checked alpha}

theorem Returns.bind {beta : Type} {next : alpha -> Checked beta} {mid : alpha -> Prop}
    {post : beta -> Prop} (hcall : Returns call mid)
    (hnext : forall x, mid x -> Returns (next x) post) :
    Returns (call >>= next) post := by
  intro y hy
  rcases bind_eq_ok hy with ⟨x, hx, hrest⟩
  exact hnext x (hcall x hx) y hrest

theorem Returns.mono {strong weak : alpha -> Prop} (hcall : Returns call strong)
    (himp : forall x, strong x -> weak x) :
    Returns call weak := by
  intro x hx
  exact himp x (hcall x hx)

theorem delivers_ok (h : post x) :
    Delivers (.ok x) post := by
  exists x

theorem Delivers.bind {beta : Type} {next : alpha -> Checked beta} {mid : alpha -> Prop}
    {post : beta -> Prop} (hcall : Delivers call mid)
    (hnext : forall x, mid x -> Delivers (next x) post) :
    Delivers (call >>= next) post := by
  rcases hcall with ⟨x, hx, hmid⟩
  rcases hnext x hmid with ⟨y, hy, hpost⟩
  exists y
  constructor
  · rw [hx]
    exact hy
  · exact hpost

theorem Delivers.returns (h : Delivers call post) :
    Returns call post := by
  intro y hy
  rcases h with ⟨x, hx, hpost⟩
  rw [hx] at hy
  cases hy
  exact hpost

theorem Delivers.mono {strong weak : alpha -> Prop} (hcall : Delivers call strong)
    (himp : forall x, strong x -> weak x) :
    Delivers call weak := by
  rcases hcall with ⟨x, hx, hstrong⟩
  exists x
  exact ⟨hx, himp x hstrong⟩

/-!
## Triples with permitted faults

`Triple allowed call post` lets the call end in a permitted fault.  Permitting
every fault gives `Returns`, permitting none gives `Delivers`, so a fact proved
for an arbitrary `allowed` is a partial and a total statement at once.
-/

def Triple {error : Type} (allowed : error -> Prop) (call : Except error alpha)
    (post : alpha -> Prop) : Prop :=
  match call with
  | .ok x => post x
  | .error fault => allowed fault

section Triples

variable {error beta : Type} {allowed : error -> Prop} {post : alpha -> Prop}

theorem triple_ok {x : alpha} (h : post x) :
    Triple allowed (.ok x : Except error alpha) post := h

theorem triple_pure {x : alpha} (h : post x) :
    Triple allowed (pure x : Except error alpha) post := h

theorem triple_error {fault : error} (post : alpha -> Prop) (h : allowed fault) :
    Triple allowed (.error fault) post := h

section Calls

variable {call : Except error alpha}

theorem Triple.bind {next : alpha -> Except error beta} {mid : alpha -> Prop} {post : beta -> Prop}
    (hcall : Triple allowed call mid) (hnext : forall x, mid x -> Triple allowed (next x) post) :
    Triple allowed (call >>= next) post := by
  cases call with
  | error fault => exact hcall
  | ok x => exact hnext x hcall

theorem Triple.mono {strong weak : alpha -> Prop} (hcall : Triple allowed call strong)
    (himp : forall x, strong x -> weak x) :
    Triple allowed call weak := by
  cases call with
  | error fault => exact hcall
  | ok x => exact himp x hcall

theorem triple_foldlM {item : Type} {body : alpha -> item -> Except error alpha}
    {items : List item} {start : alpha} (inv : List item -> alpha -> Prop) (hstart : inv [] start)
    (hbody : forall earlier x later s, items = earlier ++ x :: later -> inv earlier s ->
      Triple allowed (body s x) (inv (earlier ++ [x]))) :
    Triple allowed (items.foldlM body start) (inv items) := by
  have hrun : forall later earlier s, items = earlier ++ later -> inv earlier s ->
      Triple allowed (later.foldlM body s) (inv items) := by
    intro later
    induction later with
    | nil =>
      intro earlier s hitems hs
      rw [List.append_nil] at hitems
      rw [hitems]
      exact triple_ok hs
    | cons x rest ih =>
      intro earlier s hitems hs
      rw [List.foldlM_cons]
      apply (hbody earlier x rest s hitems hs).bind
      intro next hnext
      apply ih (earlier ++ [x]) next _ hnext
      rw [hitems, List.append_assoc]
      rfl
  exact hrun items [] start rfl hstart

end Calls

variable {allowed : Fault -> Prop} {call : Checked alpha}

theorem Triple.and_returns {left right : alpha -> Prop} (hleft : Triple allowed call left)
    (hright : Returns call right) :
    Triple allowed call (fun x => left x ∧ right x) := by
  cases call with
  | error fault => exact hleft
  | ok x => exact ⟨hleft, hright x rfl⟩

theorem Triple.returns (h : Triple allowed call post) :
    Returns call post := by
  intro x hx
  rw [hx] at h
  exact h

theorem Triple.delivers (h : Triple (fun _ => False) call post) :
    Delivers call post := by
  cases hcall : call with
  | error fault =>
    rw [hcall] at h
    exact h.elim
  | ok x =>
    rw [hcall] at h
    exact delivers_ok h

theorem Delivers.triple (h : Delivers call post) :
    Triple allowed call post := by
  rcases h with ⟨x, hcall, hx⟩
  rw [hcall]
  exact triple_ok hx

end Triples

/-!
# Counted loops
-/

/-- `for i in 0..n`, with the iterations run in increasing order. -/
def forRange (body : Nat -> alpha -> Checked alpha) :
    Nat -> alpha -> Checked alpha
  | 0, state => .ok state
  | n + 1, state => forRange body n state >>= body n

variable {state : alpha} (inv : Nat -> alpha -> Prop)

theorem forRange_delivers {body : Nat -> alpha -> Checked alpha} {n : Nat} (hstart : inv 0 state)
    (hstep : forall i, i < n -> forall s, inv i s ->
      Delivers (body i s) (inv (i + 1))) :
    Delivers (forRange body n state) (inv n) := by
  induction n with
  | zero => exact delivers_ok hstart
  | succ n ih =>
    have hprev : Delivers (forRange body n state) (inv n) :=
      ih (fun i hi s hs => hstep i (Nat.lt_succ_of_lt hi) s hs)
    exact hprev.bind (fun s hs => hstep n (Nat.lt_succ_self n) s hs)

theorem forRange_returns {body : Nat -> alpha -> Checked alpha} {n : Nat} (hstart : inv 0 state)
    (hstep : forall i, i < n -> forall s, inv i s ->
      Returns (body i s) (inv (i + 1))) :
    Returns (forRange body n state) (inv n) := by
  induction n with
  | zero => exact returns_ok hstart
  | succ n ih =>
    have hprev : Returns (forRange body n state) (inv n) :=
      ih (fun i hi s hs => hstep i (Nat.lt_succ_of_lt hi) s hs)
    exact hprev.bind (fun s hs => hstep n (Nat.lt_succ_self n) s hs)

theorem foldlM_range'_delivers {body : alpha -> Nat -> Checked alpha} {lo n : Nat}
    (hstart : inv lo state) (hstep : forall i, lo <= i -> i < lo + n -> forall s, inv i s ->
      Delivers (body s i) (inv (i + 1))) :
    Delivers ((List.range' lo n).foldlM body state) (inv (lo + n)) := by
  induction n generalizing lo state with
  | zero => exact delivers_ok hstart
  | succ n ih =>
    rw [List.range'_succ, List.foldlM_cons]
    apply (hstep lo (Nat.le_refl lo) (by omega) state hstart).bind
    intro following hfollowing
    have hrest := ih hfollowing (fun i hlo hi => hstep i (by omega) (by omega))
    rw [Nat.add_assoc, Nat.add_comm 1 n] at hrest
    exact hrest

/-!
# Loops over lists

A loop whose every iteration returns the value of a pure function returns what
the pure loop returns.
-/

variable {item : Type} {items : List item}

theorem foldlM_returns {body : alpha -> item -> Checked alpha} (inv : alpha -> Prop)
    (hstart : inv state)
    (hstep : forall x, x ∈ items -> forall s, inv s -> Returns (body s x) inv) :
    Returns (items.foldlM body state) inv := by
  induction items generalizing state with
  | nil => exact returns_ok hstart
  | cons x rest ih =>
    rw [List.foldlM_cons]
    exact (hstep x List.mem_cons_self state hstart).bind (fun following hfollowing =>
      ih hfollowing (fun y hy => hstep y (List.mem_cons_of_mem x hy)))

theorem foldlM_gather_eq_ok_iff {item output : Type}
    (body : alpha -> item -> Checked alpha) (gather : output -> item -> alpha -> output)
    {items : List item} {start : output} {state final : alpha} :
    (exists gathered, items.foldlM
        (fun result x => do
          let following <- body result.2 x
          return (gather result.1 x following, following))
        (start, state) = .ok (gathered, final)) ↔
      items.foldlM body state = .ok final := by
  induction items generalizing start state with
  | nil =>
    constructor
    · intro h
      rcases h with ⟨gathered, h⟩
      cases h
      rfl
    · intro h
      cases h
      exact ⟨start, rfl⟩
  | cons x rest ih =>
    simp only [List.foldlM_cons]
    cases hbody : body state x with
    | error fault =>
      constructor
      · intro h
        rcases h with ⟨gathered, h⟩
        cases h
      · intro h
        cases h
    | ok following => exact ih

theorem mapM_eq_ok {error : Type} {call : item -> Except error alpha} {value : item -> alpha}
    (h : forall i, i ∈ items -> call i = .ok (value i)) :
    items.mapM call = .ok (items.map value) := by
  induction items with
  | nil => rfl
  | cons i rest ih =>
    have hhead : call i = .ok (value i) := h i List.mem_cons_self
    have hrest : rest.mapM call = .ok (rest.map value) :=
      ih (fun j hj => h j (List.mem_cons_of_mem i hj))
    rw [List.mapM_cons, hhead, hrest]
    rfl

theorem mapM_delivers {call : item -> Checked alpha}
    (h : forall i, i ∈ items -> Delivers (call i) (fun _ => True)) :
    Delivers (items.mapM call)
      (fun results => List.Forall₂ (fun i x => call i = .ok x) items results) := by
  induction items with
  | nil => exact delivers_ok List.Forall₂.nil
  | cons i rest ih =>
    rcases h i List.mem_cons_self with ⟨x, hx, _⟩
    rcases ih (fun j hj => h j (List.mem_cons_of_mem i hj)) with ⟨xs, hxs, hall⟩
    exists x :: xs
    constructor
    · rw [List.mapM_cons, hx, hxs]
      rfl
    · exact List.Forall₂.cons hx hall

theorem mapM_returns (call : item -> Checked alpha) (items : List item) :
    Returns (items.mapM call)
      (fun results => List.Forall₂ (fun i x => call i = .ok x) items results) := by
  induction items with
  | nil => exact returns_ok List.Forall₂.nil
  | cons i rest ih =>
    intro results hresults
    rw [List.mapM_cons] at hresults
    rcases bind_eq_ok hresults with ⟨x, hx, hrest⟩
    rcases bind_eq_ok hrest with ⟨xs, hxs, hcons⟩
    cases hcons
    exact List.Forall₂.cons hx (ih xs hxs)

theorem forM_eq_ok_iff {call : item -> Checked Unit} :
    items.forM call = .ok () ↔ forall i, i ∈ items -> call i = .ok () := by
  induction items with
  | nil => exact Iff.intro (fun _ i hi => absurd hi List.not_mem_nil) (fun _ => rfl)
  | cons head rest ih =>
    rw [List.forall_mem_cons, ← ih]
    change (call head >>= fun _ => rest.forM call) = .ok () ↔ _
    constructor
    · intro h
      rcases bind_eq_ok h with ⟨done, hhead, hrest⟩
      exact ⟨hhead, hrest⟩
    · intro h
      rw [h.left]
      exact h.right

theorem forM_eq_error {call : item -> Checked Unit} {fault : Fault}
    (h : items.forM call = .error fault) :
    exists i, i ∈ items ∧ call i = .error fault := by
  induction items with
  | nil => cases h
  | cons head rest ih =>
    change (call head >>= fun _ => rest.forM call) = .error fault at h
    cases hhead : call head with
    | error other =>
      rw [hhead] at h
      cases h
      exact ⟨head, List.mem_cons_self, hhead⟩
    | ok done =>
      rw [hhead] at h
      rcases ih h with ⟨i, hi, hcall⟩
      exact ⟨i, List.mem_cons_of_mem head hi, hcall⟩

variable {right : List alpha} {left : List item}

theorem exists_getElem?_of_length_eq {x : item} (hlength : left.length = right.length)
    (hx : left[i]? = some x) :
    exists y, right[i]? = some y := by
  have hi : i < right.length := by
    rw [← hlength]
    exact (List.getElem?_eq_some_iff.mp hx).1
  exists right[i]
  exact List.getElem?_eq_getElem hi

variable {rel : item -> alpha -> Prop}

theorem getElem?_of_forall₂ {x : item} {y : alpha} (h : List.Forall₂ rel left right)
    (hx : left[i]? = some x) (hy : right[i]? = some y) :
    rel x y := by
  induction h generalizing i with
  | nil => cases hx
  | cons hhead htail ih =>
    cases i with
    | zero =>
      cases hx
      cases hy
      exact hhead
    | succ i => exact ih hx hy

theorem exists_of_mem_of_forall₂ {x : item} (h : List.Forall₂ rel left right) (hx : x ∈ left) :
    exists y, y ∈ right ∧ rel x y := by
  induction h with
  | nil => cases hx
  | cons hhead _ ih =>
    rcases List.mem_cons.mp hx with hfirst | hrest
    · rw [hfirst]
      exact ⟨_, List.mem_cons_self, hhead⟩
    · rcases ih hrest with ⟨y, hy, hrel⟩
      exact ⟨y, List.mem_cons_of_mem _ hy, hrel⟩

theorem forall₂_comp {first second third : Type}
    {left : first -> second -> Prop} {right : second -> third -> Prop}
    {both : first -> third -> Prop} {xs : List first} {ys : List second} {zs : List third}
    (hleft : List.Forall₂ left xs ys) (hright : List.Forall₂ right ys zs)
    (hboth : forall x y z, left x y -> right y z -> both x z) :
    List.Forall₂ both xs zs := by
  induction hleft generalizing zs with
  | nil =>
    cases hright
    exact List.Forall₂.nil
  | cons hhead _ ih =>
    cases hright with
    | cons hnext hrest => exact List.Forall₂.cons (hboth _ _ _ hhead hnext) (ih hrest)

theorem forall₂_set {y : alpha} (h : List.Forall₂ rel left right)
    (hy : forall x, left[i]? = some x -> rel x y) :
    List.Forall₂ rel left (right.set i y) := by
  induction h generalizing i with
  | nil => exact List.Forall₂.nil
  | cons hhead htail ih =>
    cases i with
    | zero => exact List.Forall₂.cons (hy _ rfl) htail
    | succ i => exact List.Forall₂.cons hhead (ih hy)

theorem forall₂_same {rel : alpha -> alpha -> Prop} (h : forall x, x ∈ xs -> rel x x) :
    List.Forall₂ rel xs xs :=
  List.forall₂_same.mpr h

end Library
end RunNBurn
