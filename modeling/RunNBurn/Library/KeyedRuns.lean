import RunNBurn.Library.RowScatter

/-!
# Runs of items with one key

A loop walks over a list in maximal runs of neighbouring items with the same key, one round
for each run.  Whatever the order of the items, the runs cut the list into pieces.
-/

namespace RunNBurn
namespace Library

variable {item key state : Type}

/-- The items from `start` to `stop` have one key. -/
structure Run (key : Type) where
  value : key
  start : Nat
  stop : Nat

def Run.part (r : Run key) (items : List item) : List item :=
  (items.drop r.start).take (r.stop - r.start)

structure IsRun (keyOf : item -> key) (items : List item) (r : Run key) : Prop where
  start_lt : r.start < r.stop
  stop_le : r.stop <= items.length
  key_eq : forall x, x ∈ r.part items -> keyOf x = r.value

namespace IsRun

variable {keyOf : item -> key} {items : List item} {r : Run key}

theorem length_part (h : IsRun keyOf items r) :
    (r.part items).length = r.stop - r.start := by
  have hstop := h.stop_le
  unfold Run.part
  rw [List.length_take, List.length_drop, Nat.min_eq_left (by omega)]

theorem slice_eq (h : IsRun keyOf items r) :
    slice items r.start r.stop = .ok (r.part items) :=
  slice_of_le (Nat.le_of_lt h.start_lt) h.stop_le

end IsRun

/-!
## The loop
-/

variable [DecidableEq key]

/-- Where the run from `start` ends, when its first item has the key `value`. -/
def runEnd (keyOf : item -> key) (items : List item) (value : key) (start : Nat) : Nat :=
  start + 1 + ((items.drop (start + 1)).takeWhile (fun x => keyOf x = value)).length

/-- `while start < items.len()`, with one round for each run. -/
def forRunsFrom (keyOf : item -> key) (items : List item)
    (round : key -> Nat -> Nat -> state -> Checked state) :
    Nat -> Nat -> state -> Checked state
  | 0, _, _ => abort "loop fuel exhausted"
  | fuel + 1, start, s =>
    match items[start]? with
    | none => .ok s
    | some head => do
        let stop := runEnd keyOf items (keyOf head) start
        let following <- round (keyOf head) start stop s
        forRunsFrom keyOf items round fuel stop following

def forRuns (keyOf : item -> key) (items : List item)
    (round : key -> Nat -> Nat -> state -> Checked state) (s : state) : Checked state :=
  forRunsFrom keyOf items round (items.length + 1) 0 s

/-!
## The runs
-/

def runsFrom (keyOf : item -> key) (items : List item) : Nat -> Nat -> List (Run key)
  | 0, _ => []
  | fuel + 1, start =>
    match items[start]? with
    | none => []
    | some head =>
      let stop := runEnd keyOf items (keyOf head) start
      { value := keyOf head, start := start, stop := stop } ::
        runsFrom keyOf items fuel stop

def runs (keyOf : item -> key) (items : List item) : List (Run key) :=
  runsFrom keyOf items (items.length + 1) 0

section RunEnd

variable {keyOf : item -> key} {items : List item} {value : key} {start : Nat}

theorem lt_runEnd (keyOf : item -> key) (items : List item) (value : key) (start : Nat) :
    start < runEnd keyOf items value start := by
  unfold runEnd
  omega

theorem runEnd_le (hstart : start < items.length) :
    runEnd keyOf items value start <= items.length := by
  have htake := (List.takeWhile_prefix (fun x => decide (keyOf x = value))
    (l := items.drop (start + 1))).length_le
  rw [List.length_drop] at htake
  unfold runEnd
  omega

theorem key_eq_of_mem_run {head x : item} (hhead : items[start]? = some head)
    (hx : x ∈ (items.drop start).take (runEnd keyOf items (keyOf head) start - start)) :
    keyOf x = keyOf head := by
  have hlt : start < items.length := (List.getElem?_eq_some_iff.mp hhead).1
  have hdrop : items.drop start = head :: items.drop (start + 1) := by
    rw [List.drop_eq_getElem_cons hlt, (List.getElem?_eq_some_iff.mp hhead).2]
  have hcount : runEnd keyOf items (keyOf head) start - start =
      ((items.drop (start + 1)).takeWhile (fun x => keyOf x = keyOf head)).length + 1 := by
    unfold runEnd
    omega
  rw [hdrop, hcount, List.take_succ_cons,
    ← List.prefix_iff_eq_take.mp (List.takeWhile_prefix _)] at hx
  rcases List.mem_cons.mp hx with hfirst | hrest
  · rw [hfirst]
  · exact of_decide_eq_true (List.all_eq_true.mp List.all_takeWhile x hrest)

end RunEnd

section Runs

variable {keyOf : item -> key} {items : List item} {fuel start : Nat}

theorem isRun_of_mem_runsFrom {r : Run key} (h : r ∈ runsFrom keyOf items fuel start) :
    IsRun keyOf items r := by
  induction fuel generalizing start with
  | zero => cases h
  | succ fuel ih =>
    unfold runsFrom at h
    cases hhead : items[start]? with
    | none =>
      rw [hhead] at h
      cases h
    | some head =>
      rw [hhead] at h
      rcases List.mem_cons.mp h with hfirst | hrest
      · rw [hfirst]
        constructor
        · exact lt_runEnd keyOf items (keyOf head) start
        · exact runEnd_le (List.getElem?_eq_some_iff.mp hhead).1
        · intro x hx
          exact key_eq_of_mem_run hhead hx
      · exact ih hrest

theorem isRun_of_mem_runs {r : Run key} (h : r ∈ runs keyOf items) :
    IsRun keyOf items r :=
  isRun_of_mem_runsFrom h

theorem flatMap_runsFrom (hfuel : items.length - start < fuel) :
    (runsFrom keyOf items fuel start).flatMap (fun r => r.part items) = items.drop start := by
  induction fuel generalizing start with
  | zero => cases hfuel
  | succ fuel ih =>
    unfold runsFrom
    cases hhead : items[start]? with
    | none =>
      rw [List.drop_eq_nil_of_le (List.getElem?_eq_none_iff.mp hhead)]
      rfl
    | some head =>
      have hlt : start < items.length := (List.getElem?_eq_some_iff.mp hhead).1
      have hgrow := lt_runEnd keyOf items (keyOf head) start
      have hsum : runEnd keyOf items (keyOf head) start =
          start + (runEnd keyOf items (keyOf head) start - start) :=
        (Nat.add_sub_cancel' (Nat.le_of_lt hgrow)).symm
      have hfewer : items.length - runEnd keyOf items (keyOf head) start < fuel := by
        omega
      have hrest := ih hfewer
      rw [hsum, ← List.drop_drop, ← hsum] at hrest
      dsimp only
      rw [List.flatMap_cons, hrest]
      exact List.take_append_drop _ _

theorem flatMap_runs (keyOf : item -> key) (items : List item) :
    (runs keyOf items).flatMap (fun r => r.part items) = items :=
  flatMap_runsFrom (Nat.lt_succ_self _)

theorem forRunsFrom_eq_foldlM (round : key -> Nat -> Nat -> state -> Checked state) {s : state}
    (hfuel : items.length - start < fuel) :
    forRunsFrom keyOf items round fuel start s =
      (runsFrom keyOf items fuel start).foldlM
        (fun s (r : Run key) => round r.value r.start r.stop s) s := by
  induction fuel generalizing start s with
  | zero => cases hfuel
  | succ fuel ih =>
    unfold forRunsFrom runsFrom
    cases hhead : items[start]? with
    | none => rfl
    | some head =>
      have hlt : start < items.length := (List.getElem?_eq_some_iff.mp hhead).1
      have hgrow := lt_runEnd keyOf items (keyOf head) start
      dsimp only
      rw [List.foldlM_cons]
      congr 1
      funext following
      exact ih (by omega)

theorem forRuns_eq_foldlM (round : key -> Nat -> Nat -> state -> Checked state) (s : state) :
    forRuns keyOf items round s =
      (runs keyOf items).foldlM (fun s (r : Run key) => round r.value r.start r.stop s) s :=
  forRunsFrom_eq_foldlM round (Nat.lt_succ_self _)

theorem forRuns_delivers {round : key -> Nat -> Nat -> state -> Checked state} {s : state}
    (inv : List (Run key) -> state -> Prop) (hstart : inv [] s)
    (hround : forall earlier r later s, runs keyOf items = earlier ++ r :: later ->
      IsRun keyOf items r -> inv earlier s ->
      Delivers (round r.value r.start r.stop s) (inv (earlier ++ [r]))) :
    Delivers (forRuns keyOf items round s) (inv (runs keyOf items)) := by
  rw [forRuns_eq_foldlM]
  apply foldlM_delivers inv hstart
  intro earlier r later s hsplit hs
  have hmem : r ∈ runs keyOf items := by
    rw [hsplit]
    exact List.mem_append_right earlier List.mem_cons_self
  exact hround earlier r later s hsplit (isRun_of_mem_runs hmem) hs

end Runs

end Library
end RunNBurn
