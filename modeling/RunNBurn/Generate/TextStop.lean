import RunNBurn.Library.Occurrence
import RunNBurn.Library.Text

/-!
# Stop sequences in the text

Decoded text goes through a filter that ends the text in front of the first stop sequence.
The filter retains what might become a stop sequence with the next piece.
-/

namespace RunNBurn
namespace Generate

open Library

structure TextStopFilter where
  stops : List Text
  pending : Text
  matched : Bool
deriving DecidableEq, Repr

namespace TextStopFilter

variable {sigma : Type}

def new (stops : List Text) : TextStopFilter where
  stops := stops
  pending := []
  matched := false

/-- The suffixes of the pending text that begin a stop sequence, the longest first. -/
def heldBack (stops : List Text) (pending : Text) : List Text :=
  pending.tails.filter fun suffix =>
    !suffix.isEmpty && stops.any fun stop => suffix.isPrefixOf stop

/-- `emit` takes the state of the receiver and answers whether the receiver goes on. -/
def push (filter : TextStopFilter) (piece : Text) (emit : sigma -> Text -> sigma × Bool)
    (receiver : sigma) : TextStopFilter × sigma × Bool :=
  if filter.stops = [] then
    (filter, emit receiver piece)
  else
    let pending := filter.pending ++ piece
    match (filter.stops.filterMap fun stop => findWord stop pending).min? with
    | some index =>
      ({ filter with pending := [], matched := true },
        if index ≠ 0 then (emit receiver (pending.take index)).1 else receiver, false)
    | none =>
      let keep := ((heldBack filter.stops pending).map List.length).max?.getD 0
      let emitLen := pending.length - keep
      if emitLen = 0 then
        ({ filter with pending := pending }, receiver, true)
      else
        let answer := emit receiver (pending.take emitLen)
        if answer.2 then
          ({ filter with pending := pending.drop emitLen }, answer.1, true)
        else
          ({ filter with pending := pending }, answer.1, false)

def finish (filter : TextStopFilter) (emit : sigma -> Text -> sigma × Bool)
    (receiver : sigma) : TextStopFilter × sigma × Bool :=
  if filter.pending = [] then
    (filter, receiver, true)
  else
    ({ filter with pending := [] }, emit receiver filter.pending)

/-- The pieces of a text up to the first one after which the filter does not go on. -/
def pushAll (emit : sigma -> Text -> sigma × Bool) :
    TextStopFilter -> sigma -> List Text -> TextStopFilter × sigma × Bool
  | filter, receiver, [] => (filter, receiver, true)
  | filter, receiver, piece :: pieces =>
    let answer := filter.push piece emit receiver
    if answer.2.2 then pushAll emit answer.1 answer.2.1 pieces else answer

/-!
# A text without a stop sequence
-/

variable {emit : sigma -> Text -> sigma × Bool} {receiver : sigma} {filter : TextStopFilter}

theorem min?_findWord_eq_none {stops : List Text} {pending : Text}
    (hfree : forall stop, stop ∈ stops -> ¬ stop <:+: pending) :
    (stops.filterMap fun stop => findWord stop pending).min? = none := by
  rw [List.min?_eq_none_iff, List.filterMap_eq_nil_iff]
  intro stop hstop
  have hnone := splitAtWord_eq_none.mpr (hfree stop hstop)
  unfold splitAtWord at hnone
  exact Option.map_eq_none_iff.mp hnone

/-- What a receiver that never stops is given of a text without a stop sequence: nothing is
lost, and the part that is not given yet is pending. -/
structure Passed (emit : sigma -> Text -> sigma × Bool) (filter : TextStopFilter)
    (receiver : sigma) (text : Text) (answer : TextStopFilter × sigma × Bool)
    (texts : List Text) : Prop where
  goes_on : answer.2.2 = true
  given : answer.2.1 = texts.foldl (fun receiver text => (emit receiver text).1) receiver
  whole : texts.flatten ++ answer.1.pending = filter.pending ++ text
  stops : answer.1.stops = filter.stops
  matched : answer.1.matched = filter.matched
  idle : answer.1.stops = [] -> answer.1.pending = []

section

variable (receiver : sigma) (hgoes : forall receiver text, (emit receiver text).2 = true)
include hgoes

theorem push_passed (hidle : filter.stops = [] -> filter.pending = []) {piece : Text}
    (hfree : forall stop, stop ∈ filter.stops -> ¬ stop <:+: filter.pending ++ piece) :
    exists texts, Passed emit filter receiver piece (filter.push piece emit receiver) texts := by
  by_cases hstops : filter.stops = []
  · have hpush : filter.push piece emit receiver = (filter, emit receiver piece) :=
      if_pos hstops
    refine ⟨[piece], ?_⟩
    rw [hpush]
    exact {
      goes_on := hgoes receiver piece
      given := rfl
      whole := by
        show [piece].flatten ++ filter.pending = _
        rw [hidle hstops]
        simp
      stops := rfl
      matched := rfl
      idle := hidle }
  · unfold push
    rw [if_neg hstops]
    dsimp only
    rw [min?_findWord_eq_none hfree]
    dsimp only
    split
    · exact ⟨[], {
        goes_on := rfl
        given := rfl
        whole := rfl
        stops := rfl
        matched := rfl
        idle := fun h => absurd h hstops }⟩
    · rw [if_pos (hgoes _ _)]
      exact ⟨[_], {
        goes_on := rfl
        given := rfl
        whole := by
          rw [List.flatten_singleton, List.take_append_drop]
        stops := rfl
        matched := rfl
        idle := fun h => absurd h hstops }⟩

theorem pushAll_passed (hidle : filter.stops = [] -> filter.pending = []) (pieces : List Text)
    (hfree : forall stop, stop ∈ filter.stops ->
      ¬ stop <:+: filter.pending ++ pieces.flatten) :
    exists texts, Passed emit filter receiver pieces.flatten
      (pushAll emit filter receiver pieces) texts := by
  induction pieces generalizing filter receiver with
  | nil =>
    refine ⟨[], ?_⟩
    exact {
      goes_on := rfl
      given := rfl
      whole := (List.append_nil _).symm
      stops := rfl
      matched := rfl
      idle := hidle }
  | cons piece pieces ih =>
    have hfirst : forall stop, stop ∈ filter.stops -> ¬ stop <:+: filter.pending ++ piece := by
      intro stop hstop hinside
      apply hfree stop hstop
      rw [List.flatten_cons, ← List.append_assoc]
      exact hinside.trans (List.prefix_append _ _).isInfix
    rcases push_passed receiver hgoes hidle hfirst with ⟨texts, hpassed⟩
    have hrest : forall stop, stop ∈ (filter.push piece emit receiver).1.stops ->
        ¬ stop <:+: (filter.push piece emit receiver).1.pending ++ pieces.flatten := by
      intro stop hstop hinside
      rw [hpassed.stops] at hstop
      apply hfree stop hstop
      rw [List.flatten_cons, ← List.append_assoc, ← hpassed.whole, List.append_assoc]
      exact hinside.trans (List.suffix_append _ _).isInfix
    rcases ih (filter.push piece emit receiver).2.1 hpassed.idle hrest with ⟨more, hmore⟩
    have hrun : pushAll emit filter receiver (piece :: pieces) =
        pushAll emit (filter.push piece emit receiver).1
          (filter.push piece emit receiver).2.1 pieces := if_pos hpassed.goes_on
    refine ⟨texts ++ more, ?_⟩
    rw [hrun]
    exact {
      goes_on := hmore.goes_on
      given := by
        rw [hmore.given, hpassed.given, List.foldl_append]
      whole := by
        rw [List.flatten_append, List.append_assoc, hmore.whole, ← List.append_assoc,
          hpassed.whole, List.flatten_cons, List.append_assoc]
      stops := hmore.stops.trans hpassed.stops
      matched := hmore.matched.trans hpassed.matched
      idle := hmore.idle }

theorem pushAll_finish {stops : List Text} {pieces : List Text}
    (hfree : forall stop, stop ∈ stops -> ¬ stop <:+: pieces.flatten) :
    exists texts last : List Text,
      (pushAll emit (new stops) receiver pieces).1.matched = false ∧
      (pushAll emit (new stops) receiver pieces).2.1 =
        texts.foldl (fun receiver text => (emit receiver text).1) receiver ∧
      ((pushAll emit (new stops) receiver pieces).1.finish emit
        (pushAll emit (new stops) receiver pieces).2.1).2.1 =
          (texts ++ last).foldl (fun receiver text => (emit receiver text).1) receiver ∧
      (texts ++ last).flatten = pieces.flatten := by
  have hpieces : forall stop, stop ∈ (new stops).stops ->
      ¬ stop <:+: (new stops).pending ++ pieces.flatten := hfree
  rcases pushAll_passed receiver hgoes (fun _ => rfl) pieces hpieces with ⟨texts, hpassed⟩
  have hwhole := hpassed.whole
  generalize hanswer : pushAll emit (new stops) receiver pieces = answer at hpassed hwhole ⊢
  by_cases hpending : answer.1.pending = []
  · refine ⟨texts, [], hpassed.matched, hpassed.given, ?_, ?_⟩
    · unfold finish
      rw [if_pos hpending, List.append_nil]
      exact hpassed.given
    · rw [hpending, List.append_nil] at hwhole
      rw [List.append_nil]
      exact hwhole
  · refine ⟨texts, [answer.1.pending], hpassed.matched, hpassed.given, ?_, ?_⟩
    · unfold finish
      rw [if_neg hpending, List.foldl_append, ← hpassed.given]
      rfl
    · rw [List.flatten_append, List.flatten_singleton]
      exact hwhole

end

end TextStopFilter

end Generate
end RunNBurn
