import RunNBurn.Generate.TextStop

/-!
# Exactness of the stop filter

Across every cut of a text the filter gives the text in front of the first stop
sequence of what it has seen when one is complete.  That is the first of the whole
text exactly where no other stop sequence has begun before it.
-/

namespace RunNBurn
namespace Generate

open Library

namespace TextStopFilter

/-!
# What is given
-/

def collect (given text : Text) : Text × Bool :=
  (given ++ text, true)

/-- The concatenation of what `push` and `finish` emit. -/
def emitted (stops : List Text) (pieces : List Text) : Text :=
  let answer := pushAll collect (new stops) [] pieces
  (answer.1.finish collect answer.2.1).2.1

def beforeStop (stops : List Text) (text : Text) : Text :=
  text.take (nextWord stops text)

/-- The text of the pieces up to the first one that completes a stop sequence. -/
def seen (stops : List Text) : Text -> List Text -> Text
  | text, [] => text
  | text, piece :: pieces =>
    if stops.any (fun stop => decide (stop <:+: text ++ piece)) then text ++ piece
    else seen stops (text ++ piece) pieces

variable {stops : List Text}

theorem nextWord_of_free {text : Text} (h : forall stop, stop ∈ stops -> ¬ stop <:+: text) :
    nextWord stops text = text.length := by
  unfold nextWord
  rw [min?_findWord_eq_none h]
  rfl

theorem nextWord_of_infix {text stop : Text} (hstop : stop ∈ stops) (h : stop <:+: text) :
    exists word, word ∈ stops ∧ word <+: text.drop (nextWord stops text) := by
  rcases h with ⟨front, back, htext⟩
  have hplace : stop <+: text.drop front.length := by
    rw [← htext, List.append_assoc, List.drop_left]
    exact List.prefix_append stop back
  have hle : front.length <= text.length := by
    rw [← htext]
    simp
  rcases (nextWord_spec stops text).2 with hend | hword
  · have hbound := nextWord_le_of_isPrefix hstop hplace hle
    rw [hend] at hbound
    have heq : front.length = text.length := Nat.le_antisymm hle hbound
    rw [hend, ← heq]
    exact ⟨stop, hstop, hplace⟩
  · exact hword

theorem min?_findWord_eq_some {text stop : Text} (hstop : stop ∈ stops) (h : stop <:+: text) :
    (stops.filterMap fun stop => findWord stop text).min? = some (nextWord stops text) := by
  cases hmin : (stops.filterMap fun stop => findWord stop text).min? with
  | none =>
    have hnone := List.filterMap_eq_nil_iff.mp (List.min?_eq_none_iff.mp hmin) stop hstop
    rcases h with ⟨front, back, htext⟩
    have hplace : stop <+: text.drop front.length := by
      rw [← htext, List.append_assoc, List.drop_left]
      exact List.prefix_append stop back
    have hle : front.length <= text.length := by
      rw [← htext]
      simp
    rcases findWord_le hplace hle with ⟨i, hi, _⟩
    rw [hnone] at hi
    cases hi
  | some index =>
    unfold nextWord
    rw [hmin]
    rfl

/-!
# What is retained
-/

/-- What has been given and what is pending of a text in which no stop sequence is
complete: the pending part holds every suffix that begins one. -/
structure Retains (stops : List Text) (text given pending : Text) : Prop where
  whole : given ++ pending = text
  free : forall stop, stop ∈ stops -> ¬ stop <:+: text
  retained : forall stop suffix, stop ∈ stops -> suffix <:+ text -> suffix <+: stop ->
    suffix.length <= pending.length

def keepLength (stops : List Text) (pending : Text) : Nat :=
  ((heldBack stops pending).map List.length).max?.getD 0

theorem length_le_keepLength {pending stop suffix : Text} (hstop : stop ∈ stops)
    (hsuffix : suffix <:+ pending) (hstarts : suffix <+: stop) :
    suffix.length <= keepLength stops pending := by
  by_cases hempty : suffix = []
  · rw [hempty]
    exact Nat.zero_le _
  · have hheld : suffix ∈ heldBack stops pending := by
      unfold heldBack
      apply List.mem_filter.mpr
      constructor
      · exact (List.mem_tails _ _).mpr hsuffix
      · simp only [Bool.and_eq_true, Bool.not_eq_true', List.isEmpty_eq_false_iff, List.any_eq_true,
          List.isPrefixOf_iff_prefix]
        exact ⟨hempty, stop, hstop, hstarts⟩
    have hlength := List.mem_map_of_mem (f := List.length) hheld
    unfold keepLength
    cases hmax : ((heldBack stops pending).map List.length).max? with
    | none =>
      rw [List.max?_eq_none_iff.mp hmax] at hlength
      cases hlength
    | some most => exact (List.max?_eq_some_iff.mp hmax).2 _ hlength

theorem keepLength_le (stops : List Text) (pending : Text) :
    keepLength stops pending <= pending.length := by
  unfold keepLength
  cases hmax : ((heldBack stops pending).map List.length).max? with
  | none => exact Nat.zero_le _
  | some most =>
    have hmem := (List.max?_eq_some_iff.mp hmax).1
    rcases List.mem_map.mp hmem with ⟨suffix, hsuffix, hlength⟩
    rw [← hlength]
    exact ((List.mem_tails _ _).mp (List.mem_filter.mp hsuffix).1).length_le

theorem retains_nil (hstops : forall stop, stop ∈ stops -> stop ≠ []) :
    Retains stops [] [] [] where
  whole := rfl
  free stop hstop hinside := hstops stop hstop (List.infix_nil.mp hinside)
  retained _ suffix _ hsuffix _ := by
    rw [List.suffix_nil.mp hsuffix]

namespace Retains

variable {stops : List Text} {text given pending piece : Text}

section

variable (h : Retains stops text given pending)
include h

theorem length_le {stop suffix : Text}
    (hstop : stop ∈ stops) (hsuffix : suffix <:+ text ++ piece) (hstarts : suffix <+: stop) :
    suffix.length <= (pending ++ piece).length := by
  rw [List.length_append]
  rcases List.suffix_or_suffix_of_suffix hsuffix (List.suffix_append text piece) with
    hpiece | hback
  · exact Nat.le_trans hpiece.length_le (Nat.le_add_left _ _)
  · rcases hback with ⟨front, rfl⟩
    have hfront := List.suffix_append_self_iff.mp hsuffix
    have hbound := h.retained stop front hstop hfront
      ((List.prefix_append front piece).trans hstarts)
    rw [List.length_append]
    exact Nat.add_le_add_right hbound _

theorem length_given_le {stop : Text} (hstop : stop ∈ stops) (hinside : stop <:+: text ++ piece) :
    given.length <= nextWord stops (text ++ piece) := by
  rcases nextWord_of_infix hstop hinside with ⟨word, hword, hplace⟩
  by_contra hbefore
  have hlt := Nat.lt_of_not_le hbefore
  have hwhole := congrArg List.length h.whole
  rw [List.length_append] at hwhole
  have hle : nextWord stops (text ++ piece) <= text.length := by omega
  rw [List.drop_append_of_le_length hle] at hplace
  have hbegins : text.drop (nextWord stops (text ++ piece)) <+: word := by
    apply List.prefix_of_prefix_length_le (List.prefix_append _ piece) hplace
    by_contra hshort
    apply h.free word hword
    have hcomplete := List.prefix_of_prefix_length_le hplace (List.prefix_append _ piece)
      (Nat.le_of_lt (Nat.lt_of_not_le hshort))
    exact hcomplete.isInfix.trans (List.drop_suffix _ _).isInfix
  have hbound := h.retained word _ hword (List.drop_suffix _ _) hbegins
  rw [List.length_drop] at hbound
  omega

theorem whole_append (piece : Text) :
    text ++ piece = given ++ (pending ++ piece) := by
  rw [← h.whole, List.append_assoc]

theorem nextWord_pending {stop : Text} (hstop : stop ∈ stops) (hinside : stop <:+: text ++ piece) :
    given.length + nextWord stops (pending ++ piece) = nextWord stops (text ++ piece) ∧
      exists word, word ∈ stops ∧ word <:+: pending ++ piece := by
  rcases nextWord_of_infix hstop hinside with ⟨word, hword, hplace⟩
  have hgiven := h.length_given_le hstop hinside
  rcases Nat.exists_eq_add_of_le hgiven with ⟨j, hj⟩
  have hend := (nextWord_spec stops (text ++ piece)).1
  rw [hj] at hplace hend
  rw [h.whole_append] at hplace hend
  rw [← List.drop_drop, List.drop_left] at hplace
  rw [List.length_append] at hend
  have hle : j <= (pending ++ piece).length := Nat.le_of_add_le_add_left hend
  have hearlier := nextWord_le_of_isPrefix hword hplace hle
  have hlater : nextWord stops (text ++ piece) <=
      given.length + nextWord stops (pending ++ piece) := by
    have hspec := nextWord_spec stops (pending ++ piece)
    rcases hspec.2 with hlast | ⟨other, hother, hplaced⟩
    · have hbound := (nextWord_spec stops (text ++ piece)).1
      rw [h.whole_append, List.length_append] at hbound
      rw [hlast, h.whole_append]
      exact hbound
    · apply nextWord_le_of_isPrefix hother
      · rw [h.whole_append, ← List.drop_drop, List.drop_left]
        exact hplaced
      · rw [h.whole_append, List.length_append]
        exact Nat.add_le_add_left hspec.1 _
  constructor
  · apply Nat.le_antisymm
    · rw [hj]
      exact Nat.add_le_add_left hearlier _
    · exact hlater
  · exact ⟨word, hword, hplace.isInfix.trans (List.drop_suffix _ _).isInfix⟩

theorem push_complete (hstops : stops ≠ [])
    {stop : Text} (hstop : stop ∈ stops) (hinside : stop <:+: text ++ piece) (matched : Bool) :
    push ⟨stops, pending, matched⟩ piece collect given =
      (⟨stops, [], true⟩, beforeStop stops (text ++ piece), false) := by
  rcases h.nextWord_pending hstop hinside with ⟨hplace, word, hword, hfound⟩
  unfold push
  rw [if_neg hstops]
  dsimp only
  rw [min?_findWord_eq_some hword hfound]
  dsimp only
  have hgiven : (if nextWord stops (pending ++ piece) ≠ 0 then
      (collect given ((pending ++ piece).take (nextWord stops (pending ++ piece)))).1
      else given) = beforeStop stops (text ++ piece) := by
    unfold beforeStop
    rw [← hplace, h.whole_append, List.take_length_add_append]
    split
    · rfl
    · rename_i hzero
      rw [not_not.mp hzero, List.take_zero, List.append_nil]
  rw [hgiven]

theorem push_incomplete (hstops : stops ≠ [])
    (hfree : forall stop, stop ∈ stops -> ¬ stop <:+: text ++ piece) (matched : Bool) :
    exists given' pending',
      push ⟨stops, pending, matched⟩ piece collect given =
        (⟨stops, pending', matched⟩, given', true) ∧
      Retains stops (text ++ piece) given' pending' := by
  have hpending : forall stop, stop ∈ stops -> ¬ stop <:+: pending ++ piece := by
    intro stop hstop hinside
    apply hfree stop hstop
    rw [h.whole_append]
    exact hinside.trans (List.suffix_append _ _).isInfix
  have hkeep := keepLength_le stops (pending ++ piece)
  have hretained : forall stop suffix, stop ∈ stops -> suffix <:+ text ++ piece ->
      suffix <+: stop -> suffix.length <= keepLength stops (pending ++ piece) := by
    intro stop suffix hstop hsuffix hstarts
    have hlength := h.length_le hstop hsuffix hstarts
    apply length_le_keepLength hstop _ hstarts
    rw [h.whole_append] at hsuffix
    exact List.suffix_of_suffix_length_le hsuffix (List.suffix_append _ _) hlength
  unfold push
  rw [if_neg hstops]
  dsimp only
  rw [min?_findWord_eq_none hpending]
  dsimp only
  show exists given' pending',
    (if (pending ++ piece).length - keepLength stops (pending ++ piece) = 0
    then _ else _) = _ ∧ _
  split
  · rename_i hzero
    refine ⟨given, pending ++ piece, rfl, ?_⟩
    constructor
    · exact (h.whole_append piece).symm
    · exact hfree
    · intro stop suffix hstop hsuffix hstarts
      exact Nat.le_trans (hretained stop suffix hstop hsuffix hstarts) hkeep
  · refine ⟨_, _, rfl, ?_⟩
    constructor
    · rw [h.whole_append]
      show given ++ (pending ++ piece).take _ ++ (pending ++ piece).drop _ = _
      rw [List.append_assoc, List.take_append_drop]
    · exact hfree
    · intro stop suffix hstop hsuffix hstarts
      rw [List.length_drop]
      show suffix.length <= (pending ++ piece).length -
        ((pending ++ piece).length - keepLength stops (pending ++ piece))
      rw [Nat.sub_sub_self hkeep]
      exact hretained stop suffix hstop hsuffix hstarts

end

end Retains

/-!
# Whole runs
-/

section Run

variable {stops : List Text}

theorem any_infix_iff {text : Text} :
    stops.any (fun stop => decide (stop <:+: text)) = true ↔
      exists stop, stop ∈ stops ∧ stop <:+: text := by
  rw [List.any_eq_true]
  constructor
  · rintro ⟨stop, hstop, hinside⟩
    exact ⟨stop, hstop, of_decide_eq_true hinside⟩
  · rintro ⟨stop, hstop, hinside⟩
    exact ⟨stop, hstop, decide_eq_true hinside⟩

theorem beforeStop_of_free {text : Text} (h : forall stop, stop ∈ stops -> ¬ stop <:+: text) :
    beforeStop stops text = text := by
  unfold beforeStop
  rw [nextWord_of_free h, List.take_length]

theorem pushAll_retains {text given pending : Text} (pieces : List Text)
    (hstops : stops ≠ []) (h : Retains stops text given pending) (matched : Bool) :
    let answer := pushAll collect ⟨stops, pending, matched⟩ given pieces
    (answer.1.finish collect answer.2.1).2.1 = beforeStop stops (seen stops text pieces) := by
  induction pieces generalizing text given pending with
  | nil =>
    show (finish ⟨stops, pending, matched⟩ collect given).2.1 = beforeStop stops text
    rw [beforeStop_of_free h.free, ← h.whole]
    unfold finish
    split
    · rename_i hpending
      have hpending : pending = [] := hpending
      rw [hpending, List.append_nil]
    · rfl
  | cons piece pieces ih =>
    by_cases hcomplete : exists stop, stop ∈ stops ∧ stop <:+: text ++ piece
    · rcases hcomplete with ⟨stop, hstop, hinside⟩
      have hseen : seen stops text (piece :: pieces) = text ++ piece :=
        if_pos (any_infix_iff.mpr ⟨stop, hstop, hinside⟩)
      have hrun : pushAll collect ⟨stops, pending, matched⟩ given (piece :: pieces) =
          (⟨stops, [], true⟩, beforeStop stops (text ++ piece), false) := by
        unfold pushAll
        rw [h.push_complete hstops hstop hinside]
        rfl
      dsimp only
      rw [hseen, hrun]
      rfl
    · have hfree : forall stop, stop ∈ stops -> ¬ stop <:+: text ++ piece :=
        fun stop hstop hinside => hcomplete ⟨stop, hstop, hinside⟩
      have hseen : seen stops text (piece :: pieces) = seen stops (text ++ piece) pieces :=
        if_neg (fun hany => hcomplete (any_infix_iff.mp hany))
      rcases h.push_incomplete hstops hfree matched with ⟨given', pending', hpush, hretains⟩
      have hrun : pushAll collect ⟨stops, pending, matched⟩ given (piece :: pieces) =
          pushAll collect ⟨stops, pending', matched⟩ given' pieces := by
        show (if _ then _ else _) = _
        rw [hpush]
        rfl
      dsimp only
      rw [hseen, hrun]
      exact ih hretains

theorem emitted_idle (pieces : List Text) : emitted [] pieces = pieces.flatten := by
  have hrun : forall given : Text, pushAll collect (new []) given pieces =
      (new [], given ++ pieces.flatten, true) := by
    induction pieces with
    | nil =>
      intro given
      rw [List.flatten_nil, List.append_nil]
      rfl
    | cons piece pieces ih =>
      intro given
      rw [List.flatten_cons, ← List.append_assoc]
      exact ih (given ++ piece)
  unfold emitted
  rw [hrun []]
  rfl

theorem emitted_eq (hstops : forall stop, stop ∈ stops -> stop ≠ []) (pieces : List Text) :
    emitted stops pieces = beforeStop stops (seen stops [] pieces) := by
  by_cases hnone : stops = []
  · subst hnone
    rw [emitted_idle, beforeStop_of_free (fun stop hstop => absurd hstop (List.not_mem_nil))]
    have hseen : forall text, seen [] text pieces = text ++ pieces.flatten := by
      induction pieces with
      | nil =>
        intro text
        rw [List.flatten_nil, List.append_nil]
        rfl
      | cons piece pieces ih =>
        intro text
        rw [List.flatten_cons, ← List.append_assoc]
        exact ih (text ++ piece)
    rw [hseen, List.nil_append]
  · exact pushAll_retains pieces hnone (retains_nil hstops) false

theorem seen_spec (stops : List Text) (text : Text) (pieces : List Text) :
    (seen stops text pieces = text ++ pieces.flatten ∨
      exists stop, stop ∈ stops ∧ stop <:+: seen stops text pieces) ∧
      exists front back, pieces = front ++ back ∧
        seen stops text pieces = text ++ front.flatten := by
  induction pieces generalizing text with
  | nil =>
    constructor
    · left
      simp [seen]
    · exact ⟨[], [], rfl, by simp [seen]⟩
  | cons piece pieces ih =>
    unfold seen
    split
    · rename_i hany
      constructor
      · exact Or.inr (any_infix_iff.mp hany)
      · exact ⟨[piece], pieces, rfl, by simp⟩
    · rcases ih (text ++ piece) with ⟨hends, front, back, hpieces, hseen⟩
      constructor
      · rw [List.flatten_cons, ← List.append_assoc]
        exact hends
      · refine ⟨piece :: front, back, ?_, ?_⟩
        · rw [hpieces]
          rfl
        · rw [hseen, List.flatten_cons, List.append_assoc]

theorem seen_prefix {text : Text} (front back : List Text)
    (hfree : forall stop, stop ∈ stops -> ¬ stop <:+: text)
    {stop : Text} (hstop : stop ∈ stops) (hinside : stop <:+: text ++ front.flatten) :
    seen stops text (front ++ back) <+: text ++ front.flatten := by
  induction front generalizing text with
  | nil =>
    rw [List.flatten_nil, List.append_nil] at hinside
    exact absurd hinside (hfree stop hstop)
  | cons piece front ih =>
    rw [List.flatten_cons, ← List.append_assoc] at hinside ⊢
    rw [List.cons_append]
    unfold seen
    split
    · exact List.prefix_append _ _
    · rename_i hnone
      apply ih _ hinside
      intro other hother hfound
      exact hnone (any_infix_iff.mpr ⟨other, hother, hfound⟩)

end Run

/-!
# Where the first one complete is the first one
-/

/-- Some first pieces hold a stop sequence, and one that begins before all that they
hold is only complete later. -/
def CutsInside (stops : List Text) (pieces : List Text) : Prop :=
  exists (front back : List Text) (outer inner : Text) (place : Nat),
    pieces = front ++ back ∧
    inner ∈ stops ∧ inner <:+: front.flatten ∧
    outer ∈ stops ∧ outer <+: pieces.flatten.drop place ∧
    forall stop earlier, stop ∈ stops -> earlier <= place ->
      ¬ stop <+: front.flatten.drop earlier

/-- The text in front of the earliest stop sequence is given, and nothing of any
occurrence of one. -/
structure GivesBeforeStop (stops : List Text) (pieces : List Text) : Prop where
  emitted_eq : emitted stops pieces = beforeStop stops pieces.flatten
  nothing_of_stop : forall stop place, stop ∈ stops -> stop <+: pieces.flatten.drop place ->
    (emitted stops pieces).length <= place

/-- One stop sequence strictly contains another one, and no stop sequence is
complete in it before that. -/
def Nested (stops : List Text) : Prop :=
  exists outer inner front back : Text,
    outer ∈ stops ∧ inner ∈ stops ∧ outer = front ++ inner ++ back ∧
    front ≠ [] ∧ back ≠ [] ∧
    forall stop, stop ∈ stops -> ¬ stop <+: front ++ inner

theorem le_length_of_drop {stop text : Text} {place : Nat} (hne : stop ≠ [])
    (h : stop <+: text.drop place) : place <= text.length := by
  by_contra hpast
  rw [List.drop_eq_nil_of_le (Nat.le_of_lt (Nat.lt_of_not_le hpast))] at h
  exact hne (List.prefix_nil.mp h)

section Exactness

variable {stops : List Text} (hstops : forall stop, stop ∈ stops -> stop ≠ [])

include hstops

theorem not_infix_nil {stop : Text} (hstop : stop ∈ stops) : ¬ stop <:+: [] :=
  fun hinside => hstops stop hstop (List.infix_nil.mp hinside)

variable {pieces : List Text}

theorem nothing_of_beforeStop (h : emitted stops pieces = beforeStop stops pieces.flatten) :
    GivesBeforeStop stops pieces where
  emitted_eq := h
  nothing_of_stop stop place hstop hplace := by
    have hle := nextWord_le_of_isPrefix hstop hplace
      (le_length_of_drop (hstops stop hstop) hplace)
    rw [h]
    unfold beforeStop
    rw [List.length_take]
    exact Nat.le_trans (Nat.min_le_left _ _) hle

theorem not_cutsInside_of_gives (h : GivesBeforeStop stops pieces) :
    ¬ CutsInside stops pieces := by
  rintro ⟨front, back, outer, inner, place, hpieces, hinner, hinside, houter, hplace, hnone⟩
  have hseen : seen stops [] pieces <+: front.flatten := by
    rw [hpieces]
    exact seen_prefix front back (fun stop hstop => not_infix_nil hstops hstop) hinner hinside
  have hcomplete : exists stop, stop ∈ stops ∧ stop <:+: seen stops [] pieces := by
    rcases (seen_spec stops [] pieces).1 with hwhole | hfound
    · rw [List.nil_append] at hwhole
      rw [hwhole] at hseen
      exact absurd (hplace.trans (hseen.drop place)) (hnone outer place houter (Nat.le_refl _))
    · exact hfound
  rcases hcomplete with ⟨stop, hstop, hfound⟩
  rcases nextWord_of_infix hstop hfound with ⟨word, hword, hfirst⟩
  have hlater : place < nextWord stops (seen stops [] pieces) := by
    by_contra hearlier
    exact hnone word _ hword (Nat.le_of_not_lt hearlier) (hfirst.trans (hseen.drop _))
  have hgiven := h.nothing_of_stop outer place houter hplace
  rw [emitted_eq hstops] at hgiven
  unfold beforeStop at hgiven
  rw [List.length_take, Nat.min_eq_left (nextWord_spec stops _).1] at hgiven
  exact Nat.not_lt_of_le hgiven hlater

theorem gives_of_not_cutsInside (h : ¬ CutsInside stops pieces) :
    GivesBeforeStop stops pieces := by
  apply nothing_of_beforeStop hstops
  rw [emitted_eq hstops]
  rcases seen_spec stops [] pieces with ⟨hends, front, back, hpieces, hseen⟩
  rw [List.nil_append] at hends hseen
  rcases hends with hwhole | ⟨stop, hstop, hfound⟩
  · rw [hwhole]
  · rcases nextWord_of_infix hstop hfound with ⟨word, hword, hfirst⟩
    have hstarts : seen stops [] pieces <+: pieces.flatten := by
      rw [hseen, hpieces, List.flatten_append]
      exact List.prefix_append _ _
    have hle : nextWord stops pieces.flatten <= nextWord stops (seen stops [] pieces) := by
      have hplace := hfirst.trans (hstarts.drop _)
      exact nextWord_le_of_isPrefix hword hplace (le_length_of_drop (hstops word hword) hplace)
    have heq : nextWord stops pieces.flatten = nextWord stops (seen stops [] pieces) := by
      apply Nat.le_antisymm hle
      by_contra hlater
      rcases nextWord_of_infix hstop (hfound.trans hstarts.isInfix) with
        ⟨outer, houter, hplace⟩
      apply h
      refine ⟨front, back, outer, stop, _, hpieces, hstop, ?_, houter, hplace, ?_⟩
      · rw [← hseen]
        exact hfound
      · intro other earlier hother hearlier hplaced
        rw [← hseen] at hplaced
        have hbound := nextWord_le_of_isPrefix hother hplaced
          (le_length_of_drop (hstops other hother) hplaced)
        exact hlater (Nat.le_trans hbound hearlier)
    unfold beforeStop
    rw [heq]
    rcases hstarts with ⟨rest, hrest⟩
    rw [← hrest]
    exact (List.take_append_of_le_length (nextWord_spec stops _).1).symm

theorem nested_of_cutsInside (h : CutsInside stops pieces) :
    Nested stops := by
  rcases h with ⟨front, back, outer, inner, place, hpieces, hinner, hinside, houter, hplace, hnone⟩
  rcases nextWord_of_infix hinner hinside with ⟨word, hword, hfirst⟩
  have hlater : place < nextWord stops front.flatten := by
    by_contra hearlier
    exact hnone word _ hword (Nat.le_of_not_lt hearlier) hfirst
  have hplaced := le_length_of_drop (hstops word hword) hfirst
  rw [hpieces, List.flatten_append, List.drop_append_of_le_length
    (Nat.le_trans (Nat.le_of_lt hlater) hplaced)] at hplace
  have hbegun : front.flatten.drop place <+: outer := by
    rcases List.prefix_or_prefix_of_prefix hplace (List.prefix_append _ back.flatten) with
      hcomplete | hbegun
    · exact absurd hcomplete (hnone outer place houter (Nat.le_refl _))
    · exact hbegun
  rcases hbegun with ⟨missing, hmissing⟩
  rcases Nat.exists_eq_add_of_lt hlater with ⟨j, hj⟩
  rcases hfirst with ⟨rest, hrest⟩
  have hsplit : front.flatten.drop place =
      (front.flatten.drop place).take (j + 1) ++ (word ++ rest) := by
    rw [hrest, hj, Nat.add_assoc, ← List.drop_drop, List.take_append_drop]
  refine ⟨outer, word, (front.flatten.drop place).take (j + 1), rest ++ missing, houter, hword,
    ?_, ?_, ?_, ?_⟩
  · rw [← hmissing]
    conv =>
      lhs
      rw [hsplit]
    simp only [List.append_assoc]
  · intro hempty
    rw [List.take_eq_nil_iff] at hempty
    rcases hempty with hzero | hnil
    · cases hzero
    · rw [List.drop_eq_nil_iff] at hnil
      omega
  · intro hempty
    have hnothing := (List.append_eq_nil_iff.mp hempty).2
    rw [hnothing, List.append_nil] at hmissing
    apply hnone outer place houter (Nat.le_refl _)
    rw [hmissing]
  · intro other hother hbegins
    apply hnone other place hother (Nat.le_refl _)
    rw [hsplit, ← List.append_assoc]
    exact hbegins.trans (List.prefix_append _ rest)

omit hstops in
theorem cutsInside_of_nested (h : Nested stops) : exists pieces, CutsInside stops pieces := by
  rcases h with ⟨outer, inner, front, back, houter, hinner, hsplit, hfront, _, hnone⟩
  refine ⟨[front ++ inner, back], [front ++ inner], [back], outer, inner, 0, rfl, hinner, ?_,
    houter, ?_, ?_⟩
  · rw [List.flatten_singleton]
    exact (List.suffix_append front inner).isInfix
  · rw [hsplit]
    simp
  · intro stop earlier hstop hearlier hbegins
    rw [Nat.le_zero.mp hearlier, List.flatten_singleton, List.drop_zero] at hbegins
    exact hnone stop hstop hbegins

theorem stop_filter_exact_iff :
    (forall pieces, GivesBeforeStop stops pieces ↔ ¬ CutsInside stops pieces) ∧
      ((forall pieces, GivesBeforeStop stops pieces) ↔ ¬ Nested stops) := by
  have hpieces : forall pieces, GivesBeforeStop stops pieces ↔ ¬ CutsInside stops pieces := by
    intro pieces
    constructor
    · exact not_cutsInside_of_gives hstops
    · exact gives_of_not_cutsInside hstops
  constructor
  · exact hpieces
  · constructor
    · intro hall hnested
      rcases cutsInside_of_nested hnested with ⟨pieces, hcuts⟩
      exact (hpieces pieces).mp (hall pieces) hcuts
    · intro hnested pieces
      apply (hpieces pieces).mpr
      intro hcuts
      exact hnested (nested_of_cutsInside hstops hcuts)

end Exactness

/-- The inner sequence is complete a piece before the outer one that began first. -/
theorem part_of_stop_is_given :
    emitted [['a', 'b', 'c', 'd'], ['b', 'c']] [['a', 'b', 'c'], ['d']] = ['a'] ∧
      beforeStop [['a', 'b', 'c', 'd'], ['b', 'c']] ['a', 'b', 'c', 'd'] = [] ∧
      emitted [['a', 'b', 'c', 'd'], ['b', 'c']] [['a', 'b', 'c', 'd']] = [] := by
  decide

theorem stop_filter_exact_single :
    (forall pieces, GivesBeforeStop [['a', 'b']] pieces ↔ ¬ CutsInside [['a', 'b']] pieces) ∧
      ((forall pieces, GivesBeforeStop [['a', 'b']] pieces) ↔ ¬ Nested [['a', 'b']]) :=
  stop_filter_exact_iff (by decide)

end TextStopFilter

end Generate
end RunNBurn
