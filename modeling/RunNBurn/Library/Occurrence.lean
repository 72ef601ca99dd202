import RunNBurn.Library.WordCut

/-!
# The first place of a word

A text is split at the first place where a word stands.  What comes behind that place does
not move it, and neither does what comes in front of it as long as no place there starts
the word.
-/

namespace RunNBurn
namespace Library

variable {alpha : Type}

/-- No place of the text, in front of `rest`, starts the word. -/
def StartsNowhere (word text rest : List alpha) : Prop :=
  forall before after, text = before ++ after -> after ≠ [] -> ¬ word <+: after ++ rest

section StartsNowhere

variable {word text rest : List alpha}

theorem startsNowhere_nil (word rest : List alpha) : StartsNowhere word [] rest := by
  intro before after hsplit hafter
  exact absurd (List.append_eq_nil_iff.mp hsplit.symm).2 hafter

variable {x : alpha}

theorem startsNowhere_cons (hhere : ¬ word <+: x :: text ++ rest)
    (hbehind : StartsNowhere word text rest) :
    StartsNowhere word (x :: text) rest := by
  intro before after hsplit hafter
  cases before with
  | nil =>
    rw [List.nil_append] at hsplit
    rw [← hsplit]
    exact hhere
  | cons y before =>
    rw [List.cons_append, List.cons.injEq] at hsplit
    exact hbehind before after hsplit.2 hafter

theorem StartsNowhere.here (h : StartsNowhere word (x :: text) rest) :
    ¬ word <+: x :: text ++ rest :=
  h [] (x :: text) rfl (List.cons_ne_nil x text)

theorem StartsNowhere.behind (h : StartsNowhere word (x :: text) rest) :
    StartsNowhere word text rest := by
  intro before after hsplit
  exact h (x :: before) after (by rw [hsplit]; rfl)

theorem startsNowhere_append {front : List alpha} (hfront : StartsNowhere word front (text ++ rest))
    (htext : StartsNowhere word text rest) :
    StartsNowhere word (front ++ text) rest := by
  induction front with
  | nil => exact htext
  | cons x front ih =>
    apply startsNowhere_cons
    · have hhere := hfront.here
      simpa using hhere
    · exact ih hfront.behind

theorem startsNowhere_of_head (h : x ∉ text) :
    StartsNowhere (x :: word) text rest := by
  induction text with
  | nil => exact startsNowhere_nil _ rest
  | cons y text ih =>
    rw [List.mem_cons, not_or] at h
    apply startsNowhere_cons
    · intro hstarts
      rw [List.cons_append, List.cons_prefix_cons] at hstarts
      exact h.1 hstarts.1
    · exact ih h.2

theorem StartsNowhere.of_start {front : List alpha} (h : StartsNowhere front text rest)
    (hfront : front <+: word) :
    StartsNowhere word text rest := by
  intro before after hsplit hafter hstarts
  exact h before after hsplit hafter (hfront.trans hstarts)

theorem startsNowhere_of_not_infix (htext : ¬ x :: word <:+: text)
    (hrest : forall y, rest.head? = some y -> y ∉ word) :
    StartsNowhere (x :: word) text rest := by
  intro before after hsplit hafter hstarts
  have hinside : after <:+: text := by
    rw [hsplit]
    exact (List.suffix_append before after).isInfix
  rcases hstarts with ⟨tail, htail⟩
  rcases List.append_eq_append_iff.mp htail with ⟨more, hmore, _⟩ | ⟨more, hmore, hbehind⟩
  · apply htext
    refine List.IsInfix.trans ?_ hinside
    rw [hmore]
    exact (List.prefix_append _ more).isInfix
  · cases more with
    | nil =>
      rw [List.append_nil] at hmore
      rw [hmore] at htext
      exact htext hinside
    | cons y more =>
      cases after with
      | nil => exact hafter rfl
      | cons z after =>
        rw [List.cons_append, List.cons.injEq] at hmore
        apply hrest y
        · rw [hbehind]
          rfl
        · rw [hmore.2]
          exact List.mem_append_right _ List.mem_cons_self

/-- Whether each place of the text tells the word apart by itself. -/
def tellsApart [DecidableEq alpha] (word text : List alpha) : Bool :=
  text.tails.all fun after =>
    after.isEmpty || (!word.isPrefixOf after && !after.isPrefixOf word)

theorem startsNowhere_of_tellsApart [DecidableEq alpha] (h : tellsApart word text = true) :
    StartsNowhere word text rest := by
  intro before after hsplit hafter hstarts
  have hmem : after ∈ text.tails := by
    rw [List.mem_tails, hsplit]
    exact List.suffix_append before after
  have hplace := List.all_eq_true.mp h after hmem
  rw [Bool.or_eq_true, List.isEmpty_iff, Bool.and_eq_true, Bool.not_eq_true',
    Bool.not_eq_true', ← Bool.not_eq_true, ← Bool.not_eq_true, List.isPrefixOf_iff_prefix,
    List.isPrefixOf_iff_prefix] at hplace
  cases hplace with
  | inl hempty => exact hafter hempty
  | inr hneither =>
    cases List.prefix_or_prefix_of_prefix hstarts (List.prefix_append after rest) with
    | inl hword => exact hneither.1 hword
    | inr hshort => exact hneither.2 hshort

end StartsNowhere

/-!
# Splitting
-/

variable [DecidableEq alpha]

/-- The text in front of the first place of the word, and the text behind the word there. -/
def splitAtWord (word text : List alpha) : Option (List alpha × List alpha) :=
  (findWord word text).map fun i => (text.take i, text.drop (i + word.length))

variable {word text rest front behind : List alpha}

theorem splitAtWord_here (word rest : List alpha) :
    splitAtWord word (word ++ rest) = some ([], rest) := by
  have hfind : findWord word (word ++ rest) = some 0 := by
    unfold findWord
    cases hall : word ++ rest with
    | nil => exact if_pos (List.append_eq_nil_iff.mp hall).1
    | cons x all =>
      apply if_pos
      rw [← hall]
      exact List.prefix_append word rest
  unfold splitAtWord
  rw [hfind, Option.map_some, Nat.zero_add, List.drop_left, List.take_zero]

theorem splitAtWord_append (h : StartsNowhere word text rest) :
    splitAtWord word (text ++ rest) =
      (splitAtWord word rest).map fun parts => (text ++ parts.1, parts.2) := by
  induction text with
  | nil =>
    rw [List.nil_append]
    cases splitAtWord word rest <;> rfl
  | cons x text ih =>
    have hrest := ih h.behind
    have hfind : findWord word (x :: text ++ rest) =
        (findWord word (text ++ rest)).map (· + 1) := if_neg h.here
    unfold splitAtWord at hrest ⊢
    rw [hfind]
    cases hplace : findWord word (text ++ rest) with
    | none =>
      rw [hplace] at hrest
      cases hbehind : findWord word rest with
      | none => rfl
      | some j =>
        rw [hbehind] at hrest
        cases hrest
    | some i =>
      rw [hplace] at hrest
      cases hbehind : findWord word rest with
      | none =>
        rw [hbehind] at hrest
        cases hrest
      | some j =>
        rw [hbehind] at hrest
        simp only [Option.map_some, Option.some.injEq, Prod.mk.injEq] at hrest
        simp only [Option.map_some, List.cons_append, List.take_succ_cons, hrest.1,
          Nat.add_right_comm, List.drop_succ_cons, hrest.2]

theorem splitAtWord_of_startsNowhere (h : StartsNowhere word front (word ++ behind)) :
    splitAtWord word (front ++ (word ++ behind)) = some (front, behind) := by
  rw [splitAtWord_append h, splitAtWord_here, Option.map_some, List.append_nil]

theorem splitAtWord_eq_some (h : splitAtWord word text = some (front, behind)) :
    text = front ++ (word ++ behind) ∧ StartsNowhere word front (word ++ behind) := by
  induction text generalizing front with
  | nil =>
    unfold splitAtWord findWord at h
    split at h
    · rename_i hword
      cases h
      rw [hword]
      exact ⟨rfl, startsNowhere_nil _ _⟩
    · cases h
  | cons x text ih =>
    by_cases hhere : word <+: x :: text
    · rcases hhere with ⟨rest, hrest⟩
      rw [← hrest, splitAtWord_here] at h
      cases h
      exact ⟨hrest.symm, startsNowhere_nil _ _⟩
    · have hfirst : StartsNowhere word [x] text :=
        startsNowhere_cons hhere (startsNowhere_nil _ _)
      have hskip : splitAtWord word (x :: text) =
          (splitAtWord word text).map fun parts => ([x] ++ parts.1, parts.2) :=
        splitAtWord_append hfirst
      rw [hskip, Option.map_eq_some_iff] at h
      rcases h with ⟨⟨front', behind'⟩, hsplit, hparts⟩
      cases hparts
      rcases ih hsplit with ⟨htext, hnowhere⟩
      refine ⟨congrArg (List.cons x) htext, startsNowhere_cons ?_ hnowhere⟩
      show ¬ word <+: x :: (front' ++ (word ++ behind'))
      rw [← htext]
      exact hhere

theorem splitAtWord_eq_none : splitAtWord word text = none ↔ ¬ word <:+: text := by
  constructor
  · rintro h ⟨before, after, hsplit⟩
    have hstarts : word <+: text.drop before.length := by
      rw [← hsplit, List.append_assoc, List.drop_left]
      exact List.prefix_append _ _
    have hle : before.length <= text.length := by
      rw [← hsplit, List.append_assoc, List.length_append]
      exact Nat.le_add_right _ _
    rcases findWord_le hstarts hle with ⟨i, hi, _⟩
    unfold splitAtWord at h
    rw [hi] at h
    cases h
  · intro h
    cases hsplit : splitAtWord word text with
    | none => rfl
    | some parts =>
      rcases splitAtWord_eq_some hsplit with ⟨htext, _⟩
      rw [htext] at h
      exact absurd ⟨parts.1, parts.2, List.append_assoc _ _ _⟩ h

def behindWord (word text : List alpha) : List alpha :=
  ((splitAtWord word text).map Prod.snd).getD []

theorem behindWord_here (word rest : List alpha) : behindWord word (word ++ rest) = rest := by
  unfold behindWord
  rw [splitAtWord_here, Option.map_some, Option.getD_some]

theorem behindWord_append (h : StartsNowhere word text rest) :
    behindWord word (text ++ rest) = behindWord word rest := by
  unfold behindWord
  rw [splitAtWord_append h, Option.map_map]
  rfl

theorem behindWord_of_not_infix (h : ¬ word <:+: text) : behindWord word text = [] := by
  unfold behindWord
  rw [splitAtWord_eq_none.mpr h, Option.map_none, Option.getD_none]

theorem splitAtWord_append_right (h : splitAtWord word text = some (front, behind))
    (more : List alpha) :
    splitAtWord word (text ++ more) = some (front, behind ++ more) := by
  rcases splitAtWord_eq_some h with ⟨htext, hnowhere⟩
  rw [htext, List.append_assoc, List.append_assoc]
  apply splitAtWord_of_startsNowhere
  intro before after hsplit hafter hstarts
  apply hnowhere before after hsplit hafter
  have hshort : after ++ (word ++ behind) <+: after ++ (word ++ (behind ++ more)) := by
    rw [← List.append_assoc word behind, ← List.append_assoc after (word ++ behind)]
    exact List.prefix_append _ _
  refine List.prefix_of_prefix_length_le hstarts hshort ?_
  rw [List.length_append, List.length_append]
  omega

theorem findWord_append_right {i : Nat} (h : findWord word text = some i) (more : List alpha) :
    findWord word (text ++ more) = some i := by
  have hsplit : splitAtWord word text = some (text.take i, text.drop (i + word.length)) := by
    unfold splitAtWord
    rw [h, Option.map_some]
  have hmore := splitAtWord_append_right hsplit more
  unfold splitAtWord at hmore
  rcases Option.map_eq_some_iff.mp hmore with ⟨j, hj, hparts⟩
  have hlengths := congrArg (fun parts => parts.1.length) hparts
  have hiLe := (isPrefix_of_findWord h).2
  have hjLe := (isPrefix_of_findWord hj).2
  dsimp only at hlengths
  rw [List.length_take_of_le hjLe, List.length_take_of_le hiLe] at hlengths
  rw [hj, hlengths]

theorem length_lt_of_findWord_append {more : List alpha} {i : Nat}
    (h : findWord word text = none) (hmore : findWord word (text ++ more) = some i) :
    text.length < i + word.length := by
  by_contra hinside
  have hstarts := (isPrefix_of_findWord hmore).1
  rw [List.drop_append_of_le_length (by omega)] at hstarts
  have hhere : word <+: text.drop i := by
    apply List.prefix_of_prefix_length_le hstarts (List.prefix_append _ _)
    rw [List.length_drop]
    omega
  rcases findWord_le hhere (by omega) with ⟨j, hj, -⟩
  rw [h] at hj
  cases hj

/-!
# The last place
-/

/-- The text in front of the last place of the word, and the text behind it. -/
def rsplitAtWord (word text : List alpha) : Option (List alpha × List alpha) :=
  (splitAtWord word.reverse text.reverse).map fun parts => (parts.2.reverse, parts.1.reverse)

theorem rsplitAtWord_of_startsNowhere
    (h : StartsNowhere word.reverse behind.reverse (word.reverse ++ front.reverse)) :
    rsplitAtWord word (front ++ (word ++ behind)) = some (front, behind) := by
  unfold rsplitAtWord
  rw [List.reverse_append, List.reverse_append, List.append_assoc,
    splitAtWord_of_startsNowhere h, Option.map_some, List.reverse_reverse, List.reverse_reverse]

theorem rsplitAtWord_eq_some (h : rsplitAtWord word text = some (front, behind)) :
    text = front ++ (word ++ behind) := by
  unfold rsplitAtWord at h
  rw [Option.map_eq_some_iff] at h
  rcases h with ⟨⟨behindReversed, frontReversed⟩, hsplit, hparts⟩
  cases hparts
  have htext := congrArg List.reverse (splitAtWord_eq_some hsplit).left
  rw [List.reverse_reverse, List.reverse_append, List.reverse_append, List.reverse_reverse,
    List.append_assoc] at htext
  exact htext

end Library
end RunNBurn
