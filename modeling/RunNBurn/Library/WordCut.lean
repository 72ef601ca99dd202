import Mathlib.Data.List.Infix
import RunNBurn.Library.LastOccurrences

/-!
# Cutting a text at words

From left to right a text is cut at the longest word that starts somewhere; what
stands between two words stays in one piece.
-/

namespace RunNBurn
namespace Library

variable {alpha : Type}

inductive Piece (alpha : Type) where
  | word (text : List alpha)
  | plain (text : List alpha)

def Piece.text : Piece alpha -> List alpha
  | .word text => text
  | .plain text => text

/-- No word that is not empty starts inside the text in front of `rest`. -/
def FreeOf (words : List (List alpha)) (text rest : List alpha) : Prop :=
  forall before after, text = before ++ after -> after ≠ [] ->
    forall word, word ∈ words -> word ≠ [] -> ¬ word <+: after ++ rest

def AtWord (words : List (List alpha)) (rest : List alpha) : Prop :=
  rest = [] ∨ exists word, word ∈ words ∧ word ≠ [] ∧ word <+: rest

inductive Cut (words : List (List alpha)) : List alpha -> List (Piece alpha) -> Prop where
  | nil : Cut words [] []
  | word {text rest : List alpha} {pieces : List (Piece alpha)} :
      text ∈ words ->
      text ≠ [] ->
      (forall other, other ∈ words -> other <+: text ++ rest -> other.length <= text.length) ->
      Cut words rest pieces ->
      Cut words (text ++ rest) (.word text :: pieces)
  | plain {text rest : List alpha} {pieces : List (Piece alpha)} :
      text ≠ [] ->
      FreeOf words text rest ->
      AtWord words rest ->
      Cut words rest pieces ->
      Cut words (text ++ rest) (.plain text :: pieces)

variable {words : List (List alpha)}

theorem Cut.flatMap_text {text : List alpha} {pieces : List (Piece alpha)}
    (h : Cut words text pieces) :
    pieces.flatMap Piece.text = text := by
  induction h with
  | nil => rfl
  | word _ _ _ _ ih =>
    rw [List.flatMap_cons, ih]
    rfl
  | plain _ _ _ _ ih =>
    rw [List.flatMap_cons, ih]
    rfl

theorem Cut.mem_words {text word : List alpha} {pieces : List (Piece alpha)}
    (h : Cut words text pieces) (hword : Piece.word word ∈ pieces) :
    word ∈ words := by
  induction h with
  | nil => cases hword
  | word hmem _ _ _ ih =>
    cases hword with
    | head => exact hmem
    | tail _ hrest => exact ih hrest
  | plain _ _ _ _ ih =>
    cases hword with
    | tail _ hrest => exact ih hrest

theorem eq_of_isPrefix_of_length {left right text : List alpha}
    (hleft : left <+: text) (hright : right <+: text) (hlength : left.length = right.length) :
    left = right := by
  exact (List.prefix_of_prefix_length_le hleft hright (Nat.le_of_eq hlength)).eq_of_length hlength

/-!
# Searching
-/

variable [DecidableEq alpha]

def findWord (word : List alpha) : List alpha -> Option Nat
  | [] => if word = [] then some 0 else none
  | x :: rest => if word <+: x :: rest then some 0 else (findWord word rest).map (· + 1)

def nextWord (words : List (List alpha)) (text : List alpha) : Nat :=
  (words.filterMap fun word => findWord word text).min?.getD text.length

variable {word text : List alpha}

theorem isPrefix_of_findWord {i : Nat} (h : findWord word text = some i) :
    word <+: text.drop i ∧ i <= text.length := by
  induction text generalizing i with
  | nil =>
    unfold findWord at h
    split at h
    · rename_i hword
      cases h
      rw [hword]
      exact ⟨List.nil_prefix, Nat.le_refl _⟩
    · cases h
  | cons x rest ih =>
    unfold findWord at h
    split at h
    · rename_i hstarts
      cases h
      exact ⟨hstarts, Nat.zero_le _⟩
    · rcases Option.map_eq_some_iff.mp h with ⟨j, hj, rfl⟩
      exact ⟨(ih hj).1, Nat.succ_le_succ (ih hj).2⟩

theorem findWord_le {j : Nat} (h : word <+: text.drop j) (hj : j <= text.length) :
    exists i, findWord word text = some i ∧ i <= j := by
  induction text generalizing j with
  | nil =>
    rw [List.drop_nil, List.prefix_nil] at h
    exact ⟨0, if_pos h, Nat.zero_le j⟩
  | cons x rest ih =>
    unfold findWord
    split
    · exact ⟨0, rfl, Nat.zero_le j⟩
    · rename_i hnot
      cases j with
      | zero => exact absurd h hnot
      | succ j =>
        rcases ih h (Nat.le_of_succ_le_succ hj) with ⟨i, hi, hle⟩
        rw [hi]
        exact ⟨i + 1, rfl, Nat.succ_le_succ hle⟩

theorem nextWord_le_of_isPrefix {j : Nat} (hword : word ∈ words) (h : word <+: text.drop j)
    (hj : j <= text.length) :
    nextWord words text <= j := by
  rcases findWord_le h hj with ⟨i, hi, hle⟩
  have hmem : i ∈ words.filterMap fun word => findWord word text :=
    List.mem_filterMap.mpr ⟨word, hword, hi⟩
  unfold nextWord
  cases hmin : (words.filterMap fun word => findWord word text).min? with
  | none =>
    rw [List.min?_eq_none_iff.mp hmin] at hmem
    cases hmem
  | some least => exact Nat.le_trans ((List.min?_eq_some_iff.mp hmin).2 i hmem) hle

theorem nextWord_spec (words : List (List alpha)) (text : List alpha) :
    nextWord words text <= text.length ∧
      (nextWord words text = text.length ∨
        exists word, word ∈ words ∧ word <+: text.drop (nextWord words text)) := by
  unfold nextWord
  cases hmin : (words.filterMap fun word => findWord word text).min? with
  | none => exact ⟨Nat.le_refl _, Or.inl rfl⟩
  | some least =>
    have hmem := (List.min?_eq_some_iff.mp hmin).1
    rcases List.mem_filterMap.mp hmem with ⟨word, hword, hleast⟩
    have h := isPrefix_of_findWord hleast
    exact ⟨h.2, Or.inr ⟨word, hword, h.1⟩⟩

theorem nextWord_free (hwords : forall word, word ∈ words -> word ≠ []) (text : List alpha) :
    FreeOf words (text.take (nextWord words text)) (text.drop (nextWord words text)) ∧
      AtWord words (text.drop (nextWord words text)) := by
  have hspec := nextWord_spec words text
  constructor
  · intro before after hsplit hafter word hword _ hstarts
    have htext : text = before ++ (after ++ text.drop (nextWord words text)) := by
      rw [← List.append_assoc, ← hsplit, List.take_append_drop]
    have hdrop : text.drop before.length = after ++ text.drop (nextWord words text) := by
      conv_lhs => rw [htext]
      exact List.drop_left
    have hlength := congrArg List.length hsplit
    rw [List.length_take, List.length_append, Nat.min_eq_left hspec.1] at hlength
    have hpos := List.length_pos_of_ne_nil hafter
    have hle := nextWord_le_of_isPrefix hword (hdrop ▸ hstarts) (by omega)
    omega
  · rcases hspec.2 with hend | ⟨word, hword, hstarts⟩
    · apply Or.inl
      rw [hend]
      exact List.drop_length
    · exact Or.inr ⟨word, hword, hwords word hword, hstarts⟩

omit [DecidableEq alpha] in
/-- A stretch without words does not reach over the start of a word. -/
theorem length_le_of_freeOf {left right leftRest rightRest : List alpha}
    (hsame : left ++ leftRest = right ++ rightRest) (hleft : AtWord words leftRest)
    (hright : FreeOf words right rightRest) :
    right.length <= left.length := by
  apply Nat.le_of_not_lt
  intro hlt
  rcases List.append_eq_append_iff.mp hsame with
    ⟨between, hbetween, hrest⟩ | ⟨between, hbetween, _⟩
  · have hne : between ≠ [] := by
      rintro rfl
      rw [hbetween, List.append_nil] at hlt
      exact Nat.lt_irrefl _ hlt
    rcases hleft with hend | ⟨word, hword, hnonempty, hstarts⟩
    · rw [hend] at hrest
      exact hne (List.append_eq_nil_iff.mp hrest.symm).1
    · rw [hrest] at hstarts
      exact hright left between hbetween hne word hword hnonempty hstarts
  · have hle := congrArg List.length hbetween
    rw [List.length_append] at hle
    omega

theorem nextWord_eq_of_plain {text rest : List alpha}
    (hwords : forall word, word ∈ words -> word ≠ []) (hfree : FreeOf words text rest)
    (hrest : AtWord words rest) :
    nextWord words (text ++ rest) = text.length := by
  have hnext := nextWord_free hwords (text ++ rest)
  have hlength : ((text ++ rest).take (nextWord words (text ++ rest))).length =
      nextWord words (text ++ rest) := by
    rw [List.length_take]
    exact Nat.min_eq_left (nextWord_spec words (text ++ rest)).1
  have hsplit := List.take_append_drop (nextWord words (text ++ rest)) (text ++ rest)
  apply Nat.le_antisymm
  · have hle := length_le_of_freeOf hsplit.symm hrest hnext.1
    rwa [hlength] at hle
  · have hle := length_le_of_freeOf hsplit hnext.2 hfree
    rwa [hlength] at hle

omit [DecidableEq alpha] in
theorem freeOf_of_filter [DecidableEq (List alpha)] {text rest : List alpha}
    (h : FreeOf (words.filter fun word => word ≠ []) text rest) :
    FreeOf words text rest := by
  intro before after hsplit hafter word hword hne
  apply h before after hsplit hafter word ?_ hne
  rw [List.mem_filter, decide_eq_true_eq]
  exact ⟨hword, hne⟩

omit [DecidableEq alpha] in
theorem atWord_of_filter [DecidableEq (List alpha)] {rest : List alpha}
    (h : AtWord (words.filter fun word => word ≠ []) rest) :
    AtWord words rest := by
  rcases h with hend | ⟨word, hword, hne, hstarts⟩
  · exact Or.inl hend
  · exact Or.inr ⟨word, List.mem_of_mem_filter hword, hne, hstarts⟩

theorem exists_cut (words : List (List alpha)) (text : List alpha) :
    exists pieces, Cut words text pieces := by
  induction hlength : text.length using Nat.strongRecOn generalizing text with
  | ind n ih =>
    cases text with
    | nil => exact ⟨[], Cut.nil⟩
    | cons x rest =>
      subst hlength
      cases hlongest : lastMaximumBy List.length
          (words.filter fun word => word ≠ [] ∧ word <+: x :: rest) with
      | some word =>
        have hmem := lastMaximumBy_mem hlongest
        rw [List.mem_filter, decide_eq_true_eq] at hmem
        rcases hmem with ⟨hword, hne, behind, hsplit⟩
        have hpos := List.length_pos_of_ne_nil hne
        have hshort : behind.length < (x :: rest).length := by
          rw [← hsplit, List.length_append]
          omega
        rcases ih behind.length hshort behind rfl with ⟨pieces, hpieces⟩
        rw [← hsplit]
        refine ⟨_, Cut.word hword hne ?_ hpieces⟩
        intro other hother hstarts
        by_cases hempty : other = []
        · rw [hempty]
          exact Nat.zero_le _
        · apply lastMaximumBy_ge hlongest
          rw [List.mem_filter, decide_eq_true_eq]
          exact ⟨hother, hempty, hsplit ▸ hstarts⟩
      | none =>
        have hnone := lastMaximumBy_eq_none hlongest
        have hfree : forall word, word ∈ words -> word ≠ [] -> ¬ word <+: x :: rest := by
          intro word hword hne hstarts
          apply List.not_mem_nil (a := word)
          rw [← hnone, List.mem_filter, decide_eq_true_eq]
          exact ⟨hword, hne, hstarts⟩
        have hnonempty : forall word, word ∈ words.filter (fun word => word ≠ []) ->
            word ≠ [] := by
          intro word hword
          rw [List.mem_filter, decide_eq_true_eq] at hword
          exact hword.2
        have hspec := nextWord_spec (words.filter fun word => word ≠ []) (x :: rest)
        have hnext := nextWord_free hnonempty (x :: rest)
        generalize nextWord (words.filter fun word => word ≠ []) (x :: rest) = n
          at hspec hnext
        have hpos : n ≠ 0 := by
          rintro rfl
          rcases hspec.2 with hend | ⟨word, hword, hstarts⟩
          · cases hend
          · rw [List.mem_filter, decide_eq_true_eq] at hword
            exact hfree word hword.1 hword.2 hstarts
        have hshort : ((x :: rest).drop n).length < (x :: rest).length := by
          rw [List.length_drop, List.length_cons]
          omega
        rcases ih _ hshort _ rfl with ⟨pieces, hpieces⟩
        rw [← List.take_append_drop n (x :: rest)]
        refine ⟨_, Cut.plain ?_ (freeOf_of_filter hnext.1) (atWord_of_filter hnext.2) hpieces⟩
        intro hnil
        rcases List.take_eq_nil_iff.mp hnil with hzero | hzero
        · exact hpos hzero
        · cases hzero

end Library
end RunNBurn
