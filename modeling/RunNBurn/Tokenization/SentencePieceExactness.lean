import Mathlib.Algebra.Order.Field.Rat
import Mathlib.Algebra.Order.Ring.Cast
import Mathlib.Data.Prod.Lex
import RunNBurn.Library.BestPath
import RunNBurn.Tokenization.SentencePiece

/-!
# Exactness of the SentencePiece tokens

The table of the tokenizer is one of best paths over the positions of the text: an edge
is a piece of the text that has a token, or a single character where no piece has one.
With exact scores the path that it leaves is the best of all.
-/

namespace RunNBurn
namespace Tokenization

open Library

/-- `f32::EPSILON` -/
def epsilon : Rat :=
  1 / 2 ^ 23

def exactScores (split : Text -> List (Nat × Nat)) : Primitives Rat where
  zero := 0
  add := fun left right => left + right
  exceeds := fun left right => decide (right < left)
  close := fun left right => decide (|left - right| < epsilon)
  llama4Split := split

structure SpPiece where
  text : Text
  id : TokenId
deriving DecidableEq, Repr

abbrev SpValue : Type := Lex (Rat × OrderDual Nat)

def spValue (score : Rat) (pieces : Nat) : SpValue :=
  toLex (score, OrderDual.toDual pieces)

theorem spValue_le_iff {score score' : Rat} {pieces pieces' : Nat} :
    spValue score pieces <= spValue score' pieces' ↔
      score < score' ∨ score = score' ∧ pieces' <= pieces :=
  Prod.Lex.toLex_le_toLex

def between (chars : Text) (i j : Nat) : Text :=
  (chars.drop i).take (j - i)

def cellOf (chars : Text) (best : List (Option (SpPath Rat))) (j : Nat) :
    Option (Cell SpPiece SpValue) :=
  match best[j]? with
  | some (some path) =>
    some ⟨spValue path.score path.pieces, path.prev, ⟨between chars path.prev j, path.id⟩⟩
  | _ => none

variable {best : List (Option (SpPath Rat))}

theorem cellOf_of_getElem? (chars : Text) {j : Nat} {path : SpPath Rat}
    (h : best[j]? = some (some path)) :
    cellOf chars best j =
      some ⟨spValue path.score path.pieces, path.prev, ⟨between chars path.prev j, path.id⟩⟩ := by
  unfold cellOf
  rw [h]

theorem cellOf_none {chars : Text} {j : Nat} (h : best[j]? = some none) :
    cellOf chars best j = none := by
  unfold cellOf
  rw [h]

theorem cellOf_set {chars : Text} {j : Nat} (path : SpPath Rat) (hj : j < best.length) :
    cellOf chars (best.set j (some path)) =
      Function.update (cellOf chars best) j
        (some ⟨spValue path.score path.pieces, path.prev,
          ⟨between chars path.prev j, path.id⟩⟩) := by
  funext k
  by_cases hk : k = j
  · subst hk
    rw [Function.update_self]
    exact cellOf_of_getElem? chars (List.getElem?_set_self hj)
  · rw [Function.update_of_ne hk]
    unfold cellOf
    rw [List.getElem?_set_ne (Ne.symm hk)]

namespace Tokenizer

variable (split : Text -> List (Nat × Nat)) (tok : Tokenizer Rat)

def normalized (text : Text) (addSpacePrefix : Bool) : Text :=
  replaceChar ' ' spaceMark (if addSpacePrefix then ' ' :: text else text)

def NoPieceAt (chars : Text) (i : Nat) : Prop :=
  forall j, i < j -> j <= chars.length -> tok.vocab.tokenId (between chars i j) = none

def FallbackAt (chars : Text) (i j : Nat) (piece : SpPiece) : Prop :=
  j = i + 1 ∧ tok.NoPieceAt chars i ∧
    exists c, chars[i]? = some c ∧ piece.id = tok.charToTokenSp c

structure PieceAt (chars : Text) (i j : Nat) (piece : SpPiece) : Prop where
  forward : i < j
  within : j <= chars.length
  text_eq : piece.text = between chars i j
  token : tok.vocab.tokenId piece.text = some piece.id ∨ tok.FallbackAt chars i j piece

def pieceScore (id : TokenId) : Rat :=
  (tok.sentencepieceScores[id]?).getD 0

def totalScore (pieces : List SpPiece) : Rat :=
  (pieces.map fun piece => tok.pieceScore piece.id).sum

def SpPathTo (chars : Text) (j : Nat) (pieces : List SpPiece) : Prop :=
  PathTo (tok.PieceAt chars) j pieces

/-- Two scores of paths to one position are equal, or they are an epsilon apart. -/
def Separated (chars : Text) : Prop :=
  forall j left right, tok.SpPathTo chars j left -> tok.SpPathTo chars j right ->
    tok.totalScore left ≠ tok.totalScore right ->
    epsilon <= |tok.totalScore left - tok.totalScore right|

theorem SpPathTo.text {tok : Tokenizer Rat} {chars : Text} {j : Nat} {pieces : List SpPiece}
    (h : tok.SpPathTo chars j pieces) :
    pieces.flatMap SpPiece.text = chars.take j := by
  induction h with
  | start => rfl
  | @step i j pieces piece _ hedge ih =>
    rw [List.flatMap_append, ih, List.flatMap_singleton, hedge.text_eq]
    have hcount : j = i + (j - i) := by
      have hforward := hedge.forward
      omega
    unfold between
    conv_rhs => rw [hcount, List.take_add]

/-!
# The value of a path
-/

def extendValue (value : SpValue) (piece : SpPiece) : SpValue :=
  spValue ((ofLex value).1 + tok.pieceScore piece.id) (OrderDual.ofDual (ofLex value).2 + 1)

theorem extendValue_mono (left right : SpValue) (piece : SpPiece) (h : left <= right) :
    tok.extendValue left piece <= tok.extendValue right piece := by
  have h : spValue (ofLex left).1 (OrderDual.ofDual (ofLex left).2) <=
      spValue (ofLex right).1 (OrderDual.ofDual (ofLex right).2) := h
  unfold extendValue
  rw [spValue_le_iff] at h ⊢
  rcases h with hlt | ⟨heq, hle⟩
  · exact Or.inl (add_lt_add_left hlt _)
  · rw [heq]
    exact Or.inr ⟨rfl, Nat.succ_le_succ hle⟩

theorem pathValue_eq (pieces : List SpPiece) :
    pathValue tok.extendValue (spValue 0 0) pieces =
      spValue (tok.totalScore pieces) pieces.length := by
  induction pieces using List.reverseRecOn with
  | nil => rfl
  | append_singleton pieces piece ih =>
    rw [pathValue_append_singleton, ih]
    unfold extendValue totalScore
    rw [List.map_append, List.sum_append, List.length_append]
    show spValue (_ + _) (_ + 1) = spValue (_ + (_ + 0)) (_ + 1)
    rw [add_zero]
    rfl

theorem spValue_inj {score score' : Rat} {pieces pieces' : Nat}
    (h : spValue score pieces = spValue score' pieces') :
    score = score' ∧ pieces = pieces' :=
  Prod.mk.inj h

/-- The comparison of two paths follows their values, if their scores are equal or an
epsilon apart. -/
theorem le_of_isBetter {cur candidate : SpPath Rat}
    (hsep : candidate.score ≠ cur.score -> epsilon <= |candidate.score - cur.score|) :
    if isBetterSentencepieceCandidate (exactScores split) (some cur) candidate then
      spValue cur.score cur.pieces <= spValue candidate.score candidate.pieces
    else
      spValue candidate.score candidate.pieces <= spValue cur.score cur.pieces := by
  rw [spValue_le_iff, spValue_le_iff]
  rcases lt_trichotomy cur.score candidate.score with hlt | heq | hgt
  · rw [if_pos]
    · exact Or.inl hlt
    · simp [isBetterSentencepieceCandidate, exactScores, hlt]
  · have hclose : |candidate.score - cur.score| < epsilon := by
      rw [heq, sub_self, abs_zero]
      exact div_pos one_pos (pow_pos two_pos 23)
    split
    · rename_i hbetter
      apply Or.inr
      constructor
      · exact heq
      · simp [isBetterSentencepieceCandidate, exactScores, heq] at hbetter
        omega
    · rename_i hbetter
      apply Or.inr
      constructor
      · exact heq.symm
      · simp [isBetterSentencepieceCandidate, exactScores, hclose] at hbetter
        omega
  · have hfar := hsep (ne_of_lt hgt)
    rw [if_neg]
    · exact Or.inl hgt
    · simp [isBetterSentencepieceCandidate, exactScores, not_lt.mpr hfar, not_lt.mpr (le_of_lt hgt)]

/-!
# Filling the table
-/

structure Filled (chars : Text) (offered : Nat -> Nat -> SpPiece -> Prop)
    (best : List (Option (SpPath Rat))) : Prop where
  length : best.length = chars.length + 1
  paths : BestPaths tok.extendValue (spValue 0 0) offered (cellOf chars best)

variable {tok} {chars : Text} {offered : Nat -> Nat -> SpPiece -> Prop}
  {best : List (Option (SpPath Rat))}

theorem Filled.widen {wider : Nat -> Nat -> SpPiece -> Prop} (h : tok.Filled chars offered best)
    (hwider : forall i j piece, offered i j piece -> wider i j piece)
    (hnew : forall i j piece, wider i j piece ->
      offered i j piece ∨ cellOf chars best i = none) :
    tok.Filled chars wider best :=
  ⟨h.length, h.paths.widen hwider hnew⟩

variable {path : SpPath Rat}

theorem Filled.spPath (h : tok.Filled chars offered best)
    (hpieces : forall i j piece, offered i j piece -> tok.PieceAt chars i j piece) {j : Nat}
    (hpath : best[j]? = some (some path)) :
    exists pieces, tok.SpPathTo chars j pieces ∧ TracedBack (cellOf chars best) j pieces ∧
      tok.totalScore pieces = path.score ∧ pieces.length = path.pieces := by
  have hcell := cellOf_of_getElem? chars hpath
  rcases h.paths.path (fun i j piece hoffered => (hpieces i j piece hoffered).forward) hcell with
    ⟨pieces, hto, hback, hvalue⟩
  rw [tok.pathValue_eq] at hvalue
  have hsame := spValue_inj hvalue
  exact ⟨pieces, hto.mono hpieces, hback, hsame.1.symm, hsame.2.symm⟩

theorem offerPath_delivers {i : Nat} (j : Nat) (id : TokenId)
    (wider : Nat -> Nat -> SpPiece -> Prop) (hsep : tok.Separated chars)
    (h : tok.Filled chars offered best)
    (hpieces : forall i j piece, wider i j piece -> tok.PieceAt chars i j piece)
    (hwider : forall i j piece, offered i j piece -> wider i j piece)
    (hnew : forall i' j' piece, wider i' j' piece ->
      offered i' j' piece ∨ i' = i ∧ j' = j ∧ piece = ⟨between chars i j, id⟩)
    (hedge : wider i j ⟨between chars i j, id⟩)
    (hsource : forall i' j' piece, wider i' j' piece -> i' <= i)
    (hpath : best[i]? = some (some path)) :
    Delivers
      (offerPath (exactScores split) best j (tok.extendPath (exactScores split) path i id))
      (fun result => tok.Filled chars wider result ∧ result[i]? = some (some path)) := by
  have hpiece := hpieces i j _ hedge
  have hj : j < best.length := by
    rw [h.length]
    exact Nat.lt_succ_of_le hpiece.within
  have hcell := cellOf_of_getElem? chars hpath
  have hget := List.getElem?_eq_getElem hj
  have hto : forall current, best[j]? = some (some current) ->
      (path.score + tok.pieceScore id ≠ current.score ->
        epsilon <= |path.score + tok.pieceScore id - current.score|) := by
    intro current hcurrent
    have hold : forall i j piece, offered i j piece -> tok.PieceAt chars i j piece :=
      fun i j piece hoffered => hpieces i j piece (hwider i j piece hoffered)
    rcases h.spPath hold hpath with ⟨before, hbefore, _, hscore, _⟩
    rcases h.spPath hold hcurrent with ⟨other, hother, _, hotherScore, _⟩
    have hfar := hsep j (before ++ [⟨between chars i j, id⟩]) other
      (PathTo.step hbefore hpiece) hother
    have htotal : tok.totalScore (before ++ [⟨between chars i j, id⟩]) =
        path.score + tok.pieceScore id := by
      unfold totalScore at hscore ⊢
      rw [List.map_append, List.sum_append, hscore, List.map_singleton, List.sum_singleton]
    rw [htotal, hotherScore] at hfar
    exact hfar
  unfold offerPath
  rw [index_of_getElem?_eq_some hget, ok_bind]
  cases hbetter : isBetterSentencepieceCandidate (exactScores split) best[j]
      (tok.extendPath (exactScores split) path i id) with
  | true =>
    rw [if_pos rfl]
    apply delivers_ok
    constructor
    · constructor
      · rw [List.length_set]
        exact h.length
      · rw [cellOf_set _ hj]
        apply h.paths.put hwider hnew hedge _ hcell
        · intro reached hreached
          cases hcurrent : best[j] with
          | none =>
            rw [hcurrent] at hget
            rw [cellOf_none hget] at hreached
            cases hreached
          | some current =>
            rw [hcurrent] at hget hbetter
            rw [cellOf_of_getElem? chars hget] at hreached
            cases hreached
            have hle := @le_of_isBetter split current
              (tok.extendPath (exactScores split) path i id) (hto current hget)
            rw [if_pos hbetter] at hle
            exact hle
        · intro i' j' piece hwide
          exact Nat.lt_of_le_of_lt (hsource i' j' piece hwide) hpiece.forward
    · rw [List.getElem?_set_ne (Nat.ne_of_gt hpiece.forward)]
      exact hpath
  | false =>
    rw [if_neg Bool.false_ne_true]
    apply delivers_ok
    constructor
    · constructor
      · exact h.length
      · cases hcurrent : best[j] with
        | none =>
          rw [hcurrent] at hbetter
          cases hbetter
        | some current =>
          rw [hcurrent] at hget hbetter
          have hle := @le_of_isBetter split current
            (tok.extendPath (exactScores split) path i id) (hto current hget)
          rw [if_neg (by rw [hbetter]; exact Bool.false_ne_true)] at hle
          exact h.paths.keep hwider hnew hcell (cellOf_of_getElem? chars hget) hle
    · exact hpath

def StartsBefore (tok : Tokenizer Rat) (chars : Text) (i i' j' : Nat) (piece : SpPiece) : Prop :=
  tok.PieceAt chars i' j' piece ∧ i' < i

/-- The pieces that start before a position, and those with a token that start there and
end before another. -/
def MatchedBefore (tok : Tokenizer Rat) (chars : Text) (i k i' j' : Nat) (piece : SpPiece) :
    Prop :=
  tok.PieceAt chars i' j' piece ∧
    (i' < i ∨ i' = i ∧ j' < k ∧ tok.vocab.tokenId piece.text = some piece.id)

theorem length_le_maxTokenChars {tok : Tokenizer Rat} {text : Text} {id : TokenId}
    (h : tok.vocab.tokenId text = some id) :
    text.length <= tok.maxTokenChars := by
  have hmem : text.length ∈ tok.vocab.idToToken.map List.length :=
    List.mem_map_of_mem (List.mem_of_getElem? (Vocab.tokenStr_of_tokenId h))
  have hall : forall lengths : List Nat, forall n, n ∈ lengths -> n <= lengths.foldr max 0 := by
    intro lengths
    induction lengths with
    | nil =>
      intro n hn
      cases hn
    | cons length lengths ih =>
      intro n hn
      cases hn with
      | head => exact Nat.le_max_left _ _
      | tail _ hrest => exact Nat.le_trans (ih n hrest) (Nat.le_max_right _ _)
  exact Nat.le_trans (hall _ _ hmem) (Nat.le_max_left _ _)

theorem length_between {chars : Text} {i j : Nat} (h : j <= chars.length) :
    (between chars i j).length = j - i := by
  unfold between
  rw [List.length_take, List.length_drop]
  omega

theorem PieceAt.stop_le {tok : Tokenizer Rat} {chars : Text} {i j : Nat} {piece : SpPiece}
    (h : tok.PieceAt chars i j piece) (htoken : tok.vocab.tokenId piece.text = some piece.id) :
    j <= min (i + tok.maxTokenChars) chars.length := by
  have hshort := length_le_maxTokenChars htoken
  rw [h.text_eq, length_between h.within] at hshort
  have hforward := h.forward
  have hwithin := h.within
  omega

/-- What holds before the search tries the pieces that end at `k`. -/
structure Searched (tok : Tokenizer Rat) (chars : Text) (path : SpPath Rat) (i k : Nat)
    (state : Bool × List (Option (SpPath Rat))) : Prop where
  filled : tok.Filled chars (tok.MatchedBefore chars i k) state.2
  path_eq : state.2[i]? = some (some path)
  matched : state.1 = true ↔
    exists j, i < j ∧ j < k ∧ tok.vocab.tokenId (between chars i j) ≠ none

theorem matchPiece_delivers {i k : Nat} {state : Bool × List (Option (SpPath Rat))}
    (hsep : tok.Separated chars) (h : tok.Searched chars path i k state) (hlt : i < k)
    (hk : k <= chars.length) :
    Delivers (tok.matchPiece (exactScores split) chars path i state k)
      (tok.Searched chars path i (k + 1)) := by
  have hwider : forall i' j' piece, tok.MatchedBefore chars i k i' j' piece ->
      tok.MatchedBefore chars i (k + 1) i' j' piece := by
    intro i' j' piece hold
    exact ⟨hold.1, hold.2.imp_right fun hhere => ⟨hhere.1, Nat.lt_succ_of_lt hhere.2.1, hhere.2.2⟩⟩
  unfold matchPiece
  rw [slice_of_le (Nat.le_of_lt hlt) hk, ok_bind]
  have hbetween : (chars.drop i).take (k - i) = between chars i k := rfl
  rw [hbetween]
  cases htoken : tok.vocab.tokenId (between chars i k) with
  | none =>
    apply delivers_ok
    constructor
    · apply h.filled.widen hwider
      intro i' j' piece hnew
      apply Or.inl
      constructor
      · exact hnew.1
      · rcases hnew.2 with hbefore | ⟨hi, hj, hpiece⟩
        · exact Or.inl hbefore
        · rcases Nat.lt_succ_iff_lt_or_eq.mp hj with hj | hj
          · exact Or.inr ⟨hi, hj, hpiece⟩
          · rw [hnew.1.text_eq, hi, hj, htoken] at hpiece
            cases hpiece
    · exact h.path_eq
    · rw [h.matched]
      constructor
      · intro hfound
        rcases hfound with ⟨j, hj, hjk, hsome⟩
        exact ⟨j, hj, Nat.lt_succ_of_lt hjk, hsome⟩
      · intro hfound
        rcases hfound with ⟨j, hj, hjk, hsome⟩
        rcases Nat.lt_succ_iff_lt_or_eq.mp hjk with hjk | hjk
        · exact ⟨j, hj, hjk, hsome⟩
        · rw [hjk] at hsome
          exact absurd htoken hsome
  | some id =>
    have hpiece : tok.PieceAt chars i k ⟨between chars i k, id⟩ :=
      ⟨hlt, hk, rfl, Or.inl htoken⟩
    dsimp only
    have hoffer := offerPath_delivers split k id (tok.MatchedBefore chars i (k + 1)) hsep h.filled
      (fun i' j' piece hwide => hwide.1) hwider
      (by
        intro i' j' piece hnew
        rcases hnew.2 with hbefore | ⟨hi, hj, htext⟩
        · exact Or.inl ⟨hnew.1, Or.inl hbefore⟩
        · rcases Nat.lt_succ_iff_lt_or_eq.mp hj with hj | hj
          · exact Or.inl ⟨hnew.1, Or.inr ⟨hi, hj, htext⟩⟩
          · subst hi
            subst hj
            have hsame := hnew.1.text_eq
            rw [hsame, htoken] at htext
            cases piece
            cases hsame
            cases htext
            exact Or.inr ⟨rfl, rfl, rfl⟩)
      ⟨hpiece, Or.inr ⟨rfl, Nat.lt_succ_self k, htoken⟩⟩
      (by
        intro i' j' piece hnew
        rcases hnew.2 with hbefore | ⟨hi, _⟩
        · exact Nat.le_of_lt hbefore
        · exact Nat.le_of_eq hi)
      h.path_eq
    apply hoffer.bind
    intro result hresult
    apply delivers_ok
    constructor
    · exact hresult.1
    · exact hresult.2
    · constructor
      · intro _
        refine ⟨k, hlt, Nat.lt_succ_self k, ?_⟩
        rw [htoken]
        exact Option.some_ne_none id
      · intro _
        rfl

namespace Searched

variable {i : Nat} {state : Bool × List (Option (SpPath Rat))}

theorem start (h : tok.Filled chars (tok.StartsBefore chars i) best)
    (hget : best[i]? = some (some path)) :
    tok.Searched chars path i (i + 1) (false, best) := by
  constructor
  · apply h.widen
    · intro i' j' piece hold
      exact ⟨hold.1, Or.inl hold.2⟩
    · intro i' j' piece hnew
      apply Or.inl
      rcases hnew.2 with hbefore | ⟨hhere, hj, _⟩
      · exact ⟨hnew.1, hbefore⟩
      · have hforward := hnew.1.forward
        omega
  · exact hget
  · constructor
    · intro hfalse
      cases hfalse
    · intro hsome
      rcases hsome with ⟨j, hj, hjk, _⟩
      omega

/-!
The search ends with the longest pieces.
-/

variable (h : tok.Searched chars path i (min (i + tok.maxTokenChars) chars.length + 1) state)

theorem startsBefore {k i' j' : Nat} {piece : SpPiece}
    (hold : tok.MatchedBefore chars i k i' j' piece) :
    tok.StartsBefore chars (i + 1) i' j' piece := by
  constructor
  · exact hold.1
  · rcases hold.2 with hbefore | ⟨hhere, _⟩
    · exact Nat.lt_succ_of_lt hbefore
    · exact Nat.lt_succ_of_le (Nat.le_of_eq hhere)

theorem matchedBefore {j : Nat} {piece : SpPiece} (hpiece : tok.PieceAt chars i j piece)
    (htoken : tok.vocab.tokenId piece.text = some piece.id) :
    tok.MatchedBefore chars i (min (i + tok.maxTokenChars) chars.length + 1) i j piece :=
  ⟨hpiece, Or.inr ⟨rfl, Nat.lt_succ_of_le (hpiece.stop_le htoken), htoken⟩⟩

include h

theorem filled_of_matched (hmatched : state.1 = true) :
    tok.Filled chars (tok.StartsBefore chars (i + 1)) state.2 := by
  rcases h.matched.mp hmatched with ⟨j, hj, hjk, hsome⟩
  apply h.filled.widen
  · exact fun i' j' piece hold => startsBefore hold
  · intro i' j' piece hnew
    apply Or.inl
    rcases Nat.lt_succ_iff_lt_or_eq.mp hnew.2 with hbefore | hhere
    · exact ⟨hnew.1, Or.inl hbefore⟩
    · subst hhere
      rcases hnew.1.token with htoken | hfallback
      · exact matchedBefore hnew.1 htoken
      · exact absurd (hfallback.2.1 j hj (by omega)) hsome

theorem noPieceAt (hmatched : state.1 = false) : tok.NoPieceAt chars i := by
  intro j hj hwithin
  cases htoken : tok.vocab.tokenId (between chars i j) with
  | none => rfl
  | some id =>
    have hpiece : tok.PieceAt chars i j ⟨between chars i j, id⟩ :=
      ⟨hj, hwithin, rfl, Or.inl htoken⟩
    have htrue : state.1 = true := by
      apply h.matched.mpr
      refine ⟨j, hj, Nat.lt_succ_of_le (hpiece.stop_le htoken), ?_⟩
      rw [htoken]
      exact Option.some_ne_none id
    rw [hmatched] at htrue
    cases htrue

/-- The only piece that starts here is one character. -/
theorem fallback_delivers (hsep : tok.Separated chars) (hmatched : state.1 = false) {c : Char}
    (hchar : chars[i]? = some c) :
    Delivers
      (offerPath (exactScores split) state.2 (i + 1)
        (tok.extendPath (exactScores split) path i (tok.charToTokenSp c)))
      (tok.Filled chars (tok.StartsBefore chars (i + 1))) := by
  have hi : i < chars.length := (List.getElem?_eq_some_iff.mp hchar).1
  have hpiece : tok.PieceAt chars i (i + 1) ⟨between chars i (i + 1), tok.charToTokenSp c⟩ :=
    ⟨Nat.lt_succ_self i, hi, rfl, Or.inr ⟨rfl, h.noPieceAt hmatched, c, hchar, rfl⟩⟩
  have hnew : forall i' j' piece, tok.StartsBefore chars (i + 1) i' j' piece ->
      tok.MatchedBefore chars i (min (i + tok.maxTokenChars) chars.length + 1) i' j' piece ∨
        i' = i ∧ j' = i + 1 ∧ piece = ⟨between chars i (i + 1), tok.charToTokenSp c⟩ := by
    intro i' j' piece hstarts
    rcases Nat.lt_succ_iff_lt_or_eq.mp hstarts.2 with hbefore | hhere
    · exact Or.inl ⟨hstarts.1, Or.inl hbefore⟩
    · subst hhere
      rcases hstarts.1.token with htoken | ⟨hj, _, other, hother, hid⟩
      · exact Or.inl (matchedBefore hstarts.1 htoken)
      · rw [hchar] at hother
        cases hother
        subst hj
        have hsame := hstarts.1.text_eq
        cases piece
        cases hsame
        cases hid
        exact Or.inr ⟨rfl, rfl, rfl⟩
  have hoffer := offerPath_delivers split (i + 1) (tok.charToTokenSp c)
    (tok.StartsBefore chars (i + 1)) hsep h.filled (fun i' j' piece hwide => hwide.1)
    (fun i' j' piece hold => startsBefore hold) hnew ⟨hpiece, Nat.lt_succ_self i⟩
    (fun i' j' piece hwide => Nat.le_of_lt_succ hwide.2) h.path_eq
  exact hoffer.mono fun result hresult => hresult.1

end Searched

theorem extendFrom_delivers {i : Nat} (hsep : tok.Separated chars)
    (h : tok.Filled chars (tok.StartsBefore chars i) best) (hi : i < chars.length) :
    Delivers (tok.extendFrom (exactScores split) chars i best)
      (tok.Filled chars (tok.StartsBefore chars (i + 1))) := by
  have hlt : i < best.length := by
    rw [h.length]
    exact Nat.lt_succ_of_lt hi
  have hget := List.getElem?_eq_getElem hlt
  unfold extendFrom
  rw [index_of_getElem?_eq_some hget, ok_bind]
  cases hfound : best[i] with
  | none =>
    rw [hfound] at hget
    apply delivers_ok
    apply h.widen
    · exact fun i' j' piece hold => ⟨hold.1, Nat.lt_succ_of_lt hold.2⟩
    · intro i' j' piece hnew
      rcases Nat.lt_succ_iff_lt_or_eq.mp hnew.2 with hbefore | hhere
      · exact Or.inl ⟨hnew.1, hbefore⟩
      · rw [hhere]
        exact Or.inr (cellOf_none hget)
  | some path =>
    rw [hfound] at hget
    have hmax : i <= min (i + tok.maxTokenChars) chars.length := by
      omega
    have hsearch : Delivers
        ((List.range' (i + 1) (min (i + tok.maxTokenChars) chars.length - i)).foldlM
          (tok.matchPiece (exactScores split) chars path i) (false, best)) _ :=
      foldlM_range'_delivers (tok.Searched chars path i) (Searched.start h hget)
        (fun k hlo hhi state hstate =>
          matchPiece_delivers split hsep hstate (by omega) (by omega))
    dsimp only
    apply hsearch.bind
    intro state hstate
    have hend : i + 1 + (min (i + tok.maxTokenChars) chars.length - i) =
        min (i + tok.maxTokenChars) chars.length + 1 := by
      omega
    rw [hend] at hstate
    cases hmatched : state.1 with
    | true =>
      rw [if_pos rfl]
      exact delivers_ok (hstate.filled_of_matched hmatched)
    | false =>
      have hchar := List.getElem?_eq_getElem hi
      rw [if_neg Bool.false_ne_true, index_of_getElem?_eq_some hchar, ok_bind]
      exact hstate.fallback_delivers split hsep hmatched hchar

/-!
# The best path
-/

theorem backtrack_eq {j : Nat} {pieces : List SpPiece} (h : TracedBack (cellOf chars best) j pieces)
    (hj : j < best.length) (fuel : Nat) (hfuel : j <= fuel) (tokens : List TokenId) :
    backtrack best fuel j tokens = .ok (pieces.map SpPiece.id ++ tokens) := by
  induction h generalizing fuel tokens with
  | start => cases fuel <;> rfl
  | @step j cell pieces hpos hcell hprev _ ih =>
    cases j with
    | zero => cases hpos
    | succ j =>
      cases fuel with
      | zero => cases hfuel
      | succ fuel =>
        have hget := List.getElem?_eq_getElem hj
        cases hentry : best[j + 1] with
        | none =>
          rw [hentry] at hget
          rw [cellOf_none hget] at hcell
          cases hcell
        | some path =>
          rw [hentry] at hget
          rw [cellOf_of_getElem? chars hget] at hcell
          cases hcell
          unfold backtrack
          rw [index_of_getElem?_eq_some hget, ok_bind]
          have hshort : path.prev < j + 1 := hprev
          show backtrack best fuel path.prev (path.id :: tokens) = _
          rw [ih (Nat.lt_trans hprev hj) fuel (by omega) (path.id :: tokens),
            List.map_append, List.append_assoc]
          rfl

def startTable (chars : Text) : List (Option (SpPath Rat)) :=
  some
    { score := 0
      pieces := 0
      prev := 0
      id := 0 } :: List.replicate chars.length none

theorem startTable_filled (tok : Tokenizer Rat) (chars : Text) :
    tok.Filled chars (tok.StartsBefore chars 0) (startTable chars) := by
  constructor
  · unfold startTable
    rw [List.length_cons, List.length_replicate]
  · apply bestPaths_origin ⟨spValue 0 0, 0, ⟨between chars 0 0, 0⟩⟩ rfl
    · rfl
    · intro j hj
      cases j with
      | zero => cases hj
      | succ j =>
        unfold cellOf startTable
        rw [List.getElem?_cons_succ, List.getElem?_replicate]
        split <;> rename_i heq
        · split at heq <;> cases heq
        · rfl
    · intro i j piece hbefore
      exact absurd hbefore.2 (Nat.not_lt_zero i)

theorem fillTable_delivers (hsep : tok.Separated chars) :
    Delivers (forRange (tok.extendFrom (exactScores split) chars) chars.length (startTable chars))
      (tok.Filled chars (tok.PieceAt chars)) := by
  have hfill : Delivers
      (forRange (tok.extendFrom (exactScores split) chars) chars.length (startTable chars)) _ :=
    forRange_delivers (fun i => tok.Filled chars (tok.StartsBefore chars i))
      (tok.startTable_filled chars)
      (fun i hi best hbest => extendFrom_delivers split hsep hbest hi)
  apply hfill.mono
  intro best hbest
  apply hbest.widen
  · intro i j piece hbefore
    exact hbefore.1
  · intro i j piece hpiece
    exact Or.inl ⟨hpiece, Nat.lt_of_lt_of_le hpiece.forward hpiece.within⟩

theorem exists_pieceAt (tok : Tokenizer Rat) {chars : Text} {i : Nat} (hi : i < chars.length) :
    exists j piece, j <= chars.length ∧ tok.PieceAt chars i j piece := by
  by_cases hnone : tok.NoPieceAt chars i
  · exact ⟨i + 1, ⟨between chars i (i + 1), tok.charToTokenSp chars[i]⟩, hi,
      Nat.lt_succ_self i, hi, rfl, Or.inr ⟨rfl, hnone, chars[i], List.getElem?_eq_getElem hi, rfl⟩⟩
  · unfold NoPieceAt at hnone
    push Not at hnone
    rcases hnone with ⟨j, hj, hwithin, hsome⟩
    rcases Option.ne_none_iff_exists'.mp hsome with ⟨id, hid⟩
    exact ⟨j, ⟨between chars i j, id⟩, hwithin, hj, hwithin, rfl, Or.inl hid⟩

theorem initialTokenizeSp_eq (split : Text -> List (Nat × Nat)) (tok : Tokenizer Rat)
    (text : Text) (addSpacePrefix : Bool) :
    tok.initialTokenizeSp (exactScores split) text addSpacePrefix = (do
      let best <- forRange (tok.extendFrom (exactScores split) (normalized text addSpacePrefix))
        (normalized text addSpacePrefix).length (startTable (normalized text addSpacePrefix))
      let last <- index best (normalized text addSpacePrefix).length
      match last with
      | none => return (normalized text addSpacePrefix).map tok.charToTokenSp
      | some _ =>
        backtrack best ((normalized text addSpacePrefix).length + 1)
          (normalized text addSpacePrefix).length []) := by
  unfold initialTokenizeSp normalized startTable
  dsimp only
  congr 1
  funext best
  congr 1
  funext last
  cases last
  · rfl
  · rfl

theorem initialTokenizeSp_best (split : Text -> List (Nat × Nat)) (tok : Tokenizer Rat)
    (text : Text) (addSpacePrefix : Bool) (hsep : tok.Separated (normalized text addSpacePrefix)) :
    exists best last pieces,
      forRange (tok.extendFrom (exactScores split) (normalized text addSpacePrefix))
          (normalized text addSpacePrefix).length
          (startTable (normalized text addSpacePrefix)) =
        .ok best ∧
      best[(normalized text addSpacePrefix).length]? = some (some last) ∧
      tok.initialTokenizeSp (exactScores split) text addSpacePrefix =
        .ok (pieces.map SpPiece.id) ∧
      tok.SpPathTo (normalized text addSpacePrefix) (normalized text addSpacePrefix).length
        pieces ∧
      pieces.flatMap SpPiece.text = normalized text addSpacePrefix ∧
      forall others,
        tok.SpPathTo (normalized text addSpacePrefix) (normalized text addSpacePrefix).length
          others ->
        tok.totalScore others < tok.totalScore pieces ∨
          tok.totalScore others = tok.totalScore pieces ∧ pieces.length <= others.length := by
  have hunfold := initialTokenizeSp_eq split tok text addSpacePrefix
  generalize normalized text addSpacePrefix = chars at hsep hunfold ⊢
  rcases fillTable_delivers split hsep with ⟨best, hbest, hfilled⟩
  have hreached := hfilled.paths.reaches chars.length
    (fun i j piece hpiece => hpiece.forward) (fun i hi => tok.exists_pieceAt hi)
  have hend : chars.length < best.length := by
    rw [hfilled.length]
    exact Nat.lt_succ_self _
  have hget := List.getElem?_eq_getElem hend
  cases hlast : best[chars.length] with
  | none =>
    rw [hlast] at hget
    rcases hreached with ⟨cell, hcell⟩
    rw [cellOf_none hget] at hcell
    cases hcell
  | some last =>
    rw [hlast] at hget
    rcases hfilled.spPath (fun i j piece hpiece => hpiece) hget with
      ⟨pieces, hto, hback, hscore, hcount⟩
    refine ⟨best, last, pieces, hbest, hget, ?_, hto, ?_, ?_⟩
    · rw [hunfold, hbest, ok_bind, index_of_getElem?_eq_some hget, ok_bind]
      have htokens := backtrack_eq hback hend (chars.length + 1) (Nat.le_succ _) []
      rw [List.append_nil] at htokens
      exact htokens
    · rw [hto.text, List.take_length]
    · intro others hothers
      rcases hfilled.paths.best tok.extendValue_mono hothers with ⟨cell, hcell, hle⟩
      rw [cellOf_of_getElem? chars hget] at hcell
      cases hcell
      rw [tok.pathValue_eq, ← hscore, ← hcount] at hle
      exact spValue_le_iff.mp hle

/-!
# Whole scores
-/

theorem totalScore_whole {tok : Tokenizer Rat}
    (h : forall score, score ∈ tok.sentencepieceScores -> exists n : Int, score = n)
    (pieces : List SpPiece) :
    exists n : Int, tok.totalScore pieces = n := by
  induction pieces with
  | nil => exact ⟨0, Int.cast_zero.symm⟩
  | cons piece pieces ih =>
    rcases ih with ⟨total, htotal⟩
    have hscore : exists n : Int, tok.pieceScore piece.id = n := by
      unfold pieceScore
      cases hget : tok.sentencepieceScores[piece.id]? with
      | none => exact ⟨0, Int.cast_zero.symm⟩
      | some score => exact h score (List.mem_of_getElem? hget)
    rcases hscore with ⟨score, hscore⟩
    exists score + total
    unfold totalScore at htotal ⊢
    rw [List.map_cons, List.sum_cons, hscore, htotal, Int.cast_add]

theorem separated_of_whole {tok : Tokenizer Rat}
    (h : forall score, score ∈ tok.sentencepieceScores -> exists n : Int, score = n)
    (chars : Text) :
    tok.Separated chars := by
  intro j left right _ _ hne
  rcases totalScore_whole h left with ⟨m, hm⟩
  rcases totalScore_whole h right with ⟨n, hn⟩
  have hdiffer : m - n ≠ 0 := by
    intro heq
    rw [hm, hn, Int.eq_of_sub_eq_zero heq] at hne
    exact hne rfl
  have hone : (1 : Rat) <= |((m - n : Int) : Rat)| := by
    rw [← Int.cast_abs]
    exact_mod_cast Int.one_le_abs hdiffer
  have hsmall : epsilon <= 1 := by
    unfold epsilon
    decide +kernel
  rw [hm, hn, ← Int.cast_sub]
  exact le_trans hsmall hone

def scoredTokenizer : Tokenizer Rat where
  vocab :=
    { idToToken := [['a'], ['b'], ['a', 'b'], ['c']]
      special :=
        { bos := 0
          eos := 0
          pad := none }
      tokenTypes := []
      tokenizationSpecialIds := []
      unknown := none
      separator := none
      fits := by decide }
  merges := []
  mode := .sentencePiece false
  sentencepieceScores := [-2, -2, -3, -1]
  addBosToken := false

theorem scoredTokenizer_separated (chars : Text) : scoredTokenizer.Separated chars := by
  apply separated_of_whole
  intro score hscore
  have hcases : score = -2 ∨ score = -3 ∨ score = -1 := by
    simp [scoredTokenizer] at hscore
    tauto
  rcases hcases with rfl | rfl | rfl
  · exact ⟨-2, by norm_cast⟩
  · exact ⟨-3, by norm_cast⟩
  · exact ⟨-1, by norm_cast⟩

theorem initialTokenizeSp_best_scored :
    exists best last pieces,
      forRange (scoredTokenizer.extendFrom (exactScores fun _ => [])
        (normalized ['a', 'b', 'x'] false))
          (normalized ['a', 'b', 'x'] false).length
          (startTable (normalized ['a', 'b', 'x'] false)) =
        .ok best ∧
      best[(normalized ['a', 'b', 'x'] false).length]? = some (some last) ∧
      scoredTokenizer.initialTokenizeSp (exactScores fun _ => []) ['a', 'b', 'x'] false =
        .ok (pieces.map SpPiece.id) ∧
      scoredTokenizer.SpPathTo (normalized ['a', 'b', 'x'] false)
        (normalized ['a', 'b', 'x'] false).length pieces ∧
      pieces.flatMap SpPiece.text = normalized ['a', 'b', 'x'] false ∧
      forall others,
        scoredTokenizer.SpPathTo (normalized ['a', 'b', 'x'] false)
          (normalized ['a', 'b', 'x'] false).length others ->
        scoredTokenizer.totalScore others < scoredTokenizer.totalScore pieces ∨
          scoredTokenizer.totalScore others = scoredTokenizer.totalScore pieces ∧
            pieces.length <= others.length :=
  initialTokenizeSp_best (fun _ => []) scoredTokenizer ['a', 'b', 'x'] false
    (scoredTokenizer_separated _)

end Tokenizer

end Tokenization
end RunNBurn
