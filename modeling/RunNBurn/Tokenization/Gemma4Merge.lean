import RunNBurn.Tokenization.Gemma4

/-!
# The merging of characters

An entry of the queue is stale when its size is not that of its two symbols any more:
symbols only grow while they are in use.  What is left are the texts that merging
neighbours by rank leaves.
-/

namespace RunNBurn
namespace Tokenization

open Library

/-!
# The row of the symbols
-/

section

variable (symbols : List SpmMergeSymbol) (i : Nat)

def usedSpm : Prop :=
  exists symbol, symbols[i]? = some symbol ∧ symbol.n ≠ 0

def prevSpm : Option Nat :=
  symbols[i]?.bind SpmMergeSymbol.prev

def nextSpm : Option Nat :=
  symbols[i]?.bind SpmMergeSymbol.next

def textSpm : Text :=
  (symbols[i]?.map SpmMergeSymbol.text).getD []

end

/-- The positions in use, where every symbol knows the length of its text. -/
structure SpmRow (symbols : List SpmMergeSymbol) (row : List Nat) : Prop where
  linked : Row (usedSpm symbols) (prevSpm symbols) (nextSpm symbols) row
  sizes : forall (i : Nat) (symbol : SpmMergeSymbol), symbols[i]? = some symbol ->
    symbol.n = byteLen symbol.text

variable {symbols : List SpmMergeSymbol} {row : List Nat} {i : Nat}

theorem SpmRow.symbol (h : SpmRow symbols row) (hi : i ∈ row) :
    symbols[i]? = some
      { text := textSpm symbols i
        n := byteLen (textSpm symbols i)
        prev := prevSpm symbols i
        next := nextSpm symbols i } := by
  rcases (h.linked.used_iff i).mpr hi with ⟨symbol, hsymbol, _⟩
  have hsize := h.sizes i symbol hsymbol
  unfold textSpm prevSpm nextSpm
  rw [hsymbol]
  show some symbol = some _
  rw [Option.map_some, Option.getD_some, ← hsize]
  rfl

theorem SpmRow.byteLen_pos (h : SpmRow symbols row) (hi : i ∈ row) :
    0 < byteLen (textSpm symbols i) := by
  rcases (h.linked.used_iff i).mpr hi with ⟨symbol, hsymbol, hn⟩
  rw [h.symbol hi] at hsymbol
  cases hsymbol
  exact Nat.pos_of_ne_zero hn

theorem SpmRow.lt_length (h : SpmRow symbols row) (hi : i ∈ row) :
    i < symbols.length :=
  (List.getElem?_eq_some_iff.mp (h.symbol hi)).1

theorem spmSymbols_getElem? {text : Text} {c : Char} (h : text[i]? = some c) :
    (spmSymbols text)[i]? =
      some
        { text := [c]
          n := (String.utf8EncodeChar c).length
          prev := if i = 0 then none else some (i - 1)
          next := if i + 1 < text.length then some (i + 1) else none } := by
  unfold spmSymbols
  rw [List.getElem?_map, List.getElem?_zipIdx, h, Nat.zero_add]
  rfl

theorem length_spmSymbols (text : Text) : (spmSymbols text).length = text.length := by
  unfold spmSymbols
  rw [List.length_map, List.length_zipIdx]

theorem byteLen_singleton (c : Char) : byteLen [c] = (String.utf8EncodeChar c).length := by
  unfold byteLen encodeText
  rw [List.flatMap_singleton]

theorem spmSymbols_row (text : Text) : SpmRow (spmSymbols text) (List.range text.length) := by
  constructor
  · apply row_range
    · intro i
      constructor
      · rintro ⟨symbol, hsymbol, _⟩
        rw [← length_spmSymbols]
        exact (List.getElem?_eq_some_iff.mp hsymbol).1
      · intro hlt
        refine ⟨_, spmSymbols_getElem? (List.getElem?_eq_getElem hlt), ?_⟩
        exact Nat.ne_of_gt (List.length_pos_of_ne_nil (encodeChar_ne_nil _))
    · intro i hlt
      unfold prevSpm
      rw [spmSymbols_getElem? (List.getElem?_eq_getElem hlt)]
      rfl
    · intro i hlt
      unfold nextSpm
      rw [spmSymbols_getElem? (List.getElem?_eq_getElem hlt)]
      rfl
  · intro i symbol hsymbol
    have hlt := (List.getElem?_eq_some_iff.mp hsymbol).1
    rw [length_spmSymbols] at hlt
    rw [spmSymbols_getElem? (List.getElem?_eq_getElem hlt)] at hsymbol
    cases hsymbol
    exact (byteLen_singleton _).symm

theorem spmSymbols_texts (text : Text) :
    (List.range text.length).map (textSpm (spmSymbols text)) = text.map fun c => [c] := by
  apply List.ext_getElem
  · rw [List.length_map, List.length_map, List.length_range]
  · intro i hleft hright
    rw [List.getElem_map, List.getElem_range, List.getElem_map]
    rw [List.length_map] at hright
    unfold textSpm
    rw [spmSymbols_getElem? (List.getElem?_eq_getElem hright)]
    rfl

/-!
# One merge
-/

/-- The symbol at `i` after a join. -/
def joinedSpmSymbol (left right : Nat) (rightSymbol : SpmMergeSymbol) (i : Nat)
    (symbol : SpmMergeSymbol) : SpmMergeSymbol where
  text := if i = right then [] else if i = left then symbol.text ++ rightSymbol.text else
    symbol.text
  n := if i = right then 0 else if i = left then symbol.n + rightSymbol.n else symbol.n
  prev := if rightSymbol.next = some i then some left else symbol.prev
  next := if i = left then rightSymbol.next else symbol.next

variable {left right : Nat}

theorem joinSpmSymbols_getElem? {rightSymbol : SpmMergeSymbol} (hleft : left < symbols.length)
    (hright : symbols[right]? = some rightSymbol)
    (hnext : forall i, rightSymbol.next = some i -> i < symbols.length) :
    exists joined, joinSpmSymbols symbols left right = .ok joined ∧
      forall i, joined[i]? = symbols[i]?.map (joinedSpmSymbol left right rightSymbol i) := by
  have hbound : right < symbols.length := (List.getElem?_eq_some_iff.mp hright).1
  unfold joinSpmSymbols
  rw [index_of_getElem?_eq_some hright, ok_bind, modifyAt_of_lt hleft, ok_bind,
    modifyAt_of_lt (by simpa using hbound), ok_bind, modifyAt_of_lt (by simpa using hleft), ok_bind]
  cases hbehind : rightSymbol.next with
  | none =>
    refine ⟨_, rfl, ?_⟩
    intro i
    rw [getElem?_modify_eq_map, getElem?_modify_eq_map, getElem?_modify_eq_map, Option.map_map,
      Option.map_map]
    congr 1
    funext symbol
    simp only [Function.comp_apply, joinedSpmSymbol]
    split_ifs <;> simp_all
  | some rightNext =>
    have hlt : rightNext < symbols.length := hnext rightNext hbehind
    refine ⟨_, modifyAt_of_lt (by simpa using hlt), ?_⟩
    intro i
    rw [getElem?_modify_eq_map, getElem?_modify_eq_map, getElem?_modify_eq_map,
      getElem?_modify_eq_map, Option.map_map, Option.map_map, Option.map_map]
    congr 1
    funext symbol
    simp only [Function.comp_apply, joinedSpmSymbol]
    split_ifs <;> simp_all

theorem length_eq_of_getElem?_map {alpha beta : Type} {xs : List alpha} {ys : List beta}
    {f : Nat -> alpha -> beta} (h : forall i, ys[i]? = xs[i]?.map (f i)) :
    ys.length = xs.length := by
  apply Nat.le_antisymm
  · rw [← List.getElem?_eq_none_iff, h, List.getElem?_length, Option.map_none]
  · rw [← List.getElem?_eq_none_iff]
    apply Option.map_eq_none_iff.mp
    rw [← h, List.getElem?_length]

variable {before after : List Nat}

theorem joinSpmSymbols_row (h : SpmRow symbols (before ++ left :: right :: after)) :
    exists joined, joinSpmSymbols symbols left right = .ok joined ∧
      SpmRow joined (before ++ left :: after) ∧ joined.length = symbols.length ∧
      forall i, i ≠ right ->
        textSpm joined i = Function.update (textSpm symbols) left
          (textSpm symbols left ++ textSpm symbols right) i := by
  have hlt : left < right :=
    neighbours_lt h.linked.ascending (neighbours_split before after left right)
  have hleft : left ∈ before ++ left :: right :: after := by simp
  have hright : right ∈ before ++ left :: right :: after := by simp
  have hbehind : forall i, nextSpm symbols right = some i ->
      i ∈ before ++ left :: right :: after := by
    intro i hi
    exact ((h.linked.next_iff right i hright).mp hi).mem_right
  rcases joinSpmSymbols_getElem? (h.lt_length hleft) (h.symbol hright)
    (fun i hi => h.lt_length (hbehind i hi)) with ⟨joined, hjoined, hget⟩
  have hkept : forall i, i ∈ before ++ left :: after -> joined[i]? =
      some (joinedSpmSymbol left right
        { text := textSpm symbols right
          n := byteLen (textSpm symbols right)
          prev := prevSpm symbols right
          next := nextSpm symbols right } i
        { text := textSpm symbols i
          n := byteLen (textSpm symbols i)
          prev := prevSpm symbols i
          next := nextSpm symbols i }) := by
    intro i hi
    have hrow : i ∈ before ++ left :: right :: after := by
      simp at hi ⊢
      tauto
    rw [hget, h.symbol hrow]
    rfl
  have hne : forall i, i ∈ before ++ left :: after -> i ≠ right :=
    fun i hi heq => not_mem_drop h.linked.ascending (heq ▸ hi)
  refine ⟨joined, hjoined, ⟨?_, ?_⟩, ?_, ?_⟩
  · apply h.linked.drop
    · intro i
      unfold usedSpm
      rw [hget]
      cases hsymbol : symbols[i]? with
      | none => simp
      | some symbol =>
        by_cases hdropped : i = right
        · simp [joinedSpmSymbol, hdropped]
        · by_cases heq : i = left
          · subst heq
            rw [h.symbol hleft] at hsymbol
            cases hsymbol
            have hpos := h.byteLen_pos hleft
            simp [joinedSpmSymbol, hdropped]
            omega
          · simp [joinedSpmSymbol, hdropped, heq]
    · intro i hi
      show joined[i]?.bind _ = _
      rw [hkept i hi]
      rfl
    · intro i hi
      show joined[i]?.bind _ = _
      rw [hkept i hi]
      rfl
  · intro i symbol hsymbol
    rw [hget] at hsymbol
    rcases Option.map_eq_some_iff.mp hsymbol with ⟨old, hold, rfl⟩
    have hsize := h.sizes i old hold
    by_cases hdropped : i = right
    · simp [joinedSpmSymbol, hdropped, byteLen, encodeText]
    · by_cases heq : i = left
      · subst heq
        rw [h.symbol hleft] at hold
        cases hold
        simp [joinedSpmSymbol, hdropped, byteLen_append]
      · simp [joinedSpmSymbol, hdropped, heq, hsize]
  · exact length_eq_of_getElem?_map hget
  · intro i hi
    rw [Function.update_apply]
    unfold textSpm
    rw [hget, Option.map_map]
    by_cases heq : i = left
    · subst heq
      rw [if_pos rfl, h.symbol hleft]
      show (if i = right then [] else if i = i then _ else _) = _
      rw [if_neg hi, if_pos rfl]
      rfl
    · rw [if_neg heq]
      congr 2
      funext symbol
      show (if i = right then [] else if i = left then _ else _) = _
      rw [if_neg hi, if_neg heq]

/-!
# The queue
-/

theorem textSpm_of_getElem? {symbol : SpmMergeSymbol} (h : symbols[i]? = some symbol) :
    textSpm symbols i = symbol.text := by
  unfold textSpm
  rw [h]
  rfl

theorem SpmRow.mem_iff {symbol : SpmMergeSymbol} (h : SpmRow symbols row)
    (hsymbol : symbols[i]? = some symbol) :
    i ∈ row ↔ symbol.n ≠ 0 := by
  rw [← h.linked.used_iff]
  constructor
  · rintro ⟨found, hfound, hn⟩
    rw [hsymbol] at hfound
    cases hfound
    exact hn
  · intro hn
    exact ⟨symbol, hsymbol, hn⟩

def SpmBigram.candidate (bigram : SpmBigram) : Candidate :=
  ⟨bigram.rank, bigram.left, bigram.right⟩

def pairLen (symbols : List SpmMergeSymbol) (left right : Nat) : Nat :=
  byteLen (textSpm symbols left) + byteLen (textSpm symbols right)

def SpmState.Queued (symbols : List SpmMergeSymbol) (queue : List SpmBigram)
    (candidate : Candidate) : Prop :=
  exists bigram, bigram ∈ queue ∧ bigram.candidate = candidate ∧
    bigram.size = pairLen symbols candidate.left candidate.right

variable {score : Type}

/-- Two symbols in use have outgrown the entry, or they are still the pair that was
queued. -/
structure SoundBigram (rank : Text -> Text -> Option Nat) (symbols : List SpmMergeSymbol)
    (row : List Nat) (bigram : SpmBigram) : Prop where
  left_lt : bigram.left < symbols.length
  right_lt : bigram.right < symbols.length
  size_le : bigram.left ∈ row -> bigram.right ∈ row ->
    bigram.size <= pairLen symbols bigram.left bigram.right
  current : bigram.left ∈ row -> bigram.right ∈ row ->
    bigram.size = pairLen symbols bigram.left bigram.right ->
    bigram.candidate.Current rank (textSpm symbols) row

theorem before_of_spmOrder_le {first second : SpmBigram} (h : spmOrder second <= spmOrder first) :
    first.candidate.Before second.candidate := by
  have h : toLex (first.rank, first.left) <= toLex (second.rank, second.left) := h
  exact Prod.Lex.toLex_le_toLex.mp h

theorem SoundBigram.join {rank : Text -> Text -> Option Nat}
    {symbols joined : List SpmMergeSymbol} {bigram : SpmBigram}
    (h : SoundBigram rank symbols (before ++ left :: right :: after) bigram)
    (hrow : SpmRow symbols (before ++ left :: right :: after))
    (hlength : joined.length = symbols.length) (htexts : forall i, i ≠ right ->
      textSpm joined i = Function.update (textSpm symbols) left
        (textSpm symbols left ++ textSpm symbols right) i) :
    SoundBigram rank joined (before ++ left :: after) bigram := by
  have habsent := not_mem_drop hrow.linked.ascending
  have hkept : forall i, i ∈ before ++ left :: after -> i ∈ before ++ left :: right :: after := by
    intro i hi
    simp at hi ⊢
    tauto
  have hne : forall i, i ∈ before ++ left :: after -> i ≠ right :=
    fun i hi heq => habsent (heq ▸ hi)
  have hpos : 0 < byteLen (textSpm symbols right) := hrow.byteLen_pos (by simp)
  have hgrown : byteLen (textSpm joined left) =
      byteLen (textSpm symbols left) + byteLen (textSpm symbols right) := by
    rw [htexts left (hne left (by simp)), Function.update_self, byteLen_append]
  have hsame : forall i, i ∈ before ++ left :: after -> i ≠ left ->
      textSpm joined i = textSpm symbols i := by
    intro i hi hother
    rw [htexts i (hne i hi), Function.update_of_ne hother]
  have hle : forall i, i ∈ before ++ left :: after ->
      byteLen (textSpm symbols i) <= byteLen (textSpm joined i) := by
    intro i hi
    by_cases hother : i = left
    · rw [hother, hgrown]
      exact Nat.le_add_right _ _
    · rw [hsame i hi hother]
  constructor
  · rw [hlength]
    exact h.left_lt
  · rw [hlength]
    exact h.right_lt
  · intro hleft hright
    exact Nat.le_trans (h.size_le (hkept _ hleft) (hkept _ hright))
      (Nat.add_le_add (hle _ hleft) (hle _ hright))
  · intro hleft hright hsize
    have hold := h.size_le (hkept _ hleft) (hkept _ hright)
    have hleftLe := hle _ hleft
    have hrightLe := hle _ hright
    unfold pairLen at hold hsize
    have hfirst : bigram.left ≠ left := by
      intro heq
      rw [heq] at hold hsize
      omega
    have hsecond : bigram.right ≠ left := by
      intro heq
      rw [heq] at hold hsize
      omega
    rw [hsame _ hleft hfirst, hsame _ hright hsecond] at hsize
    rcases h.current (hkept _ hleft) (hkept _ hright) hsize with ⟨hpair, hrank⟩
    refine ⟨(neighbours_drop_iff hfirst (hne _ hleft)).mp hpair, ?_⟩
    show rank (textSpm joined bigram.left) (textSpm joined bigram.right) = _
    rw [hsame _ hleft hfirst, hsame _ hright hsecond]
    exact hrank

theorem covers_join {rank : Text -> Text -> Option Nat} {symbols joined : List SpmMergeSymbol}
    {queue queue' : List SpmBigram} (hrow : SpmRow symbols (before ++ left :: right :: after))
    (hcovers : Covers rank (textSpm symbols) (before ++ left :: right :: after)
      (SpmState.Queued symbols queue))
    (htexts : forall i, i ≠ right ->
      textSpm joined i = Function.update (textSpm symbols) left
        (textSpm symbols left ++ textSpm symbols right) i)
    (hkept : forall entry, entry ∈ queue -> entry.left ≠ left -> entry ∈ queue')
    (hprev : forall i least, before.getLast? = some i ->
      rank (textSpm joined i) (textSpm joined left) = some least ->
      SpmState.Queued joined queue' ⟨least, i, left⟩)
    (hnext : forall j least, after.head? = some j ->
      rank (textSpm joined left) (textSpm joined j) = some least ->
      SpmState.Queued joined queue' ⟨least, left, j⟩) :
    Covers rank (textSpm joined) (before ++ left :: after) (SpmState.Queued joined queue') := by
  have hascending := hrow.linked.ascending
  have hdropped := ascending_drop hascending
  have hne : forall i, i ∈ before ++ left :: after -> i ≠ right :=
    fun i hi heq => not_mem_drop hascending (heq ▸ hi)
  have hleft : textSpm joined left = textSpm symbols left ++ textSpm symbols right := by
    rw [htexts left (hne left (by simp)), Function.update_self]
  have hother : forall i, i ≠ left -> i ≠ right -> textSpm joined i = textSpm symbols i := by
    intro i hi hright
    rw [htexts i hright, Function.update_of_ne hi]
  have hpair : Covers rank (Function.update (textSpm symbols) (⟨0, left, right⟩ : Candidate).left
      (textSpm symbols left ++ textSpm symbols right)) (before ++ left :: after)
      (SpmState.Queued joined queue') := by
    refine Covers.merge hcovers hascending ?_ ?_ ?_
    · rintro other ⟨entry, hentry, rfl, hsize⟩ hll hlr hrl hrr
      refine ⟨entry, hkept entry hentry hll, rfl, ?_⟩
      unfold pairLen at hsize ⊢
      rw [hother _ hll hlr, hother _ hrl hrr]
      exact hsize
    · intro i least hi hranked
      have hmem := List.mem_of_getLast? hi
      apply hprev i least hi
      rw [hleft, hother i (Nat.ne_of_lt (before_lt_of_ascending hdropped hmem))
        (hne i (List.mem_append_left _ hmem))]
      exact hranked
    · intro j least hj hranked
      have hmem := List.mem_of_head? hj
      apply hnext j least hj
      rw [hleft, hother j (Nat.ne_of_gt (after_gt_of_ascending hdropped hmem))
        (hne j (List.mem_append_right _ (List.mem_cons_of_mem _ hmem)))]
      exact hranked
  exact hpair.congr (fun i hi => htexts i (hne i hi))

namespace Tokenizer

variable {tok : Tokenizer score}

theorem tokenId_of_spmRank {left right : Text} (h : tok.spmRank left right ≠ none) :
    tok.vocab.tokenId (left ++ right) ≠ none := by
  intro hnone
  unfold spmRank at h
  rw [hnone] at h
  exact h rfl

structure Added (tok : Tokenizer score) (row : List Nat) (left right : Option Nat)
    (s added : SpmState) : Prop where
  symbols : added.symbols = s.symbols
  length : added.workQueue.length <= s.workQueue.length + 1
  kept : forall bigram, bigram ∈ s.workQueue -> bigram ∈ added.workQueue
  fresh : forall bigram, bigram ∈ added.workQueue -> bigram ∈ s.workQueue ∨
    SoundBigram tok.spmRank s.symbols row bigram
  ranked : forall i j least, left = some i -> right = some j ->
    tok.spmRank (textSpm s.symbols i) (textSpm s.symbols j) = some least ->
    SpmState.Queued s.symbols added.workQueue ⟨least, i, j⟩
  keys : forall entry, entry ∈ added.revMerge -> entry ∈ s.revMerge ∨
    tok.vocab.tokenId entry.1 ≠ none

theorem added_same (tok : Tokenizer score) (row : List Nat) (s : SpmState) {left right : Option Nat}
    (h : forall i j least, left = some i -> right = some j ->
      tok.spmRank (textSpm s.symbols i) (textSpm s.symbols j) = some least -> False) :
    tok.Added row left right s s := by
  constructor
  · rfl
  · exact Nat.le_succ _
  · intro bigram hbigram
    exact hbigram
  · intro bigram hbigram
    exact Or.inl hbigram
  · intro i j least hi hj hrank
    exact (h i j least hi hj hrank).elim
  · intro entry hentry
    exact Or.inl hentry

variable {row : List Nat}

theorem tryAddBigram_eq (tok : Tokenizer score) (s : SpmState) (left right : Option Nat)
    (h : SpmRow s.symbols row)
    (hpair : forall i j, left = some i -> right = some j -> Neighbours row i j) :
    exists added, tok.tryAddBigram left right s = .ok added ∧
      tok.Added row left right s added := by
  cases left with
  | none =>
    refine ⟨s, rfl, tok.added_same row s ?_⟩
    intro i j least hi
    cases hi
  | some i =>
    cases right with
    | none =>
      refine ⟨s, rfl, tok.added_same row s ?_⟩
      intro i j least _ hj
      cases hj
    | some j =>
      have hpair := hpair i j rfl rfl
      unfold tryAddBigram
      dsimp only
      rw [index_of_getElem?_eq_some (h.symbol hpair.mem_left), ok_bind,
        index_of_getElem?_eq_some (h.symbol hpair.mem_right), ok_bind]
      dsimp only
      cases hrank : tok.spmRank (textSpm s.symbols i) (textSpm s.symbols j) with
      | none =>
        refine ⟨s, rfl, tok.added_same row s ?_⟩
        intro i j least hi hj hleast
        cases hi
        cases hj
        cases hrank.symm.trans hleast
      | some rank =>
        refine ⟨_, rfl, rfl, Nat.le_refl _, ?_, ?_, ?_, ?_⟩
        · intro bigram hbigram
          exact List.mem_cons_of_mem _ hbigram
        · intro bigram hbigram
          cases hbigram with
          | head =>
            refine Or.inr ⟨h.lt_length hpair.mem_left, h.lt_length hpair.mem_right, ?_, ?_⟩
            · intro _ _
              exact Nat.le_of_eq (byteLen_append _ _)
            · intro _ _ _
              exact ⟨hpair, hrank⟩
          | tail _ hmem => exact Or.inl hmem
        · intro i j least hi hj hleast
          cases hi
          cases hj
          cases hrank.symm.trans hleast
          exact ⟨_, List.mem_cons_self, rfl, byteLen_append _ _⟩
        · intro entry hentry
          cases hentry with
          | head =>
            apply Or.inr
            apply tokenId_of_spmRank
            rw [hrank]
            exact Option.some_ne_none rank
          | tail _ hmem => exact Or.inl hmem

/-!
# The loop
-/

/-- What holds between two merges of the texts, with so many rounds left at most. -/
structure MergingTexts (tok : Tokenizer score) (texts : List Text) (rounds : Nat) (s : SpmState)
    (row : List Nat) : Prop where
  linked : SpmRow s.symbols row
  head : row.head? = some 0
  covers : Covers tok.spmRank (textSpm s.symbols) row (SpmState.Queued s.symbols s.workQueue)
  sound : forall bigram, bigram ∈ s.workQueue -> SoundBigram tok.spmRank s.symbols row bigram
  keys : forall entry : Text × Nat × Nat, entry ∈ s.revMerge -> tok.vocab.tokenId entry.1 ≠ none
  leads : forall ys, Merges tok.spmRank (fun left right => some (left ++ right))
      (row.map (textSpm s.symbols)) ys ->
    Merges tok.spmRank (fun left right => some (left ++ right)) texts ys
  length : row.length <= s.symbols.length
  size : s.symbols.length = texts.length
  bound : 3 * row.length + s.workQueue.length <= rounds

structure MergedTexts (tok : Tokenizer score) (texts : List Text) (s : SpmState) (row : List Nat) :
    Prop where
  linked : SpmRow s.symbols row
  head : row.head? = some 0
  keys : forall entry : Text × Nat × Nat, entry ∈ s.revMerge -> tok.vocab.tokenId entry.1 ≠ none
  merges : Merges tok.spmRank (fun left right => some (left ++ right)) texts
    (row.map (textSpm s.symbols))
  length : row.length <= s.symbols.length
  size : s.symbols.length = texts.length

variable {texts : List Text} {s : SpmState}

theorem MergingTexts.pass {rounds : Nat} {bigram : SpmBigram} {queue : List SpmBigram}
    (h : tok.MergingTexts texts rounds s row) (hpopped : Popped spmOrder s.workQueue bigram queue)
    (hstale : ¬ (bigram.left ∈ row ∧ bigram.right ∈ row ∧
      bigram.size = pairLen s.symbols bigram.left bigram.right)) :
    tok.MergingTexts texts (3 * row.length + queue.length) { s with workQueue := queue } row := by
  refine ⟨h.linked, h.head, ?_, ?_, h.keys, h.leads, h.length, h.size, Nat.le_refl _⟩
  · intro i j least hpair hrank
    rcases h.covers i j least hpair hrank with ⟨entry, hentry, hcandidate, hsize⟩
    refine ⟨entry, hpopped.mem_rest hentry ?_, hcandidate, hsize⟩
    rintro rfl
    apply hstale
    have hleft : entry.left = i := congrArg Candidate.left hcandidate
    have hright : entry.right = j := congrArg Candidate.right hcandidate
    rw [hleft, hright]
    exact ⟨hpair.mem_left, hpair.mem_right, hsize⟩
  · intro entry hentry
    exact h.sound entry (hpopped.mem_heap hentry)

theorem mergeBigram_delivers (tok : Tokenizer score) {rounds : Nat} {bigram : SpmBigram}
    {queue : List SpmBigram} (h : tok.MergingTexts texts rounds s row)
    (hpopped : Popped spmOrder s.workQueue bigram queue)
    (hpair : Neighbours row bigram.left bigram.right)
    (hrank : tok.spmRank (textSpm s.symbols bigram.left) (textSpm s.symbols bigram.right) =
      some bigram.rank) :
    Delivers (tok.mergeBigram { s with workQueue := queue } bigram)
      (fun following => exists fewer, fewer < rounds ∧
        exists row, tok.MergingTexts texts fewer following row) := by
  have hbound := h.bound
  have hqueue := hpopped.length
  have hlength := h.length
  rcases hpair with ⟨before, after, rfl⟩
  have hleast : forall other, SpmState.Queued s.symbols s.workQueue other ->
      bigram.candidate.Before other := by
    rintro other ⟨entry, hentry, rfl, _⟩
    exact before_of_spmOrder_le (hpopped.le entry hentry)
  have hbest : BestPair tok.spmRank (before.map (textSpm s.symbols))
      (textSpm s.symbols bigram.left) (textSpm s.symbols bigram.right)
      (after.map (textSpm s.symbols)) bigram.rank :=
    bestPair_of_current h.linked.linked.ascending h.covers hleast hrank
  rcases joinSpmSymbols_row h.linked with ⟨joined, hjoined, hrow, hsize, htexts⟩
  have hne : forall i, i ∈ before ++ bigram.left :: after -> i ≠ bigram.right :=
    fun i hi heq => not_mem_drop h.linked.linked.ascending (heq ▸ hi)
  have hbodies : forall i, i ∈ before ++ bigram.left :: after -> textSpm joined i =
      Function.update (textSpm s.symbols) bigram.left
        (textSpm s.symbols bigram.left ++ textSpm s.symbols bigram.right) i :=
    fun i hi => htexts i (hne i hi)
  have hprevPair : forall i j, prevSpm joined bigram.left = some i -> some bigram.left = some j ->
      Neighbours (before ++ bigram.left :: after) i j := by
    intro i j hi hj
    cases hj
    exact (hrow.linked.prev_iff i bigram.left (by simp)).mp hi
  rcases tok.tryAddBigram_eq { s with symbols := joined, workQueue := queue } _ _ hrow hprevPair
    with ⟨withPrev, hprev, hprevAdded⟩
  have hnextPair : forall i j, some bigram.left = some i -> nextSpm joined bigram.left = some j ->
      Neighbours (before ++ bigram.left :: after) i j := by
    intro i j hi hj
    cases hi
    exact (hrow.linked.next_iff bigram.left j (by simp)).mp hj
  have hfirst : withPrev.symbols = joined := hprevAdded.symbols
  have hrowPrev : SpmRow withPrev.symbols (before ++ bigram.left :: after) := by
    rw [hfirst]
    exact hrow
  rcases tok.tryAddBigram_eq withPrev _ _ hrowPrev hnextPair with ⟨withNext, hnext, hnextAdded⟩
  have hsymbols : withNext.symbols = joined := hnextAdded.symbols.trans hfirst
  refine ⟨withNext, ?_, 3 * (before ++ bigram.left :: after).length + withNext.workQueue.length, ?_,
    before ++ bigram.left :: after, ?_, ?_, ?_, ?_, ?_, ?_, ?_, ?_, ?_⟩
  · unfold mergeBigram
    dsimp only
    rw [hjoined, ok_bind, index_of_getElem?_eq_some (hrow.symbol (by simp)), ok_bind]
    dsimp only
    rw [hprev, ok_bind]
    exact hnext
  · have hprevLength := hprevAdded.length
    have hnextLength := hnextAdded.length
    dsimp only at hprevLength
    rw [List.length_append, List.length_cons] at hbound ⊢
    rw [List.length_cons] at hbound
    omega
  · rw [hsymbols]
    exact hrow
  · have hhead := h.head
    cases before with
    | nil => exact hhead
    | cons first before => exact hhead
  · rw [hsymbols]
    refine covers_join h.linked h.covers htexts ?_ ?_ ?_
    · intro entry hentry hother
      apply hnextAdded.kept _ (hprevAdded.kept _ (hpopped.mem_rest hentry ?_))
      rintro rfl
      exact hother rfl
    · intro i least hi hranked
      have hlink : prevSpm joined bigram.left = some i := hrow.linked.prev_eq.trans hi
      have hqueued := hprevAdded.ranked i bigram.left least hlink rfl hranked
      rcases hqueued with ⟨entry, hentry, hcandidate⟩
      exact ⟨entry, hnextAdded.kept entry hentry, hcandidate⟩
    · intro j least hj hranked
      rw [← hfirst] at hranked
      have hlink : nextSpm joined bigram.left = some j := hrow.linked.next_eq.trans hj
      have hqueued := hnextAdded.ranked bigram.left j least rfl hlink hranked
      rw [hfirst] at hqueued
      exact hqueued
  · intro entry hentry
    rw [hsymbols]
    rcases hnextAdded.fresh entry hentry with hentry | hsound
    · rcases hprevAdded.fresh entry hentry with hentry | hsound
      · exact (h.sound entry (hpopped.mem_heap hentry)).join h.linked hsize htexts
      · exact hsound
    · rw [hfirst] at hsound
      exact hsound
  · intro entry hentry
    rcases hnextAdded.keys entry hentry with hentry | hentry
    · rcases hprevAdded.keys entry hentry with hentry | hentry
      · exact h.keys entry hentry
      · exact hentry
    · exact hentry
  · intro ys hys
    have hleads := h.leads
    rw [List.map_append, List.map_cons, List.map_cons] at hleads
    apply hleads
    apply Merges.merge hbest rfl
    rw [hsymbols, List.map_congr_left hbodies, map_update_row hrow.linked.ascending] at hys
    exact hys
  · rw [hsymbols, hsize]
    rw [List.length_append, List.length_cons] at hlength ⊢
    rw [List.length_cons] at hlength
    omega
  · rw [hsymbols, hsize]
    exact h.size
  · exact Nat.le_refl _

variable {allowed : Fault -> Prop}

theorem spmStep_triple (tok : Tokenizer score) (rounds : Nat) (s : SpmState)
    (h : exists row, tok.MergingTexts texts rounds s row) :
    Triple allowed (tok.spmStep s)
      (Step.Satisfies (fun following => exists fewer, fewer < rounds ∧
          exists row, tok.MergingTexts texts fewer following row)
        (fun merged => exists row, tok.MergedTexts texts merged row)) := by
  rcases h with ⟨row, h⟩
  unfold spmStep spmStepBy
  cases hpop : popMaximum spmOrder s.workQueue with
  | none =>
    apply triple_ok
    refine ⟨row, h.linked, h.head, h.keys, h.leads _ ?_, h.length, h.size⟩
    apply rest_of_covers h.covers
    rintro candidate ⟨entry, hentry, _⟩
    rw [popMaximum_eq_none hpop] at hentry
    cases hentry
  | some popped =>
    rcases popped with ⟨bigram, queue⟩
    have hpopped := popped_of_popMaximum hpop
    have hsound := h.sound bigram (hpopped.perm.mem_iff.mpr List.mem_cons_self)
    have hleft := List.getElem?_eq_getElem hsound.left_lt
    have hright := List.getElem?_eq_getElem hsound.right_lt
    have hleftLen := h.linked.sizes _ _ hleft
    have hrightLen := h.linked.sizes _ _ hright
    have hstale : forall (hpassed : ¬ (bigram.left ∈ row ∧ bigram.right ∈ row ∧
        bigram.size = pairLen s.symbols bigram.left bigram.right)),
        exists fewer, fewer < rounds ∧
          exists row, tok.MergingTexts texts fewer { s with workQueue := queue } row := by
      intro hpassed
      have hbound := h.bound
      have hqueue := hpopped.length
      exact ⟨3 * row.length + queue.length, by omega, row, h.pass hpopped hpassed⟩
    dsimp only
    rw [index_of_getElem?_eq_some hleft, ok_bind, index_of_getElem?_eq_some hright, ok_bind]
    split
    · rename_i hdropped
      apply triple_pure
      apply hstale
      rintro ⟨hmemLeft, hmemRight, _⟩
      rcases hdropped with hdropped | hdropped
      · exact (h.linked.mem_iff hleft).mp hmemLeft hdropped
      · exact (h.linked.mem_iff hright).mp hmemRight hdropped
    · rename_i hused
      rw [not_or] at hused
      have hmemLeft := (h.linked.mem_iff hleft).mpr hused.1
      have hmemRight := (h.linked.mem_iff hright).mpr hused.2
      split
      · rename_i hsize
        apply triple_pure
        apply hstale
        rintro ⟨_, _, heq⟩
        apply hsize
        rw [hleftLen, hrightLen, heq]
        unfold pairLen
        rw [textSpm_of_getElem? hleft, textSpm_of_getElem? hright]
      · rename_i hsize
        have heq : bigram.size = pairLen s.symbols bigram.left bigram.right := by
          unfold pairLen
          rw [textSpm_of_getElem? hleft, textSpm_of_getElem? hright, ← hleftLen, ← hrightLen]
          exact (Classical.not_not.mp hsize).symm
        rcases hsound.current hmemLeft hmemRight heq with ⟨hpair, hrank⟩
        rcases tok.mergeBigram_delivers h hpopped hpair hrank with ⟨merged, hmerged, hrest⟩
        rw [hmerged, ok_bind]
        exact triple_pure hrest

structure QueuedTexts (tok : Tokenizer score) (text : Text) (count : Nat) (s : SpmState) :
    Prop where
  symbols : s.symbols = spmSymbols text
  length : s.workQueue.length <= count
  sound : forall bigram, bigram ∈ s.workQueue ->
    SoundBigram tok.spmRank (spmSymbols text) (List.range text.length) bigram
  keys : forall entry : Text × Nat × Nat, entry ∈ s.revMerge -> tok.vocab.tokenId entry.1 ≠ none
  ranked : forall i least, i < count ->
    tok.spmRank (textSpm (spmSymbols text) i) (textSpm (spmSymbols text) (i + 1)) = some least ->
    SpmState.Queued (spmSymbols text) s.workQueue ⟨least, i, i + 1⟩

theorem queueTexts_delivers (tok : Tokenizer score) (text : Text) :
    Delivers (tok.queueTexts text) (tok.QueuedTexts text (text.length - 1)) := by
  unfold queueTexts
  apply forRange_delivers (tok.QueuedTexts text)
  · refine ⟨rfl, Nat.le_refl 0, ?_, ?_, ?_⟩
    · intro bigram hbigram
      cases hbigram
    · intro entry hentry
      cases hentry
    · intro i least hi
      exact absurd hi (Nat.not_lt_zero i)
  · intro count hcount s hs
    have hpair : Neighbours (List.range text.length) count (count + 1) :=
      neighbours_range_iff.mpr ⟨rfl, by omega⟩
    have hrow : SpmRow s.symbols (List.range text.length) := by
      rw [hs.symbols]
      exact spmSymbols_row text
    rcases tok.tryAddBigram_eq s (some count) (some (count + 1)) hrow
      (fun i j hi hj => by
        cases hi
        cases hj
        exact hpair) with ⟨added, hadd, hadded⟩
    refine ⟨added, hadd, hadded.symbols.trans hs.symbols, ?_, ?_, ?_, ?_⟩
    · exact Nat.le_trans hadded.length (Nat.succ_le_succ hs.length)
    · intro bigram hbigram
      rcases hadded.fresh bigram hbigram with hold | hnew
      · exact hs.sound bigram hold
      · rw [hs.symbols] at hnew
        exact hnew
    · intro entry hentry
      rcases hadded.keys entry hentry with hold | hnew
      · exact hs.keys entry hold
      · exact hnew
    · intro i least hi hrank
      rcases Nat.lt_succ_iff_lt_or_eq.mp hi with hlt | heq
      · rcases hs.ranked i least hlt hrank with ⟨entry, hentry, hcurrent⟩
        exact ⟨entry, hadded.kept entry hentry, hcurrent⟩
      · subst heq
        rw [← hs.symbols] at hrank ⊢
        exact hadded.ranked i (i + 1) least rfl rfl hrank

/-!
# Collecting the tokens
-/

def pieceTokens (tok : Tokenizer score) (text : Text) : List TokenId :=
  match tok.vocab.tokenId text with
  | some token => [token]
  | none => tok.byteFallback text

theorem resegment_eq {i : Nat} {symbol : SpmMergeSymbol} (fuel : Nat)
    (hkeys : forall entry : Text × Nat × Nat, entry ∈ s.revMerge ->
      tok.vocab.tokenId entry.1 ≠ none) (h : s.symbols[i]? = some symbol) :
    tok.resegment s (fuel + 1) i = .ok (tok.pieceTokens symbol.text) := by
  unfold resegment pieceTokens
  rw [index_of_getElem?_eq_some h, ok_bind]
  cases htoken : tok.vocab.tokenId symbol.text with
  | some token => rfl
  | none =>
    have hlookup : s.revMerge.lookup symbol.text = none := by
      rw [List.lookup_eq_none_iff]
      intro entry hentry
      rw [bne_iff_ne]
      intro heq
      apply hkeys entry hentry
      rw [← heq]
      exact htoken
    dsimp only
    rw [hlookup]
    rfl

theorem collectSpm_eq {fuel : Nat} {i : Nat} (before after : List Nat) (out : List TokenId)
    (h : SpmRow s.symbols (before ++ i :: after))
    (hkeys : forall entry : Text × Nat × Nat, entry ∈ s.revMerge ->
      tok.vocab.tokenId entry.1 ≠ none) (hfuel : after.length < fuel) :
    tok.collectSpm s fuel i out =
      .ok (out ++ ((i :: after).map (textSpm s.symbols)).flatMap tok.pieceTokens) := by
  induction fuel generalizing i before after out with
  | zero => cases hfuel
  | succ fuel ih =>
    have hmem : i ∈ before ++ i :: after := by simp
    have hsymbol := h.symbol hmem
    have htokens : tok.symbolTokens s i
        { text := textSpm s.symbols i
          n := byteLen (textSpm s.symbols i)
          prev := prevSpm s.symbols i
          next := nextSpm s.symbols i } = .ok (tok.pieceTokens (textSpm s.symbols i)) := by
      unfold symbolTokens
      rw [if_pos (h.byteLen_pos hmem), resegment_eq _ hkeys hsymbol]
    unfold collectSpm
    rw [index_of_getElem?_eq_some hsymbol, ok_bind, htokens, ok_bind]
    dsimp only
    rw [h.linked.next_eq]
    cases after with
    | nil =>
      show Except.ok _ = _
      rw [List.map_singleton, List.flatMap_singleton]
    | cons next after =>
      have hshift : (before ++ [i]) ++ next :: after = before ++ i :: next :: after := by
        simp
      show tok.collectSpm s fuel next _ = _
      rw [ih (before ++ [i]) after _ (hshift ▸ h) (Nat.lt_of_succ_lt_succ hfuel), List.append_assoc]
      rfl

theorem QueuedTexts.merging {marked : Text} {start : SpmState}
    (h : tok.QueuedTexts marked (marked.length - 1) start) (hlong : 0 < marked.length) :
    tok.MergingTexts (marked.map fun c => [c]) (3 * marked.length + start.workQueue.length) start
      (List.range marked.length) := by
  have hcount := length_spmSymbols marked
  refine ⟨?_, ?_, ?_, ?_, h.keys, ?_, ?_, ?_, ?_⟩
  · rw [h.symbols]
    exact spmSymbols_row marked
  · rw [List.head?_range, if_neg (by omega)]
  · rw [h.symbols]
    intro i j least hpair hrank
    rcases neighbours_range_iff.mp hpair with ⟨rfl, hlt⟩
    exact h.ranked i least (by omega) hrank
  · rw [h.symbols]
    exact h.sound
  · intro ys hys
    rw [h.symbols, spmSymbols_texts] at hys
    exact hys
  · rw [h.symbols, List.length_range, hcount]
  · rw [h.symbols, hcount, List.length_map]
  · rw [List.length_range]

theorem MergedTexts.collect {merged : SpmState} (h : tok.MergedTexts texts merged row) :
    tok.collectSpm merged (texts.length + 1) 0 [] =
      .ok ((row.map (textSpm merged.symbols)).flatMap tok.pieceTokens) := by
  cases row with
  | nil => cases h.head
  | cons first after =>
    cases h.head
    have hlength := h.length
    have hsize := h.size
    rw [List.length_cons] at hlength
    exact collectSpm_eq [] after [] h.linked h.keys (by omega)

theorem initialTokenizeGemma4Spm_delivers (tok : Tokenizer score) (text : Text) :
    Delivers (tok.initialTokenizeGemma4Spm text)
      (fun tokens => exists pieces,
        Merges tok.spmRank (fun left right => some (left ++ right))
          ((replaceChar ' ' spaceMark text).map fun c => [c]) pieces ∧
        tokens = pieces.flatMap tok.pieceTokens) := by
  apply Triple.delivers
  unfold initialTokenizeGemma4Spm tokenizeSpmBy
  split
  · rename_i hempty
    subst hempty
    apply triple_ok
    refine ⟨[], Merges.rest ?_, rfl⟩
    intro x y hpair
    exact absurd hpair (not_neighbours_nil x y)
  · rename_i hne
    generalize hmarked : replaceChar ' ' spaceMark text = marked
    have hlong : 0 < marked.length := by
      rw [← hmarked]
      unfold replaceChar
      rw [List.length_map]
      exact List.length_pos_of_ne_nil hne
    dsimp only
    rcases tok.queueTexts_delivers marked with ⟨start, hcall, hstart⟩
    rw [hcall, ok_bind]
    have hqueue := hstart.length
    refine (loop_triple_bounded (3 * marked.length + start.workQueue.length)
      (fun rounds s => exists row, tok.MergingTexts (marked.map fun c => [c]) rounds s row)
      (fun merged => exists row, tok.MergedTexts (marked.map fun c => [c]) merged row)
      tok.spmStep_triple ⟨_, hstart.merging hlong⟩ (by omega)).bind ?_
    rintro merged ⟨row, hrow⟩
    have hcollect := hrow.collect
    rw [List.length_map] at hcollect
    rw [hcollect]
    exact triple_ok ⟨_, hrow.merges, rfl⟩

end Tokenizer

end Tokenization
end RunNBurn
