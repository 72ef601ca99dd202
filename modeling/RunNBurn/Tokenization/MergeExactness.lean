import RunNBurn.Tokenization.Gemma4Float

/-!
# Exactness of the merge loops

Both merge loops keep a queue that is never cleaned up over symbols that never move.
What they leave is what the plain search for the leftmost pair of the least rank
leaves.
-/

namespace RunNBurn
namespace Tokenization

open Library

variable {score : Type}

namespace Tokenizer

/-!
# Token ids
-/

def RulesJoin (tok : Tokenizer score) : Prop :=
  forall left right rank, tok.mergeRank left right = some rank ->
    tok.joinTokens left right ≠ none

theorem bpeMerge_eq_naive (tok : Tokenizer score) (hrules : tok.RulesJoin) (tokens : List TokenId) :
    tok.bpeMerge tokens = .ok (naiveMerge tok.mergeRank tok.joinTokens tokens) ∧
      forall left right,
        Neighbours (naiveMerge tok.mergeRank tok.joinTokens tokens) left right ->
          tok.mergeRank left right = none := by
  rcases tok.bpeMerge_delivers tokens with ⟨merged, hmerged, hmerges⟩
  have hnaive := hmerges.eq_naiveMerge
  constructor
  · rw [hmerged, hnaive]
  · rw [← hnaive]
    exact hmerges.unranked hrules

/-- `bc` is joined first, which makes the entry of the `ab` before it stale. -/
def letterTokenizer : Tokenizer Unit where
  vocab :=
    { idToToken := [['a'], ['b'], ['c'], ['a', 'b'], ['b', 'c'], ['a', 'b', 'c']]
      special :=
        { bos := 0
          eos := 0
          pad := none }
      tokenTypes := []
      tokenizationSpecialIds := []
      unknown := none
      separator := none
      fits := by decide }
  merges := [(1, 2), (0, 1), (0, 4)]
  mode := .gpt2Bpe false
  sentencepieceScores := []
  addBosToken := false

theorem letterTokenizer_rulesJoin : letterTokenizer.RulesJoin := by
  intro left right rank hrank
  have hall : forall rule, rule ∈ letterTokenizer.merges ->
      letterTokenizer.joinTokens rule.1 rule.2 ≠ none := by
    decide
  exact hall (left, right) (List.mem_of_getElem? (getElem?_of_lastIndexOf hrank))

theorem bpeMerge_eq_naive_letters :
    letterTokenizer.bpeMerge [0, 1, 2, 0, 1] =
        .ok (naiveMerge letterTokenizer.mergeRank letterTokenizer.joinTokens [0, 1, 2, 0, 1]) ∧
      forall left right,
        Neighbours (naiveMerge letterTokenizer.mergeRank letterTokenizer.joinTokens
          [0, 1, 2, 0, 1]) left right ->
        letterTokenizer.mergeRank left right = none :=
  bpeMerge_eq_naive letterTokenizer letterTokenizer_rulesJoin [0, 1, 2, 0, 1]

/-!
# Texts
-/

def naivePieces (tok : Tokenizer score) (text : Text) : List Text :=
  naiveMerge tok.spmRank (fun left right => some (left ++ right)) (text.map fun c => [c])

variable {tok : Tokenizer score} {texts : List Text}

theorem sizeMatches_iff {rounds : Nat} {s : SpmState} {row : List Nat} {bigram : SpmBigram}
    (h : tok.MergingTexts texts rounds s row) (hsized : tok.AllSized s)
    (hqueued : bigram ∈ s.workQueue) :
    sizeMatches s bigram = true ↔ bigram.candidate.Current tok.spmRank (textSpm s.symbols) row := by
  have hsound := h.sound bigram hqueued
  constructor
  · intro hmatches
    have hleft := List.getElem?_eq_getElem hsound.left_lt
    have hright := List.getElem?_eq_getElem hsound.right_lt
    unfold sizeMatches at hmatches
    rw [hleft, hright] at hmatches
    simp only [Bool.and_eq_true, bne_iff_ne, beq_iff_eq] at hmatches
    have hmemLeft := (h.linked.mem_iff hleft).mpr hmatches.1.1
    have hmemRight := (h.linked.mem_iff hright).mpr hmatches.1.2
    apply hsound.current hmemLeft hmemRight
    unfold pairLen
    rw [textSpm_of_getElem? hleft, textSpm_of_getElem? hright,
      ← h.linked.sizes _ _ hleft, ← h.linked.sizes _ _ hright]
    exact hmatches.2.symm
  · intro hcurrent
    rcases hcurrent with ⟨hpair, hrank⟩
    rcases hsized bigram hqueued with ⟨left, right, hqueuedRank, hsize⟩
    have htexts := spmRank_injective hrank hqueuedRank
    have hpair : Neighbours row bigram.left bigram.right := hpair
    have hleftPos := h.linked.byteLen_pos hpair.mem_left
    have hrightPos := h.linked.byteLen_pos hpair.mem_right
    unfold sizeMatches
    rw [h.linked.symbol hpair.mem_left, h.linked.symbol hpair.mem_right]
    simp only [Bool.and_eq_true, bne_iff_ne, beq_iff_eq]
    constructor
    · exact ⟨Nat.ne_of_gt hleftPos, Nat.ne_of_gt hrightPos⟩
    · rw [hsize, ← htexts.1, ← htexts.2]
      rfl

theorem spmStepF32_popped {s : SpmState} {bigram : SpmBigram} {queue : List SpmBigram}
    (hpop : popMaximum spmScoreOrder s.workQueue = some (bigram, queue))
    (hleft : bigram.left < s.symbols.length) (hright : bigram.right < s.symbols.length) :
    tok.spmStepF32 s =
      if sizeMatches s bigram then do
        let merged <- tok.mergeBigram { s with workQueue := queue } bigram
        return .next merged
      else .ok (.next { s with workQueue := queue }) := by
  have hleft := List.getElem?_eq_getElem hleft
  have hright := List.getElem?_eq_getElem hright
  unfold spmStepF32 spmStepBy sizeMatches
  rw [hpop]
  dsimp only
  rw [index_of_getElem?_eq_some hleft, ok_bind, index_of_getElem?_eq_some hright, ok_bind,
    hleft, hright]
  by_cases hused : s.symbols[bigram.left].n = 0 ∨ s.symbols[bigram.right].n = 0
  · rw [if_pos hused, if_neg]
    · rfl
    · simp only [Bool.and_eq_true, bne_iff_ne, beq_iff_eq]
      intro h
      exact hused.elim h.1.1 h.1.2
  · rw [if_neg hused]
    rw [not_or] at hused
    by_cases hsize : s.symbols[bigram.left].n + s.symbols[bigram.right].n = bigram.size
    · rw [if_neg (Classical.not_not.mpr hsize), if_pos]
      simp only [Bool.and_eq_true, bne_iff_ne, beq_iff_eq]
      exact ⟨hused, hsize⟩
    · rw [if_pos hsize, if_neg]
      · rfl
      · simp only [Bool.and_eq_true, bne_iff_ne, beq_iff_eq]
        intro h
        exact hsize h.2

/-- The symbols in use, and what the size comparison does to the queue. -/
structure ExactQueue (tok : Tokenizer score) (s : SpmState) (row : List Nat) : Prop where
  linked : SpmRow s.symbols row
  head : row.head? = some 0
  exact : forall bigram, bigram ∈ s.workQueue ->
    (sizeMatches s bigram = true ↔ bigram.candidate.Current tok.spmRank (textSpm s.symbols) row)
  popped : forall bigram queue, popMaximum spmScoreOrder s.workQueue = some (bigram, queue) ->
    tok.spmStepF32 s =
      if sizeMatches s bigram then do
        let merged <- tok.mergeBigram { s with workQueue := queue } bigram
        return .next merged
      else .ok (.next { s with workQueue := queue })

theorem exactQueue_of_merging {rounds : Nat} {s : SpmState} {row : List Nat}
    (h : tok.MergingTexts texts rounds s row) (hsized : tok.AllSized s) :
    tok.ExactQueue s row := by
  constructor
  · exact h.linked
  · exact h.head
  · intro bigram hqueued
    exact sizeMatches_iff h hsized hqueued
  · intro bigram queue hpop
    have hpopped := popped_of_popMaximum hpop
    have hsound := h.sound bigram (hpopped.perm.mem_iff.mpr List.mem_cons_self)
    exact spmStepF32_popped hpop hsound.left_lt hsound.right_lt

theorem merging_of_reach {rounds : Nat} {start s : SpmState} {row : List Nat}
    (hstart : tok.MergingTexts texts rounds start row) (h : Reach tok.spmStep start s) :
    exists rounds row, tok.MergingTexts texts rounds s row := by
  apply reach_invariant (fun s => exists rounds row, tok.MergingTexts texts rounds s row)
    ⟨rounds, row, hstart⟩ _ h
  intro s following hs _ hstep
  rcases hs with ⟨rounds, hrow⟩
  have htriple : Triple (fun _ => True) (tok.spmStep s) _ := tok.spmStep_triple rounds s hrow
  rw [hstep] at htriple
  rcases htriple with ⟨fewer, _, hfollowing⟩
  exact ⟨fewer, hfollowing⟩

theorem queueTexts_loop (tok : Tokenizer score) {marked : Text} (hlong : 0 < marked.length) :
    exists start merged row, tok.queueTexts marked = .ok start ∧
      tok.AllSized start ∧
      tok.MergingTexts (marked.map fun c => [c])
        (3 * marked.length + start.workQueue.length) start (List.range marked.length) ∧
      loop tok.spmStep (4 * marked.length) start = .ok merged ∧
      tok.MergedTexts (marked.map fun c => [c]) merged row := by
  rcases tok.queueTexts_delivers marked with ⟨start, hcall, hstart⟩
  have hmerging := hstart.merging hlong
  have hqueue := hstart.length
  have hrounds : 3 * marked.length + start.workQueue.length < 4 * marked.length := by omega
  have hloop : Delivers (loop tok.spmStep (4 * marked.length) start)
      (fun merged => exists row, tok.MergedTexts (marked.map fun c => [c]) merged row) := by
    apply Triple.delivers
    exact loop_triple_bounded (3 * marked.length + start.workQueue.length)
      (fun rounds s => exists row, tok.MergingTexts (marked.map fun c => [c]) rounds s row)
      (fun merged => exists row, tok.MergedTexts (marked.map fun c => [c]) merged row)
      tok.spmStep_triple ⟨_, hmerging⟩ hrounds
  rcases hloop with ⟨merged, hmerged, row, hrow⟩
  exact ⟨start, merged, row, hcall, tok.queueTexts_sized marked start hcall, hmerging, hmerged,
    hrow⟩

theorem gemma4Spm_eq_naive (tok : Tokenizer score) (hfew : tok.merges.length < 2 ^ 24)
    (text : Text) :
    tok.initialTokenizeGemma4SpmF32 text =
        .ok ((tok.naivePieces (replaceChar ' ' spaceMark text)).flatMap tok.pieceTokens) ∧
      (text ≠ [] ->
        exists start merged row, tok.queueTexts (replaceChar ' ' spaceMark text) = .ok start ∧
          loop tok.spmStepF32 (4 * (replaceChar ' ' spaceMark text).length) start = .ok merged ∧
          SpmRow merged.symbols row ∧ row.head? = some 0 ∧
          row.map (textSpm merged.symbols) = tok.naivePieces (replaceChar ' ' spaceMark text) ∧
          forall s, Reach tok.spmStepF32 start s -> exists row, tok.ExactQueue s row) := by
  by_cases hne : text = []
  · constructor
    · rw [hne]
      rfl
    · intro hnonempty
      exact absurd hne hnonempty
  · generalize hmarked : replaceChar ' ' spaceMark text = marked
    have hlong : 0 < marked.length := by
      rw [← hmarked]
      unfold replaceChar
      rw [List.length_map]
      exact List.length_pos_of_ne_nil hne
    rcases tok.queueTexts_loop hlong with
      ⟨start, merged, row, hcall, hsized, hmerging, hloop, hmerged⟩
    rw [← loop_spmStepF32_eq hfew hsized] at hloop
    have hnaive : row.map (textSpm merged.symbols) = tok.naivePieces marked :=
      hmerged.merges.eq_naiveMerge
    constructor
    · have hcollect := hmerged.collect
      rw [List.length_map] at hcollect
      unfold initialTokenizeGemma4SpmF32 tokenizeSpmBy
      rw [if_neg hne, hmarked]
      dsimp only
      rw [hcall, ok_bind]
      unfold spmStepF32 at hloop
      rw [hloop, ok_bind, hcollect, hnaive]
    · intro _
      refine ⟨start, merged, row, hcall, hloop, hmerged.linked, hmerged.head, hnaive, ?_⟩
      intro s hreach
      rcases reach_spmStepF32 hfew hsized hreach with ⟨hreached, hall⟩
      rcases merging_of_reach hmerging hreached with ⟨rounds, row, hrow⟩
      exact ⟨row, exactQueue_of_merging hrow hall⟩

def abcab : Text :=
  ['a', 'b', 'c', 'a', 'b']

theorem gemma4Spm_eq_naive_letters :
    letterTokenizer.initialTokenizeGemma4SpmF32 abcab =
        .ok ((letterTokenizer.naivePieces (replaceChar ' ' spaceMark abcab)).flatMap
          letterTokenizer.pieceTokens) ∧
      (abcab ≠ [] ->
        exists start merged row,
          letterTokenizer.queueTexts (replaceChar ' ' spaceMark abcab) = .ok start ∧
          loop letterTokenizer.spmStepF32 (4 * (replaceChar ' ' spaceMark abcab).length) start =
            .ok merged ∧
          SpmRow merged.symbols row ∧ row.head? = some 0 ∧
          row.map (textSpm merged.symbols) =
            letterTokenizer.naivePieces (replaceChar ' ' spaceMark abcab) ∧
          forall s, Reach letterTokenizer.spmStepF32 start s ->
            exists row, letterTokenizer.ExactQueue s row) :=
  gemma4Spm_eq_naive letterTokenizer (by decide) abcab

end Tokenizer

end Tokenization
end RunNBurn
