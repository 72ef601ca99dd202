import RunNBurn.Library.LeastPairMerge
import RunNBurn.Tokenization.Gemma4Merge

/-!
# The Gemma 4 merge loop with its float scores

The queue is ordered by the negated rank as a 32-bit float.  Below `2 ^ 24` merge
rules the conversion is exact, and the loop is the one over the ranks themselves.
-/

namespace RunNBurn
namespace Tokenization

open Library

/-- `n as f32`: 24 significant bits, to the nearest, ties to even. -/
def f32OfNat (n : Nat) : Nat :=
  if n < 2 ^ 24 then n
  else
    let unit := 2 ^ (Nat.log2 n - 23)
    let quotient := n / unit
    let remainder := n % unit
    if unit < 2 * remainder ∨ (2 * remainder = unit ∧ quotient % 2 = 1) then
      (quotient + 1) * unit
    else
      quotient * unit

theorem f32OfNat_of_lt {n : Nat} (h : n < 2 ^ 24) : f32OfNat n = n :=
  if_pos h

/-- `SpmBigram::cmp`: the greater score first, which is the lesser rank, and the
lesser left index among equals. -/
def spmScoreOrder (bigram : SpmBigram) : OrderDual (Lex (Nat × Nat)) :=
  OrderDual.toDual (toLex (f32OfNat bigram.rank, bigram.left))

variable {score : Type}

namespace Tokenizer

def spmStepF32 (tok : Tokenizer score) : SpmState -> Checked (Step SpmState) :=
  tok.spmStepBy spmScoreOrder

def initialTokenizeGemma4SpmF32 (tok : Tokenizer score) (text : Text) :
    Checked (List TokenId) :=
  tok.tokenizeSpmBy spmScoreOrder text

def sizeMatches (s : SpmState) (bigram : SpmBigram) : Bool :=
  match s.symbols[bigram.left]?, s.symbols[bigram.right]? with
  | some left, some right => left.n != 0 && right.n != 0 && left.n + right.n == bigram.size
  | _, _ => false

/-!
# Ranks tell their pairs
-/

def Sized (tok : Tokenizer score) (bigram : SpmBigram) : Prop :=
  exists left right, tok.spmRank left right = some bigram.rank ∧
    bigram.size = byteLen left + byteLen right

variable {tok : Tokenizer score}

theorem lookups_of_spmRank {left right : Text} {rank : Nat}
    (h : tok.spmRank left right = some rank) :
    exists leftId rightId, tok.vocab.tokenId left = some leftId ∧
      tok.vocab.tokenId right = some rightId ∧ tok.mergeRank leftId rightId = some rank := by
  unfold spmRank at h
  split at h
  · cases h
  · split at h
    · rename_i leftId rightId hleft hright
      exact ⟨leftId, rightId, hleft, hright, h⟩
    · cases h

theorem rank_lt_of_spmRank {left right : Text} {rank : Nat}
    (h : tok.spmRank left right = some rank) :
    rank < tok.merges.length := by
  rcases lookups_of_spmRank h with ⟨leftId, rightId, _, _, hrank⟩
  exact (List.getElem?_eq_some_iff.mp (getElem?_of_lastIndexOf hrank)).1

theorem spmRank_injective {left right left' right' : Text} {rank : Nat}
    (h : tok.spmRank left right = some rank) (h' : tok.spmRank left' right' = some rank) :
    left = left' ∧ right = right' := by
  rcases lookups_of_spmRank h with ⟨leftId, rightId, hleft, hright, hrank⟩
  rcases lookups_of_spmRank h' with ⟨leftId', rightId', hleft', hright', hrank'⟩
  have hrule := getElem?_of_lastIndexOf hrank
  rw [getElem?_of_lastIndexOf hrank'] at hrule
  have hsame := Prod.mk.inj (Option.some.inj hrule)
  rw [hsame.1] at hleft'
  rw [hsame.2] at hright'
  constructor
  · have htext := Vocab.tokenStr_of_tokenId hleft
    rw [Vocab.tokenStr_of_tokenId hleft'] at htext
    exact (Option.some.inj htext).symm
  · have htext := Vocab.tokenStr_of_tokenId hright
    rw [Vocab.tokenStr_of_tokenId hright'] at htext
    exact (Option.some.inj htext).symm

/-!
# Every entry keeps the size it was queued with
-/

section

variable (tok : Tokenizer score)

def AllSized (s : SpmState) : Prop :=
  forall bigram, bigram ∈ s.workQueue -> tok.Sized bigram

theorem tryAddBigram_sized (left right : Option Nat) (s : SpmState)
    (h : tok.AllSized s) :
    Returns (tok.tryAddBigram left right s) tok.AllSized := by
  intro added hadded
  unfold tryAddBigram at hadded
  split at hadded
  · rename_i left right
    rcases bind_eq_ok hadded with ⟨leftSymbol, _, hadded⟩
    rcases bind_eq_ok hadded with ⟨rightSymbol, _, hadded⟩
    split at hadded
    · cases hadded
      exact h
    · rename_i rank hrank
      cases hadded
      intro bigram hbigram
      cases hbigram with
      | head => exact ⟨leftSymbol.text, rightSymbol.text, hrank, byteLen_append _ _⟩
      | tail _ hmem => exact h bigram hmem
  · cases hadded
    exact h

theorem mergeBigram_sized (s : SpmState) (bigram : SpmBigram)
    (h : tok.AllSized s) :
    Returns (tok.mergeBigram s bigram) tok.AllSized := by
  intro merged hmerged
  rcases bind_eq_ok hmerged with ⟨symbols, _, hmerged⟩
  rcases bind_eq_ok hmerged with ⟨left, _, hmerged⟩
  rcases bind_eq_ok hmerged with ⟨withPrev, hprev, hnext⟩
  have hfirst := tok.tryAddBigram_sized left.prev (some bigram.left)
    { s with symbols := symbols } h withPrev hprev
  exact tok.tryAddBigram_sized (some bigram.left) left.next withPrev hfirst merged hnext

theorem spmStep_sized (s following : SpmState) (h : tok.AllSized s)
    (hstep : tok.spmStep s = .ok (.next following)) :
    tok.AllSized following := by
  unfold spmStep spmStepBy at hstep
  cases hpop : popMaximum spmOrder s.workQueue with
  | none =>
    rw [hpop] at hstep
    cases hstep
  | some popped =>
    rcases popped with ⟨bigram, queue⟩
    have hpopped := popped_of_popMaximum hpop
    have hqueue : tok.AllSized { s with workQueue := queue } :=
      fun entry hentry => h entry (hpopped.mem_heap hentry)
    rw [hpop] at hstep
    rcases bind_eq_ok hstep with ⟨left, _, hstep⟩
    rcases bind_eq_ok hstep with ⟨right, _, hstep⟩
    split at hstep
    · cases hstep
      exact hqueue
    · split at hstep
      · cases hstep
        exact hqueue
      · rcases bind_eq_ok hstep with ⟨merged, hmerged, hstep⟩
        cases hstep
        exact tok.mergeBigram_sized _ bigram hqueue following hmerged

theorem queueTexts_sized (text : Text) :
    Returns (tok.queueTexts text) tok.AllSized := by
  apply forRange_returns (fun _ => tok.AllSized)
  · intro bigram hbigram
    cases hbigram
  · intro i _ s hs
    exact tok.tryAddBigram_sized _ _ s hs

end

/-!
# The float order
-/

section Few

variable {tok : Tokenizer score} (hfew : tok.merges.length < 2 ^ 24)

include hfew

theorem spmScoreOrder_eq {bigram : SpmBigram} (h : tok.Sized bigram) :
    spmScoreOrder bigram = spmOrder bigram := by
  rcases h with ⟨left, right, hrank, _⟩
  unfold spmScoreOrder spmOrder
  rw [f32OfNat_of_lt (Nat.lt_trans (rank_lt_of_spmRank hrank) hfew)]

theorem spmStepF32_eq {s : SpmState} (h : tok.AllSized s) :
    tok.spmStepF32 s = tok.spmStep s := by
  have hpop : popMaximum spmScoreOrder s.workQueue = popMaximum spmOrder s.workQueue :=
    popMaximum_congr (fun bigram hbigram => spmScoreOrder_eq hfew (h bigram hbigram))
  unfold spmStepF32 spmStep spmStepBy
  rw [hpop]

theorem loop_spmStepF32_eq {fuel : Nat} {s : SpmState} (h : tok.AllSized s) :
    loop tok.spmStepF32 fuel s = loop tok.spmStep fuel s := by
  induction fuel generalizing s with
  | zero => rfl
  | succ fuel ih =>
    unfold loop
    rw [spmStepF32_eq hfew h]
    cases hstep : tok.spmStep s with
    | error fault => rfl
    | ok step =>
      cases step with
      | next following => exact ih (tok.spmStep_sized s following h hstep)
      | done final => rfl

theorem reach_spmStepF32 {start s : SpmState} (hstart : tok.AllSized start)
    (h : Reach tok.spmStepF32 start s) :
    Reach tok.spmStep start s ∧ tok.AllSized s := by
  induction h with
  | start => exact ⟨ReachThrough.start, hstart⟩
  | next _ _ hstep ih =>
    rw [spmStepF32_eq hfew ih.2] at hstep
    exact ⟨reach_next ih.1 hstep, tok.spmStep_sized _ _ ih.2 hstep⟩

end Few

end Tokenizer

end Tokenization
end RunNBurn
