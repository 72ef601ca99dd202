import RunNBurn.Tokenization.ByteScan
import RunNBurn.Tokenization.Gemma4RoundTrip

/-!
# Encoding ends

With a loaded vocabulary the loop over the special tokens ends in every mode: each of
its rounds moves the cursor from a character to a later one.
-/

namespace RunNBurn
namespace Tokenization

open Library

variable {score : Type} {prims : Primitives score} {tok : Tokenizer score}

/-!
# The path table of SentencePiece tokens
-/

/-- Every path in the table ends behind another one, down to the start. -/
structure PathTable (n : Nat) (best : List (Option (SpPath score))) : Prop where
  length_eq : best.length = n + 1
  linked : forall (j : Nat) (path : SpPath score), best[j]? = some (some path) -> 0 < j ->
    path.prev < j ∧ exists before, best[path.prev]? = some (some before)

/-- A path table with a path that ends at `i`. -/
structure PathTableAt (n i : Nat) (best : List (Option (SpPath score))) : Prop
    extends PathTable n best where
  here : exists path, best[i]? = some (some path)

variable {best : List (Option (SpPath score))}

theorem offerPath_keeps {n i stop : Nat} {candidate : SpPath score} (h : PathTableAt n i best)
    (hstop : stop <= n) (hprev : candidate.prev = i) (hlt : i < stop) :
    Delivers (offerPath prims best stop candidate) (PathTableAt n i) := by
  rcases h.here with ⟨path, hfrom⟩
  have hindex : stop < best.length := by
    rw [h.length_eq]
    exact Nat.lt_succ_of_le hstop
  unfold offerPath
  rw [index_of_getElem?_eq_some (List.getElem?_eq_getElem hindex), ok_bind]
  split
  · apply delivers_ok
    have hkept : forall (j : Nat) (other : SpPath score), best[j]? = some (some other) ->
        exists later : SpPath score, (best.set stop (some candidate))[j]? = some (some later) := by
      intro j other hother
      rw [List.getElem?_set]
      by_cases hsame : stop = j
      · rw [if_pos hsame, if_pos hindex]
        exact ⟨candidate, rfl⟩
      · rw [if_neg hsame]
        exact ⟨other, hother⟩
    constructor
    · constructor
      · rw [List.length_set]
        exact h.length_eq
      · intro j found hfound hpos
        rw [List.getElem?_set] at hfound
        by_cases hsame : stop = j
        · rw [if_pos hsame, if_pos hindex] at hfound
          cases hfound
          rw [hprev, ← hsame]
          exact ⟨hlt, hkept i path hfrom⟩
        · rw [if_neg hsame] at hfound
          rcases h.linked j found hfound hpos with ⟨hbefore, other, hother⟩
          exact ⟨hbefore, hkept _ other hother⟩
    · exact hkept i path hfrom
  · apply delivers_ok
    exact h

theorem matchPiece_keeps {n i j : Nat} {chars : Text} {path : SpPath score}
    {state : Bool × List (Option (SpPath score))}
    (hn : chars.length = n) (h : PathTableAt n i state.2) (hlt : i < j) (hle : j <= n) :
    Delivers (tok.matchPiece prims chars path i state j)
      (fun left => PathTableAt n i left.2) := by
  unfold Tokenizer.matchPiece
  rw [slice_of_le (Nat.le_of_lt hlt) (hn ▸ hle), ok_bind]
  split
  · exact delivers_ok h
  · apply (offerPath_keeps h hle rfl hlt).bind
    intro best hbest
    exact delivers_ok hbest

theorem extendFrom_keeps {n i : Nat} {chars : Text} (hn : chars.length = n) (h : PathTable n best)
    (hi : i < n) :
    Delivers (tok.extendFrom prims chars i best) (PathTable n) := by
  have hindex : i < best.length := by
    rw [h.length_eq]
    omega
  have hget := List.getElem?_eq_getElem hindex
  unfold Tokenizer.extendFrom
  rw [index_of_getElem?_eq_some hget, ok_bind]
  cases hfound : best[i] with
  | none => exact delivers_ok h
  | some path =>
    rw [hfound] at hget
    dsimp only
    have hpieces : Delivers ((List.range' (i + 1)
        (min (i + tok.maxTokenChars) chars.length - i)).foldlM
          (tok.matchPiece prims chars path i) (false, best))
        (fun left => PathTableAt n i left.2) := by
      apply foldlM_range'_delivers
        (fun _ (left : Bool × List (Option (SpPath score))) => PathTableAt n i left.2)
      · exact ⟨h, path, hget⟩
      · intro j hj hlt left hleft
        have hbound : min (i + tok.maxTokenChars) chars.length <= n :=
          hn ▸ Nat.min_le_right _ _
        exact matchPiece_keeps hn hleft (by omega) (by omega)
    apply hpieces.bind
    intro left hleft
    rcases left with ⟨matched, best⟩
    dsimp only
    split
    · exact delivers_ok hleft.toPathTable
    · have hchar : i < chars.length := hn ▸ hi
      rw [index_of_getElem?_eq_some (List.getElem?_eq_getElem hchar), ok_bind]
      apply (offerPath_keeps hleft hi rfl (Nat.lt_succ_self i)).mono
      intro final hfinal
      exact hfinal.toPathTable

theorem backtrack_delivers {n : Nat} (h : PathTable n best) {fuel idx : Nat}
    {tokens : List TokenId} {path : SpPath score} (hfuel : idx <= fuel)
    (hidx : best[idx]? = some (some path)) :
    Delivers (backtrack best fuel idx tokens) (fun _ => True) := by
  induction fuel generalizing idx tokens path with
  | zero =>
    rw [Nat.le_zero.mp hfuel]
    exact delivers_ok trivial
  | succ fuel ih =>
    cases idx with
    | zero => exact delivers_ok trivial
    | succ idx =>
      unfold backtrack
      rw [index_of_getElem?_eq_some hidx, ok_bind]
      rcases h.linked (idx + 1) path hidx (Nat.succ_pos idx) with ⟨hlt, before, hbefore⟩
      exact ih (by omega) hbefore

theorem initialTokenizeSp_delivers (prims : Primitives score) (tok : Tokenizer score)
    (text : Text) (addSpacePrefix : Bool) :
    Delivers (tok.initialTokenizeSp prims text addSpacePrefix) (fun _ => True) := by
  unfold Tokenizer.initialTokenizeSp
  dsimp only
  generalize replaceChar ' ' spaceMark (if addSpacePrefix = true then ' ' :: text else text) =
    chars
  have hstart : PathTable chars.length
      (some { score := prims.zero, pieces := 0, prev := 0, id := 0 } ::
        List.replicate chars.length none) := by
    constructor
    · rw [List.length_cons, List.length_replicate]
    · intro j path hpath hpos
      cases j with
      | zero => exact absurd hpos (Nat.lt_irrefl 0)
      | succ j =>
        have hmem := List.mem_of_getElem? hpath
        rw [List.getElem?_cons_succ] at hpath
        have hnone := List.eq_of_mem_replicate (List.mem_of_getElem? hpath)
        cases hnone
  have hfill : Delivers (forRange (tok.extendFrom prims chars) chars.length
      (some { score := prims.zero, pieces := 0, prev := 0, id := 0 } ::
        List.replicate chars.length none)) (PathTable chars.length) :=
    forRange_delivers (fun _ best => PathTable chars.length best) hstart
      (fun i hi best hbest => extendFrom_keeps rfl hbest hi)
  apply hfill.bind
  intro best hbest
  have hlast : chars.length < best.length := by
    rw [hbest.length_eq]
    exact Nat.lt_succ_self _
  have hget := List.getElem?_eq_getElem hlast
  rw [index_of_getElem?_eq_some hget, ok_bind]
  cases hend : best[chars.length] with
  | none => exact delivers_ok trivial
  | some path =>
    rw [hend] at hget
    exact backtrack_delivers hbest (Nat.le_succ _) hget

/-!
# Byte-level segments
-/

theorem gpt2Match_ends {text : Text} {state : List TokenId × Nat} {start stop : Nat}
    (hcursor : state.2 <= start) (hstart : start <= stop) (hstop : stop <= text.length) :
    Delivers (tok.gpt2Match text state (start, stop)) (fun next => next.2 = stop) := by
  have hgap : Delivers (tok.gpt2Gap text state.2 start) (fun _ => True) := by
    unfold Tokenizer.gpt2Gap
    split
    · rw [slice_of_le hcursor (Nat.le_trans hstart hstop), ok_bind]
      exact (tok.bpeMerge_delivers _).mono (fun _ _ => trivial)
    · exact delivers_ok trivial
  unfold Tokenizer.gpt2Match
  apply hgap.bind
  intro gap _
  dsimp only
  rw [slice_of_le hstart hstop, ok_bind]
  apply (tok.bpeMerge_delivers _).bind
  intro tokens _
  exact delivers_ok rfl

theorem gpt2Matches_end {text : Text} {state : List TokenId × Nat} {found : List (Nat × Nat)}
    (hfound : MatchesInOrder text.length state.2 found) :
    Delivers (found.foldlM (tok.gpt2Match text) state) (fun last => last.2 <= text.length) := by
  induction found generalizing state with
  | nil => exact delivers_ok hfound
  | cons first rest ih =>
    rcases first with ⟨start, stop⟩
    rcases hfound with ⟨hcursor, hstart, hstop, hrest⟩
    rw [List.foldlM_cons]
    apply (gpt2Match_ends hcursor hstart hstop).bind
    intro next hnext
    exact ih (hnext ▸ hrest)

theorem gpt2Segment_ends
    (hsplit : forall text, MatchesInOrder text.length 0 (prims.llama4Split text)) (text : Text)
    (llama4Pretokenizer : Bool) :
    Delivers (tok.initialTokenizeGpt2Segment prims text llama4Pretokenizer) (fun _ => True) := by
  unfold Tokenizer.initialTokenizeGpt2Segment
  split
  · exact (tok.bpeMerge_delivers _).mono (fun _ _ => trivial)
  · have hmatches : Delivers ((prims.llama4Split text).foldlM (tok.gpt2Match text) ([], 0))
        (fun last => last.2 <= text.length) := gpt2Matches_end (hsplit text)
    apply hmatches.bind
    intro last hlast
    split
    · rw [slice_of_le hlast (Nat.le_refl _), ok_bind]
      apply (tok.bpeMerge_delivers _).bind
      intro tokens _
      exact delivers_ok trivial
    · exact delivers_ok trivial

/-!
# The loop of each mode
-/

namespace Tokenizer

def matchedSpecial (tok : Tokenizer score) : Text -> Option (Text × TokenId) :=
  match tok.mode with
  | .gpt2Bpe _ => firstSpecial tok.vocab.specialControlTokens
  | .sentencePiece _ => longestSpecial tok.vocab.specialControlTokens
  | .gemma4Bpe => longestSpecial tok.vocab.specialControlTokens

section

variable (prims : Primitives score) (tok : Tokenizer score)

def modeStretch :
    Text -> Checked (List TokenId × Nat) :=
  match tok.mode with
  | .sentencePiece addSpacePrefix =>
    tok.spStretch prims addSpacePrefix tok.vocab.specialControlTokens
  | .gemma4Bpe => tok.gemma4Stretch tok.vocab.specialControlTokens
  | .gpt2Bpe llama4Pretokenizer =>
    tok.gpt2Stretch prims llama4Pretokenizer tok.vocab.specialControlTokens

/-- One round of the special-token loop of the mode, with its cursor in bytes. -/
def specialLoop (text : Text) :
    ScanState -> Checked (Step ScanState) :=
  scanStep tok.matchedSpecial (tok.modeStretch prims) text

def specialLoopWithin (rounds : Nat) (text : Text) : Checked (List TokenId) := do
  let last <- loop (tok.specialLoop prims text) rounds ⟨0, []⟩
  return last.out

/-- `encode` with its cursor in bytes, for a number of rounds. -/
def encodeWithin (rounds : Nat) (text : Text) : Checked (List TokenId) :=
  match tok.mode with
  | .sentencePiece addSpacePrefix =>
    if tok.vocab.specialControlTokens.isEmpty then
      tok.initialTokenizeSp prims text addSpacePrefix
    else tok.specialLoopWithin prims rounds text
  | .gemma4Bpe => tok.specialLoopWithin prims rounds text
  | .gpt2Bpe llama4Pretokenizer =>
    if tok.vocab.specialControlTokens.isEmpty then
      tok.initialTokenizeGpt2Segment prims text llama4Pretokenizer
    else tok.specialLoopWithin prims rounds text

end

end Tokenizer

theorem matchedSpecial_picks (tok : Tokenizer score) :
    PicksLongest tok.vocab.specialControlTokens tok.matchedSpecial := by
  unfold Tokenizer.matchedSpecial
  split
  · exact firstSpecial_picks tok.vocab.specialControlTokens_pairwise
  · exact longestSpecial_picks _
  · exact longestSpecial_picks _

theorem nextSpecial_pos {specials : List (Text × TokenId)} {rest : Text} (hrest : rest ≠ [])
    (hnone : forall special, special ∈ specials -> ¬ special.1 <+: rest) :
    0 < nextSpecial specials rest := by
  have hspec := nextWord_spec (specials.map Prod.fst) rest
  apply Nat.pos_of_ne_zero
  intro hzero
  have hzero : nextWord (specials.map Prod.fst) rest = 0 := hzero
  rcases hspec.2 with hend | ⟨word, hword, hstarts⟩
  · rw [hzero] at hend
    exact hrest (List.length_eq_zero_iff.mp hend.symm)
  · rw [hzero, List.drop_zero] at hstarts
    rcases List.mem_map.mp hword with ⟨special, hspecial, rfl⟩
    exact hnone special hspecial hstarts

theorem progresses_of_nonempty
    (hsplit : forall text, MatchesInOrder text.length 0 (prims.llama4Split text))
    (hnonempty : forall special, special ∈ tok.vocab.specialControlTokens -> special.1 ≠ []) :
    Progresses tok.matchedSpecial (tok.modeStretch prims) := by
  have hpicks := matchedSpecial_picks tok
  constructor
  · intro rest special hfound
    rcases hpicks.found rest special hfound with ⟨hmem, hstarts⟩
    exact ⟨hnonempty special hmem, hstarts⟩
  · intro rest hrest hnone
    have hpos := nextSpecial_pos hrest (hpicks.none_iff rest hnone)
    unfold Tokenizer.modeStretch
    cases tok.mode with
    | sentencePiece addSpacePrefix =>
      dsimp only
      unfold Tokenizer.spStretch
      rw [if_pos hpos]
      apply (initialTokenizeSp_delivers prims tok _ _).bind
      intro tokens _
      exact delivers_ok hpos
    | gemma4Bpe =>
      dsimp only
      unfold Tokenizer.gemma4Stretch
      apply (tok.gemma4Lines_delivers _ _ _).bind
      intro tokens _
      exact delivers_ok hpos
    | gpt2Bpe llama4Pretokenizer =>
      dsimp only
      unfold Tokenizer.gpt2Stretch
      rw [if_pos hpos]
      apply (gpt2Segment_ends hsplit _ _).bind
      intro tokens _
      exact delivers_ok hpos

theorem specialLoopWithin_eq
    (h : Progresses tok.matchedSpecial (tok.modeStretch prims)) (text : Text) :
    exists tokens,
      scanSpecials tok.matchedSpecial (tok.modeStretch prims) text.length text [] = .ok tokens ∧
        tok.specialLoopWithin prims (text.length + 1) text = .ok tokens := by
  have hloop : exists tokens,
      scanSpecials tok.matchedSpecial (tok.modeStretch prims) text.length text [] = .ok tokens ∧
        loop (scanStep tok.matchedSpecial (tok.modeStretch prims) ([] ++ text))
            (text.length + 1) ⟨byteLen [], []⟩ =
          .ok ⟨byteLen ([] ++ text), tokens⟩ :=
    loop_scanStep h (Nat.le_refl text.length)
  rcases hloop with ⟨tokens, hscan, hend⟩
  refine ⟨tokens, hscan, ?_⟩
  have hstart : loop (tok.specialLoop prims text) (text.length + 1) ⟨0, []⟩ =
      .ok ⟨byteLen text, tokens⟩ := hend
  unfold Tokenizer.specialLoopWithin
  rw [hstart, ok_bind]
  rfl

theorem encode_ends (host : LoadHost) (data : TokenizerData score) (tok : Tokenizer score)
    (prims : Primitives score) (text : Text) (hbuild : buildTokenizer host data = .ok tok)
    (hsplit : forall text, MatchesInOrder text.length 0 (prims.llama4Split text)) :
    (exists rounds tokens, tok.encodeWithin prims rounds text = .ok tokens ∧
      tok.encode prims text = .ok tokens) ∧
      forall head, Reach (tok.specialLoop prims text) ⟨0, []⟩ head ->
        AtBoundary text head.cursor ∧
          (head.cursor < byteLen text -> exists next,
            tok.specialLoop prims text head = .ok (.next next) ∧ head.cursor < next.cursor) := by
  have hprogress := progresses_of_nonempty hsplit (specials_ne_nil_of_buildTokenizer hbuild)
  constructor
  · rcases specialLoopWithin_eq hprogress text with ⟨tokens, hscan, hloop⟩
    exists text.length + 1
    unfold Tokenizer.encodeWithin Tokenizer.encode
    unfold Tokenizer.matchedSpecial Tokenizer.modeStretch at hscan
    cases hmode : tok.mode with
    | sentencePiece addSpacePrefix =>
      rw [hmode] at hscan
      dsimp only at hscan ⊢
      unfold Tokenizer.initialTokenizeSpWithSpecials
      dsimp only
      split
      · rcases initialTokenizeSp_delivers prims tok text addSpacePrefix with ⟨found, hfound, _⟩
        exact ⟨found, hfound, hfound⟩
      · exact ⟨tokens, hloop, hscan⟩
    | gemma4Bpe =>
      rw [hmode] at hscan
      exact ⟨tokens, hloop, hscan⟩
    | gpt2Bpe llama4Pretokenizer =>
      rw [hmode] at hscan
      dsimp only at hscan ⊢
      unfold Tokenizer.initialTokenizeGpt2WithSpecials
      dsimp only
      split
      · have hsegment : Delivers
            (tok.initialTokenizeGpt2Segment prims text llama4Pretokenizer) (fun _ => True) :=
          gpt2Segment_ends hsplit text llama4Pretokenizer
        rcases hsegment with ⟨found, hfound, _⟩
        exact ⟨found, hfound, hfound⟩
      · exact ⟨tokens, hloop, hscan⟩
  · intro head hreach
    exact scanStep_heads hprogress hreach

def plainHost : LoadHost where
  quoted text := String.ofList text
  gemmaTokenizerBpeEnabled := true

def smallData : TokenizerData Nat where
  tokens := [['<', 'u', '>'], ['<', 's', '>'], ['<', '/', '>'], ['a']]
  scores := []
  tokenTypes := [2, 3, 3, 1]
  merges := []
  addedTokens := [['<', '/', '>']]
  bosId := none
  eosId := none
  eotId := none
  unknownId := none
  separatorId := none
  paddingId := none
  model := "llama"
  pre := none
  addBosToken := true
  addEosToken := false
  addSepToken := false
  addSpacePrefix := false
  fits := by decide

/-- A text that starts and ends with a control token. -/
theorem encode_ends_small :
    exists tok, buildTokenizer plainHost smallData = .ok tok ∧
      exists rounds tokens,
        tok.encodeWithin noMatches rounds ['<', 's', '>', 'a', 'é', '<', '/', '>'] = .ok
          tokens := by
  have hbuild : exists tok, buildTokenizer plainHost smallData = .ok tok := ⟨_, rfl⟩
  rcases hbuild with ⟨tok, htok⟩
  rcases (encode_ends plainHost smallData tok noMatches
    ['<', 's', '>', 'a', 'é', '<', '/', '>'] htok noMatches_inOrder).1 with
    ⟨rounds, tokens, hwithin, _⟩
  exact ⟨tok, htok, rounds, tokens, hwithin⟩

end Tokenization
end RunNBurn
