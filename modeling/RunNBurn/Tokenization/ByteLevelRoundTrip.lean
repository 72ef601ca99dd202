import RunNBurn.Tokenization.Encode

/-!
# Byte-level tokens decode to the text

Encoding and decoding lose nothing but what a special token holds outside the
printable characters: a special token is taken as a whole, and decoded like any other.
-/

namespace RunNBurn
namespace Tokenization

open Library

variable {score : Type} {prims : Primitives score} {tok : Tokenizer score}
  {llama4Pretokenizer : Bool}

def Tokenizer.specialTexts (tok : Tokenizer score) : List (List Char) :=
  tok.vocab.specialControlTokens.map Prod.fst

/-- Encoding comes to an end: no special token is empty, or it meets nothing else. -/
def Tokenizer.EncodingEnds (tok : Tokenizer score) (pieces : List (Piece Char)) : Prop :=
  Ends tok.vocab.specialControlTokens pieces

theorem gpt2Stretch_delivers {text rest : Text} (hmode : tok.mode = .gpt2Bpe llama4Pretokenizer)
    (hbytes : tok.vocab.SpellsBytes)
    (hsplit : forall text, MatchesInOrder text.length 0 (prims.llama4Split text)) (hne : text ≠ [])
    (hfree : FreeOf tok.specialTexts text rest) (hrest : AtWord tok.specialTexts rest)
    (hnonempty : forall special, special ∈ tok.vocab.specialControlTokens -> special.1 ≠ []) :
    Delivers (tok.gpt2Stretch prims llama4Pretokenizer tok.vocab.specialControlTokens
        (text ++ rest))
      (fun step => step.2 = text.length ∧
        tok.decodedBytes step.1 = gpt2PieceBytes (.plain text)) := by
  have hwords : forall word, word ∈ tok.specialTexts -> word ≠ [] := by
    intro word hword
    rcases List.mem_map.mp hword with ⟨special, hspecial, rfl⟩
    exact hnonempty special hspecial
  have hnext : nextSpecial tok.vocab.specialControlTokens (text ++ rest) = text.length :=
    nextWord_eq_of_plain hwords hfree hrest
  unfold Tokenizer.gpt2Stretch
  rw [hnext, if_pos (List.length_pos_of_ne_nil hne), List.take_left]
  apply (Tokenizer.gpt2Segment_delivers hmode hbytes hsplit text llama4Pretokenizer).bind
  intro tokens htokens
  exact delivers_ok ⟨rfl, htokens⟩

variable {pieces : List (Piece Char)}

theorem encode_gpt2_delivers {text : Text} (hmode : tok.mode = .gpt2Bpe llama4Pretokenizer)
    (hbytes : tok.vocab.SpellsBytes)
    (hsplit : forall text, MatchesInOrder text.length 0 (prims.llama4Split text))
    (hcut : Cut tok.specialTexts text pieces) (hends : tok.EncodingEnds pieces) :
    Delivers (tok.encode prims text)
      (fun tokens => tok.decodedBytes tokens = pieces.flatMap gpt2PieceBytes) := by
  unfold Tokenizer.encode
  rw [hmode]
  unfold Tokenizer.initialTokenizeGpt2WithSpecials
  dsimp only
  split
  · rename_i hnone
    have hspecials : tok.specialTexts = [] := by
      unfold Tokenizer.specialTexts
      rw [List.isEmpty_iff.mp hnone]
      rfl
    apply (Tokenizer.gpt2Segment_delivers hmode hbytes hsplit text llama4Pretokenizer).mono
    intro tokens htokens
    rw [htokens, ← hcut.flatMap_text]
    unfold encodeText
    rw [List.flatMap_assoc]
    apply List.flatMap_congr
    intro piece hpiece
    cases piece with
    | word token =>
      have hmem := hcut.mem_words hpiece
      rw [hspecials] at hmem
      cases hmem
    | plain text => rfl
  · refine scanSpecials_delivers [] tok.decodedBytes gpt2PieceBytes
      (firstSpecial_picks tok.vocab.specialControlTokens_pairwise)
      tok.decodedBytes_append ?_ ?_ hcut hends (Nat.le_refl text.length)
    · intro token id hmem
      show [id].flatMap _ = _
      rw [List.flatMap_singleton]
      exact Tokenizer.decodedTokenBytes_gpt2 hmode (Vocab.tokenStr_of_mem_specialControlTokens hmem)
    · intro text rest hne hfree hrest hnonempty
      exact gpt2Stretch_delivers hmode hbytes hsplit hne hfree hrest hnonempty

theorem encodingEnds_of_encode_gpt2 {text : Text} {tokens : List TokenId}
    (hmode : tok.mode = .gpt2Bpe llama4Pretokenizer) (hcut : Cut tok.specialTexts text pieces)
    (h : tok.encode prims text = .ok tokens) :
    tok.EncodingEnds pieces := by
  unfold Tokenizer.encode at h
  rw [hmode] at h
  unfold Tokenizer.initialTokenizeGpt2WithSpecials at h
  dsimp only at h
  split at h
  · rename_i hnone
    apply Or.inl
    intro special hspecial
    rw [List.isEmpty_iff.mp hnone] at hspecial
    cases hspecial
  · exact scanSpecials_ends (firstSpecial_picks tok.vocab.specialControlTokens_pairwise) hcut h

/-- Every special token that the text is cut at has printable characters only. -/
def SpecialsPrintable (pieces : List (Piece Char)) : Prop :=
  forall token, Piece.word token ∈ pieces -> forall c, c ∈ token -> Printable c

/-- A text comes back from its tokens exactly when encoding it ends and it is cut at
special tokens of printable characters only. -/
theorem decode_encode_gpt2_iff {score : Type} (prims : Primitives score) (tok : Tokenizer score)
    (llama4Pretokenizer : Bool) (hmode : tok.mode = .gpt2Bpe llama4Pretokenizer)
    (hbytes : tok.vocab.SpellsBytes)
    (hsplit : forall text, MatchesInOrder text.length 0 (prims.llama4Split text)) (text : Text) :
    (exists tokens, tok.encode prims text = .ok tokens ∧ tok.decode tokens = text) ↔
      exists pieces, Cut tok.specialTexts text pieces ∧ tok.EncodingEnds pieces ∧
        SpecialsPrintable pieces := by
  constructor
  · rintro ⟨tokens, hencode, hdecode⟩
    rcases exists_cut tok.specialTexts text with ⟨pieces, hcut⟩
    have hends := encodingEnds_of_encode_gpt2 hmode hcut hencode
    rcases encode_gpt2_delivers hmode hbytes hsplit hcut hends with ⟨found, hfound, hbytes⟩
    rw [hencode] at hfound
    cases hfound
    unfold Tokenizer.decode at hdecode
    rw [hbytes] at hdecode
    exact ⟨pieces, hcut, hends, (lossy_gpt2Pieces_iff hcut).mp hdecode⟩
  · rintro ⟨pieces, hcut, hends, hprintable⟩
    rcases encode_gpt2_delivers hmode hbytes hsplit hcut hends with ⟨tokens, hencode, hbytes⟩
    refine ⟨tokens, hencode, ?_⟩
    unfold Tokenizer.decode
    rw [hbytes]
    exact (lossy_gpt2Pieces_iff hcut).mpr hprintable

/-!
# Vocabularies of bytes

The tokens of the 256 bytes, and one token more.
-/

theorem length_byteTokens (marker : Text) :
    (byteTable.map (fun c => [c]) ++ [marker]).length = 257 := by
  rw [List.length_append, List.length_map, length_byteTable]
  rfl

def byteVocab (marker : Text) : Vocab :=
  Vocab.new (byteTable.map (fun c => [c]) ++ [marker])
    { bos := 0
      eos := 0
      pad := none }
    (by
      rw [length_byteTokens]
      decide)

def byteTokenizer (marker : Text) : Tokenizer Nat where
  vocab := byteVocab marker
  merges := []
  mode := .gpt2Bpe false
  sentencepieceScores := []
  addBosToken := false

def noMatches : Primitives Nat where
  zero := 0
  add := (· + ·)
  exceeds := fun left right => decide (right < left)
  close := fun left right => decide (left = right)
  llama4Split := fun _ => []

theorem noMatches_inOrder (text : Text) :
    MatchesInOrder text.length 0 (noMatches.llama4Split text) :=
  Nat.zero_le _

theorem byteVocab_spellsBytes (marker : Text) : (byteTokenizer marker).vocab.SpellsBytes := by
  intro byte
  apply List.mem_append_left
  exact List.mem_map_of_mem (List.mem_of_getElem? (getElem?_byteTable byte))

theorem byteVocab_special {marker : Text} (h : Vocab.looksSpecial marker = true) :
    (marker, 256) ∈ (byteTokenizer marker).vocab.specialControlTokens := by
  rw [Vocab.mem_specialControlTokens_iff rfl rfl]
  refine ⟨?_, h⟩
  show (byteTable.map _ ++ [marker])[256]? = some marker
  rw [List.getElem?_append_right]
  · rw [List.length_map, length_byteTable]
    rfl
  · rw [List.length_map, length_byteTable]

theorem eq_marker_of_special {marker : Text} {special : Text × TokenId}
    (h : special ∈ (byteTokenizer marker).vocab.specialControlTokens) :
    special.1 = marker := by
  rcases (Vocab.mem_specialControlTokens_iff rfl rfl).mp h with ⟨hget, hlooks⟩
  have hmem : special.1 ∈ byteTable.map (fun c => [c]) ++ [marker] := List.mem_of_getElem? hget
  rcases List.mem_append.mp hmem with hmem | hmem
  · rcases List.mem_map.mp hmem with ⟨c, _, hc⟩
    rw [← hc] at hlooks
    unfold Vocab.looksSpecial Vocab.enclosed at hlooks
    simp at hlooks
    rcases hlooks.1 with ⟨hopen, hclose⟩ | ⟨hopen, hclose⟩
    · rw [hopen] at hclose
      exact absurd hclose (by decide)
    · rw [hopen] at hclose
      exact absurd hclose (by decide)
  · exact List.mem_singleton.mp hmem

theorem byteTokenizer_ends {marker : Text} (h : marker ≠ []) (pieces : List (Piece Char)) :
    (byteTokenizer marker).EncodingEnds pieces := by
  apply Or.inl
  intro special hspecial
  rw [eq_marker_of_special hspecial]
  exact h

theorem byteTokenizer_cut (marker rest : Text) (h : Vocab.looksSpecial marker = true)
    (hrest : Cut (byteTokenizer marker).specialTexts rest pieces) :
    Cut (byteTokenizer marker).specialTexts (marker ++ rest) (.word marker :: pieces) := by
  have hmem : marker ∈ (byteTokenizer marker).specialTexts :=
    List.mem_map.mpr ⟨_, byteVocab_special h, rfl⟩
  refine Cut.word hmem ?_ ?_ hrest
  · rintro rfl
    cases h
  · intro other hother _
    rcases List.mem_map.mp hother with ⟨special, hspecial, rfl⟩
    rw [eq_marker_of_special hspecial]

/-- With a special token outside the printable characters a text is lost. -/
theorem decode_encode_loses_special :
    (byteTokenizer ['<', 'é', '>']).vocab.SpellsBytes ∧
      ¬ exists tokens, (byteTokenizer ['<', 'é', '>']).encode noMatches ['<', 'é', '>'] =
          .ok tokens ∧
        (byteTokenizer ['<', 'é', '>']).decode tokens = ['<', 'é', '>'] := by
  refine ⟨byteVocab_spellsBytes _, ?_⟩
  rintro ⟨tokens, hencode, hdecode⟩
  have hcut := byteTokenizer_cut ['<', 'é', '>'] [] (by decide) Cut.nil
  rw [List.append_nil] at hcut
  rcases encode_gpt2_delivers rfl (byteVocab_spellsBytes _)
    noMatches_inOrder hcut (byteTokenizer_ends (by decide) _) with ⟨found, hfound, hbytes⟩
  rw [hencode] at hfound
  cases hfound
  have hspelt : [Piece.word ['<', 'é', '>']].flatMap gpt2PieceBytes = [0x3C, 0xE9, 0x3E] := by
    show [characterByte (Char.ofNat 0x3C), characterByte (Char.ofNat 0xE9),
      characterByte (Char.ofNat 0x3E)] = _
    rw [characterByte_of_isDirect (by decide), characterByte_of_isDirect (by decide),
      characterByte_of_isDirect (by decide)]
    rfl
  unfold Tokenizer.decode at hdecode
  rw [hbytes, hspelt] at hdecode
  exact absurd hdecode (by decide)

/-- A printable special token in front of other text comes back. -/
theorem decode_encode_gpt2_marker :
    exists tokens, (byteTokenizer ['<', 's', '>']).encode noMatches ['<', 's', '>', 'é'] =
        .ok tokens ∧
      (byteTokenizer ['<', 's', '>']).decode tokens = ['<', 's', '>', 'é'] := by
  apply (decode_encode_gpt2_iff noMatches (byteTokenizer ['<', 's', '>']) false rfl
    (byteVocab_spellsBytes _) noMatches_inOrder ['<', 's', '>', 'é']).mpr
  refine ⟨[.word ['<', 's', '>'], .plain ['é']], ?_, byteTokenizer_ends (by decide) _, ?_⟩
  · refine byteTokenizer_cut ['<', 's', '>'] ['é'] (by decide) ?_
    have hplain : Cut (byteTokenizer ['<', 's', '>']).specialTexts (['é'] ++ [])
        [.plain ['é']] := by
      refine Cut.plain (List.cons_ne_nil _ _) ?_ (Or.inl rfl) Cut.nil
      intro before after hsplit hafter word hword _ hstarts
      rcases List.mem_map.mp hword with ⟨special, hspecial, rfl⟩
      rw [eq_marker_of_special hspecial, List.append_nil] at hstarts
      have hlength := hstarts.length_le
      have hshort := congrArg List.length hsplit
      rw [List.length_append] at hshort
      simp at hlength hshort
      omega
    exact hplain
  · intro token htoken c hc
    simp at htoken
    rw [htoken] at hc
    simp at hc
    rcases hc with rfl | rfl | rfl <;> decide

end Tokenization
end RunNBurn
