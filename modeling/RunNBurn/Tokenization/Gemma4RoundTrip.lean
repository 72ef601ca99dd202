import RunNBurn.Tokenization.ByteFallback
import RunNBurn.Tokenization.ByteLevelRoundTrip

/-!
# Texts come back from Gemma 4 tokens

A text is encoded line by line, and every line is what ranked merging leaves of its
characters.  It comes back exactly when each of these pieces does.
-/

namespace RunNBurn
namespace Tokenization

open Library

variable {score : Type}

def newlineSegments : (line : Text) -> (rest : Text) -> List Text
  | line, [] => [line]
  | line, ch :: rest =>
    if ch = '\n' then line :: [ch] :: newlineSegments [] rest
    else newlineSegments (line ++ [ch]) rest

theorem newlineSegments_flatten (line rest : Text) :
    (newlineSegments line rest).flatten = line ++ rest := by
  induction rest generalizing line with
  | nil =>
    unfold newlineSegments
    simp
  | cons ch rest ih =>
    unfold newlineSegments
    split
    · simp [ih]
    · simp [ih]

namespace Tokenizer

def Leaves (tok : Tokenizer score) (segment : Text) (pieces : List Text) : Prop :=
  Merges tok.spmRank (fun left right => some (left ++ right))
    ((replaceChar ' ' spaceMark segment).map fun c => [c]) pieces

inductive LeavesAll (tok : Tokenizer score) : List Text -> List Text -> Prop where
  | nil : LeavesAll tok [] []
  | cons {segment : Text} {segments pieces rest : List Text} :
      tok.Leaves segment pieces ->
      LeavesAll tok segments rest ->
      LeavesAll tok (segment :: segments) (pieces ++ rest)

/-- Merging a line puts a text together that reads as a byte token. -/
def AssemblesByteToken (tok : Tokenizer score) (text : Text) : Prop :=
  exists segment, segment ∈ newlineSegments [] text ∧
    exists pieces, tok.Leaves segment pieces ∧
      exists piece, piece ∈ pieces ∧ byteOfToken piece ≠ none

variable {tok : Tokenizer score}

theorem leaves_spelling {segment : Text} {pieces : List Text} (h : tok.Leaves segment pieces) :
    pieces.flatten = replaceChar ' ' spaceMark segment := by
  have hspelling : pieces.flatMap id =
      ((replaceChar ' ' spaceMark segment).map fun c => [c]).flatMap id :=
    Merges.spelling (fun x y z hz => (Option.some.inj hz).symm) h
  rw [List.flatMap_id, List.flatMap_id] at hspelling
  rw [hspelling, ← List.flatMap_def]
  exact List.flatMap_singleton' _

variable {segments pieces : List Text}

theorem leavesAll_spelling (h : tok.LeavesAll segments pieces) :
    pieces.flatten = replaceChar ' ' spaceMark segments.flatten := by
  induction h with
  | nil => rfl
  | cons hsegment _ ih =>
    rw [List.flatten_append, leaves_spelling hsegment, ih, List.flatten_cons]
    unfold replaceChar
    rw [List.map_append]

theorem spelt_of_leaves {segment : Text} {pieces : List Text} (h : tok.Leaves segment pieces) :
    forall piece, piece ∈ pieces -> tok.Spelt piece := by
  refine Merges.forall_mem ?_ h ?_
  · intro x y z hranked hz
    cases hz
    exact Or.inl (tokenId_of_spmRank hranked)
  · intro piece hpiece
    rcases List.mem_map.mp hpiece with ⟨c, _, rfl⟩
    exact Or.inr ⟨c, rfl⟩

theorem mem_leavesAll_iff (h : tok.LeavesAll segments pieces) (piece : Text) :
    piece ∈ pieces ↔ exists segment, segment ∈ segments ∧
      exists part, tok.Leaves segment part ∧ piece ∈ part := by
  induction h with
  | nil => simp
  | @cons segment segments pieces rest hsegment _ ih =>
    rw [List.mem_append, ih]
    constructor
    · rintro (hpiece | ⟨other, hother, hrest⟩)
      · exact ⟨segment, List.mem_cons_self, pieces, hsegment, hpiece⟩
      · exact ⟨other, List.mem_cons_of_mem _ hother, hrest⟩
    · rintro ⟨other, hother, part, hpart, hpiece⟩
      cases hother with
      | head =>
        rw [hpart.unique hsegment] at hpiece
        exact Or.inl hpiece
      | tail _ hother => exact Or.inr ⟨other, hother, part, hpart, hpiece⟩

theorem alone_of_leavesAll {c : Char} (h : tok.LeavesAll segments pieces)
    (hc : c ∈ replaceChar ' ' spaceMark segments.flatten) (htoken : tok.vocab.tokenId [c] = none) :
    [c] ∈ pieces := by
  have hleft : forall right, tok.spmRank [c] right = none := by
    intro right
    unfold spmRank
    rw [htoken]
    split <;> rfl
  have hright : forall left, tok.spmRank left [c] = none := by
    intro left
    unfold spmRank
    rw [htoken]
    split
    · rfl
    · cases tok.vocab.tokenId left <;> rfl
  induction h with
  | nil => cases hc
  | @cons segment segments pieces rest hsegment _ ih =>
    have hsplit : c ∈ replaceChar ' ' spaceMark segment ∨
        c ∈ replaceChar ' ' spaceMark segments.flatten := by
      unfold replaceChar at hc ⊢
      rw [List.flatten_cons, List.map_append] at hc
      exact List.mem_append.mp hc
    rcases hsplit with hc | hc
    · exact List.mem_append_left _
        (Merges.mem_of_unranked hleft hright hsegment (List.mem_map_of_mem hc))
    · exact List.mem_append_right _ (ih hc)

/-!
# Encoding
-/

theorem gemma4Line_delivers (tok : Tokenizer score) (line : Text) :
    Delivers (tok.gemma4Line line)
      (fun tokens => exists pieces, tok.Leaves line pieces ∧
        tokens = pieces.flatMap tok.pieceTokens) := by
  unfold gemma4Line
  split
  · rename_i hempty
    subst hempty
    apply delivers_ok
    refine ⟨[], Merges.rest ?_, rfl⟩
    intro x y hpair
    exact absurd hpair (not_neighbours_nil x y)
  · exact tok.initialTokenizeGemma4Spm_delivers line

theorem gemma4Lines_delivers (tok : Tokenizer score) (line rest : Text) (out : List TokenId) :
    Delivers (tok.gemma4Lines line rest out)
      (fun tokens => exists pieces, tok.LeavesAll (newlineSegments line rest) pieces ∧
        tokens = out ++ pieces.flatMap tok.pieceTokens) := by
  induction rest generalizing line out with
  | nil =>
    unfold gemma4Lines newlineSegments
    apply (tok.gemma4Line_delivers line).bind
    rintro tokens ⟨pieces, hpieces, rfl⟩
    apply delivers_ok
    refine ⟨pieces ++ [], LeavesAll.cons hpieces LeavesAll.nil, ?_⟩
    rw [List.append_nil]
  | cons ch rest ih =>
    unfold gemma4Lines newlineSegments
    split
    · apply (tok.gemma4Line_delivers line).bind
      rintro tokens ⟨pieces, hpieces, rfl⟩
      apply (tok.initialTokenizeGemma4Spm_delivers [ch]).bind
      rintro newline ⟨single, hsingle, rfl⟩
      apply (ih [] _).mono
      rintro tokens ⟨later, hlater, rfl⟩
      refine ⟨pieces ++ (single ++ later), hlater.cons hsingle |>.cons hpieces, ?_⟩
      rw [List.flatMap_append, List.flatMap_append, List.append_assoc, List.append_assoc]
    · exact ih (line ++ [ch]) out

theorem longestSpecial_eq_none {specials : List (Text × TokenId)} {text rest : Text}
    (hspecials : forall special, special ∈ specials -> ¬ special.1 <:+: text)
    (hrest : rest <:+ text) :
    longestSpecial specials rest = none := by
  cases hfound : longestSpecial specials rest with
  | none => rfl
  | some special =>
    rcases (longestSpecial_picks specials).found rest special hfound with ⟨hmem, hstarts⟩
    exact absurd (hstarts.isInfix.trans hrest.isInfix) (hspecials special hmem)

variable {text : Text}

theorem nextSpecial_eq_length {specials : List (Text × TokenId)}
    (hspecials : forall special, special ∈ specials -> ¬ special.1 <:+: text) :
    nextSpecial specials text = text.length := by
  have hspec := nextWord_spec (specials.map Prod.fst) text
  rcases hspec.2 with hend | ⟨word, hword, hstarts⟩
  · exact hend
  · rcases List.mem_map.mp hword with ⟨special, hmem, rfl⟩
    exact absurd (hstarts.isInfix.trans (List.drop_suffix _ text).isInfix) (hspecials special hmem)

theorem encode_gemma4_delivers (prims : Primitives score) (hmode : tok.mode = .gemma4Bpe)
    (hspecials : forall special, special ∈ tok.vocab.specialControlTokens ->
      ¬ special.1 <:+: text) :
    Delivers (tok.encode prims text)
      (fun tokens => exists pieces, tok.LeavesAll (newlineSegments [] text) pieces ∧
        tokens = pieces.flatMap tok.pieceTokens) := by
  unfold encode
  rw [hmode]
  dsimp only
  unfold initialTokenizeGemma4SpmWithSpecials
  dsimp only
  cases text with
  | nil =>
    apply delivers_ok
    refine ⟨[] ++ [], LeavesAll.cons ?_ LeavesAll.nil, rfl⟩
    apply Merges.rest
    intro x y hpair
    exact absurd hpair (not_neighbours_nil x y)
  | cons ch rest =>
    rw [List.length_cons]
    unfold scanSpecials
    rw [longestSpecial_eq_none hspecials List.suffix_rfl]
    dsimp only
    unfold gemma4Stretch
    rw [nextSpecial_eq_length hspecials, List.take_length]
    rcases tok.gemma4Lines_delivers [] (ch :: rest) [] with ⟨tokens, htokens, hpieces⟩
    rw [htokens]
    show Delivers (scanSpecials _ _ rest.length ((ch :: rest).drop (ch :: rest).length) _) _
    rw [List.drop_length]
    cases rest.length <;> exact delivers_ok hpieces

theorem decode_encode_of_pieces (prims : Primitives score) (hmode : tok.mode = .gemma4Bpe)
    (hbytes : forall byte, byteToken byte ∈ tok.vocab.idToToken)
    (hspecials : forall special, special ∈ tok.vocab.specialControlTokens ->
      ¬ special.1 <:+: text) (hmark : spaceMark ∉ text) :
    exists tokens pieces, tok.encode prims text = .ok tokens ∧
      tok.LeavesAll (newlineSegments [] text) pieces ∧
      (tok.decode tokens = text ↔ forall piece, piece ∈ pieces -> tok.ComesBack piece) := by
  rcases encode_gemma4_delivers prims hmode hspecials with ⟨tokens, hencode, pieces, hleaves, rfl⟩
  refine ⟨_, pieces, hencode, hleaves, ?_⟩
  have hspelt : forall piece, piece ∈ pieces -> tok.Spelt piece := by
    intro piece hpiece
    rcases (mem_leavesAll_iff hleaves piece).mp hpiece with ⟨segment, _, part, hpart, hmem⟩
    exact spelt_of_leaves hpart piece hmem
  have htext : pieces.flatMap plainText = text := by
    have hflat : pieces.flatMap plainText = replaceChar spaceMark ' ' pieces.flatten := by
      unfold plainText replaceChar
      rw [List.map_flatten]
      rfl
    rw [hflat, leavesAll_spelling hleaves, newlineSegments_flatten]
    unfold replaceChar
    rw [List.map_map]
    rw [List.nil_append, List.map_congr_left (g := id), List.map_id]
    intro c hc
    show (if (if c = ' ' then spaceMark else c) = spaceMark then ' ' else _) = c
    by_cases hspace : c = ' '
    · rw [if_pos hspace, if_pos rfl, hspace]
    · rw [if_neg hspace, if_neg]
      rintro rfl
      exact hmark hc
  rw [decode_pieceTokens hmode hbytes, ← pieceTexts_eq_iff hspelt, htext]

theorem comesBack_iff {pieces : List Text} (h : tok.LeavesAll (newlineSegments [] text) pieces) :
    (forall piece, piece ∈ pieces -> tok.ComesBack piece) ↔
      (forall c, c ∈ replaceChar ' ' spaceMark text ->
        c.val.toNat < 0x80 ∨ tok.vocab.tokenId [c] ≠ none) ∧ ¬ tok.AssemblesByteToken text := by
  have hflat := newlineSegments_flatten [] text
  rw [List.nil_append] at hflat
  have hnobyte : (forall piece, piece ∈ pieces -> byteOfToken piece = none) ↔
      ¬ tok.AssemblesByteToken text := by
    constructor
    · rintro hnone ⟨segment, hsegment, part, hpart, piece, hpiece, hbyte⟩
      apply hbyte
      apply hnone
      exact (mem_leavesAll_iff h piece).mpr ⟨segment, hsegment, part, hpart, hpiece⟩
    · intro hno piece hpiece
      rcases (mem_leavesAll_iff h piece).mp hpiece with ⟨segment, hsegment, part, hpart, hmem⟩
      by_contra hbyte
      exact hno ⟨segment, hsegment, part, hpart, piece, hmem, hbyte⟩
  have halone : forall piece, piece ∈ pieces -> tok.vocab.tokenId piece = none ->
      exists c, piece = [c] ∧ c ∈ replaceChar ' ' spaceMark text := by
    intro piece hpiece htoken
    rcases (mem_leavesAll_iff h piece).mp hpiece with ⟨segment, _, part, hpart, hmem⟩
    rcases spelt_of_leaves hpart piece hmem with hsome | ⟨c, rfl⟩
    · exact absurd htoken hsome
    · refine ⟨c, rfl, ?_⟩
      rw [← hflat, ← leavesAll_spelling h]
      exact List.mem_flatten.mpr ⟨[c], hpiece, List.mem_singleton_self c⟩
  rw [← hnobyte]
  constructor
  · intro hback
    constructor
    · intro c hc
      by_cases htoken : tok.vocab.tokenId [c] = none
      · rw [← hflat] at hc
        have hpiece := alone_of_leavesAll h hc htoken
        exact Or.inl ((hback [c] hpiece).ascii htoken c (List.mem_singleton_self c))
      · exact Or.inr htoken
    · intro piece hpiece
      by_cases htoken : tok.vocab.tokenId piece = none
      · rcases halone piece hpiece htoken with ⟨c, rfl, _⟩
        cases hbyte : byteOfToken [c] with
        | none => rfl
        | some byte => cases (ascii_of_byteOfToken hbyte).1
      · exact (hback piece hpiece).noByte htoken
  · rintro ⟨hchars, hnone⟩ piece hpiece
    constructor
    · intro htoken c hc
      rcases halone piece hpiece htoken with ⟨other, rfl, hother⟩
      rw [List.mem_singleton.mp hc]
      rcases hchars other hother with hascii | hsome
      · exact hascii
      · exact absurd htoken hsome
    · intro _
      exact hnone piece hpiece

/-- A text comes back exactly when each of its characters outside ASCII has a token of
its own and merging puts no text together that reads as a byte token. -/
theorem decode_encode_gemma4_iff (prims : Primitives score) (tok : Tokenizer score) (text : Text)
    (hmode : tok.mode = .gemma4Bpe) (hbytes : forall byte, byteToken byte ∈ tok.vocab.idToToken)
    (hspecials : forall special, special ∈ tok.vocab.specialControlTokens ->
      ¬ special.1 <:+: text)
    (hmark : spaceMark ∉ text) :
    (exists tokens, tok.encode prims text = .ok tokens ∧ tok.decode tokens = text) ↔
      (forall c, c ∈ replaceChar ' ' spaceMark text ->
        c.val.toNat < 0x80 ∨ tok.vocab.tokenId [c] ≠ none) ∧ ¬ tok.AssemblesByteToken text := by
  rcases decode_encode_of_pieces prims hmode hbytes hspecials hmark with
    ⟨tokens, pieces, hencode, hleaves, hiff⟩
  rw [← comesBack_iff hleaves, ← hiff]
  constructor
  · rintro ⟨found, hfound, hdecode⟩
    cases hencode.symm.trans hfound
    exact hdecode
  · intro hdecode
    exact ⟨tokens, hencode, hdecode⟩

end Tokenizer

/-!
# The tokens of all bytes, and no other
-/

theorem length_allBytes :
    ((List.range 256).map fun n => byteToken (UInt8.ofNat n)).length <= 2 ^ 32 := by
  rw [List.length_map, List.length_range]
  decide

def fallbackVocab : Vocab :=
  (Vocab.new ((List.range 256).map fun n => byteToken (UInt8.ofNat n))
    { bos := 0
      eos := 0
      pad := none }
    length_allBytes).setTokenMetadata (List.replicate 256 6) none none []

def fallbackTokenizer : Tokenizer Nat where
  vocab := fallbackVocab
  merges := []
  mode := .gemma4Bpe
  sentencepieceScores := []
  addBosToken := false

theorem fallbackVocab_bytes
    (byte : UInt8) : byteToken byte ∈ fallbackTokenizer.vocab.idToToken := by
  refine List.mem_map.mpr ⟨byte.toNat, List.mem_range.mpr (UInt8.toNat_lt byte), ?_⟩
  rw [UInt8.ofNat_toNat]

theorem fallbackVocab_no_specials : fallbackTokenizer.vocab.specialControlTokens = [] := by
  have hids : fallbackTokenizer.vocab.tokenizationSpecialIds = [] := by
    show ((_ ++ []).mergeSort _).dedup = []
    rw [List.append_nil, List.filterMap_eq_nil_iff.mpr, List.mergeSort_nil]
    · rfl
    · rintro ⟨tokenType, id⟩ hmem
      have htype := List.eq_of_mem_replicate (List.fst_mem_of_mem_zipIdx hmem)
      dsimp only at htype ⊢
      rw [htype]
      rfl
  unfold Vocab.specialControlTokens
  rw [hids]
  show List.mergeSort [] _ = []
  exact List.mergeSort_nil

theorem fallbackVocab_tokenId (c : Char) : fallbackTokenizer.vocab.tokenId [c] = none := by
  cases htoken : fallbackTokenizer.vocab.tokenId [c] with
  | none => rfl
  | some id =>
    have hmem : [c] ∈ (List.range 256).map fun n => byteToken (UInt8.ofNat n) :=
      List.mem_of_getElem? (Vocab.tokenStr_of_tokenId htoken)
    rcases List.mem_map.mp hmem with ⟨n, _, hn⟩
    cases congrArg List.length hn

theorem fallbackTokenizer_assembles_nothing (text : Text) :
    ¬ fallbackTokenizer.AssemblesByteToken text := by
  rintro ⟨segment, _, pieces, hpieces, piece, hpiece, hbyte⟩
  have hranks : forall left right, fallbackTokenizer.spmRank left right = none := by
    intro left right
    unfold Tokenizer.spmRank
    split
    · rfl
    · split
      · rfl
      · rfl
  have hrest := hpieces.unique (Merges.rest fun x y _ => hranks x y)
  rw [hrest] at hpiece
  rcases List.mem_map.mp hpiece with ⟨c, _, rfl⟩
  apply hbyte
  cases hfound : byteOfToken [c] with
  | none => rfl
  | some byte => cases (ascii_of_byteOfToken hfound).1

/-- A character outside ASCII is lost. -/
theorem decode_encode_loses_fallback :
    (forall byte, byteToken byte ∈ fallbackTokenizer.vocab.idToToken) ∧
      fallbackTokenizer.vocab.specialControlTokens = [] ∧
      ¬ exists tokens, fallbackTokenizer.encode noMatches ['é'] = .ok tokens ∧
        fallbackTokenizer.decode tokens = ['é'] := by
  refine ⟨fallbackVocab_bytes, fallbackVocab_no_specials, ?_⟩
  rintro ⟨tokens, hencode, hdecode⟩
  have hspecials : forall special, special ∈ fallbackTokenizer.vocab.specialControlTokens ->
      ¬ special.1 <:+: ['é'] := by
    intro special hspecial
    rw [fallbackVocab_no_specials] at hspecial
    cases hspecial
  rcases Tokenizer.decode_encode_of_pieces noMatches rfl fallbackVocab_bytes hspecials (by decide)
    with ⟨found, pieces, hfound, hleaves, hiff⟩
  cases hencode.symm.trans hfound
  rcases ((Tokenizer.comesBack_iff hleaves).mp (hiff.mp hdecode)).1 'é' (by decide) with
    hascii | hsome
  · exact absurd hascii (by decide)
  · exact hsome (fallbackVocab_tokenId 'é')

/-- ASCII text comes back from the tokens of its bytes. -/
theorem decode_encode_gemma4_ascii :
    exists tokens, fallbackTokenizer.encode noMatches ['h', 'i', '\n'] = .ok tokens ∧
      fallbackTokenizer.decode tokens = ['h', 'i', '\n'] := by
  apply (Tokenizer.decode_encode_gemma4_iff noMatches fallbackTokenizer ['h', 'i', '\n'] rfl
    fallbackVocab_bytes ?_ (by decide)).mpr
  · refine ⟨?_, fallbackTokenizer_assembles_nothing _⟩
    intro c hc
    apply Or.inl
    have hplain : c ∈ ['h', 'i', '\n'] := hc
    cases hplain with
    | head => decide
    | tail _ hplain =>
      cases hplain with
      | head => decide
      | tail _ hplain =>
        rw [List.mem_singleton.mp hplain]
        decide
  · intro special hspecial
    rw [fallbackVocab_no_specials] at hspecial
    cases hspecial

end Tokenization
end RunNBurn
