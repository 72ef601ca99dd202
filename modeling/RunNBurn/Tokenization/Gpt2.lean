import RunNBurn.Tokenization.BpeMerge
import RunNBurn.Tokenization.Scan

/-!
# Byte-level tokens

The bytes of a text, each as the token of its character, merged by rank; the text is
cut at the special tokens first, and at the Llama 4 pattern where that is in use.
-/

namespace RunNBurn
namespace Tokenization

open Library

variable {score : Type}

namespace Tokenizer

section

variable (tok : Tokenizer score) (text : Text)

def initialTokenizeGpt2 : List TokenId :=
  (encodeText text).map fun byte =>
    ((tok.vocab.tokenId [byteToUnicode byte]).or tok.vocab.unknown).getD 0

def gpt2Gap (cursor start : Nat) :
    Checked (List TokenId) :=
  if start > cursor then do
    let between <- slice text cursor start
    tok.bpeMerge (tok.initialTokenizeGpt2 between)
  else
    .ok []

/-- One match of the pattern: the gap in front of it, then the match itself. -/
def gpt2Match (state : List TokenId × Nat)
    (found : Nat × Nat) : Checked (List TokenId × Nat) := do
  let gap <- tok.gpt2Gap text state.2 found.1
  let matched <- slice text found.1 found.2
  let tokens <- tok.bpeMerge (tok.initialTokenizeGpt2 matched)
  return (state.1 ++ gap ++ tokens, found.2)

end

section

variable (prims : Primitives score) (tok : Tokenizer score)

def initialTokenizeGpt2Segment (text : Text)
    (llama4Pretokenizer : Bool) : Checked (List TokenId) :=
  if !llama4Pretokenizer then tok.bpeMerge (tok.initialTokenizeGpt2 text)
  else do
    let state <- (prims.llama4Split text).foldlM (tok.gpt2Match text) (([] : List TokenId), 0)
    if state.2 < text.length then do
      let behind <- slice text state.2 text.length
      let tokens <- tok.bpeMerge (tok.initialTokenizeGpt2 behind)
      return state.1 ++ tokens
    else
      return state.1

/-- The stretch at the cursor, which is not at a special token. -/
def gpt2Stretch (llama4Pretokenizer : Bool)
    (specials : List (Text × TokenId)) (rest : Text) : Checked (List TokenId × Nat) :=
  if nextSpecial specials rest > 0 then do
    let tokens <- tok.initialTokenizeGpt2Segment prims (rest.take (nextSpecial specials rest))
      llama4Pretokenizer
    return (tokens, nextSpecial specials rest)
  else do
    let tokens <- tok.initialTokenizeGpt2Segment prims (rest.take 1) llama4Pretokenizer
    return (tokens, 1)

def initialTokenizeGpt2WithSpecials
    (text : Text) (llama4Pretokenizer : Bool) : Checked (List TokenId) :=
  let specialTokens := tok.vocab.specialControlTokens
  if specialTokens.isEmpty then
    tok.initialTokenizeGpt2Segment prims text llama4Pretokenizer
  else
    scanSpecials (firstSpecial specialTokens)
      (tok.gpt2Stretch prims llama4Pretokenizer specialTokens) text.length text []

end

end Tokenizer

/-!
# The bytes of the tokens
-/

def Vocab.SpellsBytes (vocab : Vocab) : Prop :=
  forall byte : UInt8, [byteToUnicode byte] ∈ vocab.idToToken

/-- The matches come in order and do not overlap. -/
def MatchesInOrder (length : Nat) : (cursor : Nat) -> List (Nat × Nat) -> Prop
  | cursor, [] => cursor <= length
  | cursor, (start, stop) :: rest =>
    cursor <= start ∧ start <= stop ∧ stop <= length ∧ MatchesInOrder length stop rest

namespace Tokenizer

variable {llama4Pretokenizer : Bool} {tok : Tokenizer score} {text : Text}

theorem decodedTokenBytes_gpt2 {id : TokenId} (hmode : tok.mode = .gpt2Bpe llama4Pretokenizer)
    (h : tok.vocab.tokenStr id = some text) :
    tok.decodedTokenBytes id = text.map characterByte := by
  unfold decodedTokenBytes
  rw [hmode, h]
  rfl

theorem decodedBytes_initialTokenizeGpt2 (hmode : tok.mode = .gpt2Bpe llama4Pretokenizer)
    (hbytes : tok.vocab.SpellsBytes) (text : Text) :
    tok.decodedBytes (tok.initialTokenizeGpt2 text) = encodeText text := by
  unfold decodedBytes initialTokenizeGpt2
  rw [List.flatMap_map]
  conv_rhs => rw [← List.flatMap_singleton' (encodeText text)]
  apply List.flatMap_congr
  intro byte _
  rcases Vocab.exists_tokenId (hbytes byte) with ⟨id, hid⟩
  rw [hid]
  show tok.decodedTokenBytes id = [byte]
  rw [decodedTokenBytes_gpt2 hmode (Vocab.tokenStr_of_tokenId hid), List.map_singleton,
    characterByte_byteToUnicode]

theorem bpeMerge_bytes (hmode : tok.mode = .gpt2Bpe llama4Pretokenizer) (tokens : List TokenId) :
    Delivers (tok.bpeMerge tokens)
      (fun merged => tok.decodedBytes merged = tok.decodedBytes tokens) := by
  apply (tok.bpeMerge_delivers tokens).mono
  intro merged hmerged
  apply hmerged.spelling
  intro left right joined hjoin
  rw [decodedTokenBytes_gpt2 hmode (Vocab.tokenStr_of_tokenId hjoin), List.map_append]
  unfold decodedTokenBytes
  rw [hmode]

theorem bpeMerge_text (hmode : tok.mode = .gpt2Bpe llama4Pretokenizer)
    (hbytes : tok.vocab.SpellsBytes) (text : Text) :
    Delivers (tok.bpeMerge (tok.initialTokenizeGpt2 text))
      (fun merged => tok.decodedBytes merged = encodeText text) := by
  apply (bpeMerge_bytes hmode (tok.initialTokenizeGpt2 text)).mono
  intro merged hmerged
  rw [hmerged, decodedBytes_initialTokenizeGpt2 hmode hbytes]

theorem take_append_slice {start stop : Nat} (h : start <= stop) :
    text.take start ++ (text.drop start).take (stop - start) = text.take stop := by
  rw [← List.take_add, Nat.add_sub_cancel' h]

theorem gpt2Match_delivers (hmode : tok.mode = .gpt2Bpe llama4Pretokenizer)
    (hbytes : tok.vocab.SpellsBytes) {state : List TokenId × Nat} {start stop : Nat}
    (hstate : tok.decodedBytes state.1 = encodeText (text.take state.2))
    (hcursor : state.2 <= start) (hstart : start <= stop) (hstop : stop <= text.length) :
    Delivers (tok.gpt2Match text state (start, stop))
      (fun next => next.2 = stop ∧
        tok.decodedBytes next.1 = encodeText (text.take stop)) := by
  have hgap : Delivers (tok.gpt2Gap text state.2 start)
      (fun gap => tok.decodedBytes (state.1 ++ gap) = encodeText (text.take start)) := by
    unfold gpt2Gap
    split
    · rw [slice_of_le hcursor (Nat.le_trans hstart hstop), ok_bind]
      apply (bpeMerge_text hmode hbytes _).mono
      intro gap hgap
      rw [decodedBytes_append, hstate, hgap, ← encodeText_append, take_append_slice hcursor]
    · rename_i hnone
      apply delivers_ok
      have hsame : state.2 = start := Nat.le_antisymm hcursor (Nat.le_of_not_lt hnone)
      rw [List.append_nil, hstate, hsame]
  unfold gpt2Match
  apply hgap.bind
  intro gap hgap
  dsimp only
  rw [slice_of_le hstart hstop, ok_bind]
  apply (bpeMerge_text hmode hbytes _).bind
  intro tokens htokens
  apply delivers_ok
  refine ⟨rfl, ?_⟩
  dsimp only
  rw [decodedBytes_append, hgap, htokens, ← encodeText_append, take_append_slice hstart]

theorem gpt2Matches_delivers (hmode : tok.mode = .gpt2Bpe llama4Pretokenizer)
    (hbytes : tok.vocab.SpellsBytes) {state : List TokenId × Nat} {found : List (Nat × Nat)}
    (hstate : tok.decodedBytes state.1 = encodeText (text.take state.2))
    (hfound : MatchesInOrder text.length state.2 found) :
    Delivers (found.foldlM (tok.gpt2Match text) state)
      (fun last => last.2 <= text.length ∧
        tok.decodedBytes last.1 = encodeText (text.take last.2)) := by
  induction found generalizing state with
  | nil => exact delivers_ok ⟨hfound, hstate⟩
  | cons first found ih =>
    rcases hfound with ⟨hcursor, hstart, hstop, hrest⟩
    rw [List.foldlM_cons]
    apply (gpt2Match_delivers hmode hbytes hstate hcursor hstart hstop).bind
    intro next hnext
    apply ih
    · rw [hnext.2, hnext.1]
    · rw [hnext.1]
      exact hrest

theorem gpt2Segment_delivers {prims : Primitives score}
    (hmode : tok.mode = .gpt2Bpe llama4Pretokenizer) (hbytes : tok.vocab.SpellsBytes)
    (hsplit : forall text, MatchesInOrder text.length 0 (prims.llama4Split text)) (text : Text)
    (llama4 : Bool) :
    Delivers (tok.initialTokenizeGpt2Segment prims text llama4)
      (fun tokens => tok.decodedBytes tokens = encodeText text) := by
  unfold initialTokenizeGpt2Segment
  split
  · exact bpeMerge_text hmode hbytes text
  · have hstart : tok.decodedBytes (([] : List TokenId), 0).1 = encodeText (text.take 0) := rfl
    apply (gpt2Matches_delivers hmode hbytes hstart (hsplit text)).bind
    intro last hlast
    split
    · rw [slice_of_le hlast.1 (Nat.le_refl _), ok_bind]
      apply (bpeMerge_text hmode hbytes _).bind
      intro tokens htokens
      apply delivers_ok
      rw [decodedBytes_append, hlast.2, htokens, ← encodeText_append, take_append_slice hlast.1,
        List.take_length]
    · rename_i hnone
      apply delivers_ok
      rw [hlast.2, Nat.le_antisymm hlast.1 (Nat.le_of_not_lt hnone), List.take_length]

end Tokenizer

/-!
# The pieces of a text
-/

def gpt2PieceBytes : Piece Char -> List UInt8
  | .word token => token.map characterByte
  | .plain text => encodeText text

def gpt2PieceUnits : Piece Char -> List (Char × List UInt8)
  | .word token => token.map fun c => (c, [characterByte c])
  | .plain text => text.map fun c => (c, String.utf8EncodeChar c)

variable (piece : Piece Char)

theorem gpt2PieceUnits_spelt :
    forall unit, unit ∈ gpt2PieceUnits piece -> Spelt unit := by
  intro unit hunit
  cases piece with
  | word token =>
    rcases List.mem_map.mp hunit with ⟨c, _, rfl⟩
    exact Or.inr ⟨_, rfl⟩
  | plain text =>
    rcases List.mem_map.mp hunit with ⟨c, _, rfl⟩
    exact Or.inl rfl

theorem gpt2PieceUnits_bytes :
    (gpt2PieceUnits piece).flatMap Prod.snd = gpt2PieceBytes piece := by
  cases piece with
  | word token =>
    show (token.map _).flatMap _ = token.map _
    rw [List.flatMap_map, List.map_eq_flatMap]
  | plain text =>
    show (text.map _).flatMap _ = text.flatMap _
    rw [List.flatMap_map]

theorem gpt2PieceUnits_text :
    (gpt2PieceUnits piece).map Prod.fst = piece.text := by
  cases piece with
  | word token =>
    show (token.map _).map _ = token
    rw [List.map_map]
    exact List.map_id token
  | plain text =>
    show (text.map _).map _ = text
    rw [List.map_map]
    exact List.map_id text

theorem lossy_gpt2Pieces_iff {specials : List (List Char)} {text : Text}
    {pieces : List (Piece Char)} (hcut : Cut specials text pieces) :
    lossy (pieces.flatMap gpt2PieceBytes) = text ↔
      forall token, Piece.word token ∈ pieces -> forall c, c ∈ token -> Printable c := by
  have hbytes : pieces.flatMap gpt2PieceBytes =
      (pieces.flatMap gpt2PieceUnits).flatMap Prod.snd := by
    rw [List.flatMap_assoc]
    exact List.flatMap_congr (fun piece _ => (gpt2PieceUnits_bytes piece).symm)
  have htext : (pieces.flatMap gpt2PieceUnits).map Prod.fst = text := by
    rw [List.map_flatMap, ← hcut.flatMap_text]
    exact List.flatMap_congr (fun piece _ => gpt2PieceUnits_text piece)
  have hspelt : forall unit, unit ∈ pieces.flatMap gpt2PieceUnits -> Spelt unit := by
    intro unit hunit
    rcases List.mem_flatMap.mp hunit with ⟨piece, _, hmem⟩
    exact gpt2PieceUnits_spelt piece unit hmem
  constructor
  · intro h token htoken c hc
    rw [hbytes, ← htext] at h
    apply printable_of_readsBack
    apply readsBack_of_lossy hspelt h
    apply List.mem_flatMap.mpr
    exact ⟨_, htoken, List.mem_map.mpr ⟨c, hc, rfl⟩⟩
  · intro h
    have hown : pieces.flatMap gpt2PieceBytes = encodeText text := by
      rw [← hcut.flatMap_text]
      unfold encodeText
      rw [List.flatMap_assoc]
      apply List.flatMap_congr
      intro piece hpiece
      cases piece with
      | word token =>
        show token.map characterByte = token.flatMap String.utf8EncodeChar
        rw [List.map_eq_flatMap]
        apply List.flatMap_congr
        intro c hc
        exact (characterByte_own_iff c).mpr (h token hpiece c hc)
      | plain text => rfl
    rw [hown, lossy_encodeText]

end Tokenization
end RunNBurn
