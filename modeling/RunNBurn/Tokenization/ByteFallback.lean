import RunNBurn.Tokenization.Encode
import RunNBurn.Tokenization.Gemma4Merge

/-!
# Texts and the tokens of bytes

A character without a token is spelt with the tokens of its bytes, and each of these
decodes on its own to the character of that number.
-/

namespace RunNBurn
namespace Tokenization

open Library

/-!
# Byte tokens
-/

variable {n : Nat}

theorem hexDigit_hexUpper (h : n < 16) : hexDigit (hexUpper n) = some n := by
  have hall : forall n : Fin 16, hexDigit (hexUpper n) = some n.val := by decide
  exact hall ⟨n, h⟩

theorem hexUpper_ascii (h : n < 16) : (hexUpper n).val.toNat < 0x80 := by
  have hall : forall n : Fin 16, (hexUpper n).val.toNat < 0x80 := by decide
  exact hall ⟨n, h⟩

theorem hexUpper_ne_plus (h : n < 16) : hexUpper n ≠ '+' := by
  have hall : forall n : Fin 16, hexUpper n ≠ '+' := by decide
  exact hall ⟨n, h⟩

theorem byteLen_cons (c : Char) (text : Text) :
    byteLen (c :: text) = (String.utf8EncodeChar c).length + byteLen text := by
  unfold byteLen
  rw [encodeText_cons, List.length_append]

theorem byteLen_of_ascii {text : Text} (h : forall c, c ∈ text -> c.val.toNat < 0x80) :
    byteLen text = text.length := by
  induction text with
  | nil => rfl
  | cons c text ih =>
    rw [byteLen_cons, encodeChar_of_ascii (h c List.mem_cons_self),
      ih (fun c hc => h c (List.mem_cons_of_mem _ hc))]
    exact Nat.add_comm 1 text.length

theorem byteOfToken_byteToken (byte : UInt8) : byteOfToken (byteToken byte) = some byte.toNat := by
  have hhigh : byte.toNat / 16 < 16 := by
    have h := UInt8.toNat_lt byte
    omega
  have hlow : byte.toNat % 16 < 16 := Nat.mod_lt _ (by decide)
  have hascii : forall c, c ∈ byteToken byte -> c.val.toNat < 0x80 := by
    intro c hc
    simp [byteToken] at hc
    rcases hc with rfl | rfl | rfl | rfl | rfl | rfl
    · decide
    · decide
    · decide
    · exact hexUpper_ascii hhigh
    · exact hexUpper_ascii hlow
    · decide
  unfold byteOfToken
  rw [if_pos ⟨List.prefix_append _ _, rfl, byteLen_of_ascii hascii⟩]
  show hexByte [hexUpper (byte.toNat / 16), hexUpper (byte.toNat % 16)] = _
  unfold hexByte
  dsimp only
  rw [hexDigit_hexUpper hlow]
  dsimp only
  rw [if_neg (hexUpper_ne_plus hhigh), hexDigit_hexUpper hhigh, Option.map_some]
  congr 1
  omega

theorem ascii_of_hexDigit {c : Char} (h : hexDigit c = some n) :
    c.val.toNat < 0x80 := by
  unfold hexDigit at h
  dsimp only at h
  split at h
  · omega
  · split at h
    · omega
    · split at h
      · omega
      · cases h

theorem ascii_of_byteOfToken {text : Text} (h : byteOfToken text = some n) :
    text.length = 6 ∧ forall c, c ∈ text -> c.val.toNat < 0x80 := by
  unfold byteOfToken at h
  split at h
  · rename_i hshape
    rcases hshape with ⟨⟨rest, rfl⟩, hlast, _⟩
    have hinner : (("<0x".toList ++ rest).drop 3).take (("<0x".toList ++ rest).length - 4) =
        rest.take (rest.length - 1) := by
      show rest.take _ = _
      congr 1
    rw [hinner] at h
    rcases hdigits : rest.take (rest.length - 1) with _ | ⟨high, _ | ⟨low, _ | ⟨more, tail⟩⟩⟩
    · rw [hdigits] at h
      cases h
    · rw [hdigits] at h
      cases h
    · rw [hdigits] at h
      have hrest : rest = [high, low, '>'] := by
        have hne : rest ≠ [] := by
          rintro rfl
          cases hdigits
        rw [List.getLast?_append_of_ne_nil _ hne, List.getLast?_eq_some_getLast hne] at hlast
        rw [← List.dropLast_concat_getLast hne, List.dropLast_eq_take, hdigits,
          Option.some.inj hlast]
        rfl
      subst hrest
      unfold hexByte at h
      dsimp only at h
      cases hlow : hexDigit low with
      | none =>
        rw [hlow] at h
        cases h
      | some units =>
        rw [hlow] at h
        dsimp only at h
        have hhigh : high.val.toNat < 0x80 := by
          split at h
          · rename_i hplus
            rw [hplus]
            decide
          · rcases Option.map_eq_some_iff.mp h with ⟨sixteens, hsixteens, _⟩
            exact ascii_of_hexDigit hsixteens
        refine ⟨rfl, ?_⟩
        intro c hc
        simp at hc
        rcases hc with rfl | rfl | rfl | rfl | rfl | rfl
        · decide
        · decide
        · decide
        · exact hhigh
        · exact ascii_of_hexDigit hlow
        · decide
    · rw [hdigits] at h
      cases h
  · cases h

/-!
# What a piece decodes to
-/

variable {score : Type}

namespace Tokenizer

def byteChars (text : Text) : Text :=
  (encodeText text).map fun byte => Char.ofNat byte.toNat

def pieceText (tok : Tokenizer score) (text : Text) : Text :=
  match tok.vocab.tokenId text with
  | some _ => decodeSp text
  | none => byteChars text

theorem decodedBytes_pieceTokens {tok : Tokenizer score} (hmode : tok.mode = .gemma4Bpe)
    (hbytes : forall byte, byteToken byte ∈ tok.vocab.idToToken) (text : Text) :
    tok.decodedBytes (tok.pieceTokens text) = encodeText (tok.pieceText text) := by
  have hdecoded : forall {id raw}, tok.vocab.tokenStr id = some raw ->
      tok.decodedTokenBytes id = encodeText (decodeSp raw) := by
    intro id raw hraw
    unfold decodedTokenBytes
    rw [hmode, hraw]
    rfl
  unfold pieceTokens pieceText
  cases htoken : tok.vocab.tokenId text with
  | some token =>
    show [token].flatMap _ = _
    rw [List.flatMap_singleton]
    exact hdecoded (Vocab.tokenStr_of_tokenId htoken)
  | none =>
    show ((encodeText text).map _).flatMap _ = encodeText ((encodeText text).map _)
    unfold encodeText
    rw [List.flatMap_map, List.flatMap_map]
    apply List.flatMap_congr
    intro byte _
    rcases Vocab.exists_tokenId (hbytes byte) with ⟨id, hid⟩
    rw [hid, Option.getD_some, hdecoded (Vocab.tokenStr_of_tokenId hid)]
    unfold decodeSp
    rw [byteOfToken_byteToken]
    show encodeText [_] = _
    unfold encodeText
    rw [List.flatMap_singleton]

theorem decode_pieceTokens {tok : Tokenizer score} (hmode : tok.mode = .gemma4Bpe)
    (hbytes : forall byte, byteToken byte ∈ tok.vocab.idToToken) (pieces : List Text) :
    tok.decode (pieces.flatMap tok.pieceTokens) = pieces.flatMap tok.pieceText := by
  have h : tok.decodedBytes (pieces.flatMap tok.pieceTokens) =
      encodeText (pieces.flatMap tok.pieceText) := by
    induction pieces with
    | nil => rfl
    | cons piece pieces ih =>
      rw [List.flatMap_cons, List.flatMap_cons, decodedBytes_append, encodeText_append, ih,
        decodedBytes_pieceTokens hmode hbytes]
  unfold decode
  rw [h, lossy_encodeText]

end Tokenizer

/-!
# When a piece comes back

Counting characters outside ASCII, and then counting all characters, tells a text that
was lost from the text itself, wherever its pieces begin and end.
-/

/-- How many characters are not ASCII. -/
def wideCount (text : Text) : Nat :=
  text.countP fun c => decide (0x80 <= c.val.toNat)

theorem wideCount_append (left right : Text) :
    wideCount (left ++ right) = wideCount left + wideCount right :=
  List.countP_append

theorem wideCount_of_ascii {text : Text} (h : forall c, c ∈ text -> c.val.toNat < 0x80) :
    wideCount text = 0 := by
  apply List.countP_eq_zero.mpr
  intro c hc
  have hlt := h c hc
  rw [decide_eq_true_eq]
  exact Nat.not_le_of_lt hlt

theorem wideCount_le (text : Text) : wideCount text <= text.length :=
  List.countP_le_length

theorem encodeChar_of_wide {c : Char} (h : 0x80 <= c.val.toNat) :
    2 <= (String.utf8EncodeChar c).length ∧
      forall byte, byte ∈ String.utf8EncodeChar c -> 0x80 <= byte.toNat := by
  have hbyte : forall n, 0x80 <= n -> n < 256 -> 0x80 <= (UInt8.ofNat n).toNat := by
    intro n hlow hhigh
    rw [toNat_byte hhigh]
    exact hlow
  unfold String.utf8EncodeChar
  dsimp only
  rw [if_neg (by omega)]
  split
  · refine ⟨by simp, ?_⟩
    intro byte hmem
    simp only [List.mem_cons, List.not_mem_nil, or_false] at hmem
    rcases hmem with rfl | rfl <;> exact hbyte _ (by omega) (by omega)
  · split
    · refine ⟨by simp, ?_⟩
      intro byte hmem
      simp only [List.mem_cons, List.not_mem_nil, or_false] at hmem
      rcases hmem with rfl | rfl | rfl <;> exact hbyte _ (by omega) (by omega)
    · refine ⟨by simp, ?_⟩
      intro byte hmem
      simp only [List.mem_cons, List.not_mem_nil, or_false] at hmem
      rcases hmem with rfl | rfl | rfl | rfl <;> exact hbyte _ (by omega) (by omega)

theorem toNat_charOfByte (byte : UInt8) : (Char.ofNat byte.toNat).val.toNat = byte.toNat := by
  have hlt := UInt8.toNat_lt byte
  have hvalid : byte.toNat.isValidChar := Or.inl (by omega)
  rw [Char.ofNat, dif_pos hvalid]
  rfl

theorem wideCount_byteChars {c : Char} (h : 0x80 <= c.val.toNat) :
    2 <= wideCount (Tokenizer.byteChars [c]) := by
  rcases encodeChar_of_wide h with ⟨hlength, hwide⟩
  have hall : wideCount (Tokenizer.byteChars [c]) = (Tokenizer.byteChars [c]).length := by
    apply List.countP_eq_length.mpr
    intro other hother
    rcases List.mem_map.mp hother with ⟨byte, hbyte, rfl⟩
    unfold encodeText at hbyte
    rw [List.flatMap_singleton] at hbyte
    rw [toNat_charOfByte]
    exact decide_eq_true (hwide byte hbyte)
  rw [hall]
  unfold Tokenizer.byteChars encodeText
  rw [List.length_map, List.flatMap_singleton]
  exact hlength

theorem byteChars_of_ascii {c : Char} (h : c.val.toNat < 0x80) : Tokenizer.byteChars [c] = [c] := by
  unfold Tokenizer.byteChars encodeText
  rw [List.flatMap_singleton, encodeChar_of_ascii h, List.map_singleton, toNat_byte (by omega)]
  exact congrArg (fun scalar => [scalar]) (Char.ofNat_toNat c)

/-- Two readings of the same pieces that join to the same list agree in an additive
measure at every piece, once one reading never measures less. -/
theorem measure_eq_of_flatMap_eq {alpha beta : Type} {measure : List beta -> Nat}
    {left right : alpha -> List beta} {xs : List alpha}
    (hadd : forall front back, measure (front ++ back) = measure front + measure back)
    (hle : forall x, x ∈ xs -> measure (left x) <= measure (right x))
    (h : xs.flatMap left = xs.flatMap right) :
    forall x, x ∈ xs -> measure (left x) = measure (right x) := by
  have htotal : forall ys : List alpha,
    (forall y, y ∈ ys -> measure (left y) <= measure (right y)) ->
      measure (ys.flatMap left) <= measure (ys.flatMap right) := by
    intro ys hys
    induction ys with
    | nil => exact Nat.le_refl _
    | cons y ys ih =>
      rw [List.flatMap_cons, List.flatMap_cons, hadd, hadd]
      exact Nat.add_le_add (hys y List.mem_cons_self)
        (ih (fun z hz => hys z (List.mem_cons_of_mem y hz)))
  have hsame : measure (xs.flatMap left) = measure (xs.flatMap right) := congrArg measure h
  clear h
  induction xs with
  | nil =>
    intro x hx
    cases hx
  | cons x xs ih =>
    have hhead := hle x List.mem_cons_self
    have htail := htotal xs (fun y hy => hle y (List.mem_cons_of_mem x hy))
    rw [List.flatMap_cons, List.flatMap_cons, hadd, hadd] at hsame
    intro y hy
    cases hy with
    | head => omega
    | tail _ hy => exact ih (fun z hz => hle z (List.mem_cons_of_mem x hz)) (by omega) y hy

namespace Tokenizer

def plainText (piece : Text) : Text :=
  replaceChar spaceMark ' ' piece

def Spelt (tok : Tokenizer score) (piece : Text) : Prop :=
  tok.vocab.tokenId piece ≠ none ∨ exists c, piece = [c]

structure ComesBack (tok : Tokenizer score) (piece : Text) : Prop where
  ascii : tok.vocab.tokenId piece = none -> forall c, c ∈ piece -> c.val.toNat < 0x80
  noByte : tok.vocab.tokenId piece ≠ none -> byteOfToken piece = none

theorem plainText_of_ascii {piece : Text} (h : forall c, c ∈ piece -> c.val.toNat < 0x80) :
    plainText piece = piece := by
  unfold plainText replaceChar
  rw [List.map_congr_left (g := id), List.map_id]
  intro c hc
  apply if_neg
  rintro rfl
  exact absurd (h _ hc) (by decide)

variable {tok : Tokenizer score}

theorem pieceText_of_comesBack {piece : Text} (hspelt : tok.Spelt piece) (h : tok.ComesBack piece) :
    tok.pieceText piece = plainText piece := by
  unfold pieceText
  cases htoken : tok.vocab.tokenId piece with
  | some token =>
    dsimp only
    unfold decodeSp
    rw [h.noByte (by rw [htoken]; exact Option.some_ne_none token)]
    rfl
  | none =>
    rcases hspelt with hsome | ⟨c, rfl⟩
    · exact absurd htoken hsome
    · have hascii := h.ascii htoken
      rw [plainText_of_ascii hascii]
      exact byteChars_of_ascii (hascii c List.mem_cons_self)

theorem wideCount_plainText_le {piece : Text} (hspelt : tok.Spelt piece) :
    wideCount (plainText piece) <= wideCount (tok.pieceText piece) := by
  unfold pieceText
  cases htoken : tok.vocab.tokenId piece with
  | some token =>
    dsimp only
    unfold decodeSp
    cases hbyte : byteOfToken piece with
    | some byte =>
      have hascii := (ascii_of_byteOfToken hbyte).2
      rw [plainText_of_ascii hascii, wideCount_of_ascii hascii]
      exact Nat.zero_le _
    | none => exact Nat.le_refl _
  | none =>
    rcases hspelt with hsome | ⟨c, rfl⟩
    · exact absurd htoken hsome
    · dsimp only
      by_cases hascii : c.val.toNat < 0x80
      · have hall : forall other, other ∈ [c] -> other.val.toNat < 0x80 := by
          intro other hother
          rw [List.mem_singleton.mp hother]
          exact hascii
        rw [plainText_of_ascii hall, byteChars_of_ascii hascii]
      · have hwide := wideCount_byteChars (Nat.le_of_not_lt hascii)
        have hle := wideCount_le (plainText [c])
        have hone : (plainText [c]).length = 1 := rfl
        omega

theorem pieceTexts_eq_iff {pieces : List Text}
    (hspelt : forall piece, piece ∈ pieces -> tok.Spelt piece) :
    pieces.flatMap tok.pieceText = pieces.flatMap plainText ↔
      forall piece, piece ∈ pieces -> tok.ComesBack piece := by
  constructor
  · intro h
    have hwide := measure_eq_of_flatMap_eq wideCount_append
      (fun piece hpiece => wideCount_plainText_le (hspelt piece hpiece)) h.symm
    have hascii : forall piece, piece ∈ pieces -> tok.vocab.tokenId piece = none ->
        forall c, c ∈ piece -> c.val.toNat < 0x80 := by
      intro piece hpiece htoken c hc
      rcases hspelt piece hpiece with hsome | ⟨other, rfl⟩
      · exact absurd htoken hsome
      · rw [List.mem_singleton.mp hc]
        apply Nat.lt_of_not_le
        intro hother
        have hbytes := wideCount_byteChars hother
        have hsame := hwide [other] hpiece
        have hle := wideCount_le (plainText [other])
        have hone : (plainText [other]).length = 1 := rfl
        unfold pieceText at hsame
        rw [htoken] at hsame
        dsimp only at hsame
        omega
    have hshrinks : forall piece, piece ∈ pieces ->
        (tok.pieceText piece).length <= (plainText piece).length := by
      intro piece hpiece
      cases htoken : tok.vocab.tokenId piece with
      | none =>
        apply Nat.le_of_eq
        apply congrArg
        apply pieceText_of_comesBack (hspelt piece hpiece)
        exact ⟨hascii piece hpiece, fun hsome => absurd htoken hsome⟩
      | some token =>
        unfold pieceText
        rw [htoken]
        dsimp only
        unfold decodeSp
        cases hbyte : byteOfToken piece with
        | none => exact Nat.le_refl _
        | some byte =>
          have hsix := (ascii_of_byteOfToken hbyte).1
          rw [plainText_of_ascii (ascii_of_byteOfToken hbyte).2, hsix]
          exact Nat.le_add_left 1 5
    have hlength := measure_eq_of_flatMap_eq (fun _ _ => List.length_append) hshrinks h
    intro piece hpiece
    refine ⟨hascii piece hpiece, ?_⟩
    intro hsome
    cases hbyte : byteOfToken piece with
    | none => rfl
    | some byte =>
      have hsame := hlength piece hpiece
      have hsix := (ascii_of_byteOfToken hbyte).1
      rw [plainText_of_ascii (ascii_of_byteOfToken hbyte).2, hsix] at hsame
      unfold pieceText at hsame
      cases htoken : tok.vocab.tokenId piece with
      | none => exact absurd htoken hsome
      | some token =>
        rw [htoken] at hsame
        unfold decodeSp at hsame
        rw [hbyte] at hsame
        cases hsame
  · intro h
    apply List.flatMap_congr
    intro piece hpiece
    exact pieceText_of_comesBack (hspelt piece hpiece) (h piece hpiece)

end Tokenizer

end Tokenization
end RunNBurn
