import RunNBurn.Library.LastOccurrences
import RunNBurn.Library.Utf8

/-!
# The vocabulary

Tokens by id, the table back from their texts, and the special tokens that encoding
cuts a text at.
-/

namespace RunNBurn
namespace Tokenization

open Library

abbrev Text : Type := List Char

abbrev TokenId : Type := Nat

def byteLen (text : Text) : Nat :=
  (encodeText text).length

structure SpecialTokens where
  bos : TokenId
  eos : TokenId
  pad : Option TokenId
deriving DecidableEq, Repr

/-- Ids are 32-bit words, and the loader reads no longer token lists. -/
structure Vocab where
  idToToken : List Text
  special : SpecialTokens
  tokenTypes : List Nat
  tokenizationSpecialIds : List TokenId
  unknown : Option TokenId
  separator : Option TokenId
  fits : idToToken.length <= 2 ^ 32

namespace Vocab

def new (tokens : List Text) (special : SpecialTokens) (fits : tokens.length <= 2 ^ 32) :
    Vocab where
  idToToken := tokens
  special := special
  tokenTypes := []
  tokenizationSpecialIds := []
  unknown := none
  separator := none
  fits := fits

def isSpecialType (tokenType : Nat) : Bool :=
  tokenType == 2 || tokenType == 3 || tokenType == 4

def setTokenMetadata (vocab : Vocab) (tokenTypes : List Nat)
    (unknown separator : Option TokenId) (addedTokenIds : List TokenId) : Vocab :=
  let inferredUnknown := tokenTypes.findIdx? (· == 2)
  let typed := tokenTypes.zipIdx.filterMap fun (tokenType, id) =>
    if isSpecialType tokenType then some id else none
  { vocab with
    tokenTypes := tokenTypes
    tokenizationSpecialIds := ((typed ++ addedTokenIds).mergeSort (· ≤ ·)).dedup
    unknown := unknown <|> inferredUnknown
    separator := separator }

def hasExplicitTokenTypes (vocab : Vocab) : Bool :=
  !vocab.tokenTypes.isEmpty

def tokenStr (vocab : Vocab) (id : TokenId) : Option Text :=
  vocab.idToToken[id]?

/-- The table back is filled in order of the ids, as 32-bit words. -/
def tokenId (vocab : Vocab) (text : Text) : Option TokenId :=
  (lastIndexOf text vocab.idToToken).map (· % 2 ^ 32)

variable {vocab : Vocab}

theorem tokenStr_of_tokenId {text : Text} {id : TokenId} (h : vocab.tokenId text = some id) :
    vocab.tokenStr id = some text := by
  unfold tokenId at h
  rcases Option.map_eq_some_iff.mp h with ⟨i, hi, rfl⟩
  have hget := getElem?_of_lastIndexOf hi
  have hlt : i < 2 ^ 32 :=
    Nat.lt_of_lt_of_le (List.getElem?_eq_some_iff.mp hget).1 vocab.fits
  rw [Nat.mod_eq_of_lt hlt]
  exact hget

theorem exists_tokenId {text : Text} (h : text ∈ vocab.idToToken) :
    exists id, vocab.tokenId text = some id := by
  rcases exists_lastIndexOf h with ⟨i, hi⟩
  refine ⟨i % 2 ^ 32, ?_⟩
  unfold tokenId
  rw [hi]
  rfl

/-!
# Special tokens
-/

def enclosed (token : Text) : Bool :=
  (token.head? == some '<' && token.getLast? == some '>') ||
    (token.head? == some '[' && token.getLast? == some ']')

def looksSpecial (token : Text) : Bool :=
  enclosed token && byteLen token > 2 && token != "<0x0A>".toList

def specialControlTokens (vocab : Vocab) : List (Text × TokenId) :=
  let out :=
    if vocab.hasExplicitTokenTypes || !vocab.tokenizationSpecialIds.isEmpty then
      vocab.tokenizationSpecialIds.filterMap fun id =>
        (vocab.tokenStr id).map fun token => (token, id)
    else
      vocab.idToToken.zipIdx.filterMap fun (token, id) =>
        if looksSpecial token then some (token, id) else none
  out.mergeSort fun left right => byteLen right.1 <= byteLen left.1

theorem tokenStr_of_mem_specialControlTokens {token : Text} {id : TokenId}
    (h : (token, id) ∈ vocab.specialControlTokens) :
    vocab.tokenStr id = some token := by
  unfold specialControlTokens at h
  rw [List.mem_mergeSort] at h
  split at h
  · rcases List.mem_filterMap.mp h with ⟨other, _, hother⟩
    rcases Option.map_eq_some_iff.mp hother with ⟨found, hfound, heq⟩
    cases heq
    exact hfound
  · rcases List.mem_filterMap.mp h with ⟨⟨found, index⟩, hmem, hfound⟩
    dsimp only at hfound
    split at hfound
    · cases hfound
      exact (List.mem_zipIdx_iff_getElem?.mp hmem)
    · cases hfound

theorem mem_specialControlTokens_iff {token : Text} {id : TokenId}
    (htypes : vocab.tokenTypes = []) (hids : vocab.tokenizationSpecialIds = []) :
    (token, id) ∈ vocab.specialControlTokens ↔
      vocab.idToToken[id]? = some token ∧ looksSpecial token = true := by
  unfold specialControlTokens hasExplicitTokenTypes
  rw [List.mem_mergeSort, htypes, hids, if_neg (by decide), List.mem_filterMap]
  constructor
  · rintro ⟨⟨found, index⟩, hmem, hfound⟩
    dsimp only at hfound
    split at hfound
    · rename_i hlooks
      cases hfound
      exact ⟨List.mem_zipIdx_iff_getElem?.mp hmem, hlooks⟩
    · cases hfound
  · rintro ⟨hget, hlooks⟩
    exact ⟨(token, id), List.mem_zipIdx_iff_getElem?.mpr hget, if_pos hlooks⟩

theorem head_of_looksSpecial {token : Text} (h : looksSpecial token = true) :
    token.head? = some '<' ∨ token.head? = some '[' := by
  unfold looksSpecial enclosed at h
  simp at h
  tauto

theorem specialControlTokens_pairwise (vocab : Vocab) :
    vocab.specialControlTokens.Pairwise fun left right => byteLen right.1 <= byteLen left.1 := by
  have h : vocab.specialControlTokens.Pairwise
      fun left right => decide (byteLen right.1 <= byteLen left.1) = true := by
    apply List.pairwise_mergeSort
    · intro first second third hleft hright
      exact decide_eq_true (Nat.le_trans (of_decide_eq_true hright) (of_decide_eq_true hleft))
    · intro first second
      rw [Bool.or_eq_true, decide_eq_true_eq, decide_eq_true_eq]
      exact Nat.le_total _ _
  exact h.imp of_decide_eq_true

end Vocab

/-!
# Bytes as characters

A byte-level vocabulary spells every byte with a character of its own: a printable
one stands for itself, the others follow from 256 on.
-/

def isDirect (byte : Nat) : Bool :=
  (33 <= byte && byte <= 126) || (161 <= byte && byte <= 172) || (174 <= byte && byte <= 255)

/-- The characters of the bytes, as numbers; `n` counts the ones that do not stand for
themselves. -/
def unicodeCodes : List Nat -> (n : Nat) -> List Nat
  | [], _ => []
  | byte :: bytes, n =>
    if isDirect byte then byte :: unicodeCodes bytes n
    else (256 + n) :: unicodeCodes bytes (n + 1)

/-- The characters of the bytes `0..=255`. -/
def byteTable : List Char :=
  (unicodeCodes (List.range 256) 0).map Char.ofNat

def byteToUnicode (byte : UInt8) : Char :=
  byteTable.getD byte.toNat (Char.ofNat 0)

def unicodeToByte (c : Char) : Option UInt8 :=
  (lastIndexOf c byteTable).map UInt8.ofNat

def characterByte (c : Char) : UInt8 :=
  (unicodeToByte c).getD 63

theorem length_unicodeCodes (bytes : List Nat) (n : Nat) :
    (unicodeCodes bytes n).length = bytes.length := by
  induction bytes generalizing n with
  | nil => rfl
  | cons byte bytes ih =>
    unfold unicodeCodes
    split
    · exact congrArg (· + 1) (ih n)
    · exact congrArg (· + 1) (ih (n + 1))

variable {bytes : List Nat}

theorem mem_unicodeCodes {n code : Nat} (h : code ∈ unicodeCodes bytes n) :
    (isDirect code = true ∧ code ∈ bytes) ∨
      256 + n <= code ∧ code < 256 + n + bytes.length := by
  induction bytes generalizing n with
  | nil => cases h
  | cons byte bytes ih =>
    unfold unicodeCodes at h
    rw [List.length_cons]
    split at h
    · rename_i hdirect
      cases h with
      | head => exact Or.inl ⟨hdirect, List.mem_cons_self⟩
      | tail _ h =>
        rcases ih h with ⟨hcode, hmem⟩ | hrange
        · exact Or.inl ⟨hcode, List.mem_cons_of_mem byte hmem⟩
        · omega
    · cases h with
      | head => omega
      | tail _ h =>
        rcases ih h with ⟨hcode, hmem⟩ | hrange
        · exact Or.inl ⟨hcode, List.mem_cons_of_mem byte hmem⟩
        · omega

theorem isDirect_lt {byte : Nat} (h : isDirect byte = true) : byte < 256 := by
  simp [isDirect] at h
  omega

theorem nodup_unicodeCodes (n : Nat) (h : bytes.Nodup) :
    (unicodeCodes bytes n).Nodup := by
  induction bytes generalizing n with
  | nil => exact List.nodup_nil
  | cons byte bytes ih =>
    rw [List.nodup_cons] at h
    unfold unicodeCodes
    split
    · rename_i hdirect
      apply List.nodup_cons.mpr ⟨?_, ih n h.2⟩
      intro hmem
      have hlt := isDirect_lt hdirect
      rcases mem_unicodeCodes hmem with ⟨_, hrest⟩ | hrange
      · exact h.1 hrest
      · omega
    · apply List.nodup_cons.mpr ⟨?_, ih (n + 1) h.2⟩
      intro hmem
      rcases mem_unicodeCodes hmem with ⟨hdirect, _⟩ | hrange
      · have hlt := isDirect_lt hdirect
        omega
      · omega

theorem getElem?_unicodeCodes {i byte : Nat} (n : Nat) (h : bytes[i]? = some byte)
    (hdirect : isDirect byte = true) :
    (unicodeCodes bytes n)[i]? = some byte := by
  induction bytes generalizing n i with
  | nil => cases h
  | cons first bytes ih =>
    unfold unicodeCodes
    cases i with
    | zero =>
      cases h
      rw [if_pos hdirect]
      rfl
    | succ i =>
      split
      · exact ih n h
      · exact ih (n + 1) h

theorem toNat_ofNat_small {n : Nat} (h : n < 0xD800) : (Char.ofNat n).val.toNat = n := by
  have hvalid : n.isValidChar := Or.inl h
  rw [Char.ofNat, dif_pos hvalid]
  rfl

theorem code_lt {code : Nat} (h : code ∈ unicodeCodes (List.range 256) 0) : code < 0xD800 := by
  rcases mem_unicodeCodes h with ⟨hdirect, _⟩ | ⟨_, hlt⟩
  · exact Nat.lt_trans (isDirect_lt hdirect) (by decide)
  · rw [List.length_range] at hlt
    exact Nat.lt_trans hlt (by decide)

theorem nodup_byteTable : byteTable.Nodup := by
  apply List.Nodup.map_on ?_ (nodup_unicodeCodes 0 List.nodup_range)
  intro left hleft right hright heq
  rw [← toNat_ofNat_small (code_lt hleft), heq, toNat_ofNat_small (code_lt hright)]

theorem length_byteTable : byteTable.length = 256 := by
  rw [byteTable, List.length_map, length_unicodeCodes, List.length_range]

theorem getElem?_byteTable (byte : UInt8) :
    byteTable[byte.toNat]? = some (byteToUnicode byte) := by
  have hlt : byte.toNat < byteTable.length := by
    rw [length_byteTable]
    exact byte.toNat_lt
  unfold byteToUnicode
  rw [List.getD_eq_getElem?_getD, List.getElem?_eq_getElem hlt]
  rfl

theorem unicodeToByte_byteToUnicode (byte : UInt8) :
    unicodeToByte (byteToUnicode byte) = some byte := by
  unfold unicodeToByte
  rw [lastIndexOf_of_nodup nodup_byteTable (getElem?_byteTable byte)]
  exact congrArg some UInt8.ofNat_toNat

theorem characterByte_byteToUnicode (byte : UInt8) :
    characterByte (byteToUnicode byte) = byte := by
  unfold characterByte
  rw [unicodeToByte_byteToUnicode]
  rfl

theorem characterByte_of_isDirect {n : Nat} (h : isDirect n = true) :
    characterByte (Char.ofNat n) = UInt8.ofNat n := by
  have hget : (List.range 256)[n]? = some n := List.getElem?_range (isDirect_lt h)
  have htable : byteTable[n]? = some (Char.ofNat n) := by
    unfold byteTable
    rw [List.getElem?_map, getElem?_unicodeCodes 0 hget h]
    rfl
  unfold characterByte unicodeToByte
  rw [lastIndexOf_of_nodup nodup_byteTable htable]
  rfl

theorem characterByte_of_not_mem {c : Char} (h : c.val.toNat ∉ unicodeCodes (List.range 256) 0) :
    characterByte c = 63 := by
  have hmem : c ∉ byteTable := by
    intro hc
    rcases List.mem_map.mp hc with ⟨code, hcode, rfl⟩
    rw [toNat_ofNat_small (code_lt hcode)] at h
    exact h hcode
  unfold characterByte unicodeToByte
  rw [lastIndexOf_eq_none.mpr hmem]
  rfl

def Printable (c : Char) : Prop :=
  33 <= c.val.toNat ∧ c.val.toNat <= 126

instance (c : Char) : Decidable (Printable c) :=
  inferInstanceAs (Decidable (_ ∧ _))

theorem isDirect_ascii {n : Nat} (h : n < 0x80) :
    isDirect n = true ↔ 33 <= n ∧ n <= 126 := by
  simp [isDirect]
  omega

theorem characterByte_ascii {n : Nat} (h : n < 0x80) :
    characterByte (Char.ofNat n) = UInt8.ofNat n ↔ 33 <= n ∧ n <= 126 := by
  rw [← isDirect_ascii h]
  constructor
  · intro heq
    by_cases hdirect : isDirect n = true
    · exact hdirect
    · rw [characterByte_of_not_mem] at heq
      · have hn := congrArg UInt8.toNat heq
        rw [toNat_byte (Nat.lt_trans h (by decide))] at hn
        rw [← hn]
        decide
      · rw [toNat_ofNat_ascii h]
        intro hmem
        rcases mem_unicodeCodes hmem with ⟨hcode, _⟩ | ⟨hge, _⟩
        · exact hdirect hcode
        · omega
  · exact characterByte_of_isDirect

theorem characterByte_replacement : (characterByte replacement).toNat < 0x80 := by
  rw [characterByte_of_not_mem]
  · decide
  · intro hmem
    exact absurd (code_lt hmem) (by decide)

theorem encodeChar_length_of_not_ascii {c : Char} (h : ¬ c.val.toNat < 0x80) :
    (String.utf8EncodeChar c).length ≠ 1 := by
  unfold String.utf8EncodeChar
  dsimp only
  rw [if_neg (by omega)]
  split
  · simp
  · split <;> simp

theorem characterByte_own_iff (c : Char) :
    [characterByte c] = String.utf8EncodeChar c ↔ Printable c := by
  by_cases hascii : c.val.toNat < 0x80
  · have h := characterByte_ascii hascii
    have hself : Char.ofNat c.val.toNat = c := Char.ofNat_toNat c
    rw [hself] at h
    rw [encodeChar_of_ascii hascii, List.singleton_inj]
    exact h
  · constructor
    · intro h
      exact absurd (congrArg List.length h).symm (encodeChar_length_of_not_ascii hascii)
    · intro h
      exact absurd (Nat.lt_succ_of_le h.2) (fun hlt => hascii (Nat.lt_trans hlt (by decide)))

theorem printable_of_readsBack {c : Char} (h : ReadsBack (c, [characterByte c])) :
    Printable c := by
  rcases h with hown | ⟨hreplacement, byte, hbyte, hhigh⟩
  · exact (characterByte_own_iff c).mp hown
  · dsimp only at hreplacement hbyte
    rw [← List.singleton_inj.mp hbyte, hreplacement] at hhigh
    exact absurd hhigh (Nat.not_le_of_lt characterByte_replacement)

end Tokenization
end RunNBurn
