import RunNBurn.Tokenization.Vocab

/-!
# The tokenizer and its decoder

A token decodes on its own to bytes; a list of tokens decodes to the text that all
these bytes are read as.
-/

namespace RunNBurn
namespace Tokenization

open Library

inductive TokenizerMode where
  | sentencePiece (addSpacePrefix : Bool)
  | gemma4Bpe
  | gpt2Bpe (llama4Pretokenizer : Bool)
deriving DecidableEq, Repr

/-- What encoding takes from outside: the arithmetic of its scores, which are floats,
and the matches of the Llama 4 pattern in a text, in characters. -/
structure Primitives (score : Type) where
  zero : score
  add : score -> score -> score
  exceeds : score -> score -> Bool
  close : score -> score -> Bool
  llama4Split : Text -> List (Nat × Nat)

structure Tokenizer (score : Type) where
  vocab : Vocab
  merges : List (TokenId × TokenId)
  mode : TokenizerMode
  sentencepieceScores : List score
  addBosToken : Bool

variable {score : Type}

namespace Tokenizer

/-- The rank of a merge rule; of several equal rules the last one counts. -/
def mergeRank (tok : Tokenizer score) (left right : TokenId) : Option Nat :=
  lastIndexOf (left, right) tok.merges

def maxTokenChars (tok : Tokenizer score) : Nat :=
  max ((tok.vocab.idToToken.map List.length).foldr max 0) 1

end Tokenizer

/-!
# Decoding
-/

def hexDigit (c : Char) : Option Nat :=
  let n := c.val.toNat
  if 48 <= n ∧ n <= 57 then some (n - 48)
  else if 65 <= n ∧ n <= 70 then some (n - 55)
  else if 97 <= n ∧ n <= 102 then some (n - 87)
  else none

/-- `u8::from_str_radix(_, 16)` of two bytes; a sign may take the place of a digit. -/
def hexByte : Text -> Option Nat
  | [high, low] =>
    match hexDigit low with
    | none => none
    | some units =>
      if high = '+' then some units
      else (hexDigit high).map fun sixteens => sixteens * 16 + units
  | _ => none

def hexUpper (n : Nat) : Char :=
  Char.ofNat (if n < 10 then 48 + n else 55 + n)

def byteToken (byte : UInt8) : Text :=
  "<0x".toList ++ [hexUpper (byte.toNat / 16), hexUpper (byte.toNat % 16), '>']

def spaceMark : Char :=
  Char.ofNat 0x2581

def replaceChar (old fresh : Char) (text : Text) : Text :=
  text.map fun c => if c = old then fresh else c

/-- The byte of a token `<0x..>`. -/
def byteOfToken (raw : Text) : Option Nat :=
  if "<0x".toList <+: raw ∧ raw.getLast? = some '>' ∧ byteLen raw = 6 then
    hexByte ((raw.drop 3).take (raw.length - 4))
  else none

def decodeSp (raw : Text) : Text :=
  match byteOfToken raw with
  | some byte => [Char.ofNat byte]
  | none => replaceChar spaceMark ' ' raw

namespace Tokenizer

def decodedTokenBytes (tok : Tokenizer score) (id : TokenId) : List UInt8 :=
  let raw := (tok.vocab.tokenStr id).getD []
  match tok.mode with
  | .sentencePiece _ => encodeText (decodeSp raw)
  | .gemma4Bpe => encodeText (decodeSp raw)
  | .gpt2Bpe _ => raw.map characterByte

def decodedBytes (tok : Tokenizer score) (tokens : List TokenId) : List UInt8 :=
  tokens.flatMap tok.decodedTokenBytes

def decode (tok : Tokenizer score) (tokens : List TokenId) : Text :=
  lossy (tok.decodedBytes tokens)

theorem decodedBytes_append (tok : Tokenizer score) (left right : List TokenId) :
    tok.decodedBytes (left ++ right) = tok.decodedBytes left ++ tok.decodedBytes right :=
  List.flatMap_append

end Tokenizer
end Tokenization
end RunNBurn
