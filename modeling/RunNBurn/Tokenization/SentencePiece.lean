import RunNBurn.Tokenization.Scan

/-!
# SentencePiece tokens

Every position of the text keeps the best path of tokens that ends there, by score, then
by the number of tokens, then by the length of the last one.
-/

namespace RunNBurn
namespace Tokenization

open Library

/-- The end of a path: its score, its number of tokens, where the last token starts, and
the token. -/
structure SpPath (score : Type) where
  score : score
  pieces : Nat
  prev : Nat
  id : TokenId

variable {score : Type}

def isBetterSentencepieceCandidate (prims : Primitives score) (current : Option (SpPath score))
    (candidate : SpPath score) : Bool :=
  match current with
  | none => true
  | some cur =>
    prims.exceeds candidate.score cur.score ||
      (prims.close candidate.score cur.score && (candidate.pieces < cur.pieces ||
          (candidate.pieces == cur.pieces && (candidate.prev > cur.prev ||
              (candidate.prev == cur.prev && candidate.id < cur.id)))))

/-- Put the candidate at the end of its token if it is better than what is there. -/
def offerPath (prims : Primitives score) (best : List (Option (SpPath score))) (stop : Nat)
    (candidate : SpPath score) : Checked (List (Option (SpPath score))) := do
  let current <- index best stop
  if isBetterSentencepieceCandidate prims current candidate then
    return best.set stop (some candidate)
  else
    return best

def backtrack (best : List (Option (SpPath score))) :
    (fuel : Nat) -> (idx : Nat) -> (tokens : List TokenId) -> Checked (List TokenId)
  | _, 0, tokens => .ok tokens
  | 0, _ + 1, _ => abort "the path never ends"
  | fuel + 1, idx + 1, tokens => do
      let found <- index best (idx + 1)
      match found with
      | none => abort "sentencepiece path should exist"
      | some path => backtrack best fuel path.prev (path.id :: tokens)

namespace Tokenizer

def sentencepieceScore (prims : Primitives score) (tok : Tokenizer score) (id : TokenId) : score :=
  (tok.sentencepieceScores[id]?).getD prims.zero

def asciiToken (tok : Tokenizer score) (c : Char) : Option TokenId :=
  if c.val.toNat < 128 then tok.vocab.tokenId (byteToken (UInt8.ofNat c.val.toNat)) else none

def charToTokenSp (tok : Tokenizer score) (c : Char) : TokenId :=
  (((tok.vocab.tokenId [c]).or (tok.asciiToken c)).or tok.vocab.unknown).getD 0

section

variable (prims : Primitives score) (tok : Tokenizer score)

/-- Extend the path that ends at `i` by the token `id`. -/
def extendPath (path : SpPath score) (i : Nat) (id : TokenId) : SpPath score where
  score := prims.add path.score (tok.sentencepieceScore prims id)
  pieces := path.pieces + 1
  prev := i
  id := id

/-- Try the text from `i` to `j` as a token; the flag says whether some text was one. -/
def matchPiece (chars : Text)
    (path : SpPath score) (i : Nat) (state : Bool × List (Option (SpPath score))) (j : Nat) :
    Checked (Bool × List (Option (SpPath score))) := do
  let piece <- slice chars i j
  match tok.vocab.tokenId piece with
  | none => return state
  | some id => do
      let best <- offerPath prims state.2 j (tok.extendPath prims path i id)
      return (true, best)

/-- Extend the best path that ends at `i`. -/
def extendFrom (chars : Text) (i : Nat) (best : List (Option (SpPath score))) :
    Checked (List (Option (SpPath score))) := do
  let found <- index best i
  match found with
  | none => return best
  | some path => do
      let maxJ := min (i + tok.maxTokenChars) chars.length
      let (matched, best) <-
        (List.range' (i + 1) (maxJ - i)).foldlM (tok.matchPiece prims chars path i) (false, best)
      if matched then return best
      else do
        let c <- index chars i
        offerPath prims best (i + 1) (tok.extendPath prims path i (tok.charToTokenSp c))

def initialTokenizeSp (text : Text) (addSpacePrefix : Bool) : Checked (List TokenId) := do
  let chars := replaceChar ' ' spaceMark (if addSpacePrefix then ' ' :: text else text)
  let start : SpPath score :=
    { score := prims.zero
      pieces := 0
      prev := 0
      id := 0 }
  let best <- forRange (tok.extendFrom prims chars) chars.length
    (some start :: List.replicate chars.length none)
  let last <- index best chars.length
  match last with
  | none => return chars.map tok.charToTokenSp
  | some _ => backtrack best (chars.length + 1) chars.length []

/-- The stretch at the cursor, which is not at a special token. -/
def spStretch (addSpacePrefix : Bool)
    (specials : List (Text × TokenId)) (rest : Text) : Checked (List TokenId × Nat) :=
  if nextSpecial specials rest > 0 then do
    let tokens <- tok.initialTokenizeSp prims (rest.take (nextSpecial specials rest))
      addSpacePrefix
    return (tokens, nextSpecial specials rest)
  else do
    let tokens <- tok.initialTokenizeSp prims (rest.take 1) addSpacePrefix
    return (tokens, 1)

def initialTokenizeSpWithSpecials (text : Text) (addSpacePrefix : Bool) : Checked (List TokenId) :=
  let specialTokens := tok.vocab.specialControlTokens
  if specialTokens.isEmpty then
    tok.initialTokenizeSp prims text addSpacePrefix
  else
    scanSpecials (longestSpecial specialTokens)
      (tok.spStretch prims addSpacePrefix specialTokens) text.length text []

end

end Tokenizer

end Tokenization
end RunNBurn
