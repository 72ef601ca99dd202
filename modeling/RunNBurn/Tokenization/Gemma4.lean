import RunNBurn.Tokenization.BpeMerge
import RunNBurn.Tokenization.Scan

/-!
# Gemma 4 tokens

The characters of a line are merged by rank as texts; what has no token in the end is
spelt with byte tokens.
-/

namespace RunNBurn
namespace Tokenization

open Library

structure SpmMergeSymbol where
  text : Text
  n : Nat
  prev : Option Nat
  next : Option Nat
deriving DecidableEq, Repr

/-- The score of a pair is its negated rank, which a float holds exactly for every rank
that the loader can give. -/
structure SpmBigram where
  rank : Nat
  left : Nat
  right : Nat
  size : Nat
deriving DecidableEq, Repr

def spmOrder (bigram : SpmBigram) : OrderDual (Lex (Nat × Nat)) :=
  OrderDual.toDual (toLex (bigram.rank, bigram.left))

structure SpmState where
  symbols : List SpmMergeSymbol
  revMerge : List (Text × Nat × Nat)
  workQueue : List SpmBigram

def spmSymbols (text : Text) : List SpmMergeSymbol :=
  text.zipIdx.map fun (ch, idx) =>
    { text := [ch]
      n := (String.utf8EncodeChar ch).length
      prev := if idx = 0 then none else some (idx - 1)
      next := if idx + 1 < text.length then some (idx + 1) else none }

/-- Join the symbol at `right` to the one at `left`. -/
def joinSpmSymbols (symbols : List SpmMergeSymbol) (left right : Nat) :
    Checked (List SpmMergeSymbol) := do
  let rightSymbol <- index symbols right
  let symbols <- modifyAt symbols left fun symbol =>
    { symbol with
      text := symbol.text ++ rightSymbol.text
      n := symbol.n + rightSymbol.n }
  let symbols <- modifyAt symbols right fun symbol =>
    { symbol with
      text := []
      n := 0 }
  let symbols <- modifyAt symbols left fun symbol =>
    { symbol with next := rightSymbol.next }
  match rightSymbol.next with
  | none => return symbols
  | some rightNext =>
    modifyAt symbols rightNext fun symbol =>
      { symbol with prev := some left }

variable {score : Type}

namespace Tokenizer

section

variable (tok : Tokenizer score)

/-- The rank of two neighbouring texts, if joining them is a merge rule and a token. -/
def spmRank (left right : Text) : Option Nat :=
  match tok.vocab.tokenId (left ++ right) with
  | none => none
  | some _ =>
    match tok.vocab.tokenId left, tok.vocab.tokenId right with
    | some leftId, some rightId => tok.mergeRank leftId rightId
    | _, _ => none

def tryAddBigram (left right : Option Nat) (s : SpmState) :
    Checked SpmState :=
  match left, right with
  | some left, some right => do
      let leftSymbol <- index s.symbols left
      let rightSymbol <- index s.symbols right
      match tok.spmRank leftSymbol.text rightSymbol.text with
      | none => return s
      | some rank =>
        return {
          symbols := s.symbols
          revMerge := (leftSymbol.text ++ rightSymbol.text, left, right) :: s.revMerge
          workQueue :=
            { rank := rank
              left := left
              right := right
              size := byteLen (leftSymbol.text ++ rightSymbol.text) } :: s.workQueue }
  | _, _ => .ok s

def mergeBigram (s : SpmState) (bigram : SpmBigram) :
    Checked SpmState := do
  let symbols <- joinSpmSymbols s.symbols bigram.left bigram.right
  let left <- index symbols bigram.left
  let s <- tok.tryAddBigram left.prev (some bigram.left) { s with symbols := symbols }
  tok.tryAddBigram (some bigram.left) left.next s

/-- One round of the loop, with the queue in a given order. -/
def spmStepBy (order : SpmBigram -> OrderDual (Lex (Nat × Nat)))
    (s : SpmState) : Checked (Step SpmState) :=
  match popMaximum order s.workQueue with
  | none => .ok (.done s)
  | some (bigram, queue) => do
      let left <- index s.symbols bigram.left
      let right <- index s.symbols bigram.right
      if left.n = 0 ∨ right.n = 0 then return .next { s with workQueue := queue }
      else if left.n + right.n ≠ bigram.size then return .next { s with workQueue := queue }
      else do
        let merged <- tok.mergeBigram { s with workQueue := queue } bigram
        return .next merged

def spmStep : SpmState -> Checked (Step SpmState) :=
  tok.spmStepBy spmOrder

def byteFallback (text : Text) : List TokenId :=
  (encodeText text).map fun byte => (tok.vocab.tokenId (byteToken byte)).getD 0

end

def resegment (tok : Tokenizer score) (s : SpmState) :
    (fuel : Nat) -> (idx : Nat) -> Checked (List TokenId)
  | 0, _ => abort "the resegmentation never ends"
  | fuel + 1, idx => do
      let symbol <- index s.symbols idx
      match tok.vocab.tokenId symbol.text with
      | some token => return [token]
      | none =>
        match s.revMerge.lookup symbol.text with
        | some (left, right) => do
            let leftTokens <- tok.resegment s fuel left
            let rightTokens <- tok.resegment s fuel right
            return leftTokens ++ rightTokens
        | none => return tok.byteFallback symbol.text

def symbolTokens (tok : Tokenizer score) (s : SpmState) (i : Nat) (symbol : SpmMergeSymbol) :
    Checked (List TokenId) :=
  if symbol.n > 0 then tok.resegment s (s.symbols.length + 1) i else .ok []

def collectSpm (tok : Tokenizer score) (s : SpmState) :
    (fuel : Nat) -> (i : Nat) -> (out : List TokenId) -> Checked (List TokenId)
  | 0, _, _ => abort "the links never end"
  | fuel + 1, i, out => do
      let symbol <- index s.symbols i
      let tokens <- tok.symbolTokens s i symbol
      match symbol.next with
      | none => return out ++ tokens
      | some next => tok.collectSpm s fuel next (out ++ tokens)

def queueTexts (tok : Tokenizer score) (text : Text) : Checked SpmState :=
  forRange (fun i s => tok.tryAddBigram (some i) (some (i + 1)) s)
    (text.length - 1) ⟨spmSymbols text, [], []⟩

def tokenizeSpmBy (tok : Tokenizer score) (order : SpmBigram -> OrderDual (Lex (Nat × Nat)))
    (text : Text) : Checked (List TokenId) :=
  if text = [] then .ok []
  else do
    let marked := replaceChar ' ' spaceMark text
    let start <- tok.queueTexts marked
    let merged <- loop (tok.spmStepBy order) (4 * marked.length) start
    tok.collectSpm merged (marked.length + 1) 0 []

def initialTokenizeGemma4Spm (tok : Tokenizer score) (text : Text) : Checked (List TokenId) :=
  tok.tokenizeSpmBy spmOrder text

def gemma4Line (tok : Tokenizer score) (line : Text) : Checked (List TokenId) :=
  if line = [] then .ok [] else tok.initialTokenizeGemma4Spm line

def gemma4Lines (tok : Tokenizer score) :
    (line : Text) -> (rest : Text) -> (out : List TokenId) -> Checked (List TokenId)
  | line, [], out => do
      let tokens <- tok.gemma4Line line
      return out ++ tokens
  | line, ch :: rest, out =>
    if ch = '\n' then do
      let tokens <- tok.gemma4Line line
      let newline <- tok.initialTokenizeGemma4Spm [ch]
      tok.gemma4Lines [] rest (out ++ tokens ++ newline)
    else tok.gemma4Lines (line ++ [ch]) rest out

def gemma4Stretch (tok : Tokenizer score) (specials : List (Text × TokenId)) (rest : Text) :
    Checked (List TokenId × Nat) := do
  let tokens <- tok.gemma4Lines [] (rest.take (nextSpecial specials rest)) []
  return (tokens, nextSpecial specials rest)

def initialTokenizeGemma4SpmWithSpecials (tok : Tokenizer score) (text : Text) :
    Checked (List TokenId) :=
  let specialTokens := tok.vocab.specialControlTokens
  scanSpecials (longestSpecial specialTokens) (tok.gemma4Stretch specialTokens) text.length
    text []

end Tokenizer

end Tokenization
end RunNBurn
