import Mathlib.Data.List.Dedup
import RunNBurn.Tokenization.Gemma4
import RunNBurn.Tokenization.Gpt2
import RunNBurn.Tokenization.SentencePiece

/-!
# Encoding

A text as tokens, by the mode of the tokenizer.
-/

namespace RunNBurn
namespace Tokenization

open Library

section Encode

variable {score : Type}

namespace Tokenizer

def encode (prims : Primitives score) (tok : Tokenizer score) (text : Text) :
    Checked (List TokenId) :=
  match tok.mode with
  | .sentencePiece addSpacePrefix => tok.initialTokenizeSpWithSpecials prims text addSpacePrefix
  | .gemma4Bpe => tok.initialTokenizeGemma4SpmWithSpecials text
  | .gpt2Bpe llama4Pretokenizer => tok.initialTokenizeGpt2WithSpecials prims text llama4Pretokenizer

end Tokenizer

end Encode

/-!
# Loading a tokenizer

The checks on the tokenizer metadata of a model file, and the tokenizer that is built
from it.  No special token of a loaded tokenizer is empty.
-/

section Load

structure TokenizerData (score : Type) where
  tokens : List Text
  scores : List score
  tokenTypes : List Nat
  merges : List Text
  addedTokens : List Text
  bosId : Option TokenId
  eosId : Option TokenId
  eotId : Option TokenId
  unknownId : Option TokenId
  separatorId : Option TokenId
  paddingId : Option TokenId
  model : String
  pre : Option String
  addBosToken : Bool
  addEosToken : Bool
  addSepToken : Bool
  addSpacePrefix : Bool
  fits : tokens.length <= 2 ^ 32

/-- What loading takes from outside: how a string is quoted in a message, and the
policy that turns the Gemma merging on. -/
structure LoadHost where
  quoted : Text -> String
  gemmaTokenizerBpeEnabled : Bool

inductive TokenizerKind where
  | sentencePiece
  | gpt2
  | gemma4
deriving DecidableEq, Repr

structure KindDefaults where
  kind : TokenizerKind
  bos : Option TokenId
  eos : Option TokenId
  unknown : Option TokenId

variable {score : Type}

namespace TokenizerData

def kindDefaults (host : LoadHost) (data : TokenizerData score) : Checked KindDefaults :=
  if data.model = "llama" then .ok ⟨.sentencePiece, some 1, some 2, some 0⟩
  else if data.model = "gpt2" then .ok ⟨.gpt2, some 11, some 11, none⟩
  else if data.model = "gemma4" then .ok ⟨.gemma4, none, none, none⟩
  else
    let model := host.quoted data.model.toList
    report s!"tokenizer.ggml.model={model}; supported models are \"llama\", \"gpt2\", and \"gemma4\""

def required (id : Option TokenId) (name : String) : Checked TokenId :=
  match id with
  | some id => .ok id
  | none => report s!"GGUF is missing tokenizer.ggml.{name}"

def checkId (size : Nat) (entry : String × Option TokenId) : Checked Unit :=
  let name := entry.1
  match entry.2 with
  | none => .ok ()
  | some id =>
    if size <= id then
      report s!"tokenizer.ggml.{name} ({id}) is outside vocabulary size {size}"
    else .ok ()

def firstRepeated : (seen : List Text) -> List Text -> Option Text
  | _, [] => none
  | seen, token :: rest => if token ∈ seen then some token else firstRepeated (token :: seen) rest

def checkDistinct (host : LoadHost) (data : TokenizerData score) : Checked Unit :=
  match firstRepeated [] data.tokens with
  | none => .ok ()
  | some token =>
    let token := host.quoted token
    report s!"tokenizer.ggml.tokens contains duplicate token {token}"

def addedTokenId (host : LoadHost) (vocab : Vocab) (token : Text) : Checked TokenId :=
  match vocab.tokenId token with
  | some id => .ok id
  | none =>
    let token := host.quoted token
    report s!"tokenizer.ggml.added_tokens entry {token} is absent from tokenizer.ggml.tokens"

def atomicIds (data : TokenizerData score) (addedTokenIds : List TokenId) : List TokenId :=
  (data.tokenTypes.zipIdx.filterMap fun (tokenType, id) =>
    if Vocab.isSpecialType tokenType then some id else none) ++ addedTokenIds

/-- An id beyond the vocabulary makes the index panic. -/
def checkAtomic (data : TokenizerData score) (id : TokenId) : Checked Unit := do
  let token <- index data.tokens id
  if token = [] then report s!"atomic tokenizer token id {id} is empty"
  else return ()

/-- A merge rule split at its first space behind the first character. -/
def splitRule : Text -> Option (Text × Text)
  | [] => none
  | first :: rest =>
    if ' ' ∈ rest then
      some (first :: rest.takeWhile (· ≠ ' '), (rest.dropWhile (· ≠ ' ')).drop 1)
    else none

def mergeRule (host : LoadHost) (vocab : Vocab) (entry : Text × Nat) :
    Checked (TokenId × TokenId) :=
  let rank := entry.2
  match splitRule entry.1 with
  | none => report s!"tokenizer.ggml.merges[{rank}] has no token separator"
  | some (left, right) =>
    if right = [] then report s!"tokenizer.ggml.merges[{rank}] has an empty right token"
    else
      match vocab.tokenId left with
      | none =>
        let left := host.quoted left
        report s!"tokenizer.ggml.merges[{rank}] references unknown left token {left}"
      | some leftId =>
        match vocab.tokenId right with
        | none =>
          let right := host.quoted right
          report s!"tokenizer.ggml.merges[{rank}] references unknown right token {right}"
        | some rightId => .ok (leftId, rightId)

def tokenizerMode (host : LoadHost) (data : TokenizerData score) (kind : TokenizerKind) :
    TokenizerMode :=
  match kind with
  | .gpt2 => .gpt2Bpe (data.pre == some "llama4")
  | .gemma4 =>
    if host.gemmaTokenizerBpeEnabled then .gemma4Bpe
    else .sentencePiece data.addSpacePrefix
  | .sentencePiece => .sentencePiece data.addSpacePrefix

def tokenizerScores (data : TokenizerData score) (kind : TokenizerKind) : List score :=
  match kind with
  | .gpt2 => []
  | .gemma4 => data.scores
  | .sentencePiece => data.scores

def checkShape (data : TokenizerData score) : Checked Unit :=
  let types := data.tokenTypes.length
  let tokens := data.tokens.length
  if data.tokens = [] then
    report "GGUF is missing tokenizer.ggml.tokens; placeholder and Hugging Face JSON-only tokenizers are unsupported"
  else if data.tokenTypes ≠ [] ∧ types ≠ tokens then
    report s!"tokenizer.ggml.token_type has {types} entries, expected {tokens}"
  else if data.addEosToken || data.addSepToken then
    report "tokenizer.ggml.add_eos_token and add_sep_token are not supported"
  else .ok ()

def namedIds (data : TokenizerData score) (bos eos : TokenId) (unknown : Option TokenId) :
    List (String × Option TokenId) :=
  [("bos_token_id", some bos), ("eos_token_id", some eos), ("eot_token_id", data.eotId),
    ("unknown_token_id", unknown), ("separator_token_id", data.separatorId),
    ("padding_token_id", data.paddingId)]

end TokenizerData

open TokenizerData

/-- The vocabulary with its token metadata, once the tokens have passed their checks. -/
def buildVocab (host : LoadHost) (data : TokenizerData score) (special : SpecialTokens)
    (unknown : Option TokenId) : Checked Vocab := do
  let vocab := Vocab.new data.tokens special data.fits
  let addedTokenIds <- data.addedTokens.mapM (addedTokenId host vocab)
  (data.atomicIds addedTokenIds).forM data.checkAtomic
  return vocab.setTokenMetadata data.tokenTypes unknown data.separatorId addedTokenIds

def buildTokenizer (host : LoadHost) (data : TokenizerData score) :
    Checked (Tokenizer score) := do
  data.checkShape
  let defaults <- data.kindDefaults host
  let bos <- required (data.bosId <|> defaults.bos) "bos_token_id"
  let eos <- required (data.eosId <|> defaults.eos) "eos_token_id"
  let unknown := data.unknownId <|> defaults.unknown
  (data.namedIds bos eos unknown).forM (checkId data.tokens.length)
  data.checkDistinct host
  let vocab <- buildVocab host data ⟨bos, eos, data.paddingId⟩ unknown
  let merges <- data.merges.zipIdx.mapM (mergeRule host vocab)
  return {
    vocab := vocab
    merges := merges
    mode := data.tokenizerMode host defaults.kind
    sentencepieceScores := data.tokenizerScores defaults.kind
    addBosToken := data.addBosToken }

/-!
# Special tokens of a loaded vocabulary
-/

theorem forM_eq_ok {alpha : Type} {check : alpha -> Checked Unit} {items : List alpha}
    (h : items.forM check = .ok ()) : forall item, item ∈ items -> check item = .ok () := by
  induction items with
  | nil =>
    intro item hmem
    cases hmem
  | cons first rest ih =>
    have hboth : (check first >>= fun _ => rest.forM check) = .ok () := h
    rcases bind_eq_ok hboth with ⟨_, hfirst, hrest⟩
    intro item hmem
    cases hmem with
    | head => exact hfirst
    | tail _ hmem => exact ih hrest item hmem

variable {data : TokenizerData score}

theorem token_ne_nil_of_checkAtomic {id : TokenId} {token : Text}
    (h : data.checkAtomic id = .ok ()) (htoken : data.tokens[id]? = some token) : token ≠ [] := by
  intro hempty
  unfold checkAtomic at h
  rw [index_of_getElem?_eq_some htoken, ok_bind, if_pos hempty] at h
  cases h

theorem looksSpecial_ne_nil {token : Text} (h : Vocab.looksSpecial token = true) : token ≠ [] := by
  intro hempty
  have hhead := Vocab.head_of_looksSpecial h
  rw [hempty] at hhead
  rcases hhead with hhead | hhead
  · cases hhead
  · cases hhead

/-- No special token of a loaded vocabulary is empty: the typed and added ones are
checked, the ones told by their brackets have brackets. -/
theorem specials_ne_nil_of_buildVocab {host : LoadHost} {special : SpecialTokens}
    {unknown : Option TokenId} {vocab : Vocab}
    (h : buildVocab host data special unknown = .ok vocab) :
    forall token, token ∈ vocab.specialControlTokens -> token.1 ≠ [] := by
  unfold buildVocab at h
  rcases bind_eq_ok h with ⟨addedTokenIds, _, h⟩
  rcases bind_eq_ok h with ⟨_, hatomic, h⟩
  cases h
  intro token hmem
  unfold Vocab.specialControlTokens at hmem
  rw [List.mem_mergeSort] at hmem
  split at hmem
  · rcases List.mem_filterMap.mp hmem with ⟨id, hid, hfound⟩
    rcases Option.map_eq_some_iff.mp hfound with ⟨text, htext, heq⟩
    cases heq
    have hatom : id ∈ data.atomicIds addedTokenIds := by
      unfold Vocab.setTokenMetadata at hid
      dsimp only at hid
      rw [List.mem_dedup, List.mem_mergeSort] at hid
      exact hid
    exact token_ne_nil_of_checkAtomic (forM_eq_ok hatomic id hatom) htext
  · rcases List.mem_filterMap.mp hmem with ⟨⟨text, id⟩, _, hfound⟩
    dsimp only at hfound
    split at hfound
    · rename_i hlooks
      cases hfound
      exact looksSpecial_ne_nil hlooks
    · cases hfound

theorem specials_ne_nil_of_buildTokenizer {host : LoadHost} {tok : Tokenizer score}
    (h : buildTokenizer host data = .ok tok) :
    forall token, token ∈ tok.vocab.specialControlTokens -> token.1 ≠ [] := by
  unfold buildTokenizer at h
  rcases bind_eq_ok h with ⟨_, _, h⟩
  rcases bind_eq_ok h with ⟨defaults, _, h⟩
  rcases bind_eq_ok h with ⟨bos, _, h⟩
  rcases bind_eq_ok h with ⟨eos, _, h⟩
  rcases bind_eq_ok h with ⟨_, _, h⟩
  rcases bind_eq_ok h with ⟨_, _, h⟩
  rcases bind_eq_ok h with ⟨vocab, hvocab, h⟩
  rcases bind_eq_ok h with ⟨merges, _, h⟩
  cases h
  exact specials_ne_nil_of_buildVocab hvocab

end Load

end Tokenization
end RunNBurn
