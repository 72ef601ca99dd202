import RunNBurn.Library.WordCut
import RunNBurn.Tokenization.Tokens

/-!
# Scanning for special tokens

The cursor walks over the text: at a special token it takes the token's id, anywhere
else it encodes the stretch up to the next special token.
-/

namespace RunNBurn
namespace Tokenization

open Library

section

variable (specials : List (Text × TokenId)) (rest : Text)

def firstSpecial : Option (Text × TokenId) :=
  specials.find? fun special => special.1 <+: rest

/-- The longest special token that starts here, the last one of several. -/
def longestSpecial : Option (Text × TokenId) :=
  lastMaximumBy (fun special => byteLen special.1)
    (specials.filter fun special => special.1 <+: rest)

def nextSpecial : Nat :=
  nextWord (specials.map Prod.fst) rest

end

/-- The loop over the text.  `matched` looks for a special token at the cursor, and
`stretch` encodes up to the next one and says how far the cursor moves; a cursor that
does not move stays for ever. -/
def scanSpecials (matched : Text -> Option (Text × TokenId))
    (stretch : Text -> Checked (List TokenId × Nat)) :
    (fuel : Nat) -> (rest : Text) -> (out : List TokenId) -> Checked (List TokenId)
  | _, [], out => .ok out
  | 0, _ :: _, _ => abort "the cursor never reaches the end"
  | fuel + 1, rest@(_ :: _), out =>
    match matched rest with
    | some (token, tokenId) =>
      scanSpecials matched stretch fuel (rest.drop token.length) (out ++ [tokenId])
    | none => do
        let step <- stretch rest
        scanSpecials matched stretch fuel (rest.drop step.2) (out ++ step.1)

/-!
# Looking for a special token
-/

structure PicksLongest (specials : List (Text × TokenId))
    (matched : Text -> Option (Text × TokenId)) : Prop where
  none_iff : forall rest, matched rest = none ->
    forall special, special ∈ specials -> ¬ special.1 <+: rest
  found : forall rest special, matched rest = some special ->
    special ∈ specials ∧ special.1 <+: rest
  longest : forall rest special, matched rest = some special ->
    forall other, other ∈ specials -> other.1 <+: rest -> other.1.length <= special.1.length

theorem encodeChar_ne_nil (c : Char) : String.utf8EncodeChar c ≠ [] := by
  rcases firstChar_encode c [] with ⟨first, tail, hbytes, _⟩
  rw [hbytes]
  exact List.cons_ne_nil first tail

theorem byteLen_append (left right : Text) : byteLen
    (left ++ right) = byteLen left + byteLen right := by
  unfold byteLen
  rw [encodeText_append, List.length_append]

theorem byteLen_pos {text : Text} (h : text ≠ []) : 0 < byteLen text := by
  cases text with
  | nil => exact absurd rfl h
  | cons c text =>
    unfold byteLen
    rw [encodeText_cons, List.length_append]
    have hpos := List.length_pos_of_ne_nil (encodeChar_ne_nil c)
    omega

theorem length_le_of_byteLen_le {left right text : Text}
    (hleft : left <+: text) (hright : right <+: text) (h : byteLen left <= byteLen right) :
    left.length <= right.length := by
  apply Nat.le_of_not_lt
  intro hlt
  rcases List.prefix_of_prefix_length_le hright hleft (Nat.le_of_lt hlt) with ⟨behind, rfl⟩
  have hne : behind ≠ [] := by
    rintro rfl
    rw [List.append_nil] at hlt
    exact Nat.lt_irrefl _ hlt
  have hpos := byteLen_pos hne
  rw [byteLen_append] at h
  omega

theorem longestSpecial_picks (specials : List (Text × TokenId)) :
    PicksLongest specials (longestSpecial specials) := by
  have hfilter : forall rest special,
      special ∈ specials.filter (fun special => special.1 <+: rest) ↔
        special ∈ specials ∧ special.1 <+: rest := by
    intro rest special
    rw [List.mem_filter, decide_eq_true_eq]
  constructor
  · intro rest hnone special hspecial hstarts
    have hmem := (hfilter rest special).mpr ⟨hspecial, hstarts⟩
    rw [lastMaximumBy_eq_none hnone] at hmem
    cases hmem
  · intro rest special hsome
    exact (hfilter rest special).mp (lastMaximumBy_mem hsome)
  · intro rest special hsome other hother hstarts
    have hmem := (hfilter rest other).mpr ⟨hother, hstarts⟩
    have hfound := ((hfilter rest special).mp (lastMaximumBy_mem hsome)).2
    unfold longestSpecial at hsome
    have hle := lastMaximumBy_ge hsome hmem
    exact length_le_of_byteLen_le hstarts hfound hle

theorem firstSpecial_picks {specials : List (Text × TokenId)}
    (hsorted : specials.Pairwise fun left right => byteLen right.1 <= byteLen left.1) :
    PicksLongest specials (firstSpecial specials) := by
  constructor
  · intro rest hnone special hspecial hstarts
    have h := List.find?_eq_none.mp hnone special hspecial
    exact h (decide_eq_true hstarts)
  · intro rest special hsome
    have hstarts := List.find?_some hsome
    exact ⟨List.mem_of_find?_eq_some hsome, of_decide_eq_true hstarts⟩
  · intro rest special hsome other hother hstarts
    have hfound := List.find?_some hsome
    rcases List.find?_eq_some_iff_append.mp hsome with ⟨_, before, after, hsplit, hbefore⟩
    rw [hsplit] at hother hsorted
    rcases List.mem_append.mp hother with hother | hother
    · have h := hbefore other hother
      rw [decide_eq_true hstarts] at h
      cases h
    · cases hother with
      | head => exact Nat.le_refl _
      | tail _ hother =>
        have hle := List.rel_of_pairwise_cons (List.pairwise_append.mp hsorted).2.1 hother
        exact length_le_of_byteLen_le hstarts (of_decide_eq_true hfound) hle

/-!
# What the scan puts out
-/

section Scanning

variable {beta : Type} {specials : List (Text × TokenId)}
  {matched : Text -> Option (Text × TokenId)}
  {stretch : Text -> Checked (List TokenId × Nat)}

theorem scanSpecials_stuck {rest out : _} {tokenId : TokenId} (fuel : Nat) (hrest : rest ≠ [])
    (h : matched rest = some ([], tokenId)) :
    scanSpecials matched stretch fuel rest out =
      abort "the cursor never reaches the end" := by
  induction fuel generalizing out with
  | zero =>
    cases rest with
    | nil => exact absurd rfl hrest
    | cons c rest => rfl
  | succ fuel ih =>
    cases rest with
    | nil => exact absurd rfl hrest
    | cons c rest =>
      unfold scanSpecials
      rw [h]
      exact ih

/-- The loop ends: no special token is empty, or the text is made up of others. -/
def Ends (specials : List (Text × TokenId)) (pieces : List (Piece Char)) : Prop :=
  (forall special, special ∈ specials -> special.1 ≠ []) ∨
    forall text, Piece.plain text ∉ pieces

variable {pieces : List (Piece Char)}

theorem Ends.tail {piece : Piece Char} (h : Ends specials (piece :: pieces)) :
    Ends specials pieces := by
  rcases h with h | h
  · exact Or.inl h
  · exact Or.inr (fun text hmem => h text (List.mem_cons_of_mem piece hmem))

variable {fuel : Nat}

theorem scanSpecials_succ {text rest : Text} {out : List TokenId} (h : text ≠ []) :
    scanSpecials matched stretch (fuel + 1) (text ++ rest) out =
      match matched (text ++ rest) with
      | some (token, tokenId) =>
        scanSpecials matched stretch fuel ((text ++ rest).drop token.length) (out ++ [tokenId])
      | none =>
        stretch (text ++ rest) >>= fun step =>
          scanSpecials matched stretch fuel ((text ++ rest).drop step.2) (out ++ step.1) := by
  cases text with
  | nil => exact absurd rfl h
  | cons c text => rfl

theorem scanSpecials_delivers {rest : Text} (out : List TokenId)
    (mean : List TokenId -> List beta) (meanPiece : Piece Char -> List beta)
    (hpicks : PicksLongest specials matched)
    (hmean : forall left right, mean (left ++ right) = mean left ++ mean right)
    (hspecial : forall token id, (token, id) ∈ specials -> mean [id] = meanPiece (.word token))
    (hstretch : forall text rest, text ≠ [] ->
      FreeOf (specials.map Prod.fst) text rest -> AtWord (specials.map Prod.fst) rest ->
      (forall special, special ∈ specials -> special.1 ≠ []) ->
      Delivers (stretch (text ++ rest)) (fun step => step.2 = text.length ∧
        mean step.1 = meanPiece (.plain text))) (hcut : Cut (specials.map Prod.fst) rest pieces)
    (hends : Ends specials pieces) (hfuel : rest.length <= fuel) :
    Delivers (scanSpecials matched stretch fuel rest out)
      (fun tokens => mean tokens = mean out ++ pieces.flatMap meanPiece) := by
  induction hcut generalizing out fuel with
  | nil => cases fuel <;> exact delivers_ok (List.append_nil _).symm
  | @word text rest pieces hmem hne hlongest hcut ih =>
    cases fuel with
    | zero =>
      rw [List.length_append] at hfuel
      have hpos := List.length_pos_of_ne_nil hne
      omega
    | succ fuel =>
      rcases List.mem_map.mp hmem with ⟨special, hmemSpecial, rfl⟩
      rw [scanSpecials_succ hne]
      cases hmatched : matched (special.1 ++ rest) with
      | none =>
        exact absurd (List.prefix_append special.1 rest)
          (hpicks.none_iff _ hmatched special hmemSpecial)
      | some found =>
        rcases hpicks.found _ _ hmatched with ⟨hfound, hstarts⟩
        have hlength : found.1.length = special.1.length := by
          apply Nat.le_antisymm
          · exact hlongest _ (List.mem_map_of_mem hfound) hstarts
          · exact hpicks.longest _ _ hmatched special hmemSpecial
              (List.prefix_append special.1 rest)
        have hsame : found.1 = special.1 :=
          eq_of_isPrefix_of_length hstarts (List.prefix_append special.1 rest) hlength
        have hrestFuel : rest.length <= fuel := by
          have hpos := List.length_pos_of_ne_nil hne
          rw [List.length_append] at hfuel
          omega
        dsimp only
        rw [hlength, List.drop_left]
        apply (ih _ hends.tail hrestFuel).mono
        intro tokens htokens
        rw [htokens, hmean, hspecial found.1 found.2 hfound, hsame, List.append_assoc]
        rfl
  | @plain text rest pieces hne hfree hrest hcut ih =>
    cases fuel with
    | zero =>
      rw [List.length_append] at hfuel
      have hpos := List.length_pos_of_ne_nil hne
      omega
    | succ fuel =>
      rw [scanSpecials_succ hne]
      cases hmatched : matched (text ++ rest) with
      | none =>
        have hnonempty : forall special, special ∈ specials -> special.1 ≠ [] := by
          intro special hmem hnil
          apply hpicks.none_iff _ hmatched special hmem
          rw [hnil]
          exact List.nil_prefix
        apply (hstretch text rest hne hfree hrest hnonempty).bind
        rintro step ⟨hlen, htokens⟩
        have hrestFuel : rest.length <= fuel := by
          have hpos := List.length_pos_of_ne_nil hne
          rw [List.length_append] at hfuel
          omega
        rw [hlen, List.drop_left]
        apply (ih _ hends.tail hrestFuel).mono
        intro later hlater
        rw [hlater, hmean, htokens, List.append_assoc]
        rfl
      | some found =>
        rcases hpicks.found _ _ hmatched with ⟨hfound, hstarts⟩
        have hempty : found.1 = [] := by
          apply Classical.byContradiction
          intro hword
          exact hfree [] text rfl hne found.1 (List.mem_map_of_mem hfound) hword hstarts
        rcases hends with hends | hends
        · exact absurd hempty (hends found hfound)
        · exact absurd List.mem_cons_self (hends text)

theorem scanSpecials_meets_no_plain {rest : Text} {out tokens : List TokenId}
    {special : Text × TokenId} (hpicks : PicksLongest specials matched)
    (hspecial : special ∈ specials) (hempty : special.1 = [])
    (hcut : Cut (specials.map Prod.fst) rest pieces)
    (h : scanSpecials matched stretch fuel rest out = .ok tokens) :
    forall text, Piece.plain text ∉ pieces := by
  have hsome : forall rest, matched rest ≠ none := by
    intro rest hnone
    apply hpicks.none_iff rest hnone special hspecial
    rw [hempty]
    exact List.nil_prefix
  induction hcut generalizing out fuel with
  | nil =>
    intro text hmem
    cases hmem
  | @word text rest pieces hmem hne hlongest hcut ih =>
    cases fuel with
    | zero =>
      cases text with
      | nil => exact absurd rfl hne
      | cons c text => cases h
    | succ fuel =>
      rcases List.mem_map.mp hmem with ⟨word, hword, rfl⟩
      rw [scanSpecials_succ hne] at h
      cases hmatched : matched (word.1 ++ rest) with
      | none => exact absurd hmatched (hsome _)
      | some found =>
        rw [hmatched] at h
        rcases hpicks.found _ _ hmatched with ⟨hfound, hstarts⟩
        have hlength : found.1.length = word.1.length := by
          apply Nat.le_antisymm
          · exact hlongest _ (List.mem_map_of_mem hfound) hstarts
          · exact hpicks.longest _ _ hmatched word hword (List.prefix_append word.1 rest)
        dsimp only at h
        rw [hlength, List.drop_left] at h
        intro text hplain
        cases hplain with
        | tail _ hplain => exact ih h text hplain
  | @plain text rest pieces hne hfree hrest hcut ih =>
    cases hmatched : matched (text ++ rest) with
    | none => exact absurd hmatched (hsome _)
    | some found =>
      rcases hpicks.found _ _ hmatched with ⟨hfound, hstarts⟩
      have hnil : found.1 = [] := by
        apply Classical.byContradiction
        intro hword
        exact hfree [] text rfl hne found.1 (List.mem_map_of_mem hfound) hword hstarts
      have hstuck : matched (text ++ rest) = some ([], found.2) := by
        rw [hmatched, ← hnil]
      have hrest : text ++ rest ≠ [] := List.append_ne_nil_of_left_ne_nil hne rest
      rw [scanSpecials_stuck fuel hrest hstuck] at h
      cases h

theorem scanSpecials_ends {rest : Text} {out tokens : List TokenId}
    (hpicks : PicksLongest specials matched) (hcut : Cut (specials.map Prod.fst) rest pieces)
    (h : scanSpecials matched stretch fuel rest out = .ok tokens) :
    Ends specials pieces := by
  by_cases hempty : exists special, special ∈ specials ∧ special.1 = []
  · rcases hempty with ⟨special, hspecial, hnil⟩
    exact Or.inr (scanSpecials_meets_no_plain hpicks hspecial hnil hcut h)
  · apply Or.inl
    intro special hspecial hnil
    exact hempty ⟨special, hspecial, hnil⟩

end Scanning

end Tokenization
end RunNBurn
