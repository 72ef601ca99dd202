import RunNBurn.Library.Loop
import RunNBurn.Tokenization.Scan

/-!
# The cursor in bytes

The loop over the text keeps its cursor as a byte offset, and slicing the text at an
offset inside a character panics.  Where every special token found moves the cursor,
the cursor only stands at characters, every round moves it on, and the loop ends with
the tokens of the scan over characters.
-/

namespace RunNBurn
namespace Tokenization

open Library

structure ScanState where
  cursor : Nat
  out : List TokenId

def charWidth (c : Char) : Nat :=
  (String.utf8EncodeChar c).length

/-- `&text[cursor..]`. -/
def sliceFrom : (text : Text) -> (cursor : Nat) -> Checked Text
  | text, 0 => .ok text
  | [], _ + 1 => abort "byte index is out of bounds"
  | c :: rest, cursor + 1 =>
    if cursor + 1 < charWidth c then abort "byte index is not a char boundary"
    else sliceFrom rest (cursor + 1 - charWidth c)

def AtBoundary (text : Text) (cursor : Nat) : Prop :=
  exists before after, text = before ++ after ∧ cursor = byteLen before

def scanStep (matched : Text -> Option (Text × TokenId))
    (stretch : Text -> Checked (List TokenId × Nat)) (text : Text) (s : ScanState) :
    Checked (Step ScanState) :=
  if s.cursor < byteLen text then do
    let rest <- sliceFrom text s.cursor
    match matched rest with
    | some (token, tokenId) =>
      return .next {
        cursor := s.cursor + byteLen token
        out := s.out ++ [tokenId] }
    | none => do
        let step <- stretch rest
        return .next {
          cursor := s.cursor + byteLen (rest.take step.2)
          out := s.out ++ step.1 }
  else
    return .done s

/-- A special token that is found moves the cursor, and so does a stretch. -/
structure Progresses (matched : Text -> Option (Text × TokenId))
    (stretch : Text -> Checked (List TokenId × Nat)) : Prop where
  found : forall rest special, matched rest = some special ->
    special.1 ≠ [] ∧ special.1 <+: rest
  stretched : forall rest, rest ≠ [] -> matched rest = none ->
    Delivers (stretch rest) (fun step => 0 < step.2)

/-!
# Slices at characters
-/

theorem byteLen_eq_charWidth_add (c : Char) (text : Text) :
    byteLen (c :: text) = charWidth c + byteLen text := by
  unfold byteLen charWidth
  rw [encodeText_cons, List.length_append]

theorem charWidth_pos (c : Char) : 0 < charWidth c :=
  List.length_pos_of_ne_nil (encodeChar_ne_nil c)

theorem sliceFrom_byteLen (before after : Text) :
    sliceFrom (before ++ after) (byteLen before) = .ok after := by
  induction before with
  | nil =>
    show sliceFrom after 0 = .ok after
    unfold sliceFrom
    rfl
  | cons c before ih =>
    have hpos := charWidth_pos c
    have hlen := byteLen_eq_charWidth_add c before
    cases hcursor : byteLen (c :: before) with
    | zero => omega
    | succ cursor =>
      have hroom : ¬ cursor + 1 < charWidth c := by omega
      have hrest : cursor + 1 - charWidth c = byteLen before := by omega
      show sliceFrom (c :: (before ++ after)) (cursor + 1) = .ok after
      unfold sliceFrom
      rw [if_neg hroom, hrest]
      exact ih

/-!
# The loop
-/

section Loop

variable {matched : Text -> Option (Text × TokenId)}
  {stretch : Text -> Checked (List TokenId × Nat)}

/-- A round in front of a character moves the cursor to a later one, as the scan over
characters does. -/
theorem scanStep_advances (h : Progresses matched stretch) (before rest : Text)
    (out : List TokenId) (hrest : rest ≠ []) :
    exists moved tokens, 0 < moved ∧ moved <= rest.length ∧
      scanStep matched stretch (before ++ rest) ⟨byteLen before, out⟩ =
        .ok (.next ⟨byteLen (before ++ rest.take moved), out ++ tokens⟩) ∧
      forall fuel, scanSpecials matched stretch (fuel + 1) rest out =
        scanSpecials matched stretch fuel (rest.drop moved) (out ++ tokens) := by
  have hinside : byteLen before < byteLen (before ++ rest) := by
    rw [byteLen_append]
    exact Nat.lt_add_of_pos_right (byteLen_pos hrest)
  have hscan : forall fuel, scanSpecials matched stretch (fuel + 1) rest out =
      match matched rest with
      | some (token, tokenId) =>
        scanSpecials matched stretch fuel (rest.drop token.length) (out ++ [tokenId])
      | none => stretch rest >>= fun step =>
        scanSpecials matched stretch fuel (rest.drop step.2) (out ++ step.1) := by
    intro fuel
    have hsucc : scanSpecials matched stretch (fuel + 1) (rest ++ []) out = _ :=
      scanSpecials_succ hrest
    rw [List.append_nil] at hsucc
    exact hsucc
  unfold scanStep
  rw [if_pos hinside, sliceFrom_byteLen, ok_bind]
  cases hmatched : matched rest with
  | some special =>
    rcases special with ⟨token, tokenId⟩
    have hfound := h.found rest _ hmatched
    have htake : rest.take token.length = token := List.prefix_iff_eq_take.mp hfound.2 |>.symm
    refine ⟨token.length, [tokenId], List.length_pos_of_ne_nil hfound.1, hfound.2.length_le, ?_, ?_⟩
    · rw [htake, byteLen_append]
      rfl
    · intro fuel
      rw [hscan, hmatched]
  | none =>
    rcases h.stretched rest hrest hmatched with ⟨step, hstep, hpos⟩
    have hbound : min step.2 rest.length <= rest.length := Nat.min_le_right _ _
    have htake : rest.take (min step.2 rest.length) = rest.take step.2 := by
      rw [← List.take_eq_take_min]
    have hdrop : rest.drop (min step.2 rest.length) = rest.drop step.2 := by
      rcases Nat.le_total step.2 rest.length with hle | hle
      · rw [Nat.min_eq_left hle]
      · rw [Nat.min_eq_right hle, List.drop_length, List.drop_eq_nil_of_le hle]
    refine ⟨min step.2 rest.length, step.1, ?_, hbound, ?_, ?_⟩
    · exact Nat.lt_min.mpr ⟨hpos, List.length_pos_of_ne_nil hrest⟩
    · dsimp only
      rw [hstep, ok_bind, htake, byteLen_append]
      rfl
    · intro fuel
      rw [hscan, hmatched]
      dsimp only
      rw [hstep, ok_bind, hdrop]

theorem scanStep_done (text : Text) (out : List TokenId) :
    scanStep matched stretch text ⟨byteLen text, out⟩ =
      .ok (.done ⟨byteLen text, out⟩) := by
  unfold scanStep
  rw [if_neg (Nat.lt_irrefl _)]
  rfl

theorem loop_scanStep (h : Progresses matched stretch) {before rest : Text}
    {out : List TokenId} {fuel : Nat} (hfuel : rest.length <= fuel) :
    exists tokens, scanSpecials matched stretch fuel rest out = .ok tokens ∧
      loop (scanStep matched stretch (before ++ rest)) (fuel + 1) ⟨byteLen before, out⟩ =
        .ok ⟨byteLen (before ++ rest), tokens⟩ := by
  induction fuel generalizing before rest out with
  | zero =>
    have hnil := List.length_eq_zero_iff.mp (Nat.le_zero.mp hfuel)
    subst hnil
    refine ⟨out, rfl, ?_⟩
    unfold loop
    rw [List.append_nil, scanStep_done]
    rfl
  | succ fuel ih =>
    by_cases hrest : rest = []
    · subst hrest
      refine ⟨out, rfl, ?_⟩
      unfold loop
      rw [List.append_nil, scanStep_done]
      rfl
    · rcases scanStep_advances h before rest out hrest with
        ⟨moved, tokens, hpos, hle, hstep, hscan⟩
      have hshorter : (rest.drop moved).length <= fuel := by
        rw [List.length_drop]
        omega
      have hlater : exists found,
          scanSpecials matched stretch fuel (rest.drop moved) (out ++ tokens) = .ok found ∧
            loop (scanStep matched stretch (before ++ rest.take moved ++ rest.drop moved))
                (fuel + 1) ⟨byteLen (before ++ rest.take moved), out ++ tokens⟩ =
              .ok ⟨byteLen (before ++ rest.take moved ++ rest.drop moved), found⟩ :=
        ih hshorter
      rw [List.append_assoc, List.take_append_drop] at hlater
      rw [hscan fuel]
      unfold loop
      rw [hstep, ok_bind]
      exact hlater

theorem scanStep_heads (h : Progresses matched stretch) {text : Text} {s : ScanState}
    (hreach : Reach (scanStep matched stretch text) ⟨0, []⟩ s) :
    AtBoundary text s.cursor ∧
      (s.cursor < byteLen text -> exists next,
        scanStep matched stretch text s = .ok (.next next) ∧ s.cursor < next.cursor) := by
  have hround : forall current : ScanState, AtBoundary text current.cursor ->
      current.cursor < byteLen text -> exists next,
        scanStep matched stretch text current = .ok (.next next) ∧
          current.cursor < next.cursor ∧ AtBoundary text next.cursor := by
    intro current hat hinside
    rcases hat with ⟨before, rest, rfl, hcursor⟩
    have hrest : rest ≠ [] := by
      intro hnil
      rw [hcursor, hnil, List.append_nil] at hinside
      exact Nat.lt_irrefl _ hinside
    rcases scanStep_advances h before rest current.out hrest with
      ⟨moved, tokens, hpos, hle, hstep, _⟩
    rw [← hcursor] at hstep
    refine ⟨_, hstep, ?_, before ++ rest.take moved, rest.drop moved, ?_, rfl⟩
    · dsimp only
      rw [hcursor, byteLen_append]
      have hne : rest.take moved ≠ [] := by
        intro hnil
        have hlength := congrArg List.length hnil
        rw [List.length_take, Nat.min_eq_left hle, List.length_nil] at hlength
        omega
      exact Nat.lt_add_of_pos_right (byteLen_pos hne)
    · rw [List.append_assoc, List.take_append_drop]
  have hat : AtBoundary text s.cursor := by
    apply reach_invariant (fun current : ScanState => AtBoundary text current.cursor)
      ⟨[], text, rfl, rfl⟩ _ hreach
    intro current following hcurrent _ hbody
    by_cases hinside : current.cursor < byteLen text
    · rcases hround current hcurrent hinside with ⟨next, hnext, _, hboundary⟩
      rw [hbody] at hnext
      cases hnext
      exact hboundary
    · unfold scanStep at hbody
      rw [if_neg hinside] at hbody
      cases hbody
  refine ⟨hat, ?_⟩
  intro hinside
  rcases hround s hat hinside with ⟨next, hnext, hlt, _⟩
  exact ⟨next, hnext, hlt⟩

end Loop

end Tokenization
end RunNBurn
