import RunNBurn.Generate.ConstrainedExactness

/-!
# The compact sampling path

Where few logits survive the filters the sampler keeps only their probabilities.
A draw then chooses as it does over all probabilities, except a draw of zero, which
takes the first token on the dense path and the first surviving one on the compact
path.
-/

namespace RunNBurn
namespace Generate

open Library
open Inference

section CompactSampling

variable {K G : Type} [Field K] [LinearOrder K]

structure DrawSource (G K : Type) [Field K] [LinearOrder K] where
  gen : G -> K × G
  nonneg : forall rng, 0 <= (gen rng).1
  lt_one : forall rng, (gen rng).1 < 1

section

variable (maths : ExponentialMaths K)

def drawDense (source : DrawSource G K)
    (logits : List (WithBot K)) (rng : G) : TokenId × G :=
  let drawn := source.gen rng
  (sampleDenseFromLogits maths logits drawn.1, drawn.2)

def compactChoice (logits : List (WithBot K)) (r : K) : TokenId :=
  (runningChoice r 0 (survivorProbabilities maths logits)).getD (logits.length - 1)

/-- `sample_from_logits` with its generator. -/
def drawFromLogits (source : DrawSource G K)
    (candidateLimit : Option Nat) (logits : List (WithBot K)) (rng : G) : TokenId × G :=
  if takesDensePath candidateLimit logits then drawDense maths source logits rng
  else
    let drawn := source.gen rng
    (compactChoice maths logits drawn.1, drawn.2)

theorem drawFromLogits_eq (source : DrawSource G K)
    (candidateLimit : Option Nat) (logits : List (WithBot K)) (rng : G) :
    drawFromLogits maths source candidateLimit logits rng =
      (sampleFromLogits maths candidateLimit logits (source.gen rng).1, (source.gen rng).2) := by
  unfold drawFromLogits sampleFromLogits
  split
  · rfl
  · rfl

end

/-!
# The two lists of probabilities

Both paths give a logit the same probability; the compact path drops the lowered
ones.
-/

def probabilityOf (maths : ExponentialMaths K) (logits : List (WithBot K)) (max : K)
    (logit : WithBot K) : K :=
  expBelow maths max logit / (logits.map (expBelow maths max)).sum

theorem probabilityOf_bot (maths : ExponentialMaths K) (logits : List (WithBot K)) (max : K) :
    probabilityOf maths logits max ⊥ = 0 :=
  zero_div _

section Paths

variable [IsStrictOrderedRing K] {logits : List (WithBot K)} {token : TokenId}
  (maths : ExponentialMaths K)

theorem probabilityOf_pos (max : K) (h : Alive logits token) {logit : WithBot K}
    (hlogit : logit ≠ ⊥) :
    0 < probabilityOf maths logits max logit :=
  div_pos (expBelow_pos maths max hlogit) (sum_expBelow_pos maths max h)

theorem softmax_eq_map {max : K} (h : Alive logits token)
    (hmax : maximumLogit logits = (max : WithBot K)) :
    softmax maths logits = some (logits.map (probabilityOf maths logits max)) := by
  unfold softmax
  rw [hmax]
  dsimp only
  rw [normalise_of_pos (sum_expBelow_pos maths max h), List.map_map]
  rfl

theorem survivorProbabilities_eq_map {max : K} (h : Alive logits token)
    (hmax : maximumLogit logits = (max : WithBot K)) :
    survivorProbabilities maths logits =
      (logits.zipIdx.filter (fun candidate => decide (candidate.1 ≠ ⊥))).map
        (fun candidate => (probabilityOf maths logits max candidate.1, candidate.2)) := by
  have hsurvivors : survivors maths logits =
      (logits.zipIdx.filter (fun candidate => decide (candidate.1 ≠ ⊥))).map
        (fun candidate => (expBelow maths max candidate.1, candidate.2)) := by
    unfold survivors
    rw [hmax]
  have hall : logits.map (expBelow maths max) =
      logits.zipIdx.map (fun candidate => expBelow maths max candidate.1) := by
    have hfst := congrArg (List.map (expBelow maths max)) (List.zipIdx_map_fst 0 logits)
    rw [List.map_map] at hfst
    exact hfst.symm
  have htotal : ((survivors maths logits).map Prod.fst).sum =
      (logits.map (expBelow maths max)).sum := by
    rw [hsurvivors, List.map_map, hall]
    apply sum_map_filter
    intro candidate _ hdropped
    have hbot : candidate.1 = ⊥ := by simpa using hdropped
    show expBelow maths max candidate.1 = 0
    rw [hbot]
    rfl
  have hpos : 0 < ((survivors maths logits).map Prod.fst).sum := by
    rw [htotal]
    exact sum_expBelow_pos maths max h
  unfold survivorProbabilities
  dsimp only
  rw [normalise_of_pos hpos, htotal, hsurvivors, List.map_map, List.map_map, List.map_map,
    List.zip_map']
  rfl

theorem compactChoice_of_pos {r : K} (h : Alive logits token) (hr : 0 < r) :
    compactChoice maths logits r = sampleDenseFromLogits maths logits r := by
  rcases maximumLogit_of_alive h with ⟨max, hmax⟩
  unfold compactChoice sampleDenseFromLogits
  rw [softmax_eq_map maths h hmax, survivorProbabilities_eq_map maths h hmax]
  dsimp only
  rw [List.length_map, List.zipIdx_map]
  show (runningChoice r 0 _).getD _ = (runningChoice r 0 (logits.zipIdx.map
    (fun candidate => (probabilityOf maths logits max candidate.1, candidate.2)))).getD _
  rw [runningChoice_filter hr]
  intro candidate _ hdropped
  have hlowered : candidate.1 = ⊥ := by simpa using hdropped
  rw [hlowered, probabilityOf_bot]

theorem compactChoice_zero (h : Alive logits token) :
    compactChoice maths logits 0 = 0 ↔ logits[0]? ≠ some ⊥ := by
  have hcandidates := survivorProbabilities_of_alive maths h
  constructor
  · intro hzero hfirst
    have hreached : (0 : K) <= 0 +
        ((survivorProbabilities maths logits).map Prod.fst).sum := by
      rw [hcandidates.2.sum_eq, zero_add]
      exact zero_le_one
    rcases exists_runningChoice hcandidates.1 hreached with ⟨label, hlabel⟩
    rcases runningChoice_mem hlabel with ⟨weight, hweight⟩
    have halive := hcandidates.2.alive (weight, label) hweight
    unfold compactChoice at hzero
    rw [hlabel, Option.getD_some] at hzero
    rcases halive with ⟨score, hscore⟩
    rw [show (weight, label).2 = 0 from hzero, hfirst] at hscore
    cases hscore
  · intro hfirst
    rcases maximumLogit_of_alive h with ⟨max, hmax⟩
    unfold compactChoice
    rw [survivorProbabilities_eq_map maths h hmax]
    cases logits with
    | nil => exact absurd h.lt_length (Nat.not_lt_zero token)
    | cons logit rest =>
      have hlogit : logit ≠ ⊥ := fun hbot => hfirst (congrArg some hbot)
      have hkept : decide ((logit, 0).1 ≠ (⊥ : WithBot K)) = true := decide_eq_true hlogit
      rw [List.zipIdx_cons, List.filter_cons, if_pos hkept, List.map_cons,
        runningChoice_zero (le_of_lt (probabilityOf_pos maths max h hlogit))]
      rfl

theorem drawFromLogits_eq_drawDense_iff (maths : ExponentialMaths K) (source : DrawSource G K)
    (candidateLimit : Option Nat) (logits : List (WithBot K)) (rng : G)
    (hsome : exists token, Alive logits token) :
    (drawFromLogits maths source candidateLimit logits rng).2 = (source.gen rng).2 ∧
      (drawFromLogits maths source candidateLimit logits rng = drawDense maths source logits rng ↔
        takesDensePath candidateLimit logits = true ∨ (source.gen rng).1 ≠ 0 ∨
          logits[0]? ≠ some ⊥) := by
  rcases hsome with ⟨token, halive⟩
  constructor
  · rw [drawFromLogits_eq]
  · cases hpath : takesDensePath candidateLimit logits with
    | true =>
      have hsame : drawFromLogits maths source candidateLimit logits rng =
          drawDense maths source logits rng := by
        unfold drawFromLogits
        rw [hpath, if_pos rfl]
      constructor
      · intro _
        exact Or.inl rfl
      · intro _
        exact hsame
    | false =>
      have hcompact : drawFromLogits maths source candidateLimit logits rng =
          (compactChoice maths logits (source.gen rng).1, (source.gen rng).2) := by
        unfold drawFromLogits
        rw [hpath, if_neg Bool.false_ne_true]
      have htoken : drawFromLogits maths source candidateLimit logits rng =
          drawDense maths source logits rng ↔
            compactChoice maths logits (source.gen rng).1 =
              sampleDenseFromLogits maths logits (source.gen rng).1 := by
        rw [hcompact]
        unfold drawDense
        rw [Prod.mk.injEq]
        exact and_iff_left rfl
      rw [htoken]
      by_cases hr : (source.gen rng).1 = 0
      · rw [hr, sampleDenseFromLogits_zero maths halive, compactChoice_zero maths halive]
        simp
      · have hpos := lt_of_le_of_ne (source.nonneg rng) (Ne.symm hr)
        rw [compactChoice_of_pos maths halive hpos]
        simp [hr]

end Paths

def repeatedDraw (r : Rat) (hnonneg : 0 <= r) (hlt : r < 1) : DrawSource Unit Rat where
  gen _ := (r, ())
  nonneg _ := hnonneg
  lt_one _ := hlt

/-- Only the last of three tokens survives, and the draw is one half. -/
theorem drawFromLogits_eq_drawDense_half :
    (exists token, Alive [⊥, ⊥, WithBot.some (0 : Rat)] token) ∧
      drawFromLogits flatMaths (repeatedDraw (1 / 2) (by decide +kernel) (by decide +kernel)) none
          [⊥, ⊥, WithBot.some 0] () =
        drawDense flatMaths (repeatedDraw (1 / 2) (by decide +kernel) (by decide +kernel))
          [⊥, ⊥, WithBot.some 0] () := by
  have halive : exists token, Alive [⊥, ⊥, WithBot.some (0 : Rat)] token := ⟨2, 0, rfl⟩
  have hhalf : (1 / 2 : Rat) ≠ 0 := by decide +kernel
  have hiff := (drawFromLogits_eq_drawDense_iff flatMaths
    (repeatedDraw (1 / 2) (by decide +kernel) (by decide +kernel)) none
    [⊥, ⊥, WithBot.some 0] () halive).2
  exact ⟨halive, hiff.mpr (Or.inr (Or.inl hhalf))⟩

/-- A draw of zero takes the masked first token on the dense path and the last one on
the compact path. -/
theorem paths_differ_at_zero :
    (exists token, Alive [⊥, ⊥, WithBot.some (0 : Rat)] token) ∧
      takesDensePath none [⊥, ⊥, WithBot.some (0 : Rat)] = false ∧
      drawFromLogits flatMaths (repeatedDraw 0 (by decide) (by decide)) none
        [⊥, ⊥, WithBot.some 0] () = (2, ()) ∧
      drawDense flatMaths (repeatedDraw 0 (by decide) (by decide))
        [⊥, ⊥, WithBot.some 0] () = (0, ()) := by
  constructor
  · exact ⟨2, 0, rfl⟩
  · decide +kernel

end CompactSampling

/-!
# Filters that keep the top

A filter keeps the top of the logits when it keeps no logit below one it drops, and
keeps a largest one.  Top-k does so, with the promised count, exactly when no logit
above its threshold stands behind `k` logits that reach the threshold.
-/

section KeepsTop

variable {K : Type} [LinearOrder K]

structure KeepsTop (before after : List (WithBot K)) : Prop where
  lowers : Lowers before after
  upward : forall (kept better : TokenId) (score higher : WithBot K),
    Alive after kept -> before[kept]? = some score -> before[better]? = some higher ->
      score < higher -> Alive after better
  largest : exists token, Alive after token ∧ before[token]? = some (maximumLogit before)

/-!
# Lowered lists
-/

variable {before after : List (WithBot K)}

omit [LinearOrder K] in
theorem Lowers.cons {first other : WithBot K} (h : Lowers (first :: before) (other :: after)) :
    (other = ⊥ ∨ other = first) ∧ Lowers before after := by
  constructor
  · cases other with
    | bot => exact Or.inl rfl
    | coe score =>
      have hkept := h.kept 0 score rfl
      exact Or.inr (Option.some.inj hkept).symm
  · constructor
    · exact Nat.succ.inj h.length_eq
    · intro token score hscore
      exact h.kept (token + 1) score hscore

@[simp] theorem aliveCount_bot_cons (logits : List (WithBot K)) :
    aliveCount (⊥ :: logits) = aliveCount logits := by
  unfold aliveCount
  rw [List.countP_cons_of_neg (p := fun logit => decide (⊥ < logit)) (by simp)]

@[simp] theorem aliveCount_coe_cons (score : K) (logits : List (WithBot K)) :
    aliveCount ((score : WithBot K) :: logits) = aliveCount logits + 1 := by
  unfold aliveCount
  rw [List.countP_cons_of_pos (p := fun logit => decide (⊥ < logit)) (by simp)]

theorem Lowers.aliveCount_le_countP (holds : WithBot K -> Bool) (h : Lowers before after)
    (hholds : forall token logit, Alive after token -> before[token]? = some logit ->
      holds logit = true) :
    aliveCount after <= before.countP holds := by
  induction before generalizing after with
  | nil =>
    rw [List.length_eq_zero_iff.mp h.length_eq]
    exact Nat.zero_le _
  | cons first before ih =>
    cases after with
    | nil => cases h.length_eq
    | cons other after =>
      have hcons := h.cons
      have hrest := ih hcons.2
        (fun token logit halive hlogit => hholds (token + 1) logit halive hlogit)
      cases other with
      | bot =>
        rw [aliveCount_bot_cons]
        exact le_trans hrest (List.sublist_cons_self first before).countP_le
      | coe score =>
        have hfirst := h.kept 0 score rfl
        have hkept := hholds 0 score ⟨score, rfl⟩ hfirst
        rw [Option.some.inj hfirst, aliveCount_coe_cons, List.countP_cons_of_pos hkept]
        exact Nat.succ_le_succ hrest

theorem Lowers.aliveCount_le (h : Lowers before after) :
    aliveCount after <= aliveCount before := by
  apply h.aliveCount_le_countP
  intro token logit halive hlogit
  rcases alive_iff.mp (h.alive halive) with ⟨found, hfound, hne⟩
  rw [hlogit] at hfound
  cases hfound
  exact decide_eq_true (bot_lt_iff_ne_bot.mpr hne)

theorem Lowers.eq_of_aliveCount (h : Lowers before after)
    (hcount : aliveCount before <= aliveCount after) :
    after = before := by
  induction before generalizing after with
  | nil => exact List.length_eq_zero_iff.mp h.length_eq
  | cons first before ih =>
    cases after with
    | nil => cases h.length_eq
    | cons other after =>
      have hcons := h.cons
      have hle := hcons.2.aliveCount_le
      cases other with
      | bot =>
        cases first with
        | bot =>
          rw [aliveCount_bot_cons, aliveCount_bot_cons] at hcount
          rw [ih hcons.2 hcount]
        | coe score =>
          rw [aliveCount_bot_cons, aliveCount_coe_cons] at hcount
          exact absurd (le_trans hcount hle) (Nat.not_succ_le_self _)
      | coe score =>
        have hfirst := Option.some.inj (h.kept 0 score rfl)
        rw [hfirst, aliveCount_coe_cons, aliveCount_coe_cons] at hcount
        rw [hfirst, ih hcons.2 (Nat.le_of_succ_le_succ hcount)]

theorem Lowers.eq_of_alive (h : Lowers before after)
    (hkept : forall token, Alive before token -> Alive after token) :
    after = before := by
  apply List.ext_getElem?
  intro token
  by_cases halive : Alive before token
  · rcases hkept token halive with ⟨score, hscore⟩
    rw [hscore, h.kept token score hscore]
  · by_cases htoken : token < before.length
    · have hafter : token < after.length := by
        rw [h.length_eq]
        exact htoken
      have hbefore : before[token] = ⊥ := by
        by_contra hne
        exact halive (alive_iff.mpr ⟨_, List.getElem?_eq_getElem htoken, hne⟩)
      have hlowered : after[token] = ⊥ := by
        by_contra hne
        exact halive (h.alive (alive_iff.mpr ⟨_, List.getElem?_eq_getElem hafter, hne⟩))
      rw [List.getElem?_eq_getElem htoken, List.getElem?_eq_getElem hafter, hbefore, hlowered]
    · have hbefore := Nat.le_of_not_lt htoken
      rw [List.getElem?_eq_none hbefore, List.getElem?_eq_none (by rw [h.length_eq]; exact hbefore)]

namespace KeepsTop

theorem of_upward {before after : List (WithBot K)} (hlowers : Lowers before after)
    (hupward : forall (kept better : TokenId) (score higher : WithBot K),
      Alive after kept -> before[kept]? = some score -> before[better]? = some higher ->
        score < higher -> Alive after better)
    (hsome : exists token, Alive after token) :
    KeepsTop before after where
  lowers := hlowers
  upward := hupward
  largest := by
    rcases hsome with ⟨token, halive⟩
    rcases hlowers.alive halive with ⟨score, hscore⟩
    have hle := le_maximumLogit (List.mem_of_getElem? hscore)
    have hmem := maximumLogit_mem (ne_bot_of_le_ne_bot WithBot.coe_ne_bot hle)
    rcases List.mem_iff_getElem?.mp hmem with ⟨best, hbest⟩
    rcases lt_or_eq_of_le hle with hlt | heq
    · exact ⟨best, hupward token best score _ halive hscore hbest hlt, hbest⟩
    · exact ⟨token, halive, by rw [hscore, heq]⟩

theorem exists_alive {before after : List (WithBot K)} (h : KeepsTop before after) :
    exists token, Alive after token := by
  rcases h.largest with ⟨token, halive, _⟩
  exact ⟨token, halive⟩

theorem refl {logits : List (WithBot K)} (hsome : exists token, Alive logits token) :
    KeepsTop logits logits := by
  apply of_upward (Lowers.refl logits) _ hsome
  intro kept better score higher _ _ hbetter hlt
  exact alive_iff.mpr ⟨higher, hbetter, ne_bot_of_gt hlt⟩

theorem trans {first second third : List (WithBot K)}
    (h : KeepsTop first second) (h' : KeepsTop second third) : KeepsTop first third := by
  apply of_upward (h.lowers.trans h'.lowers) _ h'.exists_alive
  intro kept better score higher halive hscore hhigher hlt
  have hsecond : second[kept]? = some score := by
    rcases h'.lowers.alive halive with ⟨value, hvalue⟩
    have hfirst := h.lowers.kept kept value hvalue
    rw [hscore] at hfirst
    rw [hvalue, ← hfirst]
  have hbetter := h.upward kept better score higher (h'.lowers.alive halive) hscore hhigher hlt
  rcases hbetter with ⟨value, hvalue⟩
  have hsame := h.lowers.kept better value hvalue
  rw [hhigher] at hsame
  rw [← hsame] at hvalue
  exact h'.upward kept better score higher halive hsecond hvalue hlt

end KeepsTop

/-!
# Top-k
-/

variable {logits : List (WithBot K)} {threshold : WithBot K}

theorem alive_keepTop {k kept : Nat} {token : TokenId} {logit : WithBot K}
    (hlogit : logits[token]? = some logit) :
    Alive (keepTop k threshold kept logits) token ↔
      logit ≠ ⊥ ∧ threshold <= logit ∧
        kept + (logits.take token).countP (fun x => decide (threshold <= x)) < k := by
  induction logits generalizing kept token with
  | nil => cases hlogit
  | cons first rest ih =>
    unfold keepTop
    cases token with
    | zero =>
      have hfirst : first = logit := Option.some.inj hlogit
      rw [List.take_zero, List.countP_nil, Nat.add_zero, ← hfirst]
      by_cases hboth : threshold <= first ∧ kept < k
      · rw [if_pos hboth, alive_iff]
        constructor
        · intro h
          rcases h with ⟨found, hfound, hne⟩
          rw [Option.some.inj hfound]
          exact ⟨hne, (Option.some.inj hfound) ▸ hboth⟩
        · intro h
          exact ⟨first, rfl, h.1⟩
      · rw [if_neg hboth]
        constructor
        · intro h
          rcases h with ⟨score, hscore⟩
          cases hscore
        · intro h
          exact absurd h.2 hboth
    | succ token =>
      have hrest : rest[token]? = some logit := hlogit
      rw [List.take_succ_cons]
      by_cases hfirst : threshold <= first
      · rw [List.countP_cons_of_pos (p := fun x => decide (threshold <= x))
          (decide_eq_true hfirst)]
        by_cases hroom : kept < k
        · rw [if_pos ⟨hfirst, hroom⟩]
          have hstep : _ ↔ _ ∧ _ ∧ kept + 1 + _ < k := ih hrest
          rw [Nat.add_right_comm, Nat.add_assoc kept] at hstep
          exact hstep
        · rw [if_neg (fun hboth => hroom hboth.2)]
          have hstep : _ ↔ _ ∧ _ ∧ kept + _ < k := ih hrest
          constructor
          · intro h
            exact absurd (lt_of_le_of_lt (Nat.le_add_right ..) (hstep.mp h).2.2) hroom
          · intro h
            exact absurd (lt_of_le_of_lt (Nat.le_add_right ..) h.2.2) hroom
      · rw [List.countP_cons_of_neg (p := fun x => decide (threshold <= x))
          (by simpa using hfirst), if_neg (fun hboth => hfirst hboth.1)]
        exact ih hrest

theorem aliveCount_keepTop {k kept : Nat} (hthreshold : threshold ≠ ⊥) :
    aliveCount (keepTop k threshold kept logits) =
      min (k - kept) (logits.countP (fun x => decide (threshold <= x))) := by
  induction logits generalizing kept with
  | nil => exact (Nat.min_zero _).symm
  | cons first rest ih =>
    unfold keepTop
    by_cases hfirst : threshold <= first
    · rw [List.countP_cons_of_pos (p := fun x => decide (threshold <= x))
        (decide_eq_true hfirst)]
      by_cases hroom : kept < k
      · rcases WithBot.ne_bot_iff_exists.mp (ne_bot_of_le_ne_bot hthreshold hfirst) with
          ⟨score, rfl⟩
        rw [if_pos ⟨hfirst, hroom⟩, aliveCount_coe_cons, ih]
        omega
      · rw [if_neg (fun hboth => hroom hboth.2), aliveCount_bot_cons, ih]
        omega
    · rw [List.countP_cons_of_neg (p := fun x => decide (threshold <= x))
        (by simpa using hfirst), if_neg (fun hboth => hfirst hboth.1), aliveCount_bot_cons, ih]

/-- Every logit above the threshold has fewer than `k` logits at the threshold before
it. -/
def TopKRoom (k : Nat) (logits : List (WithBot K)) : Prop :=
  logits.length <= k ∨
    forall threshold, kthLargest k logits = some threshold ->
      forall (token : TokenId) (logit : WithBot K), logits[token]? = some logit ->
        threshold < logit ->
          (logits.take token).countP (fun x => decide (threshold <= x)) < k

theorem topKFilter_of_lt {k : Nat} (hlength : k < logits.length) :
    exists threshold, kthLargest k logits = some threshold ∧
      topKFilter k logits = keepTop k threshold 0 logits := by
  have hindex : k - 1 < logits.length := lt_of_le_of_lt (Nat.sub_le k 1) hlength
  rcases exists_kthLargest hindex with ⟨threshold, hthreshold⟩
  refine ⟨threshold, hthreshold, ?_⟩
  unfold topKFilter
  rw [if_neg (Nat.not_le_of_lt hlength), hthreshold]

theorem exists_kept_at_threshold {k : Nat} (hk : 0 < k)
    (hthreshold : kthLargest k logits = some threshold) (hne : threshold ≠ ⊥) :
    exists token, Alive (keepTop k threshold 0 logits) token ∧
      logits[token]? = some threshold := by
  have hreach := (le_kthLargest_iff threshold hk hthreshold).mp (le_refl threshold)
  have hcount : aliveCount (keepTop k threshold 0 logits) = k := by
    rw [aliveCount_keepTop hne, Nat.sub_zero, Nat.min_eq_left hreach]
  by_contra hnone
  have habove : aliveCount (keepTop k threshold 0 logits) <=
      logits.countP (fun x => decide (threshold < x)) := by
    apply (keepTop_lowers k threshold 0 logits).aliveCount_le_countP
    intro token logit halive hlogit
    have hle := ((alive_keepTop hlogit).mp halive).2.1
    apply decide_eq_true
    apply lt_of_le_of_ne hle
    intro heq
    exact hnone ⟨token, halive, by rw [hlogit, heq]⟩
  rw [hcount, ← lt_kthLargest_iff threshold hk hthreshold] at habove
  exact lt_irrefl _ habove

theorem topKFilter_keeps_iff {k : Nat} (hk : 0 < k) (hsome : exists token, Alive logits token) :
    KeepsTop logits (topKFilter k logits) ∧
        aliveCount (topKFilter k logits) = min k (aliveCount logits) ↔
      TopKRoom k logits := by
  by_cases hlength : logits.length <= k
  · have hwhole : topKFilter k logits = logits := if_pos hlength
    have hcount : aliveCount logits <= k := le_trans List.countP_le_length hlength
    rw [hwhole, Nat.min_eq_right hcount]
    constructor
    · intro _
      exact Or.inl hlength
    · intro _
      exact ⟨KeepsTop.refl hsome, rfl⟩
  · have hlength := Nat.lt_of_not_le hlength
    rcases topKFilter_of_lt hlength with ⟨threshold, hthreshold, hfilter⟩
    have hfew := lt_kthLargest_iff (⊥ : WithBot K) hk hthreshold
    have hlowers := keepTop_lowers k threshold 0 logits
    rw [hfilter]
    constructor
    · intro hkeeps
      apply Or.inr
      intro found hfound token logit hlogit habove
      rw [hthreshold] at hfound
      cases hfound
      have halive : Alive (keepTop k threshold 0 logits) token := by
        by_cases hbot : threshold = ⊥
        · have hcount : aliveCount logits < k := by
            apply Nat.lt_of_not_le
            intro hle
            exact absurd (hfew.mpr hle) (by rw [hbot]; exact lt_irrefl _)
          have hsame := hlowers.eq_of_aliveCount
            (by rw [hkeeps.2, Nat.min_eq_right (le_of_lt hcount)])
          rw [hsame]
          exact alive_iff.mpr ⟨logit, hlogit, ne_bot_of_gt habove⟩
        · rcases exists_kept_at_threshold hk hthreshold hbot with ⟨kept, hkept, hat⟩
          exact hkeeps.1.upward kept token threshold logit hkept hat hlogit habove
      have hroom := ((alive_keepTop hlogit).mp halive).2.2
      rw [Nat.zero_add] at hroom
      exact hroom
    · intro hroom
      rcases hroom with hle | hroom
      · exact absurd hle (Nat.not_le_of_lt hlength)
      have habove : forall (token : TokenId) (logit : WithBot K), logits[token]? = some logit ->
          threshold < logit -> Alive (keepTop k threshold 0 logits) token := by
        intro token logit hlogit hlt
        apply (alive_keepTop hlogit).mpr
        rw [Nat.zero_add]
        exact ⟨ne_bot_of_gt hlt, le_of_lt hlt, hroom threshold hthreshold token logit hlogit hlt⟩
      have hupward : forall (kept better : TokenId) (score higher : WithBot K),
          Alive (keepTop k threshold 0 logits) kept -> logits[kept]? = some score ->
            logits[better]? = some higher -> score < higher ->
              Alive (keepTop k threshold 0 logits) better := by
        intro kept better score higher halive hscore hhigher hlt
        have hle := ((alive_keepTop hscore).mp halive).2.1
        exact habove better higher hhigher (lt_of_le_of_lt hle hlt)
      by_cases hbot : threshold = ⊥
      · have hsame : keepTop k threshold 0 logits = logits := by
          apply hlowers.eq_of_alive
          intro token halive
          rcases alive_iff.mp halive with ⟨logit, hlogit, hne⟩
          apply habove token logit hlogit
          rw [hbot]
          exact bot_lt_iff_ne_bot.mpr hne
        have hcount : aliveCount logits < k := by
          apply Nat.lt_of_not_le
          intro hle
          exact absurd (hfew.mpr hle) (by rw [hbot]; exact lt_irrefl _)
        rw [hsame, Nat.min_eq_right (le_of_lt hcount)]
        exact ⟨KeepsTop.refl hsome, rfl⟩
      · constructor
        · apply KeepsTop.of_upward hlowers hupward
          exact exists_alive_keepTop hbot hk (kthLargest_mem hthreshold)
        · have hreach := (le_kthLargest_iff threshold hk hthreshold).mp (le_refl threshold)
          have hcount := hfew.mp (bot_lt_iff_ne_bot.mpr hbot)
          rw [aliveCount_keepTop hbot, Nat.sub_zero, Nat.min_eq_left hreach]
          exact (Nat.min_eq_left hcount).symm

end KeepsTop

end Generate
end RunNBurn
