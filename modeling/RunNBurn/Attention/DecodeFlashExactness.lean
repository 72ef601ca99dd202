import Mathlib.Analysis.Complex.Exponential
import Mathlib.Analysis.Complex.Trigonometric
import Mathlib.Tactic.NormNum
import RunNBurn.Attention.DecodeAccumulators
import RunNBurn.Library.RowLoops

/-!
# The four passes and the one pass

Both forms give the softmax average of the rows in the window.  The fused heads are compared
through the two sums that they accumulate, whatever they keep them in.
-/

namespace RunNBurn
namespace Attention

open Library
open KvCache (vecOf)

variable {F H : Type}

namespace DecodeCall

variable (call : DecodeCall F H)

def reach : Nat :=
  match call.slidingWindow with
  | some window => min window call.kvLen
  | none => call.kvLen

def attended : List Nat :=
  List.range' (call.kvLen - call.reach) call.reach

def kvHeadOf (h : Nat) : Nat :=
  h / (call.numHeads / call.numKvHeads)

def queryOf (h : Nat) : List F :=
  rowAt call.headDim call.q h

/-- A row of a cache, as far as it belongs to the group of a head. -/
def rowOf (cache : List H) (h j : Nat) : List H :=
  (cache.drop (j * call.kvDim + call.kvHeadOf h * call.headDim)).take call.headDim

structure Fits (output : List F) : Prop where
  kvHeads_pos : 0 < call.numKvHeads
  grouped : call.numKvHeads ∣ call.numHeads
  kvLen_pos : 0 < call.kvLen
  window_pos : forall window, call.slidingWindow = some window -> 0 < window
  q_room : call.numHeads * call.headDim <= call.q.length
  k_room : call.kvLen * call.kvDim <= call.kCache.length
  v_room : call.kvLen * call.kvDim <= call.vCache.length
  output_room : call.numHeads * call.headDim <= output.length

/-!
## The window
-/

variable {call} {output : List F}

theorem reach_pos (hfits : call.Fits output) : 0 < call.reach := by
  unfold reach
  cases hwindow : call.slidingWindow with
  | none => exact hfits.kvLen_pos
  | some window => exact Nat.lt_min.mpr ⟨hfits.window_pos window hwindow, hfits.kvLen_pos⟩

theorem reach_le : call.reach <= call.kvLen := by
  unfold reach
  cases call.slidingWindow with
  | none => exact Nat.le_refl _
  | some window => exact Nat.min_le_right _ _

theorem masked_iff (hfits : call.Fits output) (j : Nat) :
    call.masked j = true ↔ j < call.kvLen - call.reach := by
  have hpos := hfits.kvLen_pos
  unfold masked reach
  cases call.slidingWindow with
  | none => simp
  | some window =>
    dsimp only
    rw [decide_eq_true_iff]
    omega

theorem filter_masked (hfits : call.Fits output) :
    (List.range call.kvLen).filter (fun j => !call.masked j) = call.attended := by
  have hsplit : call.kvLen = (call.kvLen - call.reach) + call.reach :=
    (Nat.sub_add_cancel reach_le).symm
  have hbefore : (List.range (call.kvLen - call.reach)).filter (fun j => !call.masked j) = [] := by
    rw [List.filter_eq_nil_iff]
    intro j hj
    have hlt : j < call.kvLen - call.reach := List.mem_range.mp hj
    rw [(masked_iff hfits j).mpr hlt]
    exact Bool.false_ne_true
  have hwindow : call.attended.filter (fun j => !call.masked j) = call.attended := by
    rw [List.filter_eq_self]
    intro j hj
    have hlow := (List.mem_range'_1.mp hj).1
    cases hmasked : call.masked j with
    | false => rfl
    | true => exact absurd ((masked_iff hfits j).mp hmasked) (Nat.not_lt.mpr hlow)
  have hrange : List.range call.kvLen =
      List.range (call.kvLen - call.reach) ++ call.attended := by
    have happend : List.range' 0 (call.kvLen - call.reach) ++
        List.range' (0 + (call.kvLen - call.reach)) call.reach =
          List.range' 0 ((call.kvLen - call.reach) + call.reach) := List.range'_append_1
    rw [Nat.zero_add, ← hsplit] at happend
    rw [List.range_eq_range', List.range_eq_range']
    exact happend.symm
  rw [hrange, List.filter_append, hbefore, hwindow, List.nil_append]

theorem attended_ne_nil (hfits : call.Fits output) : call.attended ≠ [] := by
  intro hnil
  have hlength := congrArg List.length hnil
  unfold attended at hlength
  rw [List.length_range'] at hlength
  exact absurd hlength (Nat.ne_of_gt (reach_pos hfits))

/-!
## Reading
-/

theorem kvHeadOf_lt (hfits : call.Fits output) {h : Nat} (hh : h < call.numHeads) :
    0 < call.numHeads / call.numKvHeads ∧ call.kvHeadOf h < call.numKvHeads := by
  rcases hfits.grouped with ⟨group, hgroup⟩
  have hquotient : call.numHeads / call.numKvHeads = group := by
    rw [hgroup, Nat.mul_div_cancel_left group hfits.kvHeads_pos]
  have hpos : 0 < group := by
    rcases Nat.eq_zero_or_pos group with hzero | hpos
    · rw [hgroup, hzero, Nat.mul_zero] at hh
      exact absurd hh (Nat.not_lt_zero h)
    · exact hpos
  unfold kvHeadOf
  rw [hquotient]
  constructor
  · exact hpos
  · rw [Nat.div_lt_iff_lt_mul hpos, ← hgroup]
    exact hh

theorem slice_query (hfits : call.Fits output) {h : Nat} (hh : h < call.numHeads) :
    slice call.q (h * call.headDim) (h * call.headDim + call.headDim) = .ok (call.queryOf h) := by
  have hroom : (h + 1) * call.headDim <= call.numHeads * call.headDim :=
    Nat.mul_le_mul_right call.headDim hh
  rw [Nat.succ_mul] at hroom
  rw [slice_of_le (Nat.le_add_right _ _) (Nat.le_trans hroom hfits.q_room), Nat.add_sub_cancel_left]
  rfl

theorem headRow_eq (hfits : call.Fits output) {cache : List H}
    (hcache : call.kvLen * call.kvDim <= cache.length) {h j : Nat} (hh : h < call.numHeads)
    (hj : j < call.kvLen) :
    call.headRow cache (call.kvHeadOf h) j = .ok (call.rowOf cache h j) ∧
      (call.rowOf cache h j).length = call.headDim := by
  have hhead : (call.kvHeadOf h + 1) * call.headDim <= call.kvDim :=
    Nat.mul_le_mul_right call.headDim (kvHeadOf_lt hfits hh).2
  have hrow : (j + 1) * call.kvDim <= call.kvLen * call.kvDim :=
    Nat.mul_le_mul_right call.kvDim hj
  rw [Nat.succ_mul] at hhead hrow
  have hroom : j * call.kvDim + call.kvHeadOf h * call.headDim + call.headDim <=
      cache.length := by
    omega
  constructor
  · unfold headRow
    dsimp only
    rw [slice_of_le (Nat.le_add_right _ _) hroom, Nat.add_sub_cancel_left]
    rfl
  · unfold rowOf
    rw [List.length_take, List.length_drop]
    omega

end DecodeCall

variable [Field F]

/-!
## Softmax attention
-/

theorem AttentionMath.Exact.exponential [LinearOrder F] {math : AttentionMath F H}
    (h : math.Exact) : Exponential math.exp where
  add := h.exp_add
  zero := by
    have hzero : math.exp 0 * math.exp 0 = math.exp 0 * 1 := by
      rw [← h.exp_add, add_zero, mul_one]
    exact mul_left_cancel₀ (ne_of_gt (h.exp_pos 0)) hzero

namespace DecodeCall

variable (call : DecodeCall F H)

def score (math : AttentionMath F H) (h j : Nat) : F :=
  scoreOf math call (call.queryOf h) (call.rowOf call.kCache h j)

def value (math : AttentionMath F H) (h j : Nat) : Fin call.headDim -> F :=
  vecOf call.headDim ((call.rowOf call.vCache h j).map math.ofF16)

/-- The values of the rows in the window, weighed with the exponentials of their scores. -/
def softmaxHead (math : AttentionMath F H) (h : Nat) : List F :=
  List.ofFn fun d =>
    (call.attended.map fun j => math.exp (call.score math h j) * call.value math h j d).sum /
      (call.attended.map fun j => math.exp (call.score math h j)).sum

end DecodeCall

/-!
## One head
-/

variable [LinearOrder F] {math : AttentionMath F H} {call : DecodeCall F H} {output : List F}

def DecodeCall.items (call : DecodeCall F H) (math : AttentionMath F H) (h : Nat)
    (rows : List Nat) : List (F × (Fin call.headDim -> F)) :=
  rows.map fun j => (call.score math h j, call.value math h j)

omit [LinearOrder F] in
theorem softmaxHead_eq (h : Nat) :
    call.softmaxHead math h =
      List.ofFn ((weightSum math.exp 0 (call.items math h call.attended))⁻¹ •
        weightedSum math.exp 0 (call.items math h call.attended)) := by
  unfold DecodeCall.softmaxHead
  apply congrArg
  funext d
  rw [Pi.smul_apply, smul_eq_mul, weightSum_zero, weightedSum_zero_apply, div_eq_mul_inv, mul_comm]
  unfold DecodeCall.items
  rw [List.map_map, List.map_map]
  rfl

namespace HeadPath

variable {acc : Type} {path : HeadPath F H acc} {n : Nat} {holds : acc -> F -> (Fin n -> F) -> Prop}
  {items : List (F × (Fin n -> F))} {state : HeadState F acc}

def Tracks (math : AttentionMath F H) (holds : acc -> F -> (Fin n -> F) -> Prop)
    (items : List (F × (Fin n -> F))) (state : HeadState F acc) : Prop :=
  exists s v, holds state.acc s v ∧ Accumulates math.exp items state.m s v

theorem Sound.weigh (hsound : path.Sound math n holds) (hexp : Exponential math.exp)
    (hstate : Tracks math holds items state) (x : F) {row : List H} (hrow : row.length = n) :
    Tracks math holds (items ++ [(x, vecOf n (row.map math.ofF16))])
      (path.weigh math x row state) := by
  rcases hstate with ⟨s, v, hholds, hsums⟩
  unfold HeadPath.weigh
  cases hm : state.m with
  | none =>
    rw [hm] at hsums
    exists s + 1, v + (1 : F) • vecOf n (row.map math.ofF16)
    constructor
    · exact hsound.addOne hholds hrow
    · exact hsums.first hexp x _
  | some m =>
    rw [hm] at hsums
    dsimp only
    by_cases habove : m < x
    · rw [if_pos habove]
      exists s * math.exp (m - x) + 1,
        math.exp (m - x) • v + (1 : F) • vecOf n (row.map math.ofF16)
      constructor
      · exact hsound.addOne (hsound.rescale (math.exp (m - x)) hholds) hrow
      · exact hsums.above hexp x _
    · rw [if_neg habove]
      exists s + math.exp (x - m), v + math.exp (x - m) • vecOf n (row.map math.ofF16)
      constructor
      · exact hsound.add (math.exp (x - m)) hholds hrow
      · exact hsums.push x _

theorem Sound.step {call : DecodeCall F H} {holds : acc -> F -> (Fin call.headDim -> F) -> Prop}
    (hsound : path.Sound math call.headDim holds) (hexp : Exponential math.exp)
    (hfits : call.Fits output) {h j : Nat} (hh : h < call.numHeads) (hj : j < call.kvLen)
    (hstate : Tracks math holds
      (call.items math h ((List.range j).filter fun i => !call.masked i)) state) :
    Delivers (path.step math call (call.queryOf h) (call.kvHeadOf h) j state)
      (Tracks math holds
        (call.items math h ((List.range (j + 1)).filter fun i => !call.masked i))) := by
  unfold HeadPath.step
  rw [List.range_succ, List.filter_append]
  cases hmasked : call.masked j with
  | true =>
    rw [if_pos rfl, List.filter_cons_of_neg (by rw [hmasked]; exact Bool.false_ne_true),
      List.filter_nil, List.append_nil]
    exact delivers_ok hstate
  | false =>
    rcases DecodeCall.headRow_eq hfits hfits.k_room hh hj with ⟨hkey, _⟩
    rcases DecodeCall.headRow_eq hfits hfits.v_room hh hj with ⟨hvalue, hlength⟩
    rw [if_neg Bool.false_ne_true, hkey, ok_bind, hvalue, ok_bind,
      List.filter_cons_of_pos (by rw [hmasked]; rfl), List.filter_nil]
    apply delivers_ok
    unfold DecodeCall.items
    rw [List.map_append]
    exact hsound.weigh hexp hstate _ hlength

theorem Sound.processHead_eq [IsStrictOrderedRing F] {call : DecodeCall F H}
    {holds : acc -> F -> (Fin call.headDim -> F) -> Prop}
    (hsound : path.Sound math call.headDim holds) (hmath : math.Exact)
    (hfits : call.Fits output) {h : Nat} (hh : h < call.numHeads) {outHead : List F}
    (houtHead : outHead.length = call.headDim) :
    path.processHead math call h outHead = .ok (call.softmaxHead math h) := by
  have hexp := hmath.exponential
  have hloop : Delivers
      (forRange (path.step math call (call.queryOf h) (call.kvHeadOf h)) call.kvLen
        { m := none
          acc := path.start outHead call.headDim })
      (Tracks math holds (call.items math h call.attended)) := by
    rw [← DecodeCall.filter_masked hfits]
    apply forRange_delivers (fun j => Tracks math holds
      (call.items math h ((List.range j).filter fun i => !call.masked i)))
    · exists 0, 0
      constructor
      · exact hsound.start outHead houtHead
      · exact Accumulates.empty
    · intro j hj state hstate
      exact hsound.step hexp hfits hh hj hstate
  rcases hloop with ⟨state, hrun, s, v, hholds, hsums⟩
  have hne : call.items math h call.attended ≠ [] := by
    intro hnil
    exact DecodeCall.attended_ne_nil hfits (List.map_eq_nil_iff.mp hnil)
  unfold HeadPath.processHead
  rw [divide_of_pos hfits.kvHeads_pos, ok_bind,
    divide_of_pos (DecodeCall.kvHeadOf_lt hfits hh).1, ok_bind,
    DecodeCall.slice_query hfits hh, ok_bind, hsound.query_eq]
  show forRange (path.step math call (call.queryOf h) (call.kvHeadOf h)) _ _ >>= _ = _
  rw [hrun, ok_bind]
  dsimp only
  rw [hsound.sum_eq hholds, if_pos ((hsums.sum_pos hexp).mpr hne), hsound.finish_eq _ hholds,
    softmaxHead_eq, one_div, hsums.quotient hexp]
  rfl

end HeadPath

/-!
## The reference
-/

omit [Field F] in
/-- A maximum over scores is missing only where every score is. -/
theorem foldl_maxScore_eq_none {scores : List (Option F)} {best : Option F}
    (h : scores.foldl maxScore best = none) : best = none ∧ forall x, x ∈ scores -> x = none := by
  induction scores generalizing best with
  | nil =>
    constructor
    · exact h
    · intro x hx
      cases hx
  | cons score rest ih =>
    rcases ih h with ⟨hfirst, hrest⟩
    have hboth : best = none ∧ score = none := by
      cases score with
      | none => exact ⟨hfirst, rfl⟩
      | some x =>
        cases best with
        | none => cases hfirst
        | some y =>
          unfold maxScore at hfirst
          dsimp only at hfirst
          split at hfirst <;> cases hfirst
    constructor
    · exact hboth.1
    · intro x hx
      rcases List.mem_cons.mp hx with hhead | htail
      · rw [hhead]
        exact hboth.2
      · exact hrest x htail

def DecodeCall.scoreOption (call : DecodeCall F H) (math : AttentionMath F H) (h j : Nat) :
    Option F :=
  if call.masked j then none else some (call.score math h j)

omit [LinearOrder F] in
/-- A masked row has no weight, so that the sum over all rows is the one over the others. -/
theorem sum_weightOf (h : Nat) (best : F) (rows : List Nat) :
    (rows.map fun j => weightOf math (some best) (call.scoreOption math h j)).sum =
      weightSum math.exp best (call.items math h (rows.filter fun j => !call.masked j)) := by
  induction rows with
  | nil => rfl
  | cons j rest ih =>
    rw [List.map_cons, List.sum_cons, ih]
    unfold DecodeCall.scoreOption
    cases hmasked : call.masked j with
    | true =>
      rw [List.filter_cons_of_neg (by rw [hmasked]; exact Bool.false_ne_true)]
      exact zero_add _
    | false =>
      rw [List.filter_cons_of_pos (by rw [hmasked]; rfl)]
      exact List.sum_cons.symm

omit [LinearOrder F] in
/-- The same for the weighted values. -/
theorem sum_weightOf_smul (h : Nat) (best factor : F) (rows : List Nat) :
    (rows.map fun j => (weightOf math (some best) (call.scoreOption math h j) * factor) •
        call.value math h j).sum =
      factor • weightedSum math.exp best
        (call.items math h (rows.filter fun j => !call.masked j)) := by
  induction rows with
  | nil => exact (smul_zero factor).symm
  | cons j rest ih =>
    rw [List.map_cons, List.sum_cons, ih]
    unfold DecodeCall.scoreOption
    cases hmasked : call.masked j with
    | true =>
      rw [List.filter_cons_of_neg (by rw [hmasked]; exact Bool.false_ne_true), if_pos rfl]
      show ((0 : F) * factor) • _ + _ = _
      rw [zero_mul, zero_smul, zero_add]
    | false =>
      rw [List.filter_cons_of_pos (by rw [hmasked]; rfl), if_neg Bool.false_ne_true]
      unfold weightedSum DecodeCall.items
      rw [List.map_cons, List.map_cons, List.sum_cons, smul_add, smul_smul]
      show (math.exp _ * factor) • _ + _ = _
      rw [mul_comm]

omit [LinearOrder F] in
theorem mapM_scoreAt (hfits : call.Fits output) {h : Nat} (hh : h < call.numHeads) :
    (List.range call.kvLen).mapM (scoreAt math call (call.queryOf h) (call.kvHeadOf h)) =
      .ok ((List.range call.kvLen).map (call.scoreOption math h)) := by
  apply mapM_eq_ok
  intro j hj
  unfold scoreAt DecodeCall.scoreOption
  cases hmasked : call.masked j with
  | true => rfl
  | false =>
    rcases DecodeCall.headRow_eq hfits hfits.k_room hh (List.mem_range.mp hj) with ⟨hkey, _⟩
    rw [if_neg Bool.false_ne_true, if_neg Bool.false_ne_true, hkey, ok_bind]
    rfl

omit [LinearOrder F] in
/-- The fourth pass: the values are added up, each with its weight. -/
theorem addValues_eq (hfits : call.Fits output) {h : Nat} (hh : h < call.numHeads)
    (weight : Nat -> F) (factor : F) :
    forEnumerated (addValue math call (call.kvHeadOf h) factor)
        ((List.range call.kvLen).map weight) (List.replicate call.headDim (0 : F)) =
      .ok (List.ofFn (((List.range call.kvLen).map fun j =>
        (weight j * factor) • call.value math h j).sum)) := by
  have hloop : Delivers
      (forEnumerated (addValue math call (call.kvHeadOf h) factor)
        ((List.range call.kvLen).map weight) (List.replicate call.headDim (0 : F)))
      (fun out => ReadsAs id (fun _ => True)
        ((List.range ((List.range call.kvLen).map weight).length).map fun j =>
          (weight j * factor) • call.value math h j).sum out) := by
    apply forEnumerated_delivers (fun earlier out => ReadsAs id (fun _ => True)
      ((List.range earlier.length).map fun j => (weight j * factor) • call.value math h j).sum out)
    · exact ReadsAs.replicate call.headDim trivial rfl
    · intro earlier w later out hsplit hout
      have hj : earlier.length < call.kvLen := by
        have hlength := congrArg List.length hsplit
        rw [List.length_map, List.length_range, List.length_append, List.length_cons] at hlength
        omega
      have hweight : w = weight earlier.length := by
        have hget := congrArg (fun xs : List F => xs[earlier.length]?) hsplit
        rw [List.getElem?_map, List.getElem?_range hj,
          List.getElem?_append_right (Nat.le_refl _), Nat.sub_self] at hget
        exact (Option.some.inj hget).symm
      rcases DecodeCall.headRow_eq hfits hfits.v_room hh hj with ⟨hvalue, hrow⟩
      unfold addValue
      rw [hvalue, ok_bind, hweight, List.length_append, List.length_singleton, List.range_succ,
        List.map_append, List.map_singleton, List.sum_append, List.sum_singleton]
      apply delivers_ok
      exact hout.zipInto hrow (fun _ _ _ => trivial) (fun _ _ _ => rfl)
  rcases hloop with ⟨out, hrun, hout⟩
  rw [List.length_map, List.length_range] at hout
  rw [hrun, ← hout.read_eq, List.map_id]

theorem decodeHead_eq [IsStrictOrderedRing F] (hmath : math.Exact) (hfits : call.Fits output)
    {h : Nat} (hh : h < call.numHeads) {outHead : List F}
    (houtHead : outHead.length = call.headDim) :
    decodeHead math call h outHead = .ok (call.softmaxHead math h) := by
  have hexp := hmath.exponential
  have hne : call.items math h call.attended ≠ [] := by
    intro hnil
    exact DecodeCall.attended_ne_nil hfits (List.map_eq_nil_iff.mp hnil)
  have hbest : exists best, ((List.range call.kvLen).map
      (call.scoreOption math h)).foldl maxScore none = some best := by
    cases hfold : ((List.range call.kvLen).map (call.scoreOption math h)).foldl maxScore none with
    | some best => exact Exists.intro best rfl
    | none =>
      rcases List.exists_mem_of_ne_nil _ (DecodeCall.attended_ne_nil hfits) with ⟨j, hj⟩
      rw [← DecodeCall.filter_masked hfits, List.mem_filter] at hj
      have hnone := (foldl_maxScore_eq_none hfold).2 _ (List.mem_map_of_mem hj.1)
      unfold DecodeCall.scoreOption at hnone
      rw [if_neg (by rw [Bool.not_eq_true']  at hj; rw [hj.2]; exact Bool.false_ne_true)] at hnone
      cases hnone
  rcases hbest with ⟨best, hbest⟩
  have hsums : Accumulates math.exp (call.items math h call.attended) (some best) _ _ :=
    Accumulates.below best hne
  unfold decodeHead
  rw [divide_of_pos hfits.kvHeads_pos, ok_bind,
    divide_of_pos (DecodeCall.kvHeadOf_lt hfits hh).1, ok_bind,
    DecodeCall.slice_query hfits hh, ok_bind]
  show (List.range call.kvLen).mapM (scoreAt math call (call.queryOf h) (call.kvHeadOf h)) >>= _ = _
  rw [mapM_scoreAt hfits hh, ok_bind]
  dsimp only
  have hsum : (((List.range call.kvLen).map (call.scoreOption math h)).map
      (weightOf math (some best))).sum =
        weightSum math.exp best (call.items math h call.attended) := by
    rw [List.map_map, ← DecodeCall.filter_masked hfits, ← sum_weightOf]
    rfl
  rw [hbest, ← List.sum_eq_foldl, hsum, if_pos ((hsums.sum_pos hexp).mpr hne), List.map_const',
    houtHead, List.map_map]
  show forEnumerated (addValue math call (call.kvHeadOf h) _) ((List.range call.kvLen).map
    fun j => weightOf math (some best) (call.scoreOption math h j)) _ = _
  rw [addValues_eq hfits hh, sum_weightOf_smul, DecodeCall.filter_masked hfits, softmaxHead_eq,
    one_div, hsums.quotient hexp]

/-!
## All heads
-/

omit [LinearOrder F] in
theorem length_softmaxHead (h : Nat) : (call.softmaxHead math h).length = call.headDim :=
  List.length_ofFn

theorem attentionDecodeInto_eq [IsStrictOrderedRing F] (hmath : math.Exact)
    (hfits : call.Fits output) :
    attentionDecodeIntoWithScaleWindowAndSoftcap math call output =
      .ok ((List.range call.numHeads).flatMap (call.softmaxHead math) ++
        output.drop (call.numHeads * call.headDim)) := by
  apply forRange_updateSlice_prefix hfits.output_room
  · intro h outHead hh houtHead
    exact decodeHead_eq hmath hfits hh houtHead
  · intro h _
    exact length_softmaxHead h

theorem processHeadOf_eq [IsStrictOrderedRing F] (hmath : math.Exact) (hfits : call.Fits output)
    (switches : FlashSwitches) {h : Nat} (hh : h < call.numHeads) {outHead : List F}
    (houtHead : outHead.length = call.headDim) :
    processHeadOf math switches call h outHead = .ok (call.softmaxHead math h) := by
  unfold processHeadOf
  split
  · exact (HeadPath.sound_f16AccPath math call.headDim hmath _).processHead_eq hmath hfits hh
      houtHead
  · split
    · exact (HeadPath.sound_f64Path math call.headDim).processHead_eq hmath hfits hh houtHead
    · split
      · exact (HeadPath.sound_kahanPath math call.headDim).processHead_eq hmath hfits hh houtHead
      · exact (HeadPath.sound_plainPath math call.headDim).processHead_eq hmath hfits hh houtHead

omit [Field F] [LinearOrder F] in
/-- A parallel run has a chunk for every head. -/
theorem numHeads_le_chunks (hfits : call.Fits output) (hdim : 0 < call.headDim) :
    call.numHeads <= (output.length + call.headDim - 1) / call.headDim := by
  rw [Nat.le_div_iff_mul_le hdim]
  have hroom := hfits.output_room
  omega

theorem attentionDecodeFlash_eq [IsStrictOrderedRing F] (hmath : math.Exact)
    (hfits : call.Fits output) (switches : FlashSwitches)
    (hchunks : 0 < call.headDim ∨ switches.parallel call.numHeads = false) :
    attentionDecodeFlash math switches call output =
      .ok ((List.range call.numHeads).flatMap (call.softmaxHead math) ++
        output.drop (call.numHeads * call.headDim)) := by
  have hserial : forRange
      (fun h output =>
        updateSlice output (h * call.headDim) ((h + 1) * call.headDim)
          (processHeadOf math switches call h)) call.numHeads output =
      .ok ((List.range call.numHeads).flatMap (call.softmaxHead math) ++
        output.drop (call.numHeads * call.headDim)) := by
    apply forRange_updateSlice_prefix hfits.output_room
    · intro h outHead hh houtHead
      exact processHeadOf_eq hmath hfits switches hh houtHead
    · intro h _
      exact length_softmaxHead h
  unfold attentionDecodeFlash
  split
  next hparallel =>
    have hdim : 0 < call.headDim := by
      rcases hchunks with hpos | hnone
      · exact hpos
      · rw [hparallel] at hnone
        cases hnone
    rw [require_of_true _ (Nat.ne_of_gt hdim), ok_bind]
    dsimp only
    rw [Nat.min_eq_right (numHeads_le_chunks hfits hdim), ← hserial]
    apply forRange_congr
    intro h hh state
    have hroom : (h + 1) * call.headDim <= output.length :=
      Nat.le_trans (Nat.mul_le_mul_right call.headDim hh) hfits.output_room
    rw [Nat.min_eq_left hroom]
  next => exact hserial

/-- Each of the four fused heads leaves what the four passes leave: softmax attention over the
last rows of the group.  So do the calls. -/
theorem attentionDecodeFlash_eq_decode [IsStrictOrderedRing F] (math : AttentionMath F H)
    (hmath : math.Exact) (call : DecodeCall F H) (output : List F) (hfits : call.Fits output) :
    (forall h outHead, h < call.numHeads -> outHead.length = call.headDim ->
      decodeHead math call h outHead = .ok (call.softmaxHead math h) ∧
      (plainPath math).processHead math call h outHead = .ok (call.softmaxHead math h) ∧
      (kahanPath math).processHead math call h outHead = .ok (call.softmaxHead math h) ∧
      (f64Path math).processHead math call h outHead = .ok (call.softmaxHead math h) ∧
      forall noQRound, (f16AccPath math noQRound).processHead math call h outHead =
        .ok (call.softmaxHead math h)) ∧
    attentionDecodeIntoWithScaleWindowAndSoftcap math call output =
      .ok ((List.range call.numHeads).flatMap (call.softmaxHead math) ++
        output.drop (call.numHeads * call.headDim)) ∧
    forall switches : FlashSwitches,
      0 < call.headDim ∨ switches.parallel call.numHeads = false ->
        attentionDecodeFlash math switches call output =
          attentionDecodeIntoWithScaleWindowAndSoftcap math call output := by
  constructor
  · intro h outHead hh houtHead
    constructor
    · exact decodeHead_eq hmath hfits hh houtHead
    · constructor
      · exact (HeadPath.sound_plainPath math call.headDim).processHead_eq hmath hfits hh houtHead
      · constructor
        · exact (HeadPath.sound_kahanPath math call.headDim).processHead_eq hmath hfits hh houtHead
        · constructor
          · exact (HeadPath.sound_f64Path math call.headDim).processHead_eq hmath hfits hh houtHead
          · intro noQRound
            exact (HeadPath.sound_f16AccPath math call.headDim hmath noQRound).processHead_eq hmath
              hfits hh houtHead
  · constructor
    · exact attentionDecodeInto_eq hmath hfits
    · intro switches hchunks
      rw [attentionDecodeInto_eq hmath hfits]
      exact attentionDecodeFlash_eq hmath hfits switches hchunks

/-- Real numbers, stored as they are. -/
noncomputable def restMath : AttentionMath Real Real where
  exp := Real.exp
  tanh := Real.tanh
  ofF16 := id
  toF16 := id

theorem restMath_exact : restMath.Exact where
  exp_pos := Real.exp_pos
  exp_add := Real.exp_add
  ofF16_toF16 := fun _ => rfl

/-- Four heads in two groups, and a window of two of the three rows. -/
noncomputable def restCall : DecodeCall Real Real where
  q := [1, 0, 0, 1]
  kCache := [1, 1, 0, 1, 1, 0]
  vCache := (List.range 6).map Nat.cast
  numHeads := 4
  numKvHeads := 2
  headDim := 1
  kvLen := 3
  scale := 1
  slidingWindow := some 2
  softcap := some 1

/-- One setting for each fused head, the rounded query apart. -/
def restSwitches : List FlashSwitches :=
  [{ f16Acc := false, f64 := false, kahan := false, noQRound := false, serial := false },
    { f16Acc := false, f64 := false, kahan := true, noQRound := false, serial := true },
    { f16Acc := false, f64 := true, kahan := false, noQRound := false, serial := false },
    { f16Acc := true, f64 := false, kahan := false, noQRound := false, serial := true },
    { f16Acc := true, f64 := false, kahan := false, noQRound := true, serial := false }]

/-- What weighs a row whose key is the query. -/
noncomputable def restWeight : Real :=
  Real.exp (Real.tanh 1)

/-- A query of zero takes the mean of the window.  The others lean to one of its rows. -/
noncomputable def restOutput : List Real :=
  [((2 : Nat) + restWeight * (4 : Nat)) / (1 + restWeight), (3 : Nat), (4 : Nat),
    (restWeight * (3 : Nat) + (5 : Nat)) / (restWeight + 1)]

theorem score_restCall {h j : Nat} {q k : Real} (hquery : restCall.queryOf h = [q])
    (hkey : restCall.rowOf restCall.kCache h j = [k]) :
    restCall.score restMath h j = Real.tanh (q * k) := by
  unfold DecodeCall.score
  rw [hquery, hkey]
  show 1 * Real.tanh ((0 + q * k) * 1 / 1) = _
  rw [one_mul, zero_add, mul_one, div_one]

theorem value_restCall {h j : Nat} {v : Real} (hvalue : restCall.rowOf restCall.vCache h j = [v]) :
    restCall.value restMath h j ⟨0, Nat.one_pos⟩ = v := by
  unfold DecodeCall.value
  rw [hvalue]
  rfl

theorem softmaxHead_restCall (h : Nat) {q k l v w : Real} (hquery : restCall.queryOf h = [q])
    (hkey : restCall.rowOf restCall.kCache h 1 = [k])
    (hkey' : restCall.rowOf restCall.kCache h 2 = [l])
    (hvalue : restCall.rowOf restCall.vCache h 1 = [v])
    (hvalue' : restCall.rowOf restCall.vCache h 2 = [w]) :
    restCall.softmaxHead restMath h =
      [(Real.exp (Real.tanh (q * k)) * v + Real.exp (Real.tanh (q * l)) * w) /
        (Real.exp (Real.tanh (q * k)) + Real.exp (Real.tanh (q * l)))] := by
  show [(Real.exp (restCall.score restMath h 1) * restCall.value restMath h 1 ⟨0, _⟩ +
      (Real.exp (restCall.score restMath h 2) * restCall.value restMath h 2 ⟨0, _⟩ + 0)) /
    (Real.exp (restCall.score restMath h 1) + (Real.exp (restCall.score restMath h 2) + 0))] = _
  rw [score_restCall hquery hkey, score_restCall hquery hkey', value_restCall hvalue,
    value_restCall hvalue', add_zero, add_zero]

theorem attentionDecodeFlash_rest :
    restSwitches.map (fun switches => attentionDecodeFlash restMath switches restCall [1, 1, 1, 1])
      =
      restSwitches.map (fun _ => .ok restOutput) := by
  have hfits : restCall.Fits [1, 1, 1, 1] := by
    constructor
    · decide
    · decide
    · decide
    · intro window hwindow
      rw [← Option.some.inj hwindow]
      decide
    · decide
    · decide
    · decide
    · decide
  have h := attentionDecodeFlash_eq_decode restMath restMath_exact restCall [1, 1, 1, 1] hfits
  have hheads : (List.range restCall.numHeads).flatMap (restCall.softmaxHead restMath) ++
      [1, 1, 1, 1].drop (restCall.numHeads * restCall.headDim) = restOutput := by
    show restCall.softmaxHead restMath 0 ++ (restCall.softmaxHead restMath 1 ++
      (restCall.softmaxHead restMath 2 ++ (restCall.softmaxHead restMath 3 ++ []))) ++ [] = _
    rw [softmaxHead_restCall 0 (q := 1) (k := 0) (l := 1) (v := (2 : Nat)) (w := (4 : Nat))
        rfl rfl rfl rfl rfl,
      softmaxHead_restCall 1 (q := 0) (k := 0) (l := 1) (v := (2 : Nat)) (w := (4 : Nat))
        rfl rfl rfl rfl rfl,
      softmaxHead_restCall 2 (q := 0) (k := 1) (l := 0) (v := (3 : Nat)) (w := (5 : Nat))
        rfl rfl rfl rfl rfl,
      softmaxHead_restCall 3 (q := 1) (k := 1) (l := 0) (v := (3 : Nat)) (w := (5 : Nat))
        rfl rfl rfl rfl rfl]
    unfold restOutput restWeight
    norm_num
  apply List.map_congr_left
  intro switches _
  rw [h.2.2 switches (Or.inl Nat.one_pos), h.2.1, hheads]

end Attention
end RunNBurn
