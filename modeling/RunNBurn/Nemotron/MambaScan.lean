import RunNBurn.Nemotron.Mamba

/-!
# The rows of the Mamba2 kernels

Each kernel on the flat buffers of a call leaves the rows that it makes of the rows of the tokens,
and reads inside its buffers.
-/

namespace RunNBurn
namespace Nemotron

open Library
open Gdn (Elementary entry)

section MambaRows

variable {F : Type} [Field F] {e : Elementary F} {eps : F}

/-!
## Single entries
-/

theorem index_eq {xs : List F} {i : Nat} (h : i < xs.length) : index xs i = .ok (entry xs i) := by
  apply index_of_getElem?_eq_some
  unfold entry
  rw [List.getD_eq_getElem?_getD, List.getElem?_eq_getElem h]
  rfl

theorem index_eq_of_getElem? {xs ys : List F} {i j : Nat} (hj : j < ys.length)
    (h : xs[i]? = ys[j]?) : index xs i = .ok (entry ys j) := by
  apply index_of_getElem?_eq_some
  unfold entry
  rw [h, List.getD_eq_getElem?_getD, List.getElem?_eq_getElem hj]
  rfl

def lastEntry (xs : List F) (i : Nat) : F :=
  entry xs (min i (xs.length - 1))

theorem saturatedAt_eq {xs : List F} (h : 0 < xs.length) (i : Nat) :
    saturatedAt xs i = .ok (lastEntry xs i) :=
  index_eq (by omega)

theorem clampedAt_eq {xs : List F} (h : 0 < xs.length) (i : Nat) :
    clampedAt xs i = .ok (lastEntry xs i) := by
  unfold clampedAt
  rw [require_of_true _ h, ok_bind]
  exact index_eq (by omega)

/-!
## Norms and projections
-/

theorem divide_rows {width : Nat} (hwidth : 0 < width) (n : Nat) :
    divide (n * width) width = .ok n := by
  rw [divide_of_pos hwidth, Nat.mul_div_cancel n hwidth]

theorem length_rmsNormRow {weight row : List F} (h : row.length = weight.length) :
    (rmsNormRow e eps weight row).length = weight.length := by
  unfold rmsNormRow
  rw [List.length_zipWith, h, Nat.min_self]

theorem rmsNormInto_rows {weight : List F} {rows : List (List F)} (hweight : 0 < weight.length)
    (hrows : UniformRows id weight.length rows) :
    rmsNormInto e rows.flatten weight eps =
      .ok (rows.map (rmsNormRow e eps weight)).flatten := by
  have hfill : fillRows rows.length (fun s => do
      let row <- slice rows.flatten (s * weight.length) ((s + 1) * weight.length)
      return rmsNormRow e eps weight row) =
        .ok (rows.map (rmsNormRow e eps weight)).flatten := by
    apply fillRows_items
    intro t row hrow
    rw [slice_flatten_row hrows hrow]
    rfl
  unfold rmsNormInto
  rw [length_flatten_rows hrows, divide_rows hweight, ok_bind, hfill, ok_bind, Nat.sub_self,
    List.replicate_zero, List.append_nil]
  rfl

theorem rmsNormInto_row {weight row : List F} (hweight : 0 < weight.length)
    (hrow : row.length = weight.length) :
    rmsNormInto e row weight eps = .ok (rmsNormRow e eps weight row) := by
  have hrows : UniformRows id weight.length [row] := by
    intro other hother
    rw [List.mem_singleton.mp hother]
    exact hrow
  have hnorm := @rmsNormInto_rows F _ e eps weight [row] hweight hrows
  rw [List.map_singleton, List.flatten_singleton, List.flatten_singleton] at hnorm
  exact hnorm

omit [Field F] in
theorem quantizedProject_rows {rowCount cols : Nat} (weight : Projection F rowCount cols)
    {rows : List (List F)} (hcols : 0 < cols) (hrows : UniformRows id cols rows) :
    quantizedProject weight rows.flatten = .ok (rows.map weight.row).flatten := by
  unfold quantizedProject
  rw [length_flatten_rows hrows, divide_rows hcols, ok_bind]
  apply fillRows_items
  intro t row hrow
  rw [slice_flatten_row hrows hrow]
  rfl

/-!
## The convolution
-/

section Windows

variable {channels : Nat} {before : List F} {seeds : List (List F)}

omit [Field F] in
theorem buildConvInput_eq {kernel : Nat} (hkernel : 1 <= kernel)
    (hbefore : before.length = (kernel - 1) * channels) (hseeds : UniformRows id channels seeds) :
    buildConvInputAndAdvanceState before seeds.flatten seeds.length channels kernel =
      .ok (before ++ seeds.flatten, rowsBefore channels before seeds) := by
  have hflat := length_flatten_rows hseeds
  have hlength : (before ++ seeds.flatten).length =
      (kernel - 1) * channels + seeds.length * channels := by
    rw [List.length_append, hbefore, hflat]
  have hcut : (before ++ seeds.flatten).length - (kernel - 1) * channels =
      seeds.length * channels := by
    rw [hlength, Nat.add_sub_cancel_left]
  have hsuffix : slice (before ++ seeds.flatten) (seeds.length * channels)
      (before ++ seeds.flatten).length = .ok (rowsBefore channels before seeds) := by
    rw [slice_of_le (by rw [hlength]; exact Nat.le_add_left _ _) (Nat.le_refl _),
      rowsBefore_eq hseeds, List.take_of_length_le (Nat.le_of_eq List.length_drop)]
  unfold buildConvInputAndAdvanceState
  dsimp only
  rw [require_of_true _ hkernel, ok_bind, require_of_true _ hbefore, ok_bind,
    require_of_true _ hflat, ok_bind, hcut, hsuffix, ok_bind]
  split
  next => rfl
  next hnone =>
    have hempty : before = [] := by
      apply List.eq_nil_of_length_eq_zero
      rw [hbefore]
      omega
    have hafter : rowsBefore channels before seeds = [] := by
      apply List.eq_nil_of_length_eq_zero
      rw [length_rowsBefore hseeds, hempty, List.length_nil]
    rw [hafter, hempty]
    rfl

def convRow (weights : List F) (channels kernel : Nat) (window : List F) : List F :=
  (List.range channels).map fun c =>
    (List.range kernel).foldl
      (fun sum k => sum + entry window (k * channels + c) * entry weights (k * channels + c)) 0

theorem ssmConv1d_rows {weights : List F} {kernel : Nat} (hkernel : 1 <= kernel)
    (hbefore : before.length = (kernel - 1) * channels) (hseeds : UniformRows id channels seeds)
    (hweights : weights.length = kernel * channels) :
    ssmConv1d (before ++ seeds.flatten) weights (kernel - 1 + seeds.length) channels kernel =
      .ok ((windowsFrom channels before seeds).map (convRow weights channels kernel)).flatten := by
  have hwidth : before.length + channels = kernel * channels := by
    rw [hbefore, ← Nat.succ_mul, Nat.succ_eq_add_one, Nat.sub_add_cancel hkernel]
  unfold ssmConv1d
  rw [require_of_true _ ⟨hkernel, Nat.le_add_right _ _⟩, ok_bind, Nat.add_sub_cancel_left,
    ← length_windowsFrom channels before seeds]
  apply fillRows_items
  intro t window hwindow
  rcases getElem?_window hseeds hwindow with ⟨hlength, hat⟩
  apply mapM_range_eq_ok
  intro c hc
  apply foldlM_range_eq_ok
  intro k sum hk
  have hplace : k * channels + c < kernel * channels := by
    have hroom : (k + 1) * channels <= kernel * channels := Nat.mul_le_mul_right channels hk
    rw [Nat.succ_mul] at hroom
    omega
  have hinput : (before ++ seeds.flatten)[(t + k) * channels + c]? =
      window[k * channels + c]? := by
    rw [Nat.add_mul, Nat.add_assoc]
    exact hat _ (by rw [hwidth]; exact hplace)
  unfold convTap
  rw [index_eq_of_getElem? (by rw [hlength, hwidth]; exact hplace) hinput, ok_bind,
    index_eq (by rw [hweights]; exact hplace), ok_bind]
  rfl

theorem length_convRow (weights : List F) (channels kernel : Nat) (window : List F) :
    (convRow weights channels kernel window).length = channels := by
  unfold convRow
  rw [List.length_map, List.length_range]

end Windows

def activateRow (e : Elementary F) (bias : List F) (channels : Nat) (row : List F) : List F :=
  (List.range channels).map fun c => e.silu (entry row c + lastEntry bias c)

theorem activateConv_rows {bias : List F} {channels : Nat} {rows : List (List F)}
    (hbias : 0 < bias.length) (hrows : UniformRows id channels rows) :
    activateConv e rows.flatten bias rows.length channels =
      .ok (rows.map (activateRow e bias channels)).flatten := by
  unfold activateConv
  apply fillRows_items
  intro t row hrow
  apply mapM_range_eq_ok
  intro c hc
  have hlength : row.length = channels := hrows row (List.mem_of_getElem? hrow)
  rw [index_eq_of_getElem? (by rw [hlength]; exact hc) (getElem?_flatten_row hrows hrow hc),
    ok_bind,
    clampedAt_eq hbias, ok_bind]
  rfl

/-!
## Gates and sums
-/

def gateRow (e : Elementary F) (row z : List F) : List F :=
  List.zipWith (fun value gate => value * e.sigmoid gate) row z

theorem sigmoidMul_rows {width : Nat} {rows gates : List (List F)}
    (hlengths : rows.length = gates.length) (hrows : UniformRows id width rows)
    (hgates : UniformRows id width gates) :
    sigmoidMul e rows.flatten gates.flatten = (List.zipWith (gateRow e) rows gates).flatten := by
  have hrest : rows.flatten.drop gates.flatten.length = [] := by
    apply List.drop_of_length_le
    apply Nat.le_of_eq
    rw [length_flatten_rows hrows, length_flatten_rows hgates, hlengths]
  unfold sigmoidMul
  rw [hrest, List.append_nil, zipWith_flatten_rows hlengths hrows hgates]
  rfl

theorem addTensors_eq {lhs rhs : List F} (hpos : 0 < lhs.length)
    (hlengths : rhs.length = lhs.length) :
    addTensors lhs rhs = .ok (List.zipWith (· + ·) lhs rhs) := by
  have hpairs : List.zipWith (· + ·) lhs rhs = (lhs.zip rhs).map fun pair => pair.1 + pair.2 := by
    rw [List.zip, List.map_zipWith]
  have hcount : lhs.length = (lhs.zip rhs).length := by
    rw [List.length_zip, hlengths, Nat.min_self]
  unfold addTensors
  rw [ensure_of_true _ ⟨by omega, by rw [hlengths, Nat.mod_self]⟩, ok_bind, hpairs]
  have hloop := @mapM_items_eq_ok (F × F) F (lhs.zip rhs) (fun i => do
    let x <- index lhs i
    let y <- index rhs (i % rhs.length)
    return x + y) (fun pair => pair.1 + pair.2) (by
      intro t pair hpair
      have hroom : t < lhs.length := by
        rw [hcount]
        exact (List.getElem?_eq_some_iff.mp hpair).1
      rcases List.getElem?_zip_eq_some.mp hpair with ⟨hx, hy⟩
      rw [index_of_getElem?_eq_some hx, ok_bind, hlengths, Nat.mod_eq_of_lt hroom,
        index_of_getElem?_eq_some hy, ok_bind]
      rfl)
  rw [← hcount] at hloop
  exact hloop

end MambaRows

/-!
# The rows of the Mamba2 scan

The scan steps from token to token; what it makes of a token depends on the row of the token and
on the state before it.
-/

section MambaScan

variable {F : Type} [Field F]

/-- The sizes divide as the heads and groups need it, and none of them is zero. -/
structure Mamba2Metadata.Splits (metadata : Mamba2Metadata) : Prop where
  heads : metadata.nGroup ∣ metadata.numHeads
  inner : metadata.numHeads ∣ metadata.ssmDInner
  hiddenDim_pos : 0 < metadata.hiddenDim
  ssmDInner_pos : 0 < metadata.ssmDInner
  ssmDState_pos : 0 < metadata.ssmDState

namespace Mamba2Metadata.Splits

variable {metadata : Mamba2Metadata}

theorem nGroup_pos (metadata : Mamba2Metadata) : 0 < metadata.nGroup :=
  Nat.lt_of_lt_of_le Nat.zero_lt_one (Nat.le_max_right _ _)

theorem numHeads_pos (metadata : Mamba2Metadata) : 0 < metadata.numHeads :=
  Nat.lt_of_lt_of_le Nat.zero_lt_one (Nat.le_max_right _ _)

theorem numHeads_mul_headDim (h : metadata.Splits) :
    metadata.numHeads * metadata.headDim = metadata.ssmDInner :=
  Nat.mul_div_cancel' h.inner

theorem headDim_pos (h : metadata.Splits) : 0 < metadata.headDim :=
  Nat.div_pos (Nat.le_of_dvd h.ssmDInner_pos h.inner) (numHeads_pos metadata)

theorem headStateLen_pos (h : metadata.Splits) : 0 < metadata.headStateLen :=
  Nat.mul_pos h.headDim_pos h.ssmDState_pos

theorem nGroup_mul_groupDim (h : metadata.Splits) :
    metadata.nGroup * metadata.groupDim = metadata.ssmDInner :=
  Nat.mul_div_cancel' (Nat.dvd_trans h.heads h.inner)

theorem groupDim_pos (h : metadata.Splits) : 0 < metadata.groupDim :=
  Nat.div_pos (Nat.le_of_dvd h.ssmDInner_pos (Nat.dvd_trans h.heads h.inner)) (nGroup_pos metadata)

def headsPerGroup (metadata : Mamba2Metadata) : Nat :=
  max (metadata.numHeads / metadata.nGroup) 1

theorem group_lt (h : metadata.Splits) {head : Nat} (hhead : head < metadata.numHeads) :
    head / headsPerGroup metadata < metadata.nGroup := by
  have hshare : 0 < metadata.numHeads / metadata.nGroup :=
    Nat.div_pos (Nat.le_of_dvd (numHeads_pos metadata) h.heads) (nGroup_pos metadata)
  have hsame : headsPerGroup metadata = metadata.numHeads / metadata.nGroup :=
    Nat.max_eq_left hshare
  have hall : metadata.numHeads / metadata.nGroup * metadata.nGroup = metadata.numHeads :=
    Nat.div_mul_cancel h.heads
  rw [hsame]
  apply Nat.div_lt_of_lt_mul
  rw [hall]
  exact hhead

end Mamba2Metadata.Splits

theorem mul_add_lt {a b i j : Nat} (hi : i < a) (hj : j < b) : i * b + j < a * b := by
  have hroom : (i + 1) * b <= a * b := Nat.mul_le_mul_right b hi
  rw [Nat.succ_mul] at hroom
  omega

theorem chunkCount_mul {size : Nat} (hsize : 0 < size) (n : Nat) : chunkCount
    (n * size) size = n := by
  unfold chunkCount
  rw [Nat.add_sub_assoc hsize, Nat.mul_comm, Nat.mul_add_div hsize,
    Nat.div_eq_of_lt (Nat.sub_lt hsize Nat.zero_lt_one), Nat.add_zero]

/-!
## One head
-/

section Head

variable {token : HeadToken F} {decay : F} {stateHead : List F} {h group headDim dState p : Nat}

def entryValue (token : HeadToken F) (decay xDt : F) (stateHead : List F)
    (group dState p : Nat) (row : List F × F) (s : Nat) : List F × F :=
  let next := entry stateHead (p * dState + s) * decay + entry token.b (group * dState + s) * xDt
  (row.1 ++ [next], row.2 + next * entry token.c (group * dState + s))

def rowValue (token : HeadToken F) (decay : F) (stateHead : List F)
    (h group headDim dState p : Nat) : List F × F :=
  let x := entry token.x (h * headDim + p)
  (List.range dState).foldl
    (entryValue token decay (x * token.dt) stateHead group dState p) ([], token.d * x)

def headValue (e : Elementary F) (token : HeadToken F) (stateHead : List F)
    (h group headDim dState : Nat) : List F × List F :=
  let rows := (List.range headDim).map
    (rowValue token (e.exp (token.dt * token.a)) stateHead h group headDim dState)
  ((rows.map Prod.fst).flatten, rows.map Prod.snd)

theorem length_foldl_entryValue (xDt : F) (n : Nat) (row : List F × F) :
    ((List.range n).foldl (entryValue token decay xDt stateHead group dState p) row).1.length =
      row.1.length + n := by
  induction n with
  | zero => rfl
  | succ n ih =>
    rw [List.range_succ, List.foldl_append, List.foldl_cons, List.foldl_nil]
    unfold entryValue at ih ⊢
    rw [List.length_append, ih]
    rfl

theorem length_headValue (e : Elementary F) :
    (headValue e token stateHead h group headDim dState).1.length = headDim * dState ∧
      (headValue e token stateHead h group headDim dState).2.length = headDim := by
  have hrows : UniformRows id dState (((List.range headDim).map
      (rowValue token (e.exp (token.dt * token.a)) stateHead h group headDim dState)).map
        Prod.fst) := by
    apply uniformRows_map
    intro row hrow
    rcases List.mem_map.mp hrow with ⟨p, -, hsame⟩
    rw [← hsame]
    unfold rowValue
    rw [length_foldl_entryValue, List.length_nil, Nat.zero_add]
  unfold headValue
  constructor
  · rw [length_flatten_rows hrows, List.length_map, List.length_map, List.length_range]
  · rw [List.length_map, List.length_map, List.length_range]

structure HeadFits (token : HeadToken F) (stateHead : List F) (h group headDim dState : Nat) :
    Prop where
  state : stateHead.length = headDim * dState
  x : (h + 1) * headDim <= token.x.length
  b : (group + 1) * dState <= token.b.length
  c : (group + 1) * dState <= token.c.length

theorem scanHead_eq {e : Elementary F} {outLen : Nat}
    (hfits : HeadFits token stateHead h group headDim dState) (hout : headDim <= outLen) :
    scanHead e token stateHead outLen h group headDim dState =
      .ok (headValue e token stateHead h group headDim dState) := by
  have hx := hfits.x
  have hb := hfits.b
  have hc := hfits.c
  rw [Nat.succ_mul] at hx hb hc
  have hrows : (List.range headDim).mapM (fun p => do
      let row <- scanRow token (e.exp (token.dt * token.a)) stateHead h group headDim dState p
      require (p < outLen) "index out of bounds"
      return row) =
        .ok ((List.range headDim).map
          (rowValue token (e.exp (token.dt * token.a)) stateHead h group headDim dState)) := by
    apply mapM_range_eq_ok
    intro p hp
    have hentries : forall row : List F × F, forall xDt : F,
        (List.range dState).foldlM
          (scanEntry token (e.exp (token.dt * token.a)) xDt stateHead group dState p) row =
        .ok ((List.range dState).foldl
          (entryValue token (e.exp (token.dt * token.a)) xDt stateHead group dState p) row) := by
      intro row xDt
      apply foldlM_range_eq_ok
      intro s row hs
      have hplace : p * dState + s < stateHead.length := by
        rw [hfits.state]
        exact mul_add_lt hp hs
      unfold scanEntry
      rw [index_eq hplace, ok_bind, index_eq (by omega), ok_bind, index_eq (by omega), ok_bind]
      rfl
    unfold scanRow
    rw [index_eq (by omega), ok_bind, hentries, ok_bind,
      require_of_true _ (Nat.lt_of_lt_of_le hp hout), ok_bind]
    rfl
  unfold scanHead
  rw [hrows, ok_bind]
  rfl

end Head

/-!
## One token
-/

variable [LinearOrder F]

section Token

variable {e : Elementary F} {metadata : Mamba2Metadata} {a d : List F}

section

variable (e : Elementary F) (metadata : Mamba2Metadata)

def headToken (a d act dt : List F) (h : Nat) :
    HeadToken F where
  dt := softplus e (entry dt h)
  a := lastEntry a h
  d := lastEntry d h
  x := act.take metadata.ssmDInner
  b := (act.drop metadata.ssmDInner).take metadata.bcDim
  c := (act.drop (metadata.ssmDInner + metadata.bcDim)).take metadata.bcDim

def headAt (a d act dt delta : List F) (h : Nat) :
    List F × List F :=
  headValue e (headToken e metadata a d act dt h)
    ((delta.drop (h * metadata.headStateLen)).take metadata.headStateLen) h
    (h / Mamba2Metadata.Splits.headsPerGroup metadata) metadata.headDim metadata.ssmDState

def scanValue (a d act dt delta : List F) :
    List F × List F :=
  let results := (List.range metadata.numHeads).map (headAt e metadata a d act dt delta)
  ((results.map Prod.snd).flatten, (results.map Prod.fst).flatten)

end

theorem length_scanValue (h : metadata.Splits) (act dt delta : List F) :
    (scanValue e metadata a d act dt delta).1.length = metadata.ssmDInner ∧
      (scanValue e metadata a d act dt delta).2.length =
        metadata.numHeads * metadata.headStateLen := by
  have hlengths : forall result, result ∈ (List.range metadata.numHeads).map
      (headAt e metadata a d act dt delta) ->
      result.1.length = metadata.headStateLen ∧ result.2.length = metadata.headDim := by
    intro result hresult
    rcases List.mem_map.mp hresult with ⟨head, -, hsame⟩
    rw [← hsame]
    exact length_headValue e
  have houts := uniformRows_map fun result hresult => (hlengths result hresult).2
  have hstates := uniformRows_map fun result hresult => (hlengths result hresult).1
  unfold scanValue
  constructor
  · rw [length_flatten_rows houts, List.length_map, List.length_map, List.length_range,
      h.numHeads_mul_headDim]
  · rw [length_flatten_rows hstates, List.length_map, List.length_map, List.length_range]

/-- The rows of the tokens of a call, and the weights that are read without a shape. -/
structure ScanRows (metadata : Mamba2Metadata) (a d : List F) (acts dts : List (List F)) :
    Prop where
  acts : UniformRows id metadata.convChannels acts
  dts : UniformRows id metadata.numHeads dts
  a : 0 < a.length
  d : 0 < d.length

theorem scanToken_eq (h : metadata.Splits) {acts dts : List (List F)} {act dt delta : List F}
    {t : Nat} (hrows : ScanRows metadata a d acts dts) (hact : acts[t]? = some act)
    (hdt : dts[t]? = some dt) (hdelta : delta.length = metadata.numHeads * metadata.headStateLen) :
    scanToken e metadata acts.flatten dts.flatten a d t delta =
      .ok (scanValue e metadata a d act dt delta) := by
  have hwidth : act.length = metadata.ssmDInner + 2 * metadata.bcDim :=
    hrows.acts act (List.mem_of_getElem? hact)
  have hdtWidth : dt.length = metadata.numHeads := hrows.dts dt (List.mem_of_getElem? hdt)
  have hb : slice act metadata.ssmDInner (metadata.ssmDInner + metadata.bcDim) =
      .ok ((act.drop metadata.ssmDInner).take metadata.bcDim) := by
    rw [slice_of_le (Nat.le_add_right _ _) (by omega), Nat.add_sub_cancel_left]
  have hc : slice act (metadata.ssmDInner + metadata.bcDim)
      (metadata.ssmDInner + 2 * metadata.bcDim) =
        .ok ((act.drop (metadata.ssmDInner + metadata.bcDim)).take metadata.bcDim) := by
    rw [slice_of_le (by omega) (by omega)]
    apply congrArg
    apply congrArg (fun count => List.take count _)
    omega
  have hheads : min (chunkCount delta.length metadata.headStateLen)
      (chunkCount metadata.ssmDInner metadata.headDim) = metadata.numHeads := by
    rw [hdelta, chunkCount_mul h.headStateLen_pos, ← h.numHeads_mul_headDim,
      chunkCount_mul h.headDim_pos, Nat.min_self]
  have hrest : delta.drop (metadata.numHeads * metadata.headStateLen) = [] :=
    List.drop_of_length_le (Nat.le_of_eq hdelta)
  unfold scanToken
  dsimp only
  rw [slice_flatten_row hrows.acts hact, ok_bind, slice_zero_of_le (by omega), ok_bind, hb, ok_bind,
    hc, ok_bind, require_of_true _ ⟨h.headStateLen_pos, h.headDim_pos⟩, ok_bind, hheads]
  rw [@mapM_range_eq_ok _ _ _ (headAt e metadata a d act dt delta), ok_bind,
    h.numHeads_mul_headDim, Nat.sub_self, List.replicate_zero, List.append_nil, hrest,
    List.append_nil]
  · rfl
  · intro head hhead
    have hdtAt := getElem?_flatten_row hrows.dts hdt hhead
    have hroom : (head + 1) * metadata.headDim <= metadata.ssmDInner := by
      rw [← h.numHeads_mul_headDim]
      exact Nat.mul_le_mul_right _ hhead
    have hstate : (head + 1) * metadata.headStateLen <= delta.length := by
      rw [hdelta]
      exact Nat.mul_le_mul_right _ hhead
    have hgroup : (head / Mamba2Metadata.Splits.headsPerGroup metadata + 1) * metadata.ssmDState <=
        metadata.bcDim :=
      Nat.mul_le_mul_right _ (h.group_lt hhead)
    rw [index_eq_of_getElem? (by rw [hdtWidth]; exact hhead) hdtAt, ok_bind,
      saturatedAt_eq hrows.a, ok_bind, saturatedAt_eq hrows.d, ok_bind]
    apply scanHead_eq
    · rw [Nat.succ_mul] at hstate
      constructor
      · rw [List.length_take, List.length_drop]
        unfold Mamba2Metadata.headStateLen at hstate ⊢
        omega
      · rw [List.length_take_of_le (by omega)]
        exact hroom
      · rw [List.length_take_of_le (by rw [List.length_drop]; omega)]
        exact hgroup
      · rw [List.length_take_of_le (by rw [List.length_drop]; omega)]
        exact hgroup
    · rw [Nat.succ_mul] at hroom
      omega

/-!
## All tokens
-/

def scanFrom (e : Elementary F) (metadata : Mamba2Metadata) (a d : List F) :
    List F -> List (List F × List F) -> List (List F) × List F
  | delta, [] => ([], delta)
  | delta, item :: items =>
    let next := scanValue e metadata a d item.1 item.2 delta
    let rest := scanFrom e metadata a d next.2 items
    (next.1 :: rest.1, rest.2)

theorem scanFrom_append (delta : List F) (items more : List (List F × List F)) :
    scanFrom e metadata a d delta (items ++ more) =
      ((scanFrom e metadata a d delta items).1 ++
          (scanFrom e metadata a d (scanFrom e metadata a d delta items).2 more).1,
        (scanFrom e metadata a d (scanFrom e metadata a d delta items).2 more).2) := by
  induction items generalizing delta with
  | nil => rfl
  | cons item items ih =>
    have hrest := ih (scanValue e metadata a d item.1 item.2 delta).2
    rw [List.cons_append, scanFrom, scanFrom, hrest]
    rfl

theorem length_scanFrom (h : metadata.Splits) (items : List (List F × List F)) {delta : List F}
    (hdelta : delta.length = metadata.numHeads * metadata.headStateLen) :
    (scanFrom e metadata a d delta items).1.length = items.length ∧
      UniformRows id metadata.ssmDInner (scanFrom e metadata a d delta items).1 ∧
      (scanFrom e metadata a d delta items).2.length =
        metadata.numHeads * metadata.headStateLen := by
  induction items generalizing delta with
  | nil => exact ⟨rfl, uniformRows_nil id _, hdelta⟩
  | cons item items ih =>
    have hlengths := @length_scanValue F _ _ e metadata a d h item.1 item.2 delta
    rcases ih hlengths.2 with ⟨hcount, hrows, hstate⟩
    unfold scanFrom
    refine ⟨?_, ?_, hstate⟩
    · rw [List.length_cons, List.length_cons, hcount]
    · intro row hrow
      rcases List.mem_cons.mp hrow with hhere | hlater
      · rw [hhere]
        exact hlengths.1
      · exact hrows row hlater

def scanNext (e : Elementary F) (metadata : Mamba2Metadata) (a d : List F)
    (result : List F × List F) (item : List F × List F) : List F × List F :=
  let next := scanValue e metadata a d item.1 item.2 result.2
  (result.1 ++ next.1, next.2)

theorem foldl_scanNext (out delta : List F) (items : List (List F × List F)) :
    items.foldl (scanNext e metadata a d) (out, delta) =
      (out ++ (scanFrom e metadata a d delta items).1.flatten,
        (scanFrom e metadata a d delta items).2) := by
  induction items generalizing out delta with
  | nil =>
    unfold scanFrom
    rw [List.flatten_nil, List.append_nil]
    rfl
  | cons item items ih =>
    have hrest := ih (out ++ (scanValue e metadata a d item.1 item.2 delta).1)
      (scanValue e metadata a d item.1 item.2 delta).2
    rw [List.append_assoc, ← List.flatten_cons] at hrest
    rw [List.foldl_cons]
    exact hrest

theorem scanMamba2Cpu_rows (h : metadata.Splits) {acts dts : List (List F)} {delta : List F}
    (hrows : ScanRows metadata a d acts dts) (hlengths : acts.length = dts.length)
    (hdelta : delta.length = metadata.numHeads * metadata.headStateLen) :
    scanMamba2Cpu e metadata delta acts.flatten dts.flatten a d acts.length =
      .ok ((scanFrom e metadata a d delta (acts.zip dts)).1.flatten,
        (scanFrom e metadata a d delta (acts.zip dts)).2) := by
  have hcount : (acts.zip dts).length = acts.length := by
    rw [List.length_zip, ← hlengths, Nat.min_self]
  have hbody : forall (t : Nat) item (result : List F × List F), (acts.zip dts)[t]? = some item ->
      result.2.length = metadata.numHeads * metadata.headStateLen ->
      (do
        let next <- scanToken e metadata acts.flatten dts.flatten a d t result.2
        return (result.1 ++ next.1, next.2)) = .ok (scanNext e metadata a d result item) := by
    intro t item result hitem hresult
    rcases List.getElem?_zip_eq_some.mp hitem with ⟨hact, hdt⟩
    rw [scanToken_eq h hrows hact hdt hresult, ok_bind]
    rfl
  have hvalue : forall item (result : List F × List F), item ∈ acts.zip dts ->
      result.2.length = metadata.numHeads * metadata.headStateLen ->
      (scanNext e metadata a d result item).2.length =
        metadata.numHeads * metadata.headStateLen :=
    fun item result _ _ => (length_scanValue h item.1 item.2 result.2).2
  have hloop := (foldlM_items_eq_ok (fun result : List F × List F =>
    result.2.length = metadata.numHeads * metadata.headStateLen)
    (show (([] : List F), delta).2.length = _ from hdelta) hbody hvalue).1
  rw [hcount, foldl_scanNext, List.nil_append] at hloop
  exact hloop

end Token

end MambaScan

end Nemotron
end RunNBurn
