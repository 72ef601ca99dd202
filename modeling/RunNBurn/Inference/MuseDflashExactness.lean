import RunNBurn.Inference.MuseDflash

/-!
# Exactness of the Muse draft cache

A checkpoint undoes whatever one block of tokens changed, so a round that verifies a
block and keeps a prefix of it leaves what observing the prefix alone leaves.
-/

namespace RunNBurn
namespace Inference

open Library

variable {feature row : Type}

@[simp] theorem pushFront_eq (front rows : List row) : pushFront front rows = front ++ rows := by
  unfold pushFront
  rw [List.foldl_reverse, List.foldr_cons_eq_append]
  simp

/-!
# One layer
-/

/-- The rows of tokens, the first one at `position`. -/
def rowsFrom (compute : List feature -> Nat -> row) :
    List (List feature) -> (position : Nat) -> List row
  | [], _ => []
  | token :: tokens, position => compute token position :: rowsFrom compute tokens (position + 1)

theorem length_rowsFrom (compute : List feature -> Nat -> row) (tokens : List (List feature))
    (position : Nat) :
    (rowsFrom compute tokens position).length = tokens.length := by
  induction tokens generalizing position with
  | nil => rfl
  | cons token tokens ih => exact congrArg Nat.succ (ih (position + 1))

theorem rowsFrom_append (compute : List feature -> Nat -> row) (left right : List (List feature))
    (position : Nat) :
    rowsFrom compute (left ++ right) position =
      rowsFrom compute left position ++ rowsFrom compute right (position + left.length) := by
  induction left generalizing position with
  | nil => rfl
  | cons token left ih =>
    have hposition : position + (token :: left).length = position + 1 + left.length := by
      rw [List.length_cons]
      omega
    rw [hposition]
    exact congrArg (List.cons _) (ih (position + 1))

namespace DflashLayerCache

structure Fits (windowSize : Nat) (cache : DflashLayerCache row) : Prop where
  values_length : cache.values.length = cache.keys.length
  keys_le : cache.keys.length <= windowSize

variable {windowSize : Nat} {cache : DflashLayerCache row}

theorem push_eq (h : cache.Fits windowSize) (key value : row) :
    cache.push windowSize key value =
      ⟨lastRows windowSize (cache.keys ++ [key]),
        lastRows windowSize (cache.values ++ [value])⟩ := by
  have hvalues : cache.values.length <= windowSize := by
    rw [h.values_length]
    exact h.keys_le
  have hlength : (cache.values ++ [value]).length = (cache.keys ++ [key]).length := by
    rw [List.length_append, List.length_append, h.values_length]
    rfl
  rw [← tail_eq_lastRows h.keys_le, ← tail_eq_lastRows hvalues, hlength]
  unfold push
  dsimp only
  split
  · rfl
  · rfl

theorem fits_lastRows {keys values : List row} (h : values.length = keys.length) :
    Fits windowSize ⟨lastRows windowSize keys, lastRows windowSize values⟩ := by
  constructor
  · rw [length_lastRows, length_lastRows, h]
  · rw [length_lastRows]
    exact Nat.min_le_left _ _

theorem observe_eq (rows : RowModel feature row) (layerIndex : Nat) (h : cache.Fits windowSize)
    (tokens : List (List feature)) (position : Nat) :
    cache.observe rows windowSize layerIndex tokens position =
      ⟨lastRows windowSize (cache.keys ++ rowsFrom (rows.key layerIndex) tokens position),
        lastRows windowSize (cache.values ++ rowsFrom (rows.value layerIndex) tokens
          position)⟩ := by
  induction tokens generalizing cache position with
  | nil =>
    have hvalues : cache.values.length <= windowSize := by
      rw [h.values_length]
      exact h.keys_le
    unfold rowsFrom
    rw [List.append_nil, List.append_nil, lastRows_of_le h.keys_le, lastRows_of_le hvalues]
    rfl
  | cons token tokens ih =>
    unfold observe rowsFrom
    rw [push_eq h, ih, lastRows_append, lastRows_append, List.append_assoc, List.append_assoc]
    · rfl
    · apply fits_lastRows
      rw [List.length_append, List.length_append, h.values_length]
      rfl

theorem observe_append (rows : RowModel feature row) (layerIndex : Nat)
    (left right : List (List feature)) (position : Nat) :
    cache.observe rows windowSize layerIndex (left ++ right) position =
      (cache.observe rows windowSize layerIndex left position).observe rows windowSize layerIndex
        right (position + left.length) := by
  induction left generalizing cache position with
  | nil => rfl
  | cons token left ih =>
    have hposition : position + (token :: left).length = position + 1 + left.length := by
      rw [List.length_cons]
      omega
    rw [hposition]
    exact ih (position + 1)

end DflashLayerCache

namespace MuseDflashRuntime

/-- Every layer keeps to its window, as a restored sequence state is checked to. -/
def Fits (runtime : MuseDflashRuntime row) : Prop :=
  forall layer, layer ∈ runtime.layerCache -> layer.Fits runtime.windowSize

variable {runtime : MuseDflashRuntime row}

theorem getElem?_observed (rows : RowModel feature row) (runtime : MuseDflashRuntime row)
    (tokens : List (List feature)) (i : Nat) :
    (runtime.observed rows tokens).layerCache[i]? =
      (runtime.layerCache[i]?).map fun layer =>
        layer.observe rows runtime.windowSize i tokens runtime.position := by
  unfold observed
  dsimp only
  rw [List.getElem?_map, List.getElem?_zipIdx, Option.map_map, Nat.zero_add]
  rfl

theorem ext_layers {left right : MuseDflashRuntime row}
    (hlayers : forall i : Nat, left.layerCache[i]? = right.layerCache[i]?)
    (hrest : { left with layerCache := right.layerCache } = right) :
    left = right := by
  rw [← hrest]
  have hsame := List.ext_getElem? hlayers
  cases left
  cases hsame
  rfl

theorem observed_append (rows : RowModel feature row) (runtime : MuseDflashRuntime row)
    (left right : List (List feature)) :
    (runtime.observed rows left).observed rows right = runtime.observed rows (left ++ right) := by
  apply ext_layers
  · intro i
    rw [getElem?_observed, getElem?_observed, getElem?_observed, Option.map_map]
    apply congrArg (fun change => (runtime.layerCache[i]?).map change)
    funext layer
    exact (DflashLayerCache.observe_append rows i left right runtime.position).symm
  · unfold observed
    dsimp only
    rw [List.length_append, Nat.add_assoc]

theorem observed_nil (rows : RowModel feature row) (runtime : MuseDflashRuntime row) :
    runtime.observed rows [] = runtime := by
  apply ext_layers
  · intro i
    rw [getElem?_observed]
    exact Option.map_id'
  · rfl

variable {rows : RowModel feature row}

theorem observeTargetBatch_eq_ok {features : List feature} {tokenCount startPosition : Nat}
    {after : MuseDflashRuntime row}
    (h : runtime.observeTargetBatch rows features tokenCount startPosition = .ok after) :
    after = runtime.observed rows (chunks runtime.featureDim tokenCount features) := by
  unfold observeTargetBatch at h
  dsimp only at h
  split at h
  · cases h
  · split at h
    · cases h
    · split at h
      · cases h
      · cases h
        rfl

/-!
# Checkpoints
-/

theorem mapM_zipIdx_eq_ok {alpha beta : Type} {call : alpha × Nat -> Checked beta}
    {xs : List alpha} {ys : List beta} (hlength : xs.length = ys.length)
    (h : forall (i : Nat) (x : alpha) (y : beta), xs[i]? = some x -> ys[i]? = some y ->
      call (x, i) = .ok y) :
    xs.zipIdx.mapM call = .ok ys := by
  have hshift : forall n, (forall (i : Nat) (x : alpha) (y : beta), xs[i]? = some x ->
      ys[i]? = some y -> call (x, i + n) = .ok y) -> (xs.zipIdx n).mapM call = .ok ys := by
    clear h
    induction xs generalizing ys with
    | nil =>
      intro n _
      cases List.eq_nil_of_length_eq_zero hlength.symm
      rfl
    | cons x xs ih =>
      intro n h
      cases ys with
      | nil => cases hlength
      | cons y ys =>
        have hhead : call (x, 0 + n) = .ok y := h 0 x y rfl rfl
        have hrest := ih (Nat.succ.inj hlength) (n + 1) (fun i x y hx hy => by
          have hnext := h (i + 1) x y hx hy
          rw [Nat.add_assoc, Nat.add_comm 1 n] at hnext
          exact hnext)
        rw [Nat.zero_add] at hhead
        rw [List.zipIdx_cons, List.mapM_cons, hhead, ok_bind, hrest]
        rfl
  exact hshift 0 h

theorem restoreLayer_observe (rows : RowModel feature row) (tokens : List (List feature))
    {layer : DflashLayerCache row} {i : Nat} (hlayer : runtime.layerCache[i]? = some layer)
    (hfits : layer.Fits runtime.windowSize) (htokens : tokens.length <= runtime.blockSize)
    (hwindow : runtime.blockSize <= runtime.windowSize) :
    restoreLayer runtime.windowSize tokens.length runtime.checkpoint
        (layer.observe rows runtime.windowSize i tokens runtime.position) i =
      .ok layer := by
  have hmore : tokens.length <= runtime.windowSize := Nat.le_trans htokens hwindow
  have hvalues : layer.values.length <= runtime.windowSize := by
    rw [hfits.values_length]
    exact hfits.keys_le
  have hkeysLength := length_rowsFrom (rows.key i) tokens runtime.position
  have hvaluesLength := length_rowsFrom (rows.value i) tokens runtime.position
  have hkeysBack := restore_lastRows hfits.keys_le (hkeysLength.symm ▸ hmore)
  have hvaluesBack := restore_lastRows hvalues (hvaluesLength.symm ▸ hmore)
  rw [hkeysLength] at hkeysBack
  rw [hvaluesLength, hfits.values_length] at hvaluesBack
  have hpopped : forall more : List row, more.length = tokens.length ->
      min tokens.length (lastRows runtime.windowSize (layer.keys ++ more)).length =
        tokens.length := by
    intro more hlength
    rw [length_lastRows, List.length_append, hlength]
    omega
  have hlengths : index runtime.checkpoint.layerLengths i = .ok layer.keys.length := by
    apply index_of_getElem?_eq_some
    unfold checkpoint
    dsimp only
    rw [List.getElem?_map, hlayer]
    rfl
  have hfrontKeys : index runtime.checkpoint.frontKeys i =
      .ok (layer.keys.take runtime.blockSize) := by
    apply index_of_getElem?_eq_some
    unfold checkpoint
    dsimp only
    rw [List.getElem?_map, hlayer]
    rfl
  have hfrontValues : index runtime.checkpoint.frontValues i =
      .ok (layer.values.take runtime.blockSize) := by
    apply index_of_getElem?_eq_some
    unfold checkpoint
    dsimp only
    rw [List.getElem?_map, hlayer]
    rfl
  have hkeysLe := hfits.keys_le
  have hevicted : tokens.length - (runtime.windowSize - layer.keys.length) <=
      runtime.blockSize := by
    omega
  have hretained : ¬ (tokens.length - (runtime.windowSize - layer.keys.length) >
        (layer.keys.take runtime.blockSize).length ∨
      tokens.length - (runtime.windowSize - layer.keys.length) >
        (layer.values.take runtime.blockSize).length) := by
    rw [List.length_take, List.length_take, hfits.values_length]
    omega
  unfold restoreLayer
  rw [DflashLayerCache.observe_eq rows i hfits]
  dsimp only
  rw [hpopped _ hkeysLength, hlengths, ok_bind, hfrontKeys, ok_bind, hfrontValues, ok_bind]
  unfold popBack
  rw [if_neg hretained, List.take_take, List.take_take, Nat.min_eq_left hevicted,
    pushFront_eq, pushFront_eq, hkeysBack, hvaluesBack, if_neg]
  · rfl
  · rw [hfits.values_length]
    simp

theorem restoreCheckpoint_observed (rows : RowModel feature row) (tokens : List (List feature))
    (hfits : runtime.Fits) (htokens : tokens.length <= runtime.blockSize)
    (hwindow : runtime.blockSize <= runtime.windowSize) :
    (runtime.observed rows tokens).restoreCheckpoint runtime.checkpoint = .ok runtime := by
  have happended : runtime.position + tokens.length - runtime.checkpoint.position =
      tokens.length :=
    Nat.add_sub_cancel_left runtime.position tokens.length
  have hlayers : (runtime.observed rows tokens).layerCache.length = runtime.layerCache.length := by
    unfold observed
    rw [List.length_map, List.length_zipIdx]
  have hmap : (runtime.observed rows tokens).layerCache.zipIdx.mapM
      (fun entry =>
        restoreLayer runtime.windowSize tokens.length runtime.checkpoint entry.1 entry.2) =
      .ok runtime.layerCache := by
    apply mapM_zipIdx_eq_ok hlayers
    intro i observed layer hobserved hlayer
    rw [getElem?_observed, hlayer] at hobserved
    cases hobserved
    exact restoreLayer_observe rows tokens hlayer (hfits layer (List.mem_of_getElem? hlayer))
      htokens hwindow
  unfold restoreCheckpoint
  rw [if_neg]
  · dsimp only
    rw [if_neg]
    · have hposition : (runtime.observed rows tokens).position - runtime.checkpoint.position =
          tokens.length := happended
      have hsize : (runtime.observed rows tokens).windowSize = runtime.windowSize := rfl
      rw [hposition, hsize]
      exact (congrArg (· >>= _) hmap).trans rfl
    · have hposition : (runtime.observed rows tokens).position - runtime.checkpoint.position =
          tokens.length := happended
      rw [hposition, hlayers]
      unfold checkpoint observed
      simp
      exact htokens
  · exact Nat.not_lt.mpr (Nat.le_add_right runtime.position tokens.length)

/-!
# Runs
-/

structure ObserveCall (feature : Type) where
  features : List feature
  tokenCount : Nat
  startPosition : Nat

def afterObserve (rows : RowModel feature row) (runtime : MuseDflashRuntime row)
    (call : ObserveCall feature) : MuseDflashRuntime row :=
  match runtime.observeTargetBatch rows call.features call.tokenCount call.startPosition with
  | .ok after => after
  | .error _ => runtime

def observeAll (rows : RowModel feature row) (runtime : MuseDflashRuntime row)
    (calls : List (ObserveCall feature)) : MuseDflashRuntime row :=
  calls.foldl (afterObserve rows) runtime

def totalTokens (calls : List (ObserveCall feature)) : Nat :=
  (calls.map ObserveCall.tokenCount).sum

theorem observeAll_eq (rows : RowModel feature row) (runtime : MuseDflashRuntime row)
    (calls : List (ObserveCall feature)) :
    exists tokens, observeAll rows runtime calls = runtime.observed rows tokens ∧
      tokens.length <= totalTokens calls := by
  induction calls generalizing runtime with
  | nil => exact ⟨[], (observed_nil rows runtime).symm, Nat.le_refl 0⟩
  | cons call calls ih =>
    have hfirst : exists tokens, afterObserve rows runtime call = runtime.observed rows tokens ∧
        tokens.length <= call.tokenCount := by
      unfold afterObserve
      cases hcall : runtime.observeTargetBatch rows call.features call.tokenCount
          call.startPosition with
      | error fault => exact ⟨[], (observed_nil rows runtime).symm, Nat.zero_le _⟩
      | ok after => exact ⟨_, observeTargetBatch_eq_ok hcall, Nat.le_of_eq (length_chunks _ _ _)⟩
    rcases hfirst with ⟨tokens, hafter, hcount⟩
    rcases ih (afterObserve rows runtime call) with ⟨more, hmore, hrest⟩
    refine ⟨tokens ++ more, ?_, ?_⟩
    · show observeAll rows (afterObserve rows runtime call) calls = _
      rw [hmore, hafter, observed_append]
    · have htotal : totalTokens (call :: calls) = call.tokenCount + totalTokens calls := rfl
      rw [List.length_append, htotal]
      omega

theorem restoreCheckpoint_observeAll (rows : RowModel feature row)
    (calls : List (ObserveCall feature)) (hfits : runtime.Fits)
    (hwindow : runtime.blockSize <= runtime.windowSize)
    (htotal : totalTokens calls <= runtime.blockSize) :
    (observeAll rows runtime calls).restoreCheckpoint runtime.checkpoint = .ok runtime := by
  rcases observeAll_eq rows runtime calls with ⟨tokens, htokens, hcount⟩
  rw [htokens]
  exact restoreCheckpoint_observed rows tokens hfits (Nat.le_trans hcount htotal) hwindow

theorem retainVerifiedPrefix_observeAll (rows : RowModel feature row)
    (calls : List (ObserveCall feature)) (features : List feature) (tokenCount : Nat)
    (hfits : runtime.Fits) (hwindow : runtime.blockSize <= runtime.windowSize)
    (htotal : totalTokens calls <= runtime.blockSize) :
    (observeAll rows runtime calls).retainVerifiedPrefix rows runtime.checkpoint features
        tokenCount =
      runtime.observeTargetBatch rows features tokenCount runtime.position := by
  unfold retainVerifiedPrefix
  rw [restoreCheckpoint_observeAll rows calls hfits hwindow htotal]
  rfl

/-- The runs from a runtime that was just loaded, with the tokens that are committed.
A round takes a checkpoint, observes a block at most and retains a prefix. -/
inductive Run (rows : RowModel feature row) (loaded : MuseDflashRuntime row) :
    List (List feature) -> MuseDflashRuntime row -> Prop where
  | loaded : Run rows loaded [] loaded
  | cleared {committed : List (List feature)} {runtime : MuseDflashRuntime row} :
      Run rows loaded committed runtime ->
      Run rows loaded [] runtime.clear
  | observed {committed : List (List feature)} {runtime after : MuseDflashRuntime row}
      {features : List feature} {tokenCount startPosition : Nat} :
      Run rows loaded committed runtime ->
      runtime.observeTargetBatch rows features tokenCount startPosition = .ok after ->
      Run rows loaded (committed ++ chunks runtime.featureDim tokenCount features) after
  | round {committed : List (List feature)} {runtime after : MuseDflashRuntime row}
      {calls : List (ObserveCall feature)} {features : List feature} {tokenCount : Nat} :
      Run rows loaded committed runtime ->
      totalTokens calls <= runtime.blockSize ->
      (observeAll rows runtime calls).retainVerifiedPrefix rows runtime.checkpoint features
        tokenCount = .ok after ->
      Run rows loaded (committed ++ chunks runtime.featureDim tokenCount features) after
  | sequenceRestored {committed other : List (List feature)}
      {runtime captured after : MuseDflashRuntime row} :
      Run rows loaded committed runtime ->
      Run rows loaded other captured ->
      runtime.restoreSequenceState captured.captureSequenceState = .ok after ->
      Run rows loaded other after

/-- Every layer holds the rows of the last committed tokens, in order. -/
structure Holds (rows : RowModel feature row) (committed : List (List feature))
    (runtime : MuseDflashRuntime row) : Prop where
  position_eq : runtime.position = committed.length
  layers : forall (i : Nat) (layer : DflashLayerCache row), runtime.layerCache[i]? = some layer ->
    layer.keys = lastRows runtime.windowSize (rowsFrom (rows.key i) committed 0) ∧
      layer.values = lastRows runtime.windowSize (rowsFrom (rows.value i) committed 0)

variable {committed : List (List feature)}

theorem Holds.fits (h : runtime.Holds rows committed) :
    runtime.Fits := by
  intro layer hlayer
  rcases List.mem_iff_getElem?.mp hlayer with ⟨i, hi⟩
  have hrows := h.layers i layer hi
  cases layer
  cases hrows.1
  cases hrows.2
  apply DflashLayerCache.fits_lastRows
  rw [length_rowsFrom, length_rowsFrom]

theorem Holds.empty (rows : RowModel feature row) (hposition : runtime.position = 0)
    (hlayers : forall layer, layer ∈ runtime.layerCache -> layer = ⟨[], []⟩) :
    runtime.Holds rows [] := by
  constructor
  · exact hposition
  · intro i layer hlayer
    cases hlayers layer (List.mem_of_getElem? hlayer)
    constructor
    · exact (lastRows_of_le (Nat.zero_le _)).symm
    · exact (lastRows_of_le (Nat.zero_le _)).symm

theorem Holds.observed (h : runtime.Holds rows committed) (tokens : List (List feature)) :
    (runtime.observed rows tokens).Holds rows (committed ++ tokens) := by
  constructor
  · rw [List.length_append, ← h.position_eq]
    rfl
  · intro i layer hlayer
    rw [getElem?_observed] at hlayer
    rcases Option.map_eq_some_iff.mp hlayer with ⟨before, hbefore, rfl⟩
    have hrows := h.layers i before hbefore
    have hfits := h.fits before (List.mem_of_getElem? hbefore)
    rw [DflashLayerCache.observe_eq rows i hfits, rowsFrom_append, rowsFrom_append, Nat.zero_add,
      ← h.position_eq]
    dsimp only
    rw [hrows.1, hrows.2, lastRows_append, lastRows_append]
    exact ⟨rfl, rfl⟩

theorem Run.holds {loaded : MuseDflashRuntime row} (hposition : loaded.position = 0)
    (hlayers : forall layer, layer ∈ loaded.layerCache -> layer = ⟨[], []⟩)
    (hwindow : loaded.blockSize <= loaded.windowSize) (h : Run rows loaded committed runtime) :
    runtime.Holds rows committed ∧ runtime.windowSize = loaded.windowSize ∧
      runtime.blockSize = loaded.blockSize := by
  induction h with
  | loaded => exact ⟨Holds.empty rows hposition hlayers, rfl, rfl⟩
  | @cleared committed runtime _ ih =>
    refine ⟨Holds.empty rows rfl ?_, ih.2⟩
    intro layer hlayer
    rcases List.mem_map.mp hlayer with ⟨_, _, heq⟩
    exact heq.symm
  | observed _ hcall ih =>
    cases observeTargetBatch_eq_ok hcall
    exact ⟨ih.1.observed _, ih.2⟩
  | round _ htotal hcall ih =>
    rw [retainVerifiedPrefix_observeAll _ _ _ _ ih.1.fits
      (by rw [ih.2.1, ih.2.2]; exact hwindow) htotal] at hcall
    cases observeTargetBatch_eq_ok hcall
    exact ⟨ih.1.observed _, ih.2⟩
  | @sequenceRestored committed other runtime captured after _ _ hcall ih ihCaptured =>
    unfold restoreSequenceState at hcall
    split at hcall
    · cases hcall
    · cases hcall
      have hsize : runtime.windowSize = captured.windowSize := ih.2.1.trans ihCaptured.2.1.symm
      refine ⟨⟨ihCaptured.1.position_eq, ?_⟩, ih.2⟩
      intro i layer hlayer
      dsimp only
      rw [hsize]
      exact ihCaptured.1.layers i layer hlayer

theorem museDflash_exact (rows : RowModel feature row) :
    (forall runtime : MuseDflashRuntime row, runtime.Fits ->
      runtime.blockSize <= runtime.windowSize ->
      forall calls : List (ObserveCall feature), totalTokens calls <= runtime.blockSize ->
        (observeAll rows runtime calls).restoreCheckpoint runtime.checkpoint = .ok runtime ∧
        forall (features : List feature) (tokenCount : Nat),
          (observeAll rows runtime calls).retainVerifiedPrefix rows runtime.checkpoint features
              tokenCount = runtime.observeTargetBatch rows features tokenCount runtime.position) ∧
    (forall loaded : MuseDflashRuntime row, loaded.position = 0 ->
      (forall layer, layer ∈ loaded.layerCache -> layer = ⟨[], []⟩) ->
      loaded.blockSize <= loaded.windowSize ->
      forall committed runtime, Run rows loaded committed runtime ->
        runtime.Fits ∧ runtime.blockSize <= runtime.windowSize ∧
          runtime.Holds rows committed) := by
  constructor
  · intro runtime hfits hwindow calls htotal
    constructor
    · exact restoreCheckpoint_observeAll rows calls hfits hwindow htotal
    · intro features tokenCount
      exact retainVerifiedPrefix_observeAll rows calls features tokenCount hfits hwindow htotal
  · intro loaded hposition hlayers hwindow committed runtime hrun
    have hholds := hrun.holds hposition hlayers hwindow
    refine ⟨hholds.1.fits, ?_, hholds.1⟩
    rw [hholds.2.1, hholds.2.2]
    exact hwindow

def shownRows : RowModel Nat (List Nat) where
  key := fun layer token position => layer :: position :: token
  value := fun layer token position => layer :: position :: token

def fullRuntime : MuseDflashRuntime (List Nat) where
  layerCache := [⟨[[0, 0, 7], [0, 1, 8], [0, 2, 9]], [[0, 0, 7], [0, 1, 8], [0, 2, 9]]⟩]
  hiddenDim := 1
  targetLayers := [2]
  maxSeqLen := 16
  windowSize := 3
  blockSize := 2
  position := 3

theorem museDflash_exact_full :
    (observeAll shownRows fullRuntime [⟨[4, 5], 2, 3⟩]).restoreCheckpoint fullRuntime.checkpoint =
        .ok fullRuntime ∧
      forall (features : List Nat) (tokenCount : Nat),
        (observeAll shownRows fullRuntime [⟨[4, 5], 2, 3⟩]).retainVerifiedPrefix shownRows
            fullRuntime.checkpoint features tokenCount =
          fullRuntime.observeTargetBatch shownRows features tokenCount fullRuntime.position := by
  apply (museDflash_exact shownRows).1 fullRuntime
  · intro layer hlayer
    cases List.mem_singleton.mp hlayer
    exact ⟨rfl, Nat.le_refl 3⟩
  · decide
  · decide

end MuseDflashRuntime

end Inference
end RunNBurn
