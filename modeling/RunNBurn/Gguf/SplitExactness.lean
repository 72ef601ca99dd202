import RunNBurn.Gguf.MappedTensors
import RunNBurn.Gguf.ShardNames

/-!
# Models in shards

What the loop over the shards reads: each file with its three split keys, the maps of its
tensors, and the maps of all shards in one.
-/

namespace RunNBurn
namespace Gguf

open Library
open Library.KeyedMap

/-!
# Maps of one file
-/

theorem yields_splitError {alpha : Type} (post : alpha -> Prop) (msg : String) :
    Yields post (splitError msg) :=
  True.intro

theorem ofTensors_mapTensors (gguf : GGUFFile) (mmap : FileMmapStorage) :
    Yields TensorMaps.OfTensors (mapTensors gguf mmap) := by
  unfold mapTensors
  split
  · exact yields_parseFailure _ _ _
  · apply yields_foldlM (fun _ => TensorMaps.OfTensors)
    · exact TensorMaps.ofTensors_empty
    · intro _ info _ maps _ h
      apply Yields.mono (yields_mapTensor gguf mmap maps info)
      intro next hnext
      rcases hnext with ⟨tensor, _, _, _, hput⟩
      rw [hput]
      exact h.put info tensor _

/-!
# One shard
-/

structure Shard where
  mmap : FileMmapStorage
  gguf : GGUFFile
  maps : TensorMaps

/-- The file at the path is one of so many shards with so many tensors in all. -/
structure IsShard (fs : FileSystem) (path : FilePath) (no count tensors : Nat)
    (shard : Shard) : Prop where
  read : readShard fs path = .ok (shard.mmap, shard.gguf)
  no : splitValue shard.gguf.metadata SPLIT_NO_KEY = .ok (some no)
  count : splitValue shard.gguf.metadata SPLIT_COUNT_KEY = .ok (some count)
  tensors : splitValue shard.gguf.metadata SPLIT_TENSORS_COUNT_KEY = .ok (some tensors)
  maps : mapTensors shard.gguf shard.mmap = .ok shard.maps

theorem IsShard.ofTensors {fs : FileSystem} {path : FilePath} {no count tensors : Nat}
    {shard : Shard} (h : IsShard fs path no count tensors shard) :
    shard.maps.OfTensors :=
  (ofTensors_mapTensors shard.gguf shard.mmap).post_of_eq_ok h.maps

theorem readShard_ne_panic (fs : FileSystem) (path : FilePath) :
    readShard fs path ≠ .error .panic := by
  unfold readShard
  cases fs path with
  | none =>
    intro h
    cases h
  | some bytes =>
    dsimp only
    cases hparse : parse bytes with
    | ok gguf =>
      intro h
      cases h
    | error stop =>
      cases stop with
      | panic => exact absurd hparse (parse_ne_panic bytes)
      | fail fault =>
        intro h
        cases h

theorem splitValue_ne_panic (metadata : List (String × GGUFValue)) (key : String) :
    splitValue metadata key ≠ .error .panic := by
  unfold splitValue
  split
  · intro h
    cases h
  · split
    · intro h
      cases h
    · intro h
      cases h

theorem asUsize_lt {value : GGUFValue} {n : Nat} (h : asUsize value = some n) :
    n < usizeLimit := by
  have hlimit : usizeLimit = 18446744073709551616 := by
    decide
  rw [hlimit]
  cases value with
  | u8 v =>
    cases h
    have := v.toNat_lt
    omega
  | i8 v =>
    have := v.toInt_lt
    simp only [asUsize, Option.ite_none_left_eq_some, Option.some.injEq] at h
    omega
  | u16 v =>
    cases h
    have := v.toNat_lt
    omega
  | i16 v =>
    have := v.toInt_lt
    simp only [asUsize, Option.ite_none_left_eq_some, Option.some.injEq] at h
    omega
  | u32 v =>
    cases h
    have := v.toNat_lt
    omega
  | i32 v =>
    have := v.toInt_lt
    simp only [asUsize, Option.ite_none_left_eq_some, Option.some.injEq] at h
    omega
  | u64 v =>
    cases h
    exact v.toNat_lt
  | i64 v =>
    have := v.toInt_lt
    simp only [asUsize, Option.ite_none_left_eq_some, Option.some.injEq] at h
    omega
  | _ => cases h

variable {metadata : List (String × GGUFValue)}

theorem splitValue_lt {key : String} {n : Nat} (h : splitValue metadata key = .ok (some n)) :
    n < usizeLimit := by
  unfold splitValue at h
  split at h
  · cases h
  · split at h
    · rename_i value hvalue
      cases h
      exact asUsize_lt hvalue
    · cases h

theorem yields_requiredSplitValue (metadata : List (String × GGUFValue)) (key : String) :
    Yields (fun n => splitValue metadata key = .ok (some n)) (requiredSplitValue metadata key) := by
  unfold requiredSplitValue
  apply Yields.bind (Yields.of_ne_panic (splitValue_ne_panic metadata key))
  intro found hfound
  cases found with
  | none => exact yields_splitError _ _
  | some n => exact hfound

theorem requiredSplitValue_of_some {key : String} {n : Nat}
    (h : splitValue metadata key = .ok (some n)) :
    requiredSplitValue metadata key = .ok n := by
  unfold requiredSplitValue
  rw [h]
  rfl

theorem yields_splitCount (metadata : List (String × GGUFValue)) :
    Yields (fun count => splitCount metadata = .ok count ∧
        (count ≠ 1 -> splitValue metadata SPLIT_COUNT_KEY = .ok (some count)))
      (splitCount metadata) := by
  have hnever : splitCount metadata ≠ .error .panic := by
    unfold splitCount
    intro h
    cases hfound : splitValue metadata SPLIT_COUNT_KEY with
    | error stop =>
      rw [hfound] at h
      cases h
      exact splitValue_ne_panic metadata SPLIT_COUNT_KEY hfound
    | ok found =>
      rw [hfound] at h
      cases found with
      | none => cases h
      | some count =>
        cases count with
        | zero => cases h
        | succ count => cases h
  apply Yields.mono (Yields.of_ne_panic hnever)
  intro count hcount
  constructor
  · exact hcount
  · intro hne
    unfold splitCount at hcount
    rcases bind_eq_ok hcount with ⟨found, hfound, hrest⟩
    cases found with
    | none =>
      cases hrest
      exact absurd rfl hne
    | some n =>
      cases n with
      | zero => cases hrest
      | succ n =>
        cases hrest
        exact hfound

theorem splitCount_of_some {count : Nat}
    (h : splitValue metadata SPLIT_COUNT_KEY = .ok (some count)) (hpos : 0 < count) :
    splitCount metadata = .ok count := by
  unfold splitCount
  rw [h]
  cases count with
  | zero => exact absurd hpos (Nat.lt_irrefl 0)
  | succ n => rfl

theorem yields_validateShard (gguf : GGUFFile) (no count tensors : Nat) :
    Yields (fun _ => splitValue gguf.metadata SPLIT_NO_KEY = .ok (some no) ∧
        splitValue gguf.metadata SPLIT_COUNT_KEY = .ok (some count) ∧
        splitValue gguf.metadata SPLIT_TENSORS_COUNT_KEY = .ok (some tensors))
      (validateShard gguf no count tensors) := by
  unfold validateShard
  apply Yields.bind (yields_requiredSplitValue gguf.metadata SPLIT_NO_KEY)
  intro shardNo hno
  apply Yields.bind (yields_requiredSplitValue gguf.metadata SPLIT_COUNT_KEY)
  intro shardCount hcount
  apply Yields.bind (yields_requiredSplitValue gguf.metadata SPLIT_TENSORS_COUNT_KEY)
  intro shardTensors htensors
  split
  · exact yields_splitError _ _
  · rename_i hsameNo
    split
    · exact yields_splitError _ _
    · rename_i hsameCount
      split
      · exact yields_splitError _ _
      · rename_i hsameTensors
        rw [← not_not.mp hsameNo, ← not_not.mp hsameCount, ← not_not.mp hsameTensors]
        exact ⟨hno, hcount, htensors⟩

theorem IsShard.validateShard_eq {fs : FileSystem} {path : FilePath} {no count tensors : Nat}
    {shard : Shard} (h : IsShard fs path no count tensors shard) :
    validateShard shard.gguf no count tensors = .ok () := by
  unfold validateShard
  rw [requiredSplitValue_of_some h.no, requiredSplitValue_of_some h.count,
    requiredSplitValue_of_some h.tensors]
  simp [bind, Except.bind, pure, Except.pure]

/-!
# Loading a split model

The loop collects the shards of the model and nothing else, and it does so from the path
of any shard whose index is not wider than the names pad it.
-/

structure SplitModel (fs : FileSystem) (paths : List FilePath) (tensors : Nat)
    (shards : List Shard) : Prop where
  files : List.Forall₂
    (fun entry shard => IsShard fs entry.1 entry.2 paths.length tensors shard)
    paths.zipIdx shards
  apart : Apart (shards.map fun shard => shard.maps.tensors)
  total : (shards.map fun shard => shard.maps.tensors.entries.length).sum = tensors

/-- Every entry of one of the maps is in the union, which has no other. -/
def IsUnion {value : Type} (union : KeyedMap String value)
    (maps : List (KeyedMap String value)) : Prop :=
  forall name v, union.lookup name = some v ↔ exists m, m ∈ maps ∧ m.lookup name = some v

/-- The model has the metadata of the first shard and the tensors of all. -/
structure Merges (shards : List Shard) (model : MappedGguf) : Prop where
  metadata : shards.head?.map (fun shard => shard.gguf.metadata) = some model.metadata
  weights : IsUnion model.weights (shards.map fun shard => shard.maps.tensors)
  floatShapes : IsUnion model.floatShapes (shards.map fun shard => shard.maps.floatShapes)
  ggmlTypes : IsUnion model.tensorGgmlTypes (shards.map fun shard => shard.maps.ggmlTypes)
  fileOffsets : IsUnion model.tensorFileOffsets (shards.map fun shard => shard.maps.fileOffsets)
  once : model.weights.entries.length =
    (shards.map fun shard => shard.maps.tensors.entries.length).sum

/-!
# The loop
-/

def collected (shards : List Shard) : ShardMaps where
  metadata := shards.head?.map fun shard => shard.gguf.metadata
  maps := {
    tensors := unions (shards.map fun shard => shard.maps.tensors)
    floatShapes := unions (shards.map fun shard => shard.maps.floatShapes)
    ggmlTypes := unions (shards.map fun shard => shard.maps.ggmlTypes)
    fileOffsets := unions (shards.map fun shard => shard.maps.fileOffsets) }

theorem collected_append_singleton (shards : List Shard) (shard : Shard) :
    collected (shards ++ [shard]) = {
      metadata := if shards.length = 0 then some shard.gguf.metadata
        else (collected shards).metadata
      maps := (collected shards).maps.extend shard.maps } := by
  unfold collected TensorMaps.extend
  simp only [List.map_append, List.map_singleton, unions_append_singleton]
  cases shards with
  | nil => rfl
  | cons first rest => rfl

section Rounds

variable {fs : FileSystem} {selected : FileMmapStorage × GGUFFile}
variable {selectedNo count tensors : Nat}

theorem yields_takeShard {path : FilePath} {no : Nat}
    (hselected : no = selectedNo -> readShard fs path = .ok selected) :
    Yields (fun shard => readShard fs path = .ok shard)
      (takeShard fs selected selectedNo path no) := by
  unfold takeShard
  split
  · rename_i hno
    exact hselected hno
  · have hnever := readShard_ne_panic fs path
    cases hread : readShard fs path with
    | ok shard => exact rfl
    | error stop =>
      cases stop with
      | panic => exact absurd hread hnever
      | fail fault => exact yields_splitError _ _

theorem takeShard_of_read {path : FilePath} {no : Nat} {shard : FileMmapStorage × GGUFFile}
    (hselected : no = selectedNo -> readShard fs path = .ok selected)
    (hread : readShard fs path = .ok shard) :
    takeShard fs selected selectedNo path no = .ok shard := by
  unfold takeShard
  split
  · rename_i hno
    rw [← hselected hno]
    exact hread
  · rw [hread]

theorem find_repeated_eq_none {maps : KeyedMap String Tensor} {all : KeyedMap String Tensor} :
    maps.keys.find? (fun name => decide (name ∈ all)) = none ↔
      forall name, name ∈ maps -> name ∉ all := by
  rw [List.find?_eq_none]
  simp only [decide_eq_true_eq]
  rfl

theorem yields_addShard {shards : List Shard} {entry : FilePath × Nat}
    (hselected : entry.2 = selectedNo -> readShard fs entry.1 = .ok selected)
    (hno : shards.length = entry.2) :
    Yields (fun state => exists shard, IsShard fs entry.1 entry.2 count tensors shard ∧
        (forall name, name ∈ shard.maps.tensors ->
          name ∉ unions (shards.map fun other => other.maps.tensors)) ∧
        state = collected (shards ++ [shard]))
      (addShard fs selected selectedNo count tensors (collected shards) entry) := by
  unfold addShard
  apply Yields.bind (yields_takeShard hselected)
  intro taken hread
  apply Yields.bind (yields_validateShard taken.2 entry.2 count tensors)
  intro _ hkeys
  have hmaps := ofTensors_mapTensors taken.2 taken.1
  have hnever : mapTensors taken.2 taken.1 ≠ .error .panic := by
    intro hpanic
    rw [hpanic] at hmaps
    exact hmaps
  apply Yields.bind (Yields.of_ne_panic hnever)
  intro maps hmapped
  split
  · exact yields_splitError _ _
  · rename_i hrepeated
    exists {
      mmap := taken.1
      gguf := taken.2
      maps := maps }
    constructor
    · exact {
        read := hread
        no := hkeys.left
        count := hkeys.right.left
        tensors := hkeys.right.right
        maps := hmapped }
    · constructor
      · exact find_repeated_eq_none.mp hrepeated
      · rw [collected_append_singleton, hno]

theorem addShard_of_isShard {shards : List Shard} {entry : FilePath × Nat} {shard : Shard}
    (hselected : entry.2 = selectedNo -> readShard fs entry.1 = .ok selected)
    (hno : shards.length = entry.2) (hshard : IsShard fs entry.1 entry.2 count tensors shard)
    (hfresh : forall name, name ∈ shard.maps.tensors ->
      name ∉ unions (shards.map fun other => other.maps.tensors)) :
    addShard fs selected selectedNo count tensors (collected shards) entry =
      .ok (collected (shards ++ [shard])) := by
  have hnone : shard.maps.tensors.keys.find?
      (fun name => decide (name ∈ (collected shards).maps.tensors)) = none :=
    find_repeated_eq_none.mpr hfresh
  unfold addShard
  simp only [takeShard_of_read hselected hshard.read, bind, Except.bind,
    hshard.validateShard_eq, hshard.maps, hnone]
  rw [collected_append_singleton, hno]
  rfl

theorem yields_addShards {paths : List FilePath} {shards : List Shard}
    (hselected : forall entry, entry ∈ paths.zipIdx shards.length -> entry.2 = selectedNo ->
      readShard fs entry.1 = .ok selected)
    (hapart : Apart (shards.map fun shard => shard.maps.tensors)) :
    Yields (fun state => exists added,
        List.Forall₂ (fun entry shard => IsShard fs entry.1 entry.2 count tensors shard)
          (paths.zipIdx shards.length) added ∧
        Apart ((shards ++ added).map fun shard => shard.maps.tensors) ∧
        state = collected (shards ++ added))
      ((paths.zipIdx shards.length).foldlM (addShard fs selected selectedNo count tensors)
        (collected shards)) := by
  induction paths generalizing shards with
  | nil =>
    exists []
    rw [List.append_nil]
    exact ⟨List.Forall₂.nil, hapart, rfl⟩
  | cons path rest ih =>
    rw [List.zipIdx_cons] at hselected
    rw [List.zipIdx_cons, List.foldlM_cons]
    apply Yields.bind (yields_addShard (hselected _ List.mem_cons_self) rfl)
    intro state hstate
    rcases hstate with ⟨shard, hshard, hfresh, heq⟩
    have hlength : (shards ++ [shard]).length = shards.length + 1 := by
      rw [List.length_append, List.length_singleton]
    have hnext : Apart ((shards ++ [shard]).map fun other => other.maps.tensors) := by
      rw [List.map_append, List.map_singleton]
      exact apart_append_singleton.mpr ⟨hapart, hfresh⟩
    have hrest := @ih (shards ++ [shard])
    rw [hlength] at hrest
    rw [heq]
    apply Yields.mono (hrest
      (fun entry hentry => hselected entry (List.mem_cons_of_mem _ hentry)) hnext)
    intro last hlast
    rcases hlast with ⟨added, hadded, hall, hfinal⟩
    rw [List.append_assoc] at hall hfinal
    exists shard :: added
    exact ⟨List.Forall₂.cons hshard hadded, hall, hfinal⟩

theorem addShards_of_shards {paths : List FilePath} {shards added : List Shard}
    (hselected : forall entry, entry ∈ paths.zipIdx shards.length -> entry.2 = selectedNo ->
      readShard fs entry.1 = .ok selected)
    (hadded : List.Forall₂ (fun entry shard => IsShard fs entry.1 entry.2 count tensors shard)
      (paths.zipIdx shards.length) added)
    (hapart : Apart ((shards ++ added).map fun shard => shard.maps.tensors)) :
    (paths.zipIdx shards.length).foldlM (addShard fs selected selectedNo count tensors)
      (collected shards) = .ok (collected (shards ++ added)) := by
  induction paths generalizing shards added with
  | nil =>
    cases hadded
    rw [List.append_nil]
    rfl
  | cons path rest ih =>
    rw [List.zipIdx_cons] at hselected hadded
    rw [List.zipIdx_cons, List.foldlM_cons]
    cases hadded with
    | cons hshard htail =>
      rename_i shard tail
      have hlength : (shards ++ [shard]).length = shards.length + 1 := by
        rw [List.length_append, List.length_singleton]
      have hsplit : shards ++ shard :: tail = (shards ++ [shard]) ++ tail := by
        rw [List.append_assoc]
        rfl
      rw [hsplit] at hapart
      have hfirst : Apart ((shards.map fun other => other.maps.tensors) ++
          [shard.maps.tensors]) := by
        rw [List.map_append] at hapart
        have hearlier := (List.pairwise_append.mp hapart).left
        rw [List.map_append] at hearlier
        exact hearlier
      have hrest := @ih (shards ++ [shard]) tail
      rw [hlength] at hrest
      rw [addShard_of_isShard (hselected _ List.mem_cons_self) rfl hshard
        (apart_append_singleton.mp hfirst).right, hsplit]
      exact hrest (fun entry hentry => hselected entry (List.mem_cons_of_mem _ hentry)) htail hapart

end Rounds

/-!
# The model of all shards
-/

def IsSingle (fs : FileSystem) (path : FilePath) : Prop :=
  exists selected, readShard fs path = .ok selected ∧ splitCount selected.2.metadata = .ok 1

theorem loadMappedGguf_of_single {fs : FileSystem} {path : FilePath}
    {selected : FileMmapStorage × GGUFFile} (hread : readShard fs path = .ok selected)
    (hcount : splitCount selected.2.metadata = .ok 1) :
    loadMappedGguf fs path = mapSingleShard selected := by
  unfold loadMappedGguf
  rw [hread]
  simp only [bind, Except.bind, hcount, if_pos]

def merged (metadata : List (String × GGUFValue)) (shards : List Shard) : MappedGguf where
  metadata := metadata
  weights := (collected shards).maps.tensors
  floatShapes := (collected shards).maps.floatShapes
  tensorGgmlTypes := (collected shards).maps.ggmlTypes
  tensorFileOffsets := (collected shards).maps.fileOffsets

theorem IsShard.mapSingleShard_eq {fs : FileSystem} {path : FilePath} {no count tensors : Nat}
    {shard : Shard} (h : IsShard fs path no count tensors shard) :
    mapSingleShard (shard.mmap, shard.gguf) = .ok (merged shard.gguf.metadata [shard]) := by
  unfold mapSingleShard
  simp only [h.maps, bind, Except.bind]
  unfold merged collected unions
  simp only [List.map_singleton, List.foldl_cons, List.foldl_nil, AList.union_empty]
  rfl

section Models

variable {fs : FileSystem} {paths : List FilePath} {tensors : Nat} {shards : List Shard}

section

variable (h : SplitModel fs paths tensors shards)
include h

theorem SplitModel.ofTensors {shard : Shard} (hshard : shard ∈ shards) :
    shard.maps.OfTensors := by
  rcases exists_of_mem_of_forall₂ h.files.flip hshard with ⟨entry, _, hentry⟩
  exact hentry.ofTensors

theorem SplitModel.exists_shard {no : Nat} {path : FilePath} (hpath : paths[no]? = some path) :
    exists shard, IsShard fs path no paths.length tensors shard := by
  rcases exists_of_mem_of_forall₂ h.files (List.mk_mem_zipIdx_iff_getElem?.mpr hpath) with
    ⟨shard, _, hshard⟩
  exact Exists.intro shard hshard

theorem SplitModel.merges {metadata : List (String × GGUFValue)}
    (hmetadata : shards.head?.map (fun shard => shard.gguf.metadata) = some metadata) :
    Merges shards (merged metadata shards) where
  metadata := hmetadata
  weights := lookup_unions h.apart
  floatShapes := lookup_unions
    (apart_map (fun _ hshard => (h.ofTensors hshard).floatShapes) h.apart)
  ggmlTypes := lookup_unions
    (apart_map (fun _ hshard => (h.ofTensors hshard).ggmlTypes) h.apart)
  fileOffsets := lookup_unions
    (apart_map (fun _ hshard => (h.ofTensors hshard).fileOffsets) h.apart)
  once := by
    show (unions (shards.map fun shard => shard.maps.tensors)).entries.length = _
    rw [length_unions h.apart, List.map_map]
    rfl

theorem SplitModel.length_tensors :
    (collected shards).maps.tensors.entries.length = tensors := by
  show (unions (shards.map fun shard => shard.maps.tensors)).entries.length = _
  rw [length_unions h.apart, List.map_map]
  exact h.total

end

theorem loadMappedGguf_of_splitModel {path : FilePath} {no : Nat}
    {metadata : List (String × GGUFValue)} (h : SplitModel fs paths tensors shards)
    (hmetadata : shards.head?.map (fun shard => shard.gguf.metadata) = some metadata)
    (hpath : paths[no]? = some path)
    (hresolve : resolveShardPaths path no paths.length = .ok paths) :
    loadMappedGguf fs path = .ok (merged metadata shards) := by
  have hno : no < paths.length := (List.getElem?_eq_some_iff.mp hpath).1
  rcases h.exists_shard hpath with ⟨selected, hshard⟩
  have hcount : splitCount selected.gguf.metadata = .ok paths.length :=
    splitCount_of_some hshard.count (Nat.lt_of_le_of_lt (Nat.zero_le no) hno)
  have hselected : forall entry, entry ∈ paths.zipIdx ([] : List Shard).length ->
      entry.2 = no -> readShard fs entry.1 = .ok (selected.mmap, selected.gguf) := by
    intro entry hentry hsame
    have hat : paths[entry.2]? = some entry.1 := List.mk_mem_zipIdx_iff_getElem?.mp hentry
    rw [hsame, hpath] at hat
    cases hat
    exact hshard.read
  by_cases hsingle : paths.length = 1
  · -- the only file is mapped without the checks of the loop
    rw [hsingle] at hcount
    rw [loadMappedGguf_of_single hshard.read hcount]
    rcases List.length_eq_one_iff.mp hsingle with ⟨only, honly⟩
    have hfiles := h.files
    rw [honly] at hfiles hpath
    have honlyPath : only = path := by
      rw [hsingle] at hno
      rw [Nat.lt_one_iff.mp hno] at hpath
      exact Option.some.inj hpath
    cases hfiles with
    | cons hfirst hnone =>
      rename_i first none
      cases hnone
      cases hmetadata
      have hsame := hfirst.read
      rw [honlyPath, hshard.read] at hsame
      rw [Except.ok.inj hsame]
      exact hfirst.mapSingleShard_eq
  · have hloop := @addShards_of_shards fs (selected.mmap, selected.gguf) no paths.length tensors
      paths [] shards hselected h.files h.apart
    rw [List.nil_append] at hloop
    unfold loadMappedGguf
    rw [hshard.read]
    simp only [bind, Except.bind, hcount, if_neg hsingle, requiredSplitValue_of_some hshard.no,
      requiredSplitValue_of_some hshard.tensors, if_neg (Nat.not_le.mpr hno), hresolve]
    have hstart : collected [] = {
        metadata := none
        maps := TensorMaps.empty } := rfl
    rw [List.length_nil, hstart] at hloop
    rw [hloop]
    have hmetadataOf : (collected shards).metadata = some metadata := hmetadata
    simp only [h.length_tensors, ne_eq, not_true, if_false, hmetadataOf]
    rfl

end Models

theorem yields_mapSingleShard {post : MappedGguf -> Prop} (shard : FileMmapStorage × GGUFFile)
    (h : forall model, post model) :
    Yields post (mapSingleShard shard) := by
  unfold mapSingleShard
  apply Yields.bind (ofTensors_mapTensors shard.2 shard.1)
  intro maps _
  exact h _

theorem yields_loadMappedGguf (fs : FileSystem) (path : FilePath) :
    Yields (fun _ => IsSingle fs path ∨ exists no paths tensors shards,
        no < paths.length ∧ resolveShardPaths path no paths.length = .ok paths ∧
        SplitModel fs paths tensors shards)
      (loadMappedGguf fs path) := by
  unfold loadMappedGguf
  apply Yields.bind (Yields.of_ne_panic (readShard_ne_panic fs path))
  intro selected hread
  apply Yields.bind (yields_splitCount selected.2.metadata)
  intro count hcount
  split
  · rename_i hone
    apply yields_mapSingleShard
    intro _
    rw [hone] at hcount
    exact Or.inl (Exists.intro selected ⟨hread, hcount.left⟩)
  · apply Yields.bind (yields_requiredSplitValue selected.2.metadata SPLIT_NO_KEY)
    intro selectedNo _
    split
    · exact yields_splitError _ _
    · rename_i hinside
      have hno : selectedNo < count := Nat.not_le.mp hinside
      apply Yields.bind (yields_requiredSplitValue selected.2.metadata SPLIT_TENSORS_COUNT_KEY)
      intro expected _
      apply Yields.bind (Yields.of_ne_panic (resolveShardPaths_ne_panic path selectedNo count))
      intro paths hresolve
      rcases resolveShardPaths_selected hresolve hno with ⟨hlength, hpath⟩
      have hselected : forall entry, entry ∈ paths.zipIdx ([] : List Shard).length ->
          entry.2 = selectedNo -> readShard fs entry.1 = .ok selected := by
        intro entry hentry hsame
        have hat : paths[entry.2]? = some entry.1 := List.mk_mem_zipIdx_iff_getElem?.mp hentry
        rw [hsame, hpath] at hat
        cases hat
        exact hread
      have hloop := @yields_addShards fs selected selectedNo count expected paths []
        hselected apart_nil
      apply Yields.bind hloop
      intro state hstate
      rcases hstate with ⟨shards, hfiles, hapart, heq⟩
      rw [List.nil_append] at hapart heq
      split
      · exact yields_splitError _ _
      · rename_i htotal
        rw [← hlength] at hfiles hresolve hno
        have hmodel : SplitModel fs paths expected shards := {
          files := hfiles
          apart := hapart
          total := by
            rw [heq] at htotal
            rw [← not_not.mp htotal]
            show _ = (unions (shards.map fun shard => shard.maps.tensors)).entries.length
            rw [length_unions hapart, List.map_map]
            rfl }
        split
        · rename_i hnone
          rw [heq] at hnone
          cases shards with
          | nil =>
            have hempty := hfiles.length_eq
            rw [List.length_zipIdx, List.length_nil] at hempty
            rw [hempty] at hno
            exact absurd hno (Nat.not_lt_zero selectedNo)
          | cons first rest => cases hnone
        · apply Or.inr
          exists selectedNo, paths, expected, shards

end Gguf
end RunNBurn
