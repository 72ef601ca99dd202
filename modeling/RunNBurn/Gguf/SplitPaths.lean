import RunNBurn.Gguf.SplitExactness

/-!
# Paths of a split model

The paths of the shards differ in their index only, and the loader finds all of them from
one whose index is not wider than the names pad it.
-/

namespace RunNBurn
namespace Gguf

open Library
open Library.KeyedMap

/-!
# Every path of a model
-/

def shardPaths (parent : List Text) (stem : Text) (indexWidth countWidth count : Nat) :
    List FilePath :=
  (List.range count).map fun no => shardPath parent stem indexWidth countWidth (no + 1) count

/-- The index of the shard is not wider than the names pad it. -/
def Padded (indexWidth no : Nat) : Prop :=
  (zeroPadded indexWidth (no + 1)).length = (zeroPadded indexWidth 1).length

instance (indexWidth no : Nat) : Decidable (Padded indexWidth no) :=
  inferInstanceAs (Decidable (_ = _))

theorem zeroPadded_of_padded {indexWidth no : Nat} (h : Padded indexWidth no) (n : Nat) :
    zeroPadded (zeroPadded indexWidth (no + 1)).length n = zeroPadded indexWidth n := by
  have hone : (Nat.toDigits 10 1).length = 1 := by
    decide
  have hpos : 0 < (Nat.toDigits 10 n).length :=
    List.length_pos_of_ne_nil Nat.toDigits_ne_nil
  have hpad : max indexWidth 1 - (Nat.toDigits 10 n).length =
      indexWidth - (Nat.toDigits 10 n).length := by
    omega
  unfold Padded at h
  rw [h, length_zeroPadded, hone]
  unfold zeroPadded
  rw [hpad]

section Paths

variable {parent : List Text} {stem : Text} {indexWidth countWidth no count : Nat}

theorem length_shardPaths :
    (shardPaths parent stem indexWidth countWidth count).length = count := by
  unfold shardPaths
  rw [List.length_map, List.length_range]

theorem getElem?_shardPaths (hno : no < count) :
    (shardPaths parent stem indexWidth countWidth count)[no]? =
      some (shardPath parent stem indexWidth countWidth (no + 1) count) := by
  unfold shardPaths
  rw [List.getElem?_map, List.getElem?_range hno]
  rfl

theorem shardPaths_of_padded (h : Padded indexWidth no) :
    ((List.range count).map fun other =>
      shardPath parent stem (zeroPadded indexWidth (no + 1)).length countWidth (other + 1) count) =
    shardPaths parent stem indexWidth countWidth count := by
  unfold shardPaths shardPath shardName
  apply List.map_congr_left
  intro other _
  rw [zeroPadded_of_padded h]

theorem resolveShardPaths_unique {otherNo otherCount : Nat} {paths : List FilePath}
    (hstem : stem ≠ []) (hpadded : Padded indexWidth no)
    (h : resolveShardPaths (shardPath parent stem indexWidth countWidth (no + 1) count)
      otherNo otherCount = .ok paths) :
    otherNo = no ∧ otherCount = count ∧
      paths = shardPaths parent stem indexWidth countWidth count := by
  rcases resolveShardPaths_eq_ok h with ⟨otherStem, otherIndex, otherWidth, hother, hpath, hwidth,
    hpaths⟩
  have hname : FileName.text (joinName stem (zeroPadded indexWidth (no + 1))
        (zeroPadded countWidth count)) =
      .text (joinName otherStem (zeroPadded otherIndex (otherNo + 1))
        (zeroPadded otherWidth otherCount)) :=
    congrArg FilePath.fileName hpath
  have hparts := splitName_joinName
    (nameParts_zeroPadded hstem indexWidth countWidth (no + 1) count)
  rw [hname, splitName_joinName
    (nameParts_zeroPadded hother otherIndex otherWidth (otherNo + 1) otherCount)] at hparts
  have hsame := Except.ok.inj hparts
  have hindex : zeroPadded otherIndex (otherNo + 1) = zeroPadded indexWidth (no + 1) :=
    congrArg (fun parts => parts.2.1) hsame
  have hcount : zeroPadded otherWidth otherCount = zeroPadded countWidth count :=
    congrArg (fun parts => parts.2.2) hsame
  have hstemEq : otherStem = stem := congrArg Prod.fst hsame
  have hnoEq : otherNo + 1 = no + 1 := by
    rw [← decimalValue_zeroPadded otherIndex (otherNo + 1), hindex, decimalValue_zeroPadded]
  have hcountEq : otherCount = count := by
    rw [← decimalValue_zeroPadded otherWidth otherCount, hcount, decimalValue_zeroPadded]
  constructor
  · exact Nat.succ.inj hnoEq
  · constructor
    · exact hcountEq
    · rw [hcountEq] at hcount hpaths
      rw [hindex] at hwidth
      rw [hpaths, ← shardPaths_of_padded hpadded, ← hwidth]
      apply List.map_congr_left
      intro other _
      unfold shardPath shardName
      rw [hcount, hstemEq]

theorem SplitModel.loads {fs : FileSystem} {tensors : Nat} {shards : List Shard}
    (hmodel : SplitModel fs (shardPaths parent stem indexWidth countWidth count) tensors shards)
    (hstem : stem ≠ []) (hpos : 0 < count) :
    exists model, Merges shards model ∧ forall no, no < count -> Padded indexWidth no ->
      loadMappedGguf fs (shardPath parent stem indexWidth countWidth (no + 1) count) =
        .ok model := by
  have hfirst : 0 < shards.length := by
    rw [← hmodel.files.length_eq, List.length_zipIdx, length_shardPaths]
    exact hpos
  cases shards with
  | nil => exact absurd hfirst (Nat.lt_irrefl 0)
  | cons first rest =>
    exists merged first.gguf.metadata (first :: rest)
    constructor
    · exact hmodel.merges rfl
    · intro no hno hpadded
      rcases hmodel.exists_shard (getElem?_shardPaths hno) with ⟨shard, hshard⟩
      have hlimit := splitValue_lt hshard.count
      rw [length_shardPaths] at hlimit
      apply loadMappedGguf_of_splitModel hmodel rfl (getElem?_shardPaths hno)
      rw [length_shardPaths, resolveShardPaths_shardPath hstem hno hlimit,
        shardPaths_of_padded hpadded]

theorem loadMappedGguf_fails {fs : FileSystem} (hstem : stem ≠ []) (hpadded : Padded indexWidth no)
    (hnone : forall tensors shards,
      ¬ SplitModel fs (shardPaths parent stem indexWidth countWidth count) tensors shards)
    (hsplit : ¬ IsSingle fs (shardPath parent stem indexWidth countWidth (no + 1) count)) :
    exists fault, loadMappedGguf fs (shardPath parent stem indexWidth countWidth (no + 1) count) =
      .error (.fail fault) := by
  apply (yields_loadMappedGguf fs _).exists_fail
  intro _ hloaded
  rcases hloaded with hsingle | ⟨otherNo, paths, tensors, shards, _, hresolve, hmodel⟩
  · exact hsplit hsingle
  · rcases resolveShardPaths_unique hstem hpadded hresolve with ⟨_, _, hpaths⟩
    rw [hpaths] at hmodel
    exact hnone tensors shards hmodel

end Paths

/-!
# Shards with one tensor
-/

def smallName (no : Nat) : String :=
  String.singleton (Char.ofNat (97 + no))

/-- Shard `no` of `count`, with one number under a name of its own. -/
def smallShard (count tensors no : Nat) : GGUFFile :=
  { version := 3
    metadata := [("split.no", .u64 (UInt64.ofNat no)), ("split.count", .u64 (UInt64.ofNat count)),
      ("split.tensors.count", .u64 (UInt64.ofNat tensors))]
    tensorInfos := [⟨smallName no, [1], .F32, 0⟩]
    dataStart := 160
    alignment := 32 }

def smallShardBytes (count tensors no : Nat) : List UInt8 :=
  encodeFile (smallShard count tensors no) ++ ([0, 0, 0, 0, 0] ++ [1, 2, 3, 4])

def smallFiles (stem : Text) (width count tensors : Nat) : FileSystem :=
  fun path => ((List.range count).find? fun no =>
    path = shardPath [] stem width width (no + 1) count).map (smallShardBytes count tensors)

theorem smallShard_fitsLimits (count tensors no : Nat) (entry : String × GGUFValue)
    (h : entry ∈ (smallShard count tensors no).metadata) :
    FitsLimits (MAX_ARRAY_NESTING + 1) entry.2 := by
  simp only [smallShard, List.mem_cons, List.not_mem_nil, or_false] at h
  rcases h with h | h | h <;> rw [h] <;> trivial

variable {count tensors no : Nat}

theorem smallShard_wellFormed (hno : no < 10) :
    (smallShard count tensors no).WellFormed := by
  have hkeys : (smallShard count tensors no).metadata.map Prod.fst =
      ["split.no", "split.count", "split.tensors.count"] := rfl
  constructor
  · show 3 ∈ SUPPORTED_VERSIONS
    decide
  · rw [hkeys]
    decide
  · intro entry h
    have hkey : entry.1 ∈ ["split.no", "split.count", "split.tensors.count"] := by
      rw [← hkeys]
      exact List.mem_map_of_mem h
    generalize entry.1 = key at hkey
    revert key
    decide
  · rfl
  · exact List.nodup_singleton _
  · intro info h
    rw [List.mem_singleton.mp h]
    have hname : (smallName no).utf8ByteSize < MAX_TENSOR_NAME_LENGTH := by
      interval_cases no <;> decide
    have hdims : forall dim, dim ∈ [1] -> dim < usizeLimit := by
      decide
    exact {
      name := hname
      dimensions := Nat.le_of_ble_eq_true rfl
      dims := hdims
      aligned := Nat.dvd_zero 32 }

theorem encodeFile_smallShard_length (hno : no < 10) :
    (encodeFile (smallShard count tensors no)).length = 155 := by
  have hname : (utf8Bytes (smallName no)).length = 1 := by
    interval_cases no <;> decide
  have hkeys : (utf8Bytes "split.no").length = 8 ∧ (utf8Bytes "split.count").length = 11 ∧
      (utf8Bytes "split.tensors.count").length = 19 := by
    decide
  rcases hkeys with ⟨hnoKey, hcountKey, htensorsKey⟩
  unfold encodeFile
  rw [List.length_append, countsLayout_length]
  simp [smallShard, encodeEntry, encodeValue, scalarLayout, tensorLayout, dimsLayout, stringLayout,
    leBytes_length, hname, hnoKey, hcountKey, htensorsKey]

theorem parse_smallShardBytes (hno : no < 10) :
    parse (smallShardBytes count tensors no) = .ok (smallShard count tensors no) := by
  have hlength : (encodeFile (smallShard count tensors no)).length = 155 :=
    encodeFile_smallShard_length hno
  have hpadding : FirstAligned (smallShard count tensors no).alignment
      (encodeFile (smallShard count tensors no)).length
      ((encodeFile (smallShard count tensors no)).length +
        [(0 : UInt8), 0, 0, 0, 0].length) := by
    rw [hlength]
    exact firstAligned_padding (by decide : (32 : Nat) ≠ 0) 155
  have hlimit : (encodeFile (smallShard count tensors no) ++
      ([0, 0, 0, 0, 0] ++ [1, 2, 3, 4])).length < usizeLimit := by
    rw [List.length_append, hlength]
    decide
  unfold smallShardBytes
  rw [parse_of_encoding (smallShard_wellFormed hno)
    (encodes_encodeFile (smallShard_fitsLimits count tensors no)) hpadding hlimit, hlength]
  rfl

theorem smallShardBytes_length (hno : no < 10) :
    (smallShardBytes count tensors no).length = 164 := by
  unfold smallShardBytes
  rw [List.length_append, encodeFile_smallShard_length hno]
  rfl

def smallMaps (mmap : FileMmapStorage) (no : Nat) : TensorMaps where
  tensors := (∅ : KeyedMap String Tensor).insert (smallName no) {
    storage := mmap
    shape := [1]
    strides := [1]
    offset := 40
    dtype := .F32 }
  floatShapes := ∅
  ggmlTypes := (∅ : KeyedMap String GGMLType).insert
    (smallName no) .F32
  fileOffsets := (∅ : KeyedMap String Nat).insert (smallName no) 160

theorem mapTensors_smallShard {mmap : FileMmapStorage} (hlength : mmap.bytes.length = 164) :
    mapTensors (smallShard count tensors no) mmap = .ok (smallMaps mmap no) := by
  have halignment : ¬ isPowerOfTwo (smallShard count tensors no).alignment = false := by
    show ¬ isPowerOfTwo 32 = false
    decide
  have hbytes : tensorBytes (smallShard count tensors no)
      ⟨smallName no, [1], .F32, 0⟩ = .ok 4 := by
    simp [tensorBytes, checkedTensorSize, ggmlQuantParams, checkedUsize, usizeLimit]
  have hfits : ¬ 164 > mmap.bytes.length := by
    rw [hlength]
    decide
  unfold mapTensors
  rw [if_neg halignment]
  show List.foldlM (mapTensor (smallShard count tensors no) mmap) TensorMaps.empty
    [⟨smallName no, [1], .F32, 0⟩] = _
  rw [List.foldlM_cons]
  unfold mapTensor
  rw [hbytes]
  show (if 164 > mmap.bytes.length then _ else _) >>= _ = _
  rw [if_neg hfits]
  simp [ggmlTypeToDtype, Tensor.fromMmap, Tensors.computeStrides, DType.sizeBytes,
    smallMaps, smallShard, bind, Except.bind, pure, Except.pure, TensorMaps.empty]

def Distinct (stem : Text) (width count : Nat) : Prop :=
  forall no, no < count -> (List.range count).find? (fun other =>
    shardPath [] stem width width (no + 1) count =
      shardPath [] stem width width (other + 1) count) = some no

theorem smallFiles_eq {stem : Text} {width count no : Nat} (tensors : Nat)
    (hdistinct : Distinct stem width count) (hno : no < count) :
    smallFiles stem width count tensors (shardPath [] stem width width (no + 1) count) =
      some (smallShardBytes count tensors no) := by
  unfold smallFiles
  rw [hdistinct no hno]
  rfl

def smallLoaded (stem : Text) (width count tensors no : Nat) : Shard where
  mmap := {
    path := shardPath [] stem width width (no + 1) count
    bytes := smallShardBytes count tensors no }
  gguf := smallShard count tensors no
  maps := smallMaps {
    path := shardPath [] stem width width (no + 1) count
    bytes := smallShardBytes count tensors no } no

variable {fs : FileSystem}

theorem isShard_smallLoaded {stem : Text} {width count tensors no : Nat} (hno : no < 10)
    (hcount : count < usizeLimit) (htensors : tensors < usizeLimit)
    (hfile : fs (shardPath [] stem width width (no + 1) count) =
      some (smallShardBytes count tensors no)) :
    IsShard fs (shardPath [] stem width width (no + 1) count) no count tensors
      (smallLoaded stem width count tensors no) := by
  have hvalue : forall n, n < usizeLimit -> (UInt64.ofNat n).toNat = n := by
    intro n hn
    exact UInt64.toNat_ofNat_of_lt hn
  constructor
  · unfold readShard
    rw [hfile]
    dsimp only
    rw [parse_smallShardBytes hno]
    rfl
  · show Except.ok (some (UInt64.ofNat no).toNat) = _
    rw [hvalue no (Nat.lt_trans hno (by decide))]
  · show Except.ok (some (UInt64.ofNat count).toNat) = _
    rw [hvalue count hcount]
  · show Except.ok (some (UInt64.ofNat tensors).toNat) = _
    rw [hvalue tensors htensors]
  · exact mapTensors_smallShard (smallShardBytes_length hno)

theorem splitModel_smallFiles {stem : Text} {width count : Nat}
    (hcount : count <= 10) (hdistinct : Distinct stem width count)
    (hnames : ((List.range count).map smallName).Nodup) :
    SplitModel (smallFiles stem width count count) (shardPaths [] stem width width count) count
      ((List.range count).map (smallLoaded stem width count count)) := by
  have hlimit : count < usizeLimit := Nat.lt_of_le_of_lt hcount (by decide)
  constructor
  · have hentries : (shardPaths [] stem width width count).zipIdx =
        (List.range count).map fun no => (shardPath [] stem width width (no + 1) count, no) := by
      unfold shardPaths
      rw [List.zipIdx_map, List.zipIdx_eq_zip_range', List.length_range, ← List.range_eq_range',
        List.zip_eq_zipWith, List.zipWith_self, List.map_map]
      rfl
    rw [hentries, length_shardPaths, List.forall₂_map_left_iff, List.forall₂_map_right_iff]
    apply forall₂_same
    intro no hno
    have hlt : no < count := List.mem_range.mp hno
    exact isShard_smallLoaded (Nat.lt_of_lt_of_le hlt hcount) hlimit hlimit
      (smallFiles_eq count hdistinct hlt)
  · unfold Apart
    rw [List.map_map, List.pairwise_map]
    unfold List.Nodup at hnames
    rw [List.pairwise_map] at hnames
    apply List.Pairwise.imp _ hnames
    intro a b hne k hka hkb
    rcases (AList.mem_insert _).mp hka with hfirst | hnone
    · rcases (AList.mem_insert _).mp hkb with hsecond | hnone
      · exact hne (hfirst.symm.trans hsecond)
      · exact AList.notMem_empty k hnone
    · exact AList.notMem_empty k hnone
  · rw [List.map_map]
    show ((List.range count).map fun _ => 1).sum = count
    rw [List.map_const', List.sum_replicate_nat, List.length_range, Nat.mul_one]

theorem distinct_two : Distinct ['m'] 1 2 := by
  intro no hno
  interval_cases no <;> decide

theorem distinct_ten : Distinct ['m'] 1 10 := by
  intro no hno
  interval_cases no <;> decide

theorem IsShard.unique {path : FilePath} {no count tensors : Nat}
    {otherNo otherCount otherTensors : Nat} {shard other : Shard}
    (h : IsShard fs path no count tensors shard)
    (hother : IsShard fs path otherNo otherCount otherTensors other) :
    shard = other := by
  have hread := hother.read
  have hmaps := hother.maps
  rw [h.read] at hread
  cases shard with
  | mk mmap gguf maps =>
    cases other with
    | mk otherMmap otherGguf otherMaps =>
      cases hread
      rw [h.maps] at hmaps
      cases hmaps
      rfl

theorem not_isSingle {path : FilePath} {no count tensors : Nat} {shard : Shard}
    (h : IsShard fs path no count tensors shard) (hcount : 1 < count) :
    ¬ IsSingle fs path := by
  intro hsingle
  rcases hsingle with ⟨selected, hread, hone⟩
  rw [h.read] at hread
  cases hread
  rw [splitCount_of_some h.count (Nat.lt_trans Nat.zero_lt_one hcount)] at hone
  cases hone
  exact Nat.lt_irrefl 1 hcount

theorem smallModel_ten :
    SplitModel (smallFiles ['m'] 1 10 10) (shardPaths [] ['m'] 1 1 10) 10
      ((List.range 10).map (smallLoaded ['m'] 1 10 10)) :=
  splitModel_smallFiles (by decide) distinct_ten (by decide)

theorem smallModel_ten_last :
    exists fault, loadMappedGguf (smallFiles ['m'] 1 10 10) (shardPath [] ['m'] 1 1 10 10) =
      .error (.fail fault) := by
  have hpath : shardPath [] ['m'] 1 1 10 10 = shardPath [] ['m'] 2 1 10 10 := by
    decide
  have hmissing : smallFiles ['m'] 1 10 10 (shardPath [] ['m'] 2 1 1 10) = none := by
    decide
  have hlast := smallModel_ten.exists_shard
    (getElem?_shardPaths (by decide : 9 < 10))
  rcases hlast with ⟨last, hlast⟩
  rw [length_shardPaths] at hlast
  have hsplit := not_isSingle hlast (by decide)
  rw [hpath] at hsplit
  rw [hpath]
  apply @loadMappedGguf_fails [] ['m'] 2 1 9 10 _ (List.cons_ne_nil _ _) (by decide) _ hsplit
  intro tensors shards hmodel
  rcases hmodel.exists_shard (getElem?_shardPaths (by decide : 0 < 10)) with ⟨first, hfirst⟩
  have hread := hfirst.read
  unfold readShard at hread
  rw [hmissing] at hread
  cases hread

theorem smallModel_unprefixed :
    SplitModel (smallFiles [] 1 2 2) (shardPaths [] [] 1 1 2) 2
      ((List.range 2).map (smallLoaded [] 1 2 2)) := by
  apply splitModel_smallFiles (by decide) _ (by decide)
  intro no hno
  interval_cases no <;> decide

theorem smallModel_unprefixed_fails :
    exists fault, loadMappedGguf (smallFiles [] 1 2 2) (shardPath [] [] 1 1 1 2) =
      .error (.fail fault) := by
  have hname : forall parts, splitName (shardPath [] [] 1 1 1 2).fileName ≠ .ok parts := by
    intro parts hparts
    rcases parts with ⟨stem, fileIndex, fileCount⟩
    cases hparts
  rcases smallModel_unprefixed.exists_shard (getElem?_shardPaths (by decide : 0 < 2)) with
    ⟨first, hfirst⟩
  rw [length_shardPaths] at hfirst
  apply (yields_loadMappedGguf _ _).exists_fail
  intro _ hloaded
  rcases hloaded with hsingle | ⟨no, paths, tensors, shards, _, hresolve, _⟩
  · exact not_isSingle hfirst (by decide) hsingle
  · rcases bind_eq_ok hresolve with ⟨parts, hparts, _⟩
    exact hname parts hparts

theorem smallFile_alone :
    IsShard (smallFiles ['m'] 1 1 5) (shardPath [] ['m'] 1 1 1 1) 0 1 5
      (smallLoaded ['m'] 1 1 5 0) := by
  apply isShard_smallLoaded (by decide) (by decide) (by decide)
  apply smallFiles_eq 5 _ (by decide)
  intro no hno
  interval_cases no
  decide

/-- A split model is loaded alike from every shard whose index its names pad, and nothing
else is loaded from there; a file that declares no split is loaded alone. -/
theorem loadMappedGguf_split :
    (forall path no count paths, resolveShardPaths path no count = .ok paths -> no < count ->
      paths.length = count ∧ paths[no]? = some path) ∧
    (forall fs path selected, readShard fs path = .ok selected ->
      splitCount selected.2.metadata = .ok 1 ->
      loadMappedGguf fs path = mapSingleShard selected) ∧
    (forall fs parent stem indexWidth countWidth count tensors shards, stem ≠ [] -> 0 < count ->
      SplitModel fs (shardPaths parent stem indexWidth countWidth count) tensors shards ->
      exists model, Merges shards model ∧ forall no, no < count -> Padded indexWidth no ->
        loadMappedGguf fs (shardPath parent stem indexWidth countWidth (no + 1) count) =
          .ok model) ∧
    forall fs parent stem indexWidth countWidth count, stem ≠ [] ->
      (forall tensors shards,
        ¬ SplitModel fs (shardPaths parent stem indexWidth countWidth count) tensors shards) ->
      forall no, no < count -> Padded indexWidth no ->
        ¬ IsSingle fs (shardPath parent stem indexWidth countWidth (no + 1) count) ->
        exists fault,
          loadMappedGguf fs (shardPath parent stem indexWidth countWidth (no + 1) count) =
            .error (.fail fault) := by
  constructor
  · intro path no count paths hresolve hno
    exact resolveShardPaths_selected hresolve hno
  · constructor
    · intro fs path selected hread hcount
      exact loadMappedGguf_of_single hread hcount
    · constructor
      · intro fs parent stem indexWidth countWidth count tensors shards hstem hpos hmodel
        exact hmodel.loads hstem hpos
      · intro fs parent stem indexWidth countWidth count hstem hnone no _ hpadded hsplit
        exact loadMappedGguf_fails hstem hpadded hnone hsplit

theorem loadMappedGguf_split_two :
    exists model, Merges ((List.range 2).map (smallLoaded ['m'] 1 2 2)) model ∧
      loadMappedGguf (smallFiles ['m'] 1 2 2) (shardPath [] ['m'] 1 1 1 2) = .ok model ∧
      loadMappedGguf (smallFiles ['m'] 1 2 2) (shardPath [] ['m'] 1 1 2 2) = .ok model := by
  have hmodel := splitModel_smallFiles (by decide) distinct_two (by decide)
  rcases loadMappedGguf_split.2.2.1 _ [] ['m'] 1 1 2 2 _ (List.cons_ne_nil _ _) (by decide)
    hmodel with ⟨model, hmerges, hloads⟩
  apply Exists.intro model
  constructor
  · exact hmerges
  · exact ⟨(hloads 0 (by decide) (by decide)), (hloads 1 (by decide) (by decide))⟩

/-- Ten shards with unpadded names are loaded from the first path and not from the last;
the shards of a model without a prefix are not found; and the total of a single file is not
checked. -/
theorem loadMappedGguf_split_fails :
    (exists shards, SplitModel (smallFiles ['m'] 1 10 10) (shardPaths [] ['m'] 1 1 10) 10 shards ∧
      (exists model, loadMappedGguf (smallFiles ['m'] 1 10 10) (shardPath [] ['m'] 1 1 1 10) =
        .ok model) ∧
      exists fault, loadMappedGguf (smallFiles ['m'] 1 10 10) (shardPath [] ['m'] 1 1 10 10) =
        .error (.fail fault)) ∧
    (exists shards, SplitModel (smallFiles [] 1 2 2) (shardPaths [] [] 1 1 2) 2 shards ∧
      exists fault, loadMappedGguf (smallFiles [] 1 2 2) (shardPath [] [] 1 1 1 2) =
        .error (.fail fault)) ∧
    ((forall tensors shards,
        ¬ SplitModel (smallFiles ['m'] 1 1 5) (shardPaths [] ['m'] 1 1 1) tensors shards) ∧
      exists model, loadMappedGguf (smallFiles ['m'] 1 1 5) (shardPath [] ['m'] 1 1 1 1) =
        .ok model) := by
  constructor
  · exists (List.range 10).map (smallLoaded ['m'] 1 10 10)
    constructor
    · exact smallModel_ten
    · constructor
      · rcases smallModel_ten.loads (List.cons_ne_nil _ _) (by decide) with ⟨model, _, hloads⟩
        exact Exists.intro model (hloads 0 (by decide) (by decide))
      · exact smallModel_ten_last
  · constructor
    · exists (List.range 2).map (smallLoaded [] 1 2 2)
      exact ⟨smallModel_unprefixed, smallModel_unprefixed_fails⟩
    · constructor
      · intro tensors shards hmodel
        have hfiles := hmodel.files
        cases hfiles with
        | cons hfirst hnone =>
          rename_i first none
          cases hnone
          have hsame : first = smallLoaded ['m'] 1 1 5 0 := hfirst.unique smallFile_alone
          have htensors := hfirst.tensors
          rw [hsame, smallFile_alone.tensors] at htensors
          cases htensors
          have htotal := hmodel.total
          rw [hsame] at htotal
          cases htotal
      · apply Exists.intro (merged (smallShard 1 5 0).metadata [smallLoaded ['m'] 1 1 5 0])
        have hcount := splitCount_of_some smallFile_alone.count Nat.zero_lt_one
        rw [loadMappedGguf_of_single smallFile_alone.read hcount]
        exact smallFile_alone.mapSingleShard_eq

end Gguf
end RunNBurn
