import RunNBurn.Gguf.Sharded

/-!
# Names of shards

A file name is taken apart and put together again without loss, so that the selected path
is found among the paths that are made from it.
-/

namespace RunNBurn
namespace Gguf

open Library

def shardPath (parent : List Text) (stem : Text) (indexWidth countWidth index count : Nat) :
    FilePath where
  parent := parent
  fileName := .text (shardName stem indexWidth countWidth index count)

def joinName (stem fileIndex fileCount : Text) : Text :=
  stem ++ ('-' :: fileIndex) ++ (OF_WORD ++ fileCount) ++ GGUF_SUFFIX

structure NameParts (stem fileIndex fileCount : Text) : Prop where
  stem : stem ≠ []
  index : fileIndex ≠ []
  count : fileCount ≠ []
  indexDigits : forall c, c ∈ fileIndex -> c.isDigit = true
  countDigits : forall c, c ∈ fileCount -> c.isDigit = true

theorem not_mem_of_digits {digits : Text} (h : forall c, c ∈ digits -> c.isDigit = true) :
    '-' ∉ digits.reverse := by
  intro hmem
  exact absurd (h '-' (List.mem_reverse.mp hmem)) (by decide)

theorem splitName_joinName {stem fileIndex fileCount : Text}
    (h : NameParts stem fileIndex fileCount) :
    splitName (.text (joinName stem fileIndex fileCount)) = .ok (stem, fileIndex, fileCount) := by
  have hsuffix : stripSuffix GGUF_SUFFIX (joinName stem fileIndex fileCount) =
      some (stem ++ ('-' :: fileIndex) ++ (OF_WORD ++ fileCount)) :=
    stripSuffix_append _ _
  have hof : rsplitAtWord OF_WORD (stem ++ ('-' :: fileIndex) ++ (OF_WORD ++ fileCount)) =
      some (stem ++ ('-' :: fileIndex), fileCount) := by
    apply rsplitAtWord_of_startsNowhere
    exact startsNowhere_of_head (not_mem_of_digits h.countDigits)
  have hindex : rsplitAtWord ['-'] (stem ++ ('-' :: fileIndex)) = some (stem, fileIndex) := by
    apply rsplitAtWord_of_startsNowhere
    exact startsNowhere_of_head (not_mem_of_digits h.indexDigits)
  have hvalid : ¬ (stem = [] ∨ fileIndex = [] ∨ fileCount = [] ∨
      fileIndex.all Char.isDigit = false ∨ fileCount.all Char.isDigit = false) := by
    simp [h.stem, h.index, h.count]
    exact ⟨h.indexDigits, h.countDigits⟩
  unfold splitName
  dsimp only
  rw [hsuffix]
  dsimp only
  rw [hof]
  dsimp only
  rw [hindex]
  dsimp only
  rw [if_neg hvalid]

theorem splitName_eq_ok {fileName : FileName} {stem fileIndex fileCount : Text}
    (h : splitName fileName = .ok (stem, fileIndex, fileCount)) :
    fileName = .text (joinName stem fileIndex fileCount) ∧
      NameParts stem fileIndex fileCount := by
  unfold splitName at h
  cases fileName with
  | other bytes => cases h
  | text name =>
    dsimp only at h
    split at h
    · cases h
    · rename_i stripped hsuffix
      split at h
      · cases h
      · rename_i indexedStem count hof
        split at h
        · cases h
        · rename_i front index hindex
          split at h
          · cases h
          · rename_i hvalid
            cases h
            constructor
            · rw [stripSuffix_eq_some hsuffix, rsplitAtWord_eq_some hof,
                rsplitAtWord_eq_some hindex]
              rfl
            · simp at hvalid
              rcases hvalid with ⟨hstem, hfileIndex, hfileCount, hindexDigits, hcountDigits⟩
              exact {
                stem := hstem
                index := hfileIndex
                count := hfileCount
                indexDigits := hindexDigits
                countDigits := hcountDigits }

/-!
# The paths of all shards
-/

theorem nameParts_zeroPadded {stem : Text} (hstem : stem ≠ [])
    (indexWidth countWidth index count : Nat) :
    NameParts stem (zeroPadded indexWidth index) (zeroPadded countWidth count) where
  stem := hstem
  index := zeroPadded_ne_nil indexWidth index
  count := zeroPadded_ne_nil countWidth count
  indexDigits := fun _ hc => isDigit_of_mem_zeroPadded hc
  countDigits := fun _ hc => isDigit_of_mem_zeroPadded hc

theorem parseUsize_zeroPadded {n : Nat} (width : Nat) (hn : n < usizeLimit) :
    parseUsize (zeroPadded width n) = some n := by
  unfold parseUsize checkedUsize
  rw [decimalValue_zeroPadded, if_pos hn]

theorem parseUsize_eq_some {digits : Text} {n : Nat} (h : parseUsize digits = some n) :
    decimalValue digits = n := by
  unfold parseUsize checkedUsize at h
  split at h
  · cases h
    rfl
  · cases h

theorem resolveShardPaths_shardPath {parent : List Text} {stem : Text}
    {indexWidth countWidth no count : Nat} (hstem : stem ≠ []) (hno : no < count)
    (hcount : count < usizeLimit) :
    resolveShardPaths (shardPath parent stem indexWidth countWidth (no + 1) count) no count =
      .ok ((List.range count).map fun other =>
        shardPath parent stem (zeroPadded indexWidth (no + 1)).length countWidth (other + 1)
          count) := by
  have hparts := splitName_joinName
    (nameParts_zeroPadded hstem indexWidth countWidth (no + 1) count)
  have hindex := parseUsize_zeroPadded indexWidth (Nat.lt_of_le_of_lt hno hcount)
  have hvalid : ¬ (no + 1 ≠ no + 1 ∨ count ≠ count) := by
    simp
  unfold resolveShardPaths shardPath shardName
  unfold joinName at hparts
  dsimp only
  rw [hparts]
  simp only [bind, Except.bind, hindex, parseUsize_zeroPadded countWidth hcount, if_neg hvalid]
  show Except.ok _ = Except.ok _
  apply congrArg
  apply List.map_congr_left
  intro other _
  rw [zeroPadded_length countWidth count]

theorem resolveShardPaths_eq_ok {path : FilePath} {no count : Nat} {paths : List FilePath}
    (h : resolveShardPaths path no count = .ok paths) :
    exists stem indexWidth countWidth, stem ≠ [] ∧
      path = shardPath path.parent stem indexWidth countWidth (no + 1) count ∧
      (zeroPadded indexWidth (no + 1)).length = indexWidth ∧
      paths = (List.range count).map fun other =>
        shardPath path.parent stem indexWidth countWidth (other + 1) count := by
  unfold resolveShardPaths at h
  cases hname : splitName path.fileName with
  | error stop =>
    rw [hname] at h
    cases h
  | ok parts =>
    rcases parts with ⟨stem, fileIndex, fileCount⟩
    rcases splitName_eq_ok hname with ⟨hfile, hparts⟩
    rw [hname] at h
    simp only [bind, Except.bind] at h
    cases hindex : parseUsize fileIndex with
    | none =>
      rw [hindex] at h
      cases h
    | some index =>
      cases hcount : parseUsize fileCount with
      | none =>
        rw [hindex, hcount] at h
        cases h
      | some parsedCount =>
        rw [hindex, hcount] at h
        dsimp only at h
        split at h
        · cases h
        · rename_i hsame
          rcases not_or.mp hsame with ⟨hno, htotal⟩
          have hpaddedIndex : zeroPadded fileIndex.length (no + 1) = fileIndex := by
            rw [← not_not.mp hno, ← parseUsize_eq_some hindex]
            exact zeroPadded_decimalValue hparts.index hparts.indexDigits
          have hpaddedCount : zeroPadded fileCount.length count = fileCount := by
            rw [← not_not.mp htotal, ← parseUsize_eq_some hcount]
            exact zeroPadded_decimalValue hparts.count hparts.countDigits
          cases h
          exists stem, fileIndex.length, fileCount.length
          constructor
          · exact hparts.stem
          · constructor
            · unfold shardPath shardName
              rw [hpaddedIndex, hpaddedCount]
              cases path with
              | mk parent fileName => rw [show fileName = _ from hfile]; rfl
            · constructor
              · rw [hpaddedIndex]
              · rfl

theorem resolveShardPaths_selected {path : FilePath} {no count : Nat} {paths : List FilePath}
    (h : resolveShardPaths path no count = .ok paths) (hno : no < count) :
    paths.length = count ∧ paths[no]? = some path := by
  rcases resolveShardPaths_eq_ok h with ⟨stem, indexWidth, countWidth, _, hpath, _, hpaths⟩
  rw [hpaths]
  constructor
  · rw [List.length_map, List.length_range]
  · rw [List.getElem?_map, List.getElem?_range hno, hpath]
    rfl

theorem resolveShardPaths_ne_panic (path : FilePath) (no count : Nat) :
    resolveShardPaths path no count ≠ .error .panic := by
  have hname : forall stop, splitName path.fileName = .error stop -> stop ≠ .panic := by
    intro stop h hpanic
    rw [hpanic] at h
    unfold splitName at h
    cases hfile : path.fileName with
    | other bytes =>
      rw [hfile] at h
      cases h
    | text name =>
      rw [hfile] at h
      dsimp only at h
      split at h
      · cases h
      · split at h
        · cases h
        · split at h
          · cases h
          · split at h
            · cases h
            · cases h
  unfold resolveShardPaths
  cases hparts : splitName path.fileName with
  | error stop =>
    intro h
    cases h
    exact hname .panic hparts rfl
  | ok parts =>
    intro h
    simp only [bind, Except.bind] at h
    cases hindex : parseUsize parts.2.1 with
    | none =>
      rw [hindex] at h
      cases h
    | some index =>
      cases hcount : parseUsize parts.2.2 with
      | none =>
        rw [hindex, hcount] at h
        cases h
      | some parsedCount =>
        rw [hindex, hcount] at h
        dsimp only at h
        split at h
        · cases h
        · cases h

end Gguf
end RunNBurn
