import RunNBurn.Gguf.Convert
import RunNBurn.Library.Occurrence

/-!
# Split models

A model in several files, found from the name of any one of them and read into one set
of maps.
-/

namespace RunNBurn
namespace Gguf

open Library

def SPLIT_NO_KEY : String := "split.no"
def SPLIT_COUNT_KEY : String := "split.count"
def SPLIT_TENSORS_COUNT_KEY : String := "split.tensors.count"

abbrev FileSystem : Type :=
  FilePath -> Option (List UInt8)

structure MappedGguf where
  metadata : List (String × GGUFValue)
  weights : KeyedMap String Tensor
  floatShapes : KeyedMap String (List Nat)
  tensorGgmlTypes : KeyedMap String GGMLType
  tensorFileOffsets : KeyedMap String Nat

def splitError {alpha : Type} (msg : String) : Loading alpha :=
  parseFailure 0 s!"invalid split GGUF: {msg}"

/-!
# Messages
-/

def LoaderError.display : LoaderError -> String
  | .invalidMagic => "invalid GGUF magic bytes"
  | .unsupportedVersion version => s!"unsupported GGUF version: {version}"
  | .parseError offset msg => s!"parse error at offset {offset}: {msg}"
  | .unsupportedGGMLType raw => s!"unsupported GGML type: {raw}"

def LoadError.display : LoadError -> String
  | .loader fault => fault.display
  | .ioError msg => s!"I/O error: {msg}"
  | .coreError msg => s!"rnb-core error: {msg}"

def FileName.display : FileName -> String
  | .text name => String.ofList name
  | .other _ => ""

def FilePath.display (path : FilePath) : String :=
  "/".intercalate (path.parent.map String.ofList ++ [path.fileName.display])

/-!
# Reading a shard
-/

/-- `FileMmapStorage` with the parsed file. -/
def readShard (fs : FileSystem) (path : FilePath) : Loading (FileMmapStorage × GGUFFile) :=
  match fs path with
  | none => .error (.fail (.ioError "No such file or directory (os error 2)"))
  | some bytes =>
    match parse bytes with
    | .ok gguf =>
      .ok ({
        path := path
        bytes := bytes }, gguf)
    | .error .panic => .error .panic
    | .error (.fail fault) => .error (.fail (.loader fault))

section

variable (metadata : List (String × GGUFValue))

/-- Every `usize` is a `u64`, so the conversion does not fail. -/
def splitValue (key : String) : Loading (Option Nat) :=
  match metadata.find? (fun entry => entry.1 == key) with
  | none => .ok none
  | some (_, value) =>
    match asUsize value with
    | some value => .ok (some value)
    | none => splitError s!"metadata key {key} must be a non-negative integer"

def requiredSplitValue (key : String) : Loading Nat := do
  match <- splitValue metadata key with
  | some value => return value
  | none => splitError s!"missing metadata key {key}"

def splitCount : Loading Nat := do
  match <- splitValue metadata SPLIT_COUNT_KEY with
  | some 0 => splitError s!"{SPLIT_COUNT_KEY} must be positive"
  | some count => return count
  | none => return 1

end

def validateShard (gguf : GGUFFile) (expectedNo expectedCount expectedTensors : Nat) :
    Loading Unit := do
  let shardNo <- requiredSplitValue gguf.metadata SPLIT_NO_KEY
  let shardCount <- requiredSplitValue gguf.metadata SPLIT_COUNT_KEY
  let shardTensors <- requiredSplitValue gguf.metadata SPLIT_TENSORS_COUNT_KEY
  if shardNo ≠ expectedNo then
    splitError
      s!"expected shard {expectedNo}, but its metadata declares {SPLIT_NO_KEY} {shardNo}"
  else if shardCount ≠ expectedCount then
    splitError
      s!"shard {shardNo} declares {SPLIT_COUNT_KEY} {shardCount}, expected {expectedCount}"
  else if shardTensors ≠ expectedTensors then
    splitError
      s!"shard {shardNo} declares {SPLIT_TENSORS_COUNT_KEY} {shardTensors}, expected {expectedTensors}"
  else
    return ()

/-!
# Names
-/

def GGUF_SUFFIX : Text := ".gguf".toList
def OF_WORD : Text := "-of-".toList

/-- `parse::<usize>` of a text of digits. -/
def parseUsize (digits : Text) : Option Nat :=
  checkedUsize (decimalValue digits)

def shardName (stem : Text) (indexWidth countWidth index count : Nat) : Text :=
  stem ++ ('-' :: zeroPadded indexWidth index) ++ (OF_WORD ++ zeroPadded countWidth count) ++
    GGUF_SUFFIX

def splitName (fileName : FileName) : Loading (Text × Text × Text) :=
  match fileName with
  | .other _ => splitError "split GGUF path must have a UTF-8 file name"
  | .text name =>
    match stripSuffix GGUF_SUFFIX name with
    | none => splitError "split GGUF file name must end in .gguf"
    | some stem =>
      match rsplitAtWord OF_WORD stem with
      | none => splitError "split GGUF file name must end in -00001-of-00001.gguf"
      | some (indexedStem, fileCount) =>
        match rsplitAtWord ['-'] indexedStem with
        | none => splitError "split GGUF file name is missing its shard index"
        | some (stem, fileIndex) =>
          if stem = [] ∨ fileIndex = [] ∨ fileCount = [] ∨
              fileIndex.all Char.isDigit = false ∨ fileCount.all Char.isDigit = false then
            splitError "split GGUF file name has an invalid shard suffix"
          else
            .ok (stem, fileIndex, fileCount)

def resolveShardPaths (selectedPath : FilePath) (selectedNo splitCount : Nat) :
    Loading (List FilePath) := do
  let (stem, fileIndex, fileCount) <- splitName selectedPath.fileName
  let parsedIndex <-
    match parseUsize fileIndex with
    | some index => .ok index
    | none => splitError "split GGUF shard index is too large"
  let parsedCount <-
    match parseUsize fileCount with
    | some count => .ok count
    | none => splitError "split GGUF shard count is too large"
  if parsedIndex ≠ selectedNo + 1 ∨ parsedCount ≠ splitCount then
    splitError
      s!"file name declares shard {parsedIndex} of {parsedCount}, metadata declares shard {selectedNo + 1} of {splitCount}"
  else
    return (List.range splitCount).map fun no => {
      parent := selectedPath.parent
      fileName := .text
        (shardName stem fileIndex.length fileCount.length (no + 1) splitCount) }

/-!
# Loading
-/

structure ShardMaps where
  metadata : Option (List (String × GGUFValue))
  maps : TensorMaps

/-- `extend` of every map. -/
def TensorMaps.extend (maps shard : TensorMaps) : TensorMaps where
  tensors := shard.tensors ∪ maps.tensors
  floatShapes := shard.floatShapes ∪ maps.floatShapes
  ggmlTypes := shard.ggmlTypes ∪ maps.ggmlTypes
  fileOffsets := shard.fileOffsets ∪ maps.fileOffsets

/-- The shard of one round; the selected one has been read before. -/
def takeShard (fs : FileSystem) (selected : FileMmapStorage × GGUFFile) (selectedNo : Nat)
    (shardPath : FilePath) (shardNo : Nat) : Loading (FileMmapStorage × GGUFFile) :=
  if shardNo = selectedNo then .ok selected
  else
    match readShard fs shardPath with
    | .ok shard => .ok shard
    | .error .panic => .error .panic
    | .error (.fail fault) =>
      splitError s!"failed to load shard '{shardPath.display}': {fault.display}"

/-- One round of the loop.  The keys of the source's map come in no order, so that the name
in the error is one of the repeated names. -/
def addShard (fs : FileSystem) (selected : FileMmapStorage × GGUFFile)
    (selectedNo splitCount expectedTensors : Nat) (state : ShardMaps) (entry : FilePath × Nat) :
    Loading ShardMaps := do
  let (shardPath, shardNo) := entry
  let (mmap, gguf) <- takeShard fs selected selectedNo shardPath shardNo
  validateShard gguf shardNo splitCount expectedTensors
  let shard <- mapTensors gguf mmap
  match shard.tensors.keys.find? (fun name => decide (name ∈ state.maps.tensors)) with
  | some name => splitError s!"tensor '{name}' appears in more than one shard"
  | none =>
    return {
      metadata := if shardNo = 0 then some gguf.metadata else state.metadata
      maps := state.maps.extend shard }

def mapSingleShard (shard : FileMmapStorage × GGUFFile) : Loading MappedGguf := do
  let maps <- mapTensors shard.2 shard.1
  return {
    metadata := shard.2.metadata
    weights := maps.tensors
    floatShapes := maps.floatShapes
    tensorGgmlTypes := maps.ggmlTypes
    tensorFileOffsets := maps.fileOffsets }

def loadMappedGguf (fs : FileSystem) (path : FilePath) : Loading MappedGguf := do
  let selected <- readShard fs path
  let splitCount <- splitCount selected.2.metadata
  if splitCount = 1 then
    mapSingleShard selected
  else
    let selectedNo <- requiredSplitValue selected.2.metadata SPLIT_NO_KEY
    if selectedNo >= splitCount then
      splitError s!"{SPLIT_NO_KEY} {selectedNo} is outside {SPLIT_COUNT_KEY} {splitCount}"
    else
      let expectedTensors <- requiredSplitValue selected.2.metadata SPLIT_TENSORS_COUNT_KEY
      let shardPaths <- resolveShardPaths path selectedNo splitCount
      let state <- shardPaths.zipIdx.foldlM
        (addShard fs selected selectedNo splitCount expectedTensors)
        { metadata := none
          maps := TensorMaps.empty }
      if state.maps.tensors.entries.length ≠ expectedTensors then
        splitError
          s!"{SPLIT_TENSORS_COUNT_KEY} declares {expectedTensors} tensors but {state.maps.tensors.entries.length} were loaded"
      else
        match state.metadata with
        | none => .error .panic
        | some metadata =>
          return {
            metadata := metadata
            weights := state.maps.tensors
            floatShapes := state.maps.floatShapes
            tensorGgmlTypes := state.maps.ggmlTypes
            tensorFileOffsets := state.maps.fileOffsets }

end Gguf
end RunNBurn
