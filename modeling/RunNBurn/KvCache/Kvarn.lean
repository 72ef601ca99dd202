import RunNBurn.KvCache.Config

/-!
# The compressed layer cache

The KVarN cache of one layer: an exact sink region, quantized blocks, and an
exact tail, each kept as flat key and value buffers of f16 bit patterns.
-/

namespace RunNBurn
namespace KvCache

open Library

/-!
# Blocks

The numeric transform of a block is a parameter.  `encode` sees one complete
group, and the decoders and the record are read entry by entry into buffers of
the size that the program allocates, so their shape is fixed by the model.
-/

structure KvarnCodec where
  Payload : Type
  encode : KvarnConfig -> Nat -> Nat -> List UInt16 -> List UInt16 -> Payload
  decodeKey : KvarnConfig -> Nat -> Nat -> Payload -> Nat -> UInt16
  decodeValue : KvarnConfig -> Nat -> Nat -> Payload -> Nat -> UInt16
  recordByte : KvarnConfig -> Nat -> Nat -> Payload -> Nat -> UInt8

structure KvarnBlock (codec : KvarnCodec) where
  config : KvarnConfig
  numKvHeads : Nat
  headDim : Nat
  payload : codec.Payload

namespace KvarnBlock

variable {codec : KvarnCodec}

def quantize (codec : KvarnCodec) (config : KvarnConfig)
    (numKvHeads headDim : Nat) (keyF16 valueF16 : List UInt16) :
    Checked (KvarnBlock codec) := do
  config.validate headDim
  let rowWidth <- checkedMul "KVarN row width overflow" numKvHeads headDim
  let expected <- checkedMul "KVarN tile size overflow" config.group rowWidth
  if keyF16.length ≠ expected ∨ valueF16.length ≠ expected then
    report s!"KVarN tile length mismatch: K={keyF16.length} V={valueF16.length} expected={expected}"
  else
    return {
      config := config
      numKvHeads := numKvHeads
      headDim := headDim
      payload := codec.encode config numKvHeads headDim keyF16 valueF16 }

def dequantizeF16 (block : KvarnBlock codec) : List UInt16 × List UInt16 :=
  let rowWidth := block.numKvHeads * block.headDim
  let entries := List.range (block.config.group * rowWidth)
  (entries.map (codec.decodeKey block.config block.numKvHeads block.headDim block.payload),
    entries.map (codec.decodeValue block.config block.numKvHeads block.headDim block.payload))

def deviceRecord (block : KvarnBlock codec) (blockBytes : Nat) : List UInt8 :=
  (List.range blockBytes).map
    (codec.recordByte block.config block.numKvHeads block.headDim block.payload)

def appendDeviceRecord (block : KvarnBlock codec) (output : List UInt8) :
    Checked (List UInt8) :=
  match KvarnDeviceRecordLayout.new block.config block.numKvHeads block.headDim with
  | .ok layout => .ok (output ++ block.deviceRecord layout.blockBytes)
  | .error _ => abort "validated KVarN block must have a valid device layout"

variable (block : KvarnBlock codec)

@[simp] theorem length_dequantizeF16_fst :
    block.dequantizeF16.1.length =
      block.config.group * (block.numKvHeads * block.headDim) := by
  simp [dequantizeF16]

@[simp] theorem length_dequantizeF16_snd :
    block.dequantizeF16.2.length =
      block.config.group * (block.numKvHeads * block.headDim) := by
  simp [dequantizeF16]

@[simp] theorem length_deviceRecord (bytes : Nat) :
    (block.deviceRecord bytes).length = bytes := by
  simp [deviceRecord]

end KvarnBlock

/-!
# The layer cache
-/

structure KvarnLayerCache (codec : KvarnCodec) where
  config : KvarnConfig
  numKvHeads : Nat
  headDim : Nat
  maxSeqLen : Nat
  sinkKey : List UInt16
  sinkValue : List UInt16
  blocks : List (KvarnBlock codec)
  tailKey : List UInt16
  tailValue : List UInt16
  deviceLayout : KvarnDeviceRecordLayout
  deviceBlocks : List UInt8
  storedLen : Nat

namespace KvarnLayerCache

variable {codec : KvarnCodec}

def new (codec : KvarnCodec) (config : KvarnConfig)
    (maxSeqLen numKvHeads headDim : Nat) : Checked (KvarnLayerCache codec) := do
  config.validate headDim
  let deviceLayout <- KvarnDeviceRecordLayout.new config numKvHeads headDim
  return {
    config := config
    numKvHeads := numKvHeads
    headDim := headDim
    maxSeqLen := maxSeqLen
    sinkKey := []
    sinkValue := []
    blocks := []
    tailKey := []
    tailValue := []
    deviceLayout := deviceLayout
    deviceBlocks := []
    storedLen := 0 }

def rowWidth (cache : KvarnLayerCache codec) : Nat :=
  cache.numKvHeads * cache.headDim

def appendRow (cache : KvarnLayerCache codec) (key value : List UInt16) :
    Checked (KvarnLayerCache codec) := do
  require (cache.storedLen < cache.maxSeqLen) "KVarN cache overflow"
  if cache.storedLen < cache.config.sinkTokens then
    return { cache with
      sinkKey := cache.sinkKey ++ key
      sinkValue := cache.sinkValue ++ value
      storedLen := cache.storedLen + 1 }
  else
    return { cache with
      tailKey := cache.tailKey ++ key
      tailValue := cache.tailValue ++ value
      storedLen := cache.storedLen + 1 }

/-!
## Truncation
-/

/-- Reopen a quantized block: its first rows become the tail again. -/
def truncateIntoBlocks (cache : KvarnLayerCache codec) (len : Nat) :
    Checked (KvarnLayerCache codec) := do
  let width := cache.rowWidth
  let afterSink := len - cache.config.sinkTokens
  let retainedBlocks := afterSink / cache.config.group
  let partialRows := afterSink % cache.config.group
  let (tailKey, tailValue) <-
    if partialRows > 0 then do
      let block <- index cache.blocks retainedBlocks
      let key <- slice block.dequantizeF16.1 0 (partialRows * width)
      let value <- slice block.dequantizeF16.2 0 (partialRows * width)
      pure (key, value)
    else
      pure ([], [])
  return { cache with
    tailKey := tailKey
    tailValue := tailValue
    blocks := cache.blocks.take retainedBlocks
    deviceBlocks :=
      cache.deviceBlocks.take (retainedBlocks * cache.deviceLayout.blockBytes)
    storedLen := len }

def truncateTo (cache : KvarnLayerCache codec) (requested : Nat) :
    Checked (KvarnLayerCache codec) :=
  let len := min requested cache.storedLen
  let width := cache.rowWidth
  if len <= cache.config.sinkTokens then
    .ok { cache with
      sinkKey := cache.sinkKey.take (len * width)
      sinkValue := cache.sinkValue.take (len * width)
      blocks := []
      deviceBlocks := []
      tailKey := []
      tailValue := []
      storedLen := len }
  else
    let afterSink := len - cache.config.sinkTokens
    let quantizedRows := cache.blocks.length * cache.config.group
    if afterSink < quantizedRows then
      cache.truncateIntoBlocks len
    else
      let tailRows := afterSink - quantizedRows
      .ok { cache with
        tailKey := cache.tailKey.take (tailRows * width)
        tailValue := cache.tailValue.take (tailRows * width)
        storedLen := len }

/-!
## Writing rows
-/

def writeBitsRange (cache : KvarnLayerCache codec) (posStart len : Nat)
    (key value : List UInt16) : Checked (KvarnLayerCache codec) := do
  require (saturatingAdd posStart len <= cache.maxSeqLen) "KVarN cache overflow"
  let width := cache.rowWidth
  let count := len * width
  require (key.length >= count ∧ value.length >= count) "KVarN bits underflow"
  let cut <-
    if posStart < cache.storedLen then cache.truncateTo posStart else pure cache
  -- The gap loop appends one row an iteration until `storedLen = posStart`.
  let zero := List.replicate width (0 : UInt16)
  let padded <-
    forRange (fun _ current => current.appendRow zero zero)
      (posStart - cut.storedLen) cut
  forRange
    (fun row current => do
      let offset := row * width
      let keyRow <- slice key offset (offset + width)
      let valueRow <- slice value offset (offset + width)
      current.appendRow keyRow valueRow)
    len padded

/-- `f16FromF32` stands for the half-precision conversion; f32 values are given
by their bit patterns. -/
def writeF32 (f16FromF32 : UInt32 -> UInt16) (cache : KvarnLayerCache codec)
    (pos : Nat) (key value : List UInt32) : Checked (KvarnLayerCache codec) := do
  let width := cache.rowWidth
  require (key.length = width) "KVarN key row width mismatch"
  require (value.length = width) "KVarN value row width mismatch"
  cache.writeBitsRange pos 1 (key.map f16FromF32) (value.map f16FromF32)

def writeBitsUpTo (cache : KvarnLayerCache codec) (len : Nat)
    (key value : List UInt16) : Checked (KvarnLayerCache codec) := do
  let cleared <- cache.truncateTo 0
  cleared.writeBitsRange 0 len key value

/-!
## Compaction
-/

def quantizeGroup (cache : KvarnLayerCache codec) (start stop : Nat) :
    Checked (KvarnBlock codec) := do
  let key <- slice cache.tailKey start stop
  let value <- slice cache.tailValue start stop
  KvarnBlock.quantize codec cache.config cache.numKvHeads cache.headDim key value

def pushBlock (cache : KvarnLayerCache codec) (block : KvarnBlock codec) :
    Checked (KvarnLayerCache codec) := do
  let deviceBlocks <- block.appendDeviceRecord cache.deviceBlocks
  return { cache with
    deviceBlocks := deviceBlocks
    blocks := cache.blocks ++ [block] }

def compact (cache : KvarnLayerCache codec) : Checked (KvarnLayerCache codec) :=
  if cache.storedLen <= cache.config.sinkTokens then
    .ok cache
  else do
    let width := cache.rowWidth
    let blockElements := cache.config.group * width
    let fullBlocks <- divide cache.tailKey.length blockElements
    if fullBlocks = 0 then
      return cache
    else
      let consumed := fullBlocks * blockElements
      let pushed <-
        if fullBlocks = 1 then do
          let block <- cache.quantizeGroup 0 blockElements
          cache.pushBlock block
        else do
          let blocks <- (List.range fullBlocks).mapM fun blockIndex =>
            let start := blockIndex * blockElements
            cache.quantizeGroup start (start + blockElements)
          blocks.foldlM pushBlock cache
      let tailKey <- splitOff pushed.tailKey consumed
      let tailValue <- splitOff pushed.tailValue consumed
      return { pushed with
        tailKey := tailKey
        tailValue := tailValue }

/-!
## Reading rows
-/

/-- The block loop of `materialize`, which stops at the first block past `len`. -/
def materializeBlocks (cache : KvarnLayerCache codec) (len : Nat) :
    Nat -> List (KvarnBlock codec) -> List UInt16 × List UInt16 ->
      Checked (List UInt16 × List UInt16)
  | _, [], out => .ok out
  | blockIndex, block :: rest, (key, value) => do
      let width := cache.rowWidth
      let blockStart := cache.config.sinkTokens + blockIndex * cache.config.group
      if blockStart >= len then
        return (key, value)
      else
        let rows := min (len - blockStart) cache.config.group
        let blockKey <- slice block.dequantizeF16.1 0 (rows * width)
        let blockValue <- slice block.dequantizeF16.2 0 (rows * width)
        cache.materializeBlocks len (blockIndex + 1) rest
          (key ++ blockKey, value ++ blockValue)

def materialize (cache : KvarnLayerCache codec) (len : Nat) :
    Checked (List UInt16 × List UInt16) := do
  require (len <= cache.storedLen) "KVarN read exceeds initialized rows"
  let width := cache.rowWidth
  let count := len * width
  let sinkRows := min len cache.config.sinkTokens
  let sinkKey <- slice cache.sinkKey 0 (sinkRows * width)
  let sinkValue <- slice cache.sinkValue 0 (sinkRows * width)
  let (key, value) <-
    cache.materializeBlocks len 0 cache.blocks (sinkKey, sinkValue)
  let tailStart :=
    cache.config.sinkTokens + cache.blocks.length * cache.config.group
  let (key, value) <-
    if len > tailStart then do
      let rows := len - tailStart
      let tailKey <- slice cache.tailKey 0 (rows * width)
      let tailValue <- slice cache.tailValue 0 (rows * width)
      pure (key ++ tailKey, value ++ tailValue)
    else
      pure (key, value)
  require (key.length = count) "debug assertion: key length"
  require (value.length = count) "debug assertion: value length"
  return (key, value)

/-- The `append_overlap` closure of `materialize_range`. -/
def appendOverlap (width start stop regionStart regionRows : Nat)
    (regionKey regionValue : List UInt16) (out : List UInt16 × List UInt16) :
    Checked (List UInt16 × List UInt16) :=
  let overlapStart := max start regionStart
  let overlapEnd := min stop (regionStart + regionRows)
  if overlapStart >= overlapEnd then
    .ok out
  else do
    let localStart := (overlapStart - regionStart) * width
    let localEnd := (overlapEnd - regionStart) * width
    let key <- slice regionKey localStart localEnd
    let value <- slice regionValue localStart localEnd
    return (out.1 ++ key, out.2 ++ value)

/-- The block loop of `materialize_range`: blocks before the range are skipped,
and the loop stops at the first block past its end. -/
def materializeRangeBlocks (cache : KvarnLayerCache codec) (start stop : Nat) :
    Nat -> List (KvarnBlock codec) -> List UInt16 × List UInt16 ->
      Checked (List UInt16 × List UInt16)
  | _, [], out => .ok out
  | blockIndex, block :: rest, out =>
    let blockStart := cache.config.sinkTokens + blockIndex * cache.config.group
    if blockStart >= stop then
      .ok out
    else if blockStart + cache.config.group <= start then
      cache.materializeRangeBlocks start stop (blockIndex + 1) rest out
    else do
      let out <-
        appendOverlap cache.rowWidth start stop blockStart cache.config.group
          block.dequantizeF16.1 block.dequantizeF16.2 out
      cache.materializeRangeBlocks start stop (blockIndex + 1) rest out

def materializeRange (cache : KvarnLayerCache codec) (start stop : Nat) :
    Checked (List UInt16 × List UInt16) := do
  require (start <= stop ∧ stop <= cache.storedLen)
    "KVarN range read exceeds initialized rows"
  let width := cache.rowWidth
  let count := (stop - start) * width
  let sinkRows := min cache.storedLen cache.config.sinkTokens
  let out <-
    appendOverlap width start stop 0 sinkRows cache.sinkKey cache.sinkValue ([], [])
  let out <- cache.materializeRangeBlocks start stop 0 cache.blocks out
  let tailStart :=
    cache.config.sinkTokens + cache.blocks.length * cache.config.group
  let out <-
    appendOverlap width start stop tailStart (cache.storedLen - tailStart)
      cache.tailKey cache.tailValue out
  require (out.1.length = count) "debug assertion: key length"
  require (out.2.length = count) "debug assertion: value length"
  return out

end KvarnLayerCache

end KvCache
end RunNBurn
