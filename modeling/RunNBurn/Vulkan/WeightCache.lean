import RunNBurn.Library.Checked
import RunNBurn.Library.InPlace
import RunNBurn.Library.KeyedMaps
import Mathlib.Data.List.MinMax

/-!
# The cache of device weights

Weights are uploaded into buffers of their own, up to a budget of bytes, and the weight
that was used least recently makes room for the next.  A buffer is released by a call
only: no destructor runs when its handle is dropped.
-/

namespace RunNBurn
namespace Vulkan

open Library

inductive WeightKind where
  | qProj | qBias | qNorm | kNorm | kProj | kBias | vProj | vBias | oProj
  | ffnGate | ffnUp | ffnDown
  | gdnQkv | gdnGate | gdnAlpha | gdnBeta | gdnSsmOut | gdnAttnNorm | gdnPostAttnNorm
  | gdnSsmA | gdnSsmConv1d | gdnSsmDtBias | gdnSsmNorm
  | moeRouter | moeSharedInputScale
  | moeExpertGate (expert : UInt16) | moeExpertUp (expert : UInt16)
  | moeExpertDown (expert : UInt16)
  | outputLogits | attnNorm | ffnNorm
  | kProjShard (kvh : UInt16) | vProjShard (kvh : UInt16)
deriving DecidableEq, Repr

structure WeightId where
  layer : UInt16
  kind : WeightKind
deriving DecidableEq, Repr

inductive QuantType where
  | f32 | f16 | bf16 | q4_0 | q4_1 | q5_0 | q5_1 | q8_0 | q8_1
  | q2K | q3K | q4K | q5K | q6K | q8K
  | iq2_xxs | iq2_xs | iq1_s | iq4_nl | iq3_s | iq2_s | iq3_xxs | iq4_xs | iq1_m
  | tq1_0 | tq2_0 | mxfp4 | nvfp4 | q1_0 | q2_0
deriving DecidableEq, Repr

def QuantType.hasSoaKernel : QuantType -> Bool
  | .q4K | .q5K | .q6K | .q8_0 => true
  | _ => false

inductive GpuWeightMode where
  | soa
  | rowMajor
  | raw32
deriving DecidableEq, Repr

def effectiveUploadMode (mode : GpuWeightMode) (quant : QuantType) (rows cols : UInt32) :
    GpuWeightMode :=
  match mode with
  | .raw32 => .raw32
  | .rowMajor =>
    if quant = .q4K ∧ rows <= cols then .rowMajor
    else if quant.hasSoaKernel then .soa
    else .rowMajor
  | .soa => if quant.hasSoaKernel then .soa else .rowMajor

/-- The bytes of a repacked weight.  Repacking reads every block of the row-major bytes and
panics when they are too few. -/
def repackTransposed (srcBlockSize wordsPerBlock : Nat) (rawBytes : List UInt8)
    (rows blocksPerRow : Nat) : Checked Nat :=
  if rows * blocksPerRow * srcBlockSize <= rawBytes.length then
    .ok (blocksPerRow * wordsPerBlock * rows * 4)
  else
    abort "index out of bounds"

def repackQ4kTransposed : List UInt8 -> Nat -> Nat -> Checked Nat :=
  repackTransposed 144 36

def repackQ5kTransposed : List UInt8 -> Nat -> Nat -> Checked Nat :=
  repackTransposed 176 44

def repackQ6kTransposed : List UInt8 -> Nat -> Nat -> Checked Nat :=
  repackTransposed 210 53

def repackQ8_0Transposed : List UInt8 -> Nat -> Nat -> Checked Nat :=
  repackTransposed 34 9

def repackedSize (quant : QuantType) (rawBytes : List UInt8) (rows cols : UInt32) :
    Checked Nat :=
  match quant with
  | .q4K => repackQ4kTransposed rawBytes rows.toNat (cols.toNat / 256)
  | .q5K => repackQ5kTransposed rawBytes rows.toNat (cols.toNat / 256)
  | .q6K => repackQ6kTransposed rawBytes rows.toNat (cols.toNat / 256)
  | .q8_0 => repackQ8_0Transposed rawBytes rows.toNat (cols.toNat / 32)
  | other => report s!"SoA repack is unavailable for native row-major quant {reprStr other}"

/-- Raw bytes are padded to whole 32-bit words, and to one word at least. -/
def paddedSize (rawBytes : List UInt8) : Nat :=
  (max rawBytes.length 1 + 3) / 4 * 4

/-!
# Buffers
-/

structure GpuBuffer where
  handle : Nat
  size : Nat
deriving DecidableEq, Repr

/-- The buffers that were created here and not destroyed yet, and how many ever were. -/
structure VulkanContext where
  buffers : List GpuBuffer
  created : Nat
deriving DecidableEq, Repr

structure DeviceOutcomes where
  staging : Except String Unit
  stagingUpload : Except String Unit
  device : Except String Unit
  copy : Except String Unit
  host : Except String Unit
  hostUpload : Except String Unit

def checkedOutcome : Except String Unit -> Checked Unit
  | .ok () => .ok ()
  | .error complaint => report complaint

namespace VulkanContext

def createBuffer (size : Nat) (outcome : Except String Unit) :
    InPlace Fault VulkanContext GpuBuffer := fun ctx =>
  match outcome with
  | .error complaint => (ctx, report complaint)
  | .ok () =>
    let buf : GpuBuffer := { handle := ctx.created, size := size }
    ({ buffers := buf :: ctx.buffers, created := ctx.created + 1 }, .ok buf)

def destroyBuffer (ctx : VulkanContext) (buf : GpuBuffer) : VulkanContext :=
  { ctx with buffers := ctx.buffers.erase buf }

/-- The bytes that a buffer holds are not modelled: an upload succeeds or fails. -/
def uploadToBuffer (outcome : Except String Unit) : InPlace Fault VulkanContext Unit :=
  InPlace.reading (fun _ => checkedOutcome outcome)

def copyBufferAndWait (src dst : GpuBuffer) (size : Nat) (outcome : Except String Unit) :
    InPlace Fault VulkanContext Unit :=
  InPlace.reading (fun _ =>
    if src.size < size ∨ dst.size < size then
      report s!"buffer copy range exceeds allocation: src=0..{size}/{src.size} dst=0..{size}/{dst.size}"
    else
      checkedOutcome outcome)

def createHostVisible (size : Nat) (outcomes : DeviceOutcomes) :
    InPlace Fault VulkanContext GpuBuffer := do
  let buf <- createBuffer size outcomes.host
  uploadToBuffer outcomes.hostUpload
  return buf

/-- Copy the staged weight into a device-local buffer, and where none can be created
upload it into a host-visible one. -/
def createDeviceLocal (staging : GpuBuffer) (size : Nat) (outcomes : DeviceOutcomes) :
    InPlace Fault VulkanContext GpuBuffer := fun ctx =>
  match createBuffer size outcomes.device ctx with
  | (left, .ok buf) =>
    (copyBufferAndWait staging buf size outcomes.copy >>= fun () => pure buf) left
  | (left, .error _) => createHostVisible size outcomes left

end VulkanContext

/-!
# The cache
-/

structure CachedWeight where
  buf : GpuBuffer
  lastUsed : Nat
  pinned : Bool
deriving DecidableEq, Repr

/-- The entries are a finite map; the order in which they are listed decides nothing as
long as no two were used last at the same tick. -/
structure GpuWeightCache where
  entries : KeyedMap WeightId CachedWeight
  totalCached : Nat
  budget : Nat
  externalReserved : Nat
  tick : Nat
  stagingBuf : Option GpuBuffer

structure WeightMemory where
  cache : GpuWeightCache
  ctx : VulkanContext

namespace WeightMemory

def new (budget : Nat) : WeightMemory where
  cache :=
    { entries := ∅
      totalCached := 0
      budget := budget
      externalReserved := 0
      tick := 0
      stagingBuf := none }
  ctx :=
    { buffers := []
      created := 0 }

def onContext {alpha : Type} (call : InPlace Fault VulkanContext alpha) :
    InPlace Fault WeightMemory alpha :=
  InPlace.onPart WeightMemory.ctx (fun ctx memory => { memory with ctx := ctx }) call

/-- The bytes that the entries and the reservations take, with those of one more buffer. -/
def taken (memory : WeightMemory) (incomingBytes : Nat) : Nat :=
  memory.cache.totalCached + memory.cache.externalReserved + incomingBytes

/-- `iter().filter(!pinned).min_by_key(last_used)`. -/
def lru (memory : WeightMemory) : Option (Sigma fun _ : WeightId => CachedWeight) :=
  (memory.cache.entries.entries.filter (fun entry => !entry.2.pinned)).argmin
    (fun entry => entry.2.lastUsed)

def evict (memory : WeightMemory) (id : WeightId) (evicted : CachedWeight) : WeightMemory where
  cache := { memory.cache with
    entries := memory.cache.entries.erase id
    totalCached := memory.cache.totalCached - evicted.buf.size }
  ctx := memory.ctx.destroyBuffer evicted.buf

/-- The loop of `evict_to_fit`; every round removes an entry. -/
def evictRounds (incomingBytes : Nat) : Nat -> InPlace Fault WeightMemory Unit
  | rounds, memory =>
    if usizeLimit <= memory.taken incomingBytes then
      (memory, abort "attempt to add with overflow")
    else if memory.cache.budget < memory.taken incomingBytes then
      match rounds, memory.lru with
      | rounds + 1, some entry => evictRounds incomingBytes rounds (memory.evict entry.1 entry.2)
      | _, _ =>
        (memory, report s!"GPU weight cache pinned set exceeds budget: cached={memory.cache.totalCached} external={memory.cache.externalReserved} incoming={incomingBytes} budget={memory.cache.budget}")
    else
      (memory, .ok ())

def evictToFit (incomingBytes : Nat) : InPlace Fault WeightMemory Unit := fun memory =>
  evictRounds incomingBytes memory.cache.entries.entries.length memory

def reclaimUnpinned : InPlace Fault WeightMemory Nat := fun memory =>
  let unpinned := memory.cache.entries.entries.filter (fun entry => !entry.2.pinned)
  let left := unpinned.foldl (fun memory entry => memory.evict entry.1 entry.2) memory
  (left, .ok (left.cache.budget - left.cache.totalCached - left.cache.externalReserved))

def reserveExternal (bytes : Nat) : InPlace Fault WeightMemory Unit := fun memory =>
  if usizeLimit <= memory.taken bytes then
    (memory, report "GPU weight cache external reservation overflow")
  else if memory.cache.budget < memory.taken bytes then
    (memory, report s!"GPU weight cache external reservation exceeds budget: cached={memory.cache.totalCached} external={memory.cache.externalReserved} requested={bytes} budget={memory.cache.budget}")
  else
    ({ memory with
      cache := { memory.cache with
        externalReserved := memory.cache.externalReserved + bytes } }, .ok ())

def releaseExternal (bytes : Nat) : InPlace Fault WeightMemory Unit := fun memory =>
  if memory.cache.externalReserved < bytes then
    (memory, report s!"GPU weight cache external release exceeds reservation: reserved={memory.cache.externalReserved} released={bytes}")
  else
    ({ memory with
      cache := { memory.cache with
        externalReserved := memory.cache.externalReserved - bytes } }, .ok ())

def setStaging (staging : Option GpuBuffer) (memory : WeightMemory) : WeightMemory :=
  { memory with
    cache := { memory.cache with stagingBuf := staging } }

def createStaging (size : Nat) (outcomes : DeviceOutcomes) :
    InPlace Fault WeightMemory GpuBuffer := do
  let staging <- onContext (VulkanContext.createBuffer size outcomes.staging)
  InPlace.modifying (setStaging (some staging))
  return staging

def ensureStaging (size : Nat) (outcomes : DeviceOutcomes) :
    InPlace Fault WeightMemory GpuBuffer := fun memory =>
  match memory.cache.stagingBuf with
  | none => createStaging size outcomes memory
  | some staging =>
    if size <= staging.size then
      (memory, .ok staging)
    else
      createStaging size outcomes
        { memory.setStaging none with
          ctx := memory.ctx.destroyBuffer staging }

def insert (id : WeightId) (buf : GpuBuffer) (size : Nat) : InPlace Fault WeightMemory Unit :=
  fun memory =>
    if memory.cache.tick + 1 < usizeLimit then
      ({ memory with
        cache := { memory.cache with
          tick := memory.cache.tick + 1
          totalCached := memory.cache.totalCached + size
          entries := memory.cache.entries.insert id
            { buf := buf
              lastUsed := memory.cache.tick + 1
              pinned := false } } }, .ok ())
    else
      (memory, abort "attempt to add with overflow")

def uploadDeviceLocal (id : WeightId) (size : Nat) (outcomes : DeviceOutcomes) :
    InPlace Fault WeightMemory Unit := do
  evictToFit size
  let staging <- ensureStaging size outcomes
  onContext (VulkanContext.uploadToBuffer outcomes.stagingUpload)
  let buf <- onContext (VulkanContext.createDeviceLocal staging size outcomes)
  insert id buf size

def uploadDeviceLocalDirect (id : WeightId) (rawBytes : List UInt8) (outcomes : DeviceOutcomes) :
    InPlace Fault WeightMemory Unit :=
  uploadDeviceLocal id (paddedSize rawBytes) outcomes

def uploadHostVisible (id : WeightId) (size : Nat) (outcomes : DeviceOutcomes) :
    InPlace Fault WeightMemory Unit := do
  evictToFit size
  let buf <- onContext (VulkanContext.createHostVisible size outcomes)
  insert id buf size

def uploadHostVisibleDirect (id : WeightId) (rawBytes : List UInt8) (outcomes : DeviceOutcomes) :
    InPlace Fault WeightMemory Unit :=
  uploadHostVisible id (paddedSize rawBytes) outcomes

def upload (id : WeightId) (rawBytes : List UInt8) (rows cols : UInt32) (quant : QuantType)
    (outcomes : DeviceOutcomes) : GpuWeightMode -> InPlace Fault WeightMemory Unit
  | .soa => do
      let size <- InPlace.reading (fun _ => repackedSize quant rawBytes rows cols)
      uploadDeviceLocal id size outcomes
  | .rowMajor => uploadDeviceLocalDirect id rawBytes outcomes
  | .raw32 => uploadHostVisibleDirect id rawBytes outcomes

def get (memory : WeightMemory) (id : WeightId) : Option GpuBuffer :=
  (memory.cache.entries.lookup id).map CachedWeight.buf

/-- `&self.entries[&id].buf`. -/
def indexed (id : WeightId) : InPlace Fault WeightMemory GpuBuffer :=
  InPlace.reading (fun memory =>
    match memory.get id with
    | some buf => .ok buf
    | none => abort "no entry found for key")

/-- The fast path of `get_or_upload`: count the use of a cached weight. -/
def touch (id : WeightId) (entry : CachedWeight) : InPlace Fault WeightMemory Unit :=
  fun memory =>
    if memory.cache.tick + 1 < usizeLimit then
      ({ memory with
        cache := { memory.cache with
          tick := memory.cache.tick + 1
          entries := memory.cache.entries.insert id
            { entry with lastUsed := memory.cache.tick + 1 } } }, .ok ())
    else
      (memory, abort "attempt to add with overflow")

def getOrUpload (id : WeightId) (rawBytes : List UInt8) (rows cols : UInt32)
    (quant : QuantType) (mode : GpuWeightMode) (outcomes : DeviceOutcomes) :
    InPlace Fault WeightMemory GpuBuffer := fun memory =>
  match memory.cache.entries.lookup id with
  | some entry => (touch id entry >>= fun () => indexed id) memory
  | none =>
    (upload id rawBytes rows cols quant outcomes (effectiveUploadMode mode quant rows cols) >>=
      fun () => indexed id) memory

def pin (id : WeightId) : InPlace Fault WeightMemory Unit := fun memory =>
  match memory.cache.entries.lookup id with
  | none => (memory, report s!"cannot pin missing GPU weight {reprStr id}")
  | some entry =>
    ({ memory with
      cache := { memory.cache with
        entries := memory.cache.entries.insert id { entry with pinned := true } } }, .ok ())

end WeightMemory

/-!
# Calls
-/

inductive WeightCall where
  | getOrUpload (id : WeightId) (rawBytes : List UInt8) (rows cols : UInt32)
      (quant : QuantType) (mode : GpuWeightMode) (outcomes : DeviceOutcomes)
  | pin (id : WeightId)
  | reclaimUnpinned
  | reserveExternal (bytes : Nat)
  | releaseExternal (bytes : Nat)

inductive WeightAnswer where
  | buffer (buf : GpuBuffer)
  | bytes (available : Nat)
  | done

def WeightCall.make : WeightCall -> InPlace Fault WeightMemory WeightAnswer
  | .getOrUpload id rawBytes rows cols quant mode outcomes => do
      let buf <- WeightMemory.getOrUpload id rawBytes rows cols quant mode outcomes
      return .buffer buf
  | .pin id => do
      WeightMemory.pin id
      return .done
  | .reclaimUnpinned => do
      let available <- WeightMemory.reclaimUnpinned
      return .bytes available
  | .reserveExternal bytes => do
      WeightMemory.reserveExternal bytes
      return .done
  | .releaseExternal bytes => do
      WeightMemory.releaseExternal bytes
      return .done

end Vulkan
end RunNBurn
