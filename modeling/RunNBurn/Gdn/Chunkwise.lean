import RunNBurn.Gdn.Kernels
import RunNBurn.Library.Loop

/-!
# The delta net by chunks

The scan of a head goes chunk by chunk: the corrections of a chunk are found by
forward substitution, and the state is handed over once for each chunk.
-/

namespace RunNBurn
namespace Gdn

open Library

variable {F : Type} [Field F]

structure ScanInput (F : Type) where
  q : List F
  k : List F
  v : List F
  gate : List F
  beta : List F
  numHeads : Nat
  headKDim : Nat
  headVDim : Nat

structure ChunkAt where
  head : Nat
  start : Nat
  len : Nat

structure ScanBuffers (F : Type) where
  output : List F
  state : List F

/-- `xs[start..start + row.len()].copy_from_slice(row)` -/
def putPart (xs : List F) (start : Nat) (row : List F) : List F :=
  xs.take start ++ row ++ xs.drop (start + row.length)

namespace ScanInput

variable (input : ScanInput F) (chunk : ChunkAt)

def qkIdx (r d : Nat) : Nat :=
  ((chunk.start + r) * input.numHeads + chunk.head) * input.headKDim + d

def vIdx (r d : Nat) : Nat :=
  ((chunk.start + r) * input.numHeads + chunk.head) * input.headVDim + d

def gb (r : Nat) : Nat :=
  (chunk.start + r) * input.numHeads + chunk.head

def stateSize : Nat :=
  input.headVDim * input.headKDim

def sIdx (vi ki : Nat) : Nat :=
  chunk.head * input.stateSize + (vi * input.headKDim + ki)

def gCum : List F :=
  ((List.range chunk.len).foldl (fun sums r =>
      let accG := sums.1 + entry input.gate (input.gb chunk r)
      (accG, sums.2 ++ [accG]))
    (0, [])).2

variable (e : Elementary F)

/-- The products of the key of token `r` with the keys before it, decayed. -/
def sKk (gCum : List F) (r : Nat) : List F :=
  (List.range r).map fun i =>
    let kk := (List.range input.headKDim).foldl
      (fun kk d =>
        kk + entry input.k (input.qkIdx chunk i d) * entry input.k (input.qkIdx chunk r d)) 0
    kk * e.exp (entry gCum r - entry gCum i)

/-- The corrections of token `r`, from those of the tokens before it. -/
def uCorrRow (state gCum uCorr : List F) (r : Nat) : List F :=
  let br := entry input.beta (input.gb chunk r)
  let gr := e.exp (entry gCum r)
  let sKk := input.sKk chunk e gCum r
  (List.range input.headVDim).map fun vi =>
    let pred := (List.range input.headKDim).foldl
      (fun pred ki =>
        pred + entry state (input.sIdx chunk vi ki) * entry input.k (input.qkIdx chunk r ki)) 0
    let a := (List.range r).foldl
      (fun a i => a - entry sKk i * entry uCorr (i * input.headVDim + vi))
      (entry input.v (input.vIdx chunk r vi) - gr * pred)
    br * a

def uCorr (state gCum : List F) : List F :=
  (List.range chunk.len).foldl
    (fun uCorr r => uCorr ++ input.uCorrRow chunk e state gCum uCorr r) []

def outputRow (state gCum uCorr : List F) (r : Nat) : List F :=
  let gr := e.exp (entry gCum r)
  (List.range input.headVDim).map fun vi =>
    let inter := (List.range input.headKDim).foldl
      (fun inter ki =>
        inter + entry state (input.sIdx chunk vi ki) * entry input.q (input.qkIdx chunk r ki)) 0
    (List.range (r + 1)).foldl
      (fun o j =>
        let qk := (List.range input.headKDim).foldl
          (fun qk d =>
            qk + entry input.q (input.qkIdx chunk r d) * entry input.k (input.qkIdx chunk j d)) 0
        o + qk * e.exp (entry gCum r - entry gCum j) * entry uCorr (j * input.headVDim + vi))
      (inter * gr)

def handOff (state gCum uCorr : List F) : List F :=
  let gLast := entry gCum (chunk.len - 1)
  let gc := e.exp gLast
  (List.range input.headVDim).flatMap fun vi =>
    (List.range input.headKDim).map fun ki =>
      (List.range chunk.len).foldl
        (fun a j =>
          let rescale := e.exp (gLast - entry gCum j)
          a + rescale * entry uCorr (j * input.headVDim + vi) *
            entry input.k (input.qkIdx chunk j ki))
        (gc * entry state (input.sIdx chunk vi ki))

def runChunk (buffers : ScanBuffers F) : ScanBuffers F :=
  let gCum := input.gCum chunk
  let uCorr := input.uCorr chunk e buffers.state gCum
  { output := (List.range chunk.len).foldl
      (fun output r => putPart output (input.vIdx chunk r 0)
        (input.outputRow chunk e buffers.state gCum uCorr r))
      buffers.output
    state := putPart buffers.state (chunk.head * input.stateSize)
      (input.handOff chunk e buffers.state gCum uCorr) }

end ScanInput

structure ChunkLoop (F : Type) where
  buffers : ScanBuffers F
  t0 : Nat

section

variable (e : Elementary F) (input : ScanInput F)

/-- One round of `while t0 < seq_len`. -/
def chunkRound (seqLen chunkSize head : Nat) (s : ChunkLoop F) : Step (ChunkLoop F) :=
  if s.t0 < seqLen then
    let c := min chunkSize (seqLen - s.t0)
    .next {
      buffers := input.runChunk { head := head, start := s.t0, len := c } e s.buffers
      t0 := s.t0 + c }
  else
    .done s

def scanHeadChunks (seqLen chunkSize : Nat)
    (buffers : ScanBuffers F) (head : Nat) : ScanBuffers F :=
  (iterate (chunkRound e input seqLen chunkSize head) (seqLen + 1)
    { buffers := buffers, t0 := 0 }).buffers

/-- The inputs are read as long as documented; the state is checked, since it is written. -/
def deltaNetScanChunkwise (state : List F)
    (seqLen chunkSize : Nat) : Checked (List F × List F) := do
  let chunkSize := max chunkSize 1
  require (seqLen = 0 ∨ input.numHeads * input.stateSize <= state.length)
    "index out of bounds"
  let start : ScanBuffers F := {
    output := List.replicate (seqLen * input.numHeads * input.headVDim) 0
    state := state }
  let final := (List.range input.numHeads).foldl
    (scanHeadChunks e input seqLen chunkSize) start
  return (final.output, final.state)

/-- `delta_net_scan_scalar_into`, whose step keeps the corrections of a token in a
buffer of 256 entries. -/
def deltaNetScanScalarInto (state : List F) (seqLen : Nat) : Checked (List F × List F) := do
  require (seqLen = 0 ∨ input.numHeads = 0 ∨ input.headVDim <= 256)
    "index out of bounds: the len is 256"
  deltaNetScan e input.q input.k input.v input.gate input.beta state seqLen
    input.numHeads input.headKDim input.headVDim

end

def ScanInput.window (input : ScanInput F) (start len : Nat) : ScanInput F :=
  let qkStride := input.numHeads * input.headKDim
  let vStride := input.numHeads * input.headVDim
  { input with
    q := part input.q (start * qkStride) (len * qkStride)
    k := part input.k (start * qkStride) (len * qkStride)
    v := part input.v (start * vStride) (len * vStride)
    gate := part input.gate (start * input.numHeads) (len * input.numHeads)
    beta := part input.beta (start * input.numHeads) (len * input.numHeads) }

/-- A call of a run of calls: so many tokens in chunks of such a size. -/
structure ChunkCall where
  len : Nat
  chunkSize : Nat

def scanCalls (e : Elementary F) (input : ScanInput F) :
    Nat -> List ChunkCall -> List F -> Checked (List F × List F)
  | _, [], state => .ok ([], state)
  | start, call :: rest, state => do
      let scanned <-
        deltaNetScanChunkwise e (input.window start call.len) state call.len call.chunkSize
      let others <- scanCalls e input (start + call.len) rest scanned.2
      return (scanned.1 ++ others.1, others.2)

end Gdn
end RunNBurn
