import Mathlib.Algebra.BigOperators.Group.List.Basic
import Mathlib.Algebra.Ring.Basic
import RunNBurn.Library.Bytes
import RunNBurn.Library.Writes

/-!
# Groups of eight packed rows

A packed block holds one super-block of eight rows.  The quants of a pair of rows alternate in
chunks of eight bytes; behind them stand the scales, the minimums and the two factors of every
row.
-/

namespace RunNBurn
namespace Gemm

open Library

/-!
## Bytes of a block
-/

def byteAt (bytes : List UInt8) (i : Nat) : UInt8 :=
  bytes.getD i 0

/-- `f16::from_le_bytes([bytes[i], bytes[i + 1]])`, as its bits. -/
def halfAt (bytes : List UInt8) (i : Nat) : UInt16 :=
  UInt16.ofNat (leValue [byteAt bytes i, byteAt bytes (i + 1)])

/-- `to_le_bytes()` of an `f32` with these bits. -/
def f32Bytes (bits : UInt32) : List UInt8 :=
  leBytes 4 bits.toNat

/-- `f32::from_le_bytes`, as its bits. -/
def f32OfBytes (bytes : List UInt8) : UInt32 :=
  UInt32.ofNat (leValue bytes)

@[simp] theorem length_f32Bytes (bits : UInt32) : (f32Bytes bits).length = 4 :=
  leBytes_length 4 bits.toNat

@[simp] theorem f32OfBytes_f32Bytes (bits : UInt32) : f32OfBytes (f32Bytes bits) = bits := by
  unfold f32OfBytes f32Bytes
  rw [leValue_leBytes bits.toNat_lt, UInt32.ofNat_toNat]

def scaleAndMin (scales : List UInt8) (j : Nat) : UInt8 × UInt8 :=
  if j < 4 then
    (byteAt scales j &&& (63 : UInt8), byteAt scales (j + 4) &&& (63 : UInt8))
  else
    ((byteAt scales (j + 4) &&& (0x0F : UInt8)) ||| ((byteAt scales (j - 4) >>> 6) <<< 4),
      (byteAt scales (j + 4) >>> 4) ||| ((byteAt scales j >>> 6) <<< 4))

def decodeQ4kScalesRaw (scales : List UInt8) : List UInt8 × List UInt8 :=
  ((List.range 8).map fun j => (scaleAndMin scales j).1,
    (List.range 8).map fun j => (scaleAndMin scales j).2)

/-!
## The rows of a group
-/

structure UnpackedRow where
  qs : List UInt8
  sc : List UInt8
  mn : List UInt8
  d : UInt32
  dmin : UInt32
  length_qs : qs.length = 256
  length_sc : sc.length = 8
  length_mn : mn.length = 8

def UnpackedRow.zero : UnpackedRow where
  qs := List.replicate 256 0
  sc := List.replicate 8 0
  mn := List.replicate 8 0
  d := 0
  dmin := 0
  length_qs := List.length_replicate
  length_sc := List.length_replicate
  length_mn := List.length_replicate

def qsOff : Nat := 0
def scRawOff : Nat := 2048
def mnRawOff : Nat := scRawOff + 64
def dOff : Nat := mnRawOff + 64
def dminOff : Nat := dOff + 32
def packedBlockBytes : Nat := dminOff + 32

/-- `bytes[k * 8..k * 8 + 8]` -/
def chunk (bytes : List UInt8) (k : Nat) : List UInt8 :=
  region bytes (k * 8) 8

def interleaveWrites (qs : Nat -> List UInt8) : List (Write UInt8) :=
  (List.range 4).flatMap fun p =>
    (List.range 32).flatMap fun k =>
      [{ start := qsOff + p * 512 + k * 16
         part := chunk (qs (p * 2)) k },
       { start := qsOff + p * 512 + k * 16 + 8
         part := chunk (qs (p * 2 + 1)) k }]

def packedWrites (rows : Nat -> UnpackedRow) : List (Write UInt8) :=
  interleaveWrites (fun nr => (rows nr).qs) ++
    fieldWrites 8 scRawOff 8 (fun nr => (rows nr).sc) ++
    fieldWrites 8 mnRawOff 8 (fun nr => (rows nr).mn) ++
    fieldWrites 8 dOff 4 (fun nr => f32Bytes (rows nr).d) ++
    fieldWrites 8 dminOff 4 (fun nr => f32Bytes (rows nr).dmin)

/-!
## Reading a packed block
-/

section

variable (packed : List UInt8) (nr : Nat)

def readPackedQs : Checked (List UInt8) := do
  let chunks <- (List.range 32).mapM fun k =>
    slice packed (qsOff + nr / 2 * 512 + k * 16 + nr % 2 * 8)
      (qsOff + nr / 2 * 512 + k * 16 + nr % 2 * 8 + 8)
  return chunks.flatten

def readPackedScRaw : Checked (List UInt8) :=
  slice packed (scRawOff + nr * 8) (scRawOff + nr * 8 + 8)

def readPackedMnRaw : Checked (List UInt8) :=
  slice packed (mnRawOff + nr * 8) (mnRawOff + nr * 8 + 8)

def readPackedD : Checked UInt32 := do
  let bytes <- slice packed (dOff + nr * 4) (dOff + nr * 4 + 4)
  return f32OfBytes bytes

def readPackedDmin : Checked UInt32 := do
  let bytes <- slice packed (dminOff + nr * 4) (dminOff + nr * 4 + 4)
  return f32OfBytes bytes

end

/-!
## Packing the groups
-/

/-- `a.div_ceil(b)` -/
def divCeil (a b : Nat) : Nat :=
  if a % b = 0 then a / b else a / b + 1

section

variable (blockBytes : Nat) (unpack : List UInt8 -> UnpackedRow) (srcBytes : List UInt8)

def loadRow (rows cols row col : Nat) : Checked UnpackedRow :=
  if rows <= row then .ok .zero
  else do
    let block <- slice srcBytes ((row * cols + col) * blockBytes)
      ((row * cols + col) * blockBytes + blockBytes)
    return unpack block

def packGroup (rows cols group col : Nat) (packed : List UInt8) : Checked (List UInt8) := do
  let loaded <- (List.range 8).mapM fun nr =>
    loadRow blockBytes unpack srcBytes rows cols (group * 8 + nr) col
  runWrites (packedWrites fun nr => loaded.getD nr .zero) packed

def packGroups (rows cols : Nat) : Checked (List UInt8) :=
  forBlocks 0 packedBlockBytes (divCeil rows 8) cols
    (packGroup blockBytes unpack srcBytes rows cols)

end

/-!
# What a packed block holds
-/

variable {qs : Nat -> List UInt8}

theorem mem_interleaveWrites {write : Write UInt8} :
    write ∈ interleaveWrites qs ↔
      exists nr k, nr < 8 ∧ k < 32 ∧
        write =
          { start := qsOff + nr / 2 * 512 + k * 16 + nr % 2 * 8
            part := chunk (qs nr) k } := by
  unfold interleaveWrites
  constructor
  · intro h
    rcases List.mem_flatMap.mp h with ⟨p, hp, hpair⟩
    rcases List.mem_flatMap.mp hpair with ⟨k, hk, hwrite⟩
    have hpFour : p < 4 := List.mem_range.mp hp
    have hkChunks : k < 32 := List.mem_range.mp hk
    rcases List.mem_cons.mp hwrite with heven | hrest
    · refine ⟨p * 2, k, by omega, hkChunks, ?_⟩
      rw [heven, Nat.mul_div_cancel p (by decide : 0 < 2), Nat.mul_mod_left]
      rfl
    · have hodd := List.mem_singleton.mp hrest
      refine ⟨p * 2 + 1, k, by omega, hkChunks, ?_⟩
      have hhalf : (p * 2 + 1) / 2 = p := by omega
      have hparity : (p * 2 + 1) % 2 = 1 := by omega
      rw [hodd, hhalf, hparity]
  · intro h
    rcases h with ⟨nr, k, hnr, hk, hwrite⟩
    apply List.mem_flatMap.mpr
    refine ⟨nr / 2, List.mem_range.mpr (by omega), ?_⟩
    apply List.mem_flatMap.mpr
    refine ⟨k, List.mem_range.mpr hk, ?_⟩
    rcases Nat.mod_two_eq_zero_or_one nr with heven | hodd
    · have hrow : nr / 2 * 2 = nr := by omega
      rw [hwrite, heven, hrow]
      exact List.mem_cons_self
    · have hrow : nr / 2 * 2 + 1 = nr := by omega
      rw [hwrite, hodd, hrow]
      exact List.mem_cons_of_mem _ List.mem_cons_self

theorem length_chunk_le (bytes : List UInt8) (k : Nat) : (chunk bytes k).length <= 8 :=
  List.length_take_le 8 _

theorem length_chunk {bytes : List UInt8} {k : Nat} (h : k * 8 + 8 <= bytes.length) :
    (chunk bytes k).length = 8 :=
  length_region h

theorem flatten_chunks {bytes : List UInt8} {count : Nat} (h : bytes.length = count * 8) :
    ((List.range count).map (chunk bytes)).flatten = bytes := by
  rw [← List.flatMap_def]
  refine Eq.trans (flatMap_rowAt 8 count bytes) ?_
  rw [← h, List.take_length]

theorem interleaveWrites_congr {qs others : Nat -> List UInt8}
    (h : forall nr, nr < 8 -> qs nr = others nr) : interleaveWrites qs = interleaveWrites
      others := by
  unfold interleaveWrites
  apply List.flatMap_congr
  intro p hp
  have hpFour : p < 4 := List.mem_range.mp hp
  rw [h (p * 2) (by omega), h (p * 2 + 1) (by omega)]

theorem within_interleaveWrites (qs : Nat -> List UInt8) :
    WritesWithin qsOff scRawOff (interleaveWrites qs) := by
  intro write hmem
  rcases mem_interleaveWrites.mp hmem with ⟨nr, k, hnr, hk, hwrite⟩
  have hpart := length_chunk_le (qs nr) k
  rw [hwrite]
  unfold Write.stop qsOff scRawOff
  dsimp only
  omega

theorem region_interleaveWrites {before after : List (Write UInt8)} {buffer : List UInt8}
    {nr k : Nat} (hfit : WritesFit buffer.length (before ++ interleaveWrites qs ++ after))
    (hbefore : forall other, other ∈ before -> other.stop <= qsOff)
    (hafter : forall other, other ∈ after -> scRawOff <= other.start) (hqs : (qs nr).length = 256)
    (hnr : nr < 8) (hk : k < 32) :
    region (written (before ++ interleaveWrites qs ++ after) buffer)
        (qsOff + nr / 2 * 512 + k * 16 + nr % 2 * 8) 8 =
      chunk (qs nr) k := by
  have hlow : qsOff <= qsOff + nr / 2 * 512 + k * 16 + nr % 2 * 8 := by
    omega
  have hhigh : qsOff + nr / 2 * 512 + k * 16 + nr % 2 * 8 + 8 <= scRawOff := by
    unfold qsOff scRawOff
    omega
  apply region_written_stretch hfit hbefore hafter hlow hhigh
    (mem_interleaveWrites.mpr ⟨nr, k, hnr, hk, rfl⟩) rfl (length_chunk (by omega))
  intro other hother
  rcases mem_interleaveWrites.mp hother with ⟨row, place, hrow, hplace, hsame⟩
  by_cases hequal : row = nr ∧ place = k
  · rw [hsame, hequal.1, hequal.2]
    exact .inl rfl
  · have hpart := length_chunk_le (qs row) place
    rw [hsame]
    unfold Write.stop
    dsimp only
    omega

theorem region_written_interleaveWrites {buffer : List UInt8} {nr k : Nat}
    (hfit : WritesFit buffer.length (interleaveWrites qs)) (hqs : (qs nr).length = 256)
    (hnr : nr < 8) (hk : k < 32) :
    region (written (interleaveWrites qs) buffer)
        (qsOff + nr / 2 * 512 + k * 16 + nr % 2 * 8) 8 =
      chunk (qs nr) k := by
  have hpadded : [] ++ interleaveWrites qs ++ [] = interleaveWrites qs := by
    rw [List.nil_append, List.append_nil]
  have hregion := @region_interleaveWrites qs [] [] buffer nr k
  rw [hpadded] at hregion
  exact hregion hfit (fun other hother => absurd hother List.not_mem_nil)
    (fun other hother => absurd hother List.not_mem_nil) hqs hnr hk

structure HoldsPacked (rows : Nat -> UnpackedRow) (packed : List UInt8) : Prop where
  length_eq : packed.length = packedBlockBytes
  qs : forall nr k, nr < 8 -> k < 32 ->
    region packed (qsOff + nr / 2 * 512 + k * 16 + nr % 2 * 8) 8 = chunk (rows nr).qs k
  sc : forall nr, nr < 8 -> region packed (scRawOff + nr * 8) 8 = (rows nr).sc
  mn : forall nr, nr < 8 -> region packed (mnRawOff + nr * 8) 8 = (rows nr).mn
  d : forall nr, nr < 8 -> region packed (dOff + nr * 4) 4 = f32Bytes (rows nr).d
  dmin : forall nr, nr < 8 -> region packed (dminOff + nr * 4) 4 = f32Bytes (rows nr).dmin

section Packed

variable (rows : Nat -> UnpackedRow)

theorem within_scWrites :
    WritesWithin scRawOff mnRawOff (fieldWrites 8 scRawOff 8 (fun nr => (rows nr).sc)) :=
  within_fieldWrites (fun nr _ => (rows nr).length_sc)

theorem within_mnWrites :
    WritesWithin mnRawOff dOff (fieldWrites 8 mnRawOff 8 (fun nr => (rows nr).mn)) :=
  within_fieldWrites (fun nr _ => (rows nr).length_mn)

theorem within_dWrites :
    WritesWithin dOff dminOff (fieldWrites 8 dOff 4 (fun nr => f32Bytes (rows nr).d)) :=
  within_fieldWrites (fun nr _ => length_f32Bytes (rows nr).d)

theorem within_dminWrites :
    WritesWithin dminOff packedBlockBytes
      (fieldWrites 8 dminOff 4 (fun nr => f32Bytes (rows nr).dmin)) :=
  within_fieldWrites (fun nr _ => length_f32Bytes (rows nr).dmin)

theorem within_packedWrites : WritesWithin qsOff packedBlockBytes (packedWrites rows) := by
  unfold packedWrites
  apply WritesWithin.append ?_ (within_dminWrites rows) (by decide) (by decide)
  apply WritesWithin.append ?_ (within_dWrites rows) (by decide) (by decide)
  apply WritesWithin.append ?_ (within_mnWrites rows) (by decide) (by decide)
  exact (within_interleaveWrites _).append (within_scWrites rows) (by decide) (by decide)

theorem holdsPacked_written {buffer : List UInt8} (hlength : buffer.length = packedBlockBytes) :
    HoldsPacked rows (written (packedWrites rows) buffer) := by
  have hfit : WritesFit buffer.length (packedWrites rows) :=
    (within_packedWrites rows).fit (Nat.le_of_eq hlength.symm)
  have hqsSc := (within_interleaveWrites (fun nr => (rows nr).qs)).append
    (within_scWrites rows) (by decide) (by decide)
  have hqsMn := hqsSc.append (within_mnWrites rows) (by decide) (by decide)
  have hqsD := hqsMn.append (within_dWrites rows) (by decide) (by decide)
  have hdDmin := (within_dWrites rows).append (within_dminWrites rows) (by decide) (by decide)
  have hmnDmin := (within_mnWrites rows).append hdDmin (by decide) (by decide)
  have hscDmin := (within_scWrites rows).append hmnDmin (by decide) (by decide)
  constructor
  · rw [length_written hfit, hlength]
  · intro nr k hnr hk
    unfold packedWrites at hfit ⊢
    rw [List.append_assoc, List.append_assoc, List.append_assoc, ← List.nil_append
      (interleaveWrites _), List.append_assoc [] _ _] at hfit ⊢
    rw [← List.append_assoc [] _ _] at hfit ⊢
    exact region_interleaveWrites hfit (fun other hother => absurd hother List.not_mem_nil)
      (fun other hother => (hscDmin other hother).1) (rows nr).length_qs hnr hk
  · intro nr hnr
    unfold packedWrites at hfit ⊢
    rw [List.append_assoc, List.append_assoc] at hfit ⊢
    exact region_fieldWrites hfit (fun other hother => ((within_interleaveWrites _) other hother).2)
      (fun other hother => (hmnDmin other hother).1) (fun nr _ => (rows nr).length_sc) hnr
  · intro nr hnr
    unfold packedWrites at hfit ⊢
    rw [List.append_assoc] at hfit ⊢
    exact region_fieldWrites hfit (fun other hother => (hqsSc other hother).2)
      (fun other hother => (hdDmin other hother).1) (fun nr _ => (rows nr).length_mn) hnr
  · intro nr hnr
    unfold packedWrites at hfit ⊢
    exact region_fieldWrites hfit (fun other hother => (hqsMn other hother).2)
      (fun other hother => (within_dminWrites rows other hother).1)
      (fun nr _ => length_f32Bytes (rows nr).d) hnr
  · intro nr hnr
    unfold packedWrites at hfit ⊢
    rw [← List.append_nil (_ ++ fieldWrites 8 dminOff 4 _)] at hfit ⊢
    exact region_fieldWrites hfit (fun other hother => (hqsD other hother).2)
      (fun other hother => absurd hother List.not_mem_nil)
      (fun nr _ => length_f32Bytes (rows nr).dmin) hnr

end Packed

theorem readPackedQs_of_chunks {packed qs : List UInt8} {nr : Nat} (hqs : qs.length = 256)
    (h : forall k, k < 32 ->
      slice packed (qsOff + nr / 2 * 512 + k * 16 + nr % 2 * 8)
          (qsOff + nr / 2 * 512 + k * 16 + nr % 2 * 8 + 8) = .ok (chunk qs k)) :
    readPackedQs packed nr = .ok qs := by
  unfold readPackedQs
  rw [mapM_eq_ok (fun k hk => h k (List.mem_range.mp hk)), ok_bind, flatten_chunks hqs]
  rfl

structure ReadsZero (packed : List UInt8) (nr : Nat) : Prop where
  qs : readPackedQs packed nr = .ok (List.replicate 256 0)
  sc : readPackedScRaw packed nr = .ok (List.replicate 8 0)
  mn : readPackedMnRaw packed nr = .ok (List.replicate 8 0)
  d : readPackedD packed nr = .ok 0
  dmin : readPackedDmin packed nr = .ok 0

namespace HoldsPacked

variable {rows : Nat -> UnpackedRow} {packed : List UInt8} {nr : Nat}

theorem congr {others : Nat -> UnpackedRow} (h : HoldsPacked rows packed)
    (hsame : forall nr, nr < 8 -> rows nr = others nr) : HoldsPacked others packed where
  length_eq := h.length_eq
  qs := by
    intro nr k hnr hk
    rw [h.qs nr k hnr hk, hsame nr hnr]
  sc := by
    intro nr hnr
    rw [h.sc nr hnr, hsame nr hnr]
  mn := by
    intro nr hnr
    rw [h.mn nr hnr, hsame nr hnr]
  d := by
    intro nr hnr
    rw [h.d nr hnr, hsame nr hnr]
  dmin := by
    intro nr hnr
    rw [h.dmin nr hnr, hsame nr hnr]

theorem slice_eq (h : HoldsPacked rows packed) {start length : Nat}
    (hroom : start + length <= packedBlockBytes) :
    slice packed start (start + length) = .ok (region packed start length) :=
  slice_eq_region (by rw [h.length_eq]; exact hroom)

section

variable (h : HoldsPacked rows packed) (hnr : nr < 8)
include h hnr

theorem readPackedQs_eq :
    readPackedQs packed nr = .ok (rows nr).qs := by
  apply readPackedQs_of_chunks (rows nr).length_qs
  intro k hk
  have hroom : qsOff + nr / 2 * 512 + k * 16 + nr % 2 * 8 + 8 <= packedBlockBytes := by
    unfold packedBlockBytes dminOff dOff mnRawOff scRawOff qsOff
    omega
  rw [h.slice_eq hroom, h.qs nr k hnr hk]

theorem readPackedScRaw_eq :
    readPackedScRaw packed nr = .ok (rows nr).sc := by
  have hroom : scRawOff + nr * 8 + 8 <= packedBlockBytes := by
    unfold packedBlockBytes dminOff dOff mnRawOff
    omega
  unfold readPackedScRaw
  rw [h.slice_eq hroom, h.sc nr hnr]

theorem readPackedMnRaw_eq :
    readPackedMnRaw packed nr = .ok (rows nr).mn := by
  have hroom : mnRawOff + nr * 8 + 8 <= packedBlockBytes := by
    unfold packedBlockBytes dminOff dOff
    omega
  unfold readPackedMnRaw
  rw [h.slice_eq hroom, h.mn nr hnr]

theorem readPackedD_eq :
    readPackedD packed nr = .ok (rows nr).d := by
  have hroom : dOff + nr * 4 + 4 <= packedBlockBytes := by
    unfold packedBlockBytes dminOff
    omega
  unfold readPackedD
  rw [h.slice_eq hroom, ok_bind, h.d nr hnr, f32OfBytes_f32Bytes]
  rfl

theorem readPackedDmin_eq :
    readPackedDmin packed nr = .ok (rows nr).dmin := by
  have hroom : dminOff + nr * 4 + 4 <= packedBlockBytes := by
    unfold packedBlockBytes
    omega
  unfold readPackedDmin
  rw [h.slice_eq hroom, ok_bind, h.dmin nr hnr, f32OfBytes_f32Bytes]
  rfl

end

theorem ext {other : List UInt8} (h : HoldsPacked rows packed) (hother : HoldsPacked rows other) :
    packed = other := by
  apply List.ext_getElem?
  intro i
  by_cases hqs : i < scRawOff
  · unfold scRawOff at hqs
    have hsame : region packed (qsOff + (i / 512 * 2 + i / 8 % 2) / 2 * 512 + i / 16 % 32 * 16 +
        (i / 512 * 2 + i / 8 % 2) % 2 * 8) 8 =
        region other (qsOff + (i / 512 * 2 + i / 8 % 2) / 2 * 512 + i / 16 % 32 * 16 +
          (i / 512 * 2 + i / 8 % 2) % 2 * 8) 8 := by
      rw [h.qs _ _ (by omega) (by omega), hother.qs _ _ (by omega) (by omega)]
    exact getElem?_eq_of_region_eq hsame (by unfold qsOff; omega) (by unfold qsOff; omega)
  by_cases hsc : i < mnRawOff
  · have hsame : region packed (scRawOff + (i - scRawOff) / 8 * 8) 8 =
        region other (scRawOff + (i - scRawOff) / 8 * 8) 8 := by
      unfold mnRawOff at hsc
      rw [h.sc _ (by omega), hother.sc _ (by omega)]
    exact getElem?_eq_of_region_eq hsame (by omega) (by omega)
  by_cases hmn : i < dOff
  · have hsame : region packed (mnRawOff + (i - mnRawOff) / 8 * 8) 8 =
        region other (mnRawOff + (i - mnRawOff) / 8 * 8) 8 := by
      unfold dOff at hmn
      rw [h.mn _ (by omega), hother.mn _ (by omega)]
    exact getElem?_eq_of_region_eq hsame (by omega) (by omega)
  by_cases hd : i < dminOff
  · have hsame : region packed (dOff + (i - dOff) / 4 * 4) 4 =
        region other (dOff + (i - dOff) / 4 * 4) 4 := by
      unfold dminOff at hd
      rw [h.d _ (by omega), hother.d _ (by omega)]
    exact getElem?_eq_of_region_eq hsame (by omega) (by omega)
  by_cases hdmin : i < packedBlockBytes
  · have hsame : region packed (dminOff + (i - dminOff) / 4 * 4) 4 =
        region other (dminOff + (i - dminOff) / 4 * 4) 4 := by
      unfold packedBlockBytes at hdmin
      rw [h.dmin _ (by omega), hother.dmin _ (by omega)]
    exact getElem?_eq_of_region_eq hsame (by omega) (by omega)
  rw [List.getElem?_eq_none (by rw [h.length_eq]; omega),
    List.getElem?_eq_none (by rw [hother.length_eq]; omega)]

theorem readsZero (h : HoldsPacked rows packed) (hnr : nr < 8) (hzero : rows nr = .zero) :
    ReadsZero packed nr where
  qs := by
    rw [h.readPackedQs_eq hnr, hzero]
    rfl
  sc := by
    rw [h.readPackedScRaw_eq hnr, hzero]
    rfl
  mn := by
    rw [h.readPackedMnRaw_eq hnr, hzero]
    rfl
  d := by
    rw [h.readPackedD_eq hnr, hzero]
    rfl
  dmin := by
    rw [h.readPackedDmin_eq hnr, hzero]
    rfl

end HoldsPacked

/-!
## Every group of a weight matrix
-/

theorem lt_divCeil {a b i : Nat} (hi : i < a) : i / b < divCeil a b := by
  unfold divCeil
  have hdiv : i / b <= a / b := Nat.div_le_div_right (Nat.le_of_lt hi)
  split
  next heven =>
    apply Nat.div_lt_of_lt_mul
    rw [Nat.mul_div_cancel' (Nat.dvd_of_mod_eq_zero heven)]
    exact hi
  next => exact Nat.lt_succ_of_le hdiv

/-- The block of a row, or of a group of rows, in a row-major matrix. -/
def sourceBlock (blockBytes : Nat) (srcBytes : List UInt8) (cols row col : Nat) : List UInt8 :=
  region srcBytes ((row * cols + col) * blockBytes) blockBytes

theorem sourceBlock_room {blockBytes rows cols row col : Nat} (hrow : row < rows)
    (hcol : col < cols) :
    (row * cols + col) * blockBytes + blockBytes <= rows * cols * blockBytes := by
  have hplace : row * cols + col + 1 <= rows * cols := by
    have hrows : (row + 1) * cols <= rows * cols := Nat.mul_le_mul_right cols hrow
    rw [Nat.succ_mul] at hrows
    omega
  have hbytes := Nat.mul_le_mul_right blockBytes hplace
  rw [Nat.succ_mul] at hbytes
  exact hbytes

variable {srcBytes : List UInt8}

theorem slice_sourceBlock {blockBytes rows cols row col : Nat}
    (hlength : srcBytes.length = rows * cols * blockBytes) (hrow : row < rows) (hcol : col < cols) :
    slice srcBytes ((row * cols + col) * blockBytes)
        ((row * cols + col) * blockBytes + blockBytes) =
      .ok (sourceBlock blockBytes srcBytes cols row col) :=
  slice_eq_region (by rw [hlength]; exact sourceBlock_room hrow hcol)

def loadedRow (blockBytes : Nat) (unpack : List UInt8 -> UnpackedRow) (srcBytes : List UInt8)
    (rows cols row col : Nat) : UnpackedRow :=
  if rows <= row then .zero else unpack (sourceBlock blockBytes srcBytes cols row col)

variable {blockBytes : Nat}

theorem loadedRow_of_lt {unpack : List UInt8 -> UnpackedRow} {rows cols row col : Nat}
    (h : row < rows) :
    loadedRow blockBytes unpack srcBytes rows cols row col =
      unpack (sourceBlock blockBytes srcBytes cols row col) :=
  if_neg (Nat.not_le.mpr h)

theorem loadedRow_of_le {unpack : List UInt8 -> UnpackedRow} {rows cols row col : Nat}
    (h : rows <= row) :
    loadedRow blockBytes unpack srcBytes rows cols row col = .zero :=
  if_pos h

theorem getD_range_map {out : Type} (value : Nat -> out) (fallback : out) {n j : Nat}
    (hj : j < n) : ((List.range n).map value).getD j fallback = value j := by
  rw [List.getD_eq_getElem?_getD, List.getElem?_map, List.getElem?_range hj]
  rfl

theorem packGroups_delivers (unpack : List UInt8 -> UnpackedRow) {rows cols : Nat}
    (hlength : srcBytes.length = rows * cols * blockBytes) :
    exists out, packGroups blockBytes unpack srcBytes rows cols = .ok out ∧
      out.length = divCeil rows 8 * cols * packedBlockBytes ∧
      forall group col, group < divCeil rows 8 -> col < cols ->
        HoldsPacked
          (fun nr => loadedRow blockBytes unpack srcBytes rows cols (group * 8 + nr) col)
          (sourceBlock packedBlockBytes out cols group col) := by
  have hload : forall row col, col < cols ->
      loadRow blockBytes unpack srcBytes rows cols row col =
        .ok (loadedRow blockBytes unpack srcBytes rows cols row col) := by
    intro row col hcol
    unfold loadRow
    by_cases hrow : rows <= row
    · rw [if_pos hrow, loadedRow_of_le hrow]
    · rw [if_neg hrow, loadedRow_of_lt (Nat.not_le.mp hrow),
        slice_sourceBlock hlength (Nat.not_le.mp hrow) hcol, ok_bind]
      rfl
  have hchange : forall group col, group < divCeil rows 8 -> col < cols ->
      packGroup blockBytes unpack srcBytes rows cols group col
          (List.replicate packedBlockBytes 0) =
        .ok (written (packedWrites fun nr =>
            ((List.range 8).map fun nr =>
              loadedRow blockBytes unpack srcBytes rows cols (group * 8 + nr) col).getD nr .zero)
          (List.replicate packedBlockBytes 0)) := by
    intro group col _ hcol
    unfold packGroup
    rw [mapM_eq_ok (fun nr _ => hload (group * 8 + nr) col hcol), ok_bind]
    exact runWrites_eq ((within_packedWrites _).fit (Nat.le_of_eq List.length_replicate.symm))
  have hholds : forall group col,
      HoldsPacked
        (fun nr => ((List.range 8).map fun nr =>
          loadedRow blockBytes unpack srcBytes rows cols (group * 8 + nr) col).getD nr .zero)
        (written (packedWrites fun nr =>
            ((List.range 8).map fun nr =>
              loadedRow blockBytes unpack srcBytes rows cols (group * 8 + nr) col).getD nr .zero)
          (List.replicate packedBlockBytes 0)) :=
    fun group col => holdsPacked_written _ List.length_replicate
  rcases forBlocks_delivers hchange (fun group col _ _ => (hholds group col).length_eq) with
    ⟨out, hrun, hout, hregion⟩
  refine ⟨out, hrun, hout, ?_⟩
  intro group col hgroup hcol
  unfold sourceBlock
  rw [hregion group col hgroup hcol]
  apply (hholds group col).congr
  intro nr hnr
  exact getD_range_map _ _ hnr

/-!
## Reading the values of a row
-/

section Values

variable {R : Type} [CommRing R]

def readBlockRow {out : Type} (blockBytes : Nat) (read : List UInt8 -> Nat -> Checked out)
    (packed : List UInt8) (cols row col : Nat) : Checked out := do
  let block <- slice packed ((row / 8 * cols + col) * blockBytes)
    ((row / 8 * cols + col) * blockBytes + blockBytes)
  read block (row % 8)

def blockDot (x : Nat -> R) (col : Nat) (values : List R) : R :=
  ((List.range 256).map fun i => values.getD i 0 * x (col * 256 + i)).sum

def packedRowDot (blockBytes : Nat) (readValues : List UInt8 -> Nat -> Checked (List R))
    (packed : List UInt8) (cols row : Nat) (x : Nat -> R) : Checked R := do
  let values <- (List.range cols).mapM (readBlockRow blockBytes readValues packed cols row)
  return (values.zipIdx.map fun entry => blockDot x entry.2 entry.1).sum

/-- The dot product of a row whose super-blocks have these values. -/
def rowDot (values : Nat -> List R) (cols : Nat) (x : Nat -> R) : R :=
  ((List.range cols).map fun col => blockDot x col (values col)).sum

/-- A packed matrix is read back with the values of the original blocks.  The rows that fill up
the last group are read as zeros, and a dot product is that of the original row. -/
def ReadsAs (sourceBytes blockBytes : Nat) (pack : Checked (List UInt8))
    (readValues : List UInt8 -> Nat -> Checked (List R)) (readsZero : List UInt8 -> Nat -> Prop)
    (dequantize : List UInt8 -> List R) (srcBytes : List UInt8) (rows cols : Nat) : Prop :=
  exists packed, pack = .ok packed ∧
    packed.length = divCeil rows 8 * cols * blockBytes ∧
    (forall row col, row < rows -> col < cols ->
      readBlockRow blockBytes readValues packed cols row col =
        .ok (dequantize (sourceBlock sourceBytes srcBytes cols row col))) ∧
    (forall row col, rows <= row -> row / 8 < divCeil rows 8 -> col < cols ->
      readsZero (sourceBlock blockBytes packed cols (row / 8) col) (row % 8)) ∧
    forall row x, row < rows ->
      packedRowDot blockBytes readValues packed cols row x =
        .ok (rowDot (fun col => dequantize (sourceBlock sourceBytes srcBytes cols row col)) cols x)

theorem packedRowDot_eq {blockBytes cols row : Nat}
    {readValues : List UInt8 -> Nat -> Checked (List R)} {packed : List UInt8}
    {values : Nat -> List R} (x : Nat -> R) (h : forall col, col < cols ->
      readBlockRow blockBytes readValues packed cols row col = .ok (values col)) :
    packedRowDot blockBytes readValues packed cols row x = .ok (rowDot values cols x) := by
  have hvalues : (List.range cols).mapM (readBlockRow blockBytes readValues packed cols row) =
      .ok ((List.range cols).map values) :=
    mapM_eq_ok (fun col hcol => h col (List.mem_range.mp hcol))
  have hindexed : (((List.range cols).map values).zipIdx.map fun entry =>
      blockDot x entry.2 entry.1) =
      (List.range cols).map fun col => blockDot x col (values col) := by
    apply List.ext_getElem?
    intro i
    rw [List.getElem?_map, List.getElem?_zipIdx, List.getElem?_map, List.getElem?_map, Nat.zero_add]
    by_cases hi : i < cols
    · rw [List.getElem?_range hi]
      rfl
    · rw [List.getElem?_eq_none (by rw [List.length_range]; omega)]
      rfl
  unfold packedRowDot rowDot
  rw [hvalues, ok_bind, hindexed]
  rfl

theorem readBlockRow_eq {out : Type} {blockBytes groups cols row col : Nat}
    {read : List UInt8 -> Nat -> Checked out} {packed : List UInt8}
    (hlength : packed.length = groups * cols * blockBytes) (hrow : row / 8 < groups)
    (hcol : col < cols) :
    readBlockRow blockBytes read packed cols row col =
      read (sourceBlock blockBytes packed cols (row / 8) col) (row % 8) := by
  unfold readBlockRow
  rw [slice_sourceBlock hlength hrow hcol]
  rfl

end Values

end Gemm
end RunNBurn
