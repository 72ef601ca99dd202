import RunNBurn.Library.RowLoops

/-!
# Buffers written in pieces

A run of slice copies is given by the list of its writes.  An entry of the buffer is that of the
writes that cover it, if they agree, and the old one if no write covers it.
-/

namespace RunNBurn
namespace Library

variable {entry : Type}

/-- `buffer[start..start + part.len()].copy_from_slice(part)` -/
structure Write (entry : Type) where
  start : Nat
  part : List entry

namespace Write

/-- `buffer[start] = x` -/
def one (start : Nat) (x : entry) : Write entry where
  start := start
  part := [x]

def stop (write : Write entry) : Nat :=
  write.start + write.part.length

def Covers (write : Write entry) (i : Nat) : Prop :=
  write.start <= i ∧ i < write.stop

def overwrite (buffer : List entry) (write : Write entry) : List entry :=
  buffer.take write.start ++ write.part ++ buffer.drop write.stop

def run (buffer : List entry) (write : Write entry) : Checked (List entry) :=
  if write.stop <= buffer.length then .ok (overwrite buffer write)
  else abort "range end index out of range for slice"

@[simp] theorem stop_one (start : Nat) (x : entry) : (one start x).stop = start + 1 :=
  rfl

variable {write : Write entry}

theorem length_overwrite {buffer : List entry} (h : write.stop <= buffer.length) :
    (overwrite buffer write).length = buffer.length := by
  unfold overwrite
  unfold stop at h ⊢
  rw [List.length_append, List.length_append, List.length_take, List.length_drop]
  omega

theorem getElem?_overwrite_of_covers {buffer : List entry} {i : Nat}
    (h : write.stop <= buffer.length) (hi : write.Covers i) :
    (overwrite buffer write)[i]? = write.part[i - write.start]? := by
  rcases hi with ⟨hlow, hhigh⟩
  unfold stop at h hhigh
  have htake : (buffer.take write.start).length = write.start := by
    rw [List.length_take]
    omega
  unfold overwrite
  rw [List.append_assoc, List.getElem?_append_right (by rw [htake]; exact hlow), htake,
    List.getElem?_append_left (by omega)]

theorem getElem?_overwrite_of_not_covers {buffer : List entry} {i : Nat}
    (h : write.stop <= buffer.length) (hi : ¬write.Covers i) :
    (overwrite buffer write)[i]? = buffer[i]? := by
  unfold stop at h
  have htake : (buffer.take write.start).length = write.start := by
    rw [List.length_take]
    omega
  unfold overwrite
  by_cases hlow : i < write.start
  · rw [List.append_assoc, List.getElem?_append_left (by rw [htake]; exact hlow),
      List.getElem?_take_of_lt hlow]
  · have hhigh : write.stop <= i := by
      unfold Covers at hi
      omega
    unfold stop at hhigh ⊢
    rw [List.getElem?_append_right (by rw [List.length_append, htake]; exact hhigh),
      List.length_append, htake, List.getElem?_drop, Nat.add_sub_cancel' hhigh]

end Write

def written (writes : List (Write entry)) (buffer : List entry) : List entry :=
  writes.foldl Write.overwrite buffer

def runWrites (writes : List (Write entry)) (buffer : List entry) : Checked (List entry) :=
  writes.foldlM Write.run buffer

def WritesFit (length : Nat) (writes : List (Write entry)) : Prop :=
  forall write, write ∈ writes -> write.stop <= length

section Written

variable {writes : List (Write entry)} {buffer : List entry}

theorem length_written (h : WritesFit buffer.length writes) :
    (written writes buffer).length = buffer.length := by
  induction writes generalizing buffer with
  | nil => rfl
  | cons write rest ih =>
    have hwrite : write.stop <= buffer.length := h write List.mem_cons_self
    have hlength := Write.length_overwrite hwrite
    refine Eq.trans (ih ?_) hlength
    rw [hlength]
    exact fun other hother => h other (List.mem_cons_of_mem write hother)

theorem runWrites_eq (h : WritesFit buffer.length writes) :
    runWrites writes buffer = .ok (written writes buffer) := by
  induction writes generalizing buffer with
  | nil => rfl
  | cons write rest ih =>
    have hwrite : write.stop <= buffer.length := h write List.mem_cons_self
    unfold runWrites written at ih ⊢
    rw [List.foldlM_cons, List.foldl_cons, ← ih]
    · unfold Write.run
      rw [if_pos hwrite]
      rfl
    · rw [Write.length_overwrite hwrite]
      exact fun other hother => h other (List.mem_cons_of_mem write hother)

theorem getElem?_written_of_not_covers {i : Nat} (h : WritesFit buffer.length writes)
    (hi : forall write, write ∈ writes -> ¬write.Covers i) :
    (written writes buffer)[i]? = buffer[i]? := by
  induction writes generalizing buffer with
  | nil => rfl
  | cons write rest ih =>
    have hwrite : write.stop <= buffer.length := h write List.mem_cons_self
    refine Eq.trans (ih ?_ ?_) ?_
    · rw [Write.length_overwrite hwrite]
      exact fun other hother => h other (List.mem_cons_of_mem write hother)
    · exact fun other hother => hi other (List.mem_cons_of_mem write hother)
    · exact Write.getElem?_overwrite_of_not_covers hwrite (hi write List.mem_cons_self)

theorem getElem?_written {i : Nat} {x : Option entry} (h : WritesFit buffer.length writes)
    (hcover : exists write, write ∈ writes ∧ write.Covers i)
    (hagree : forall write, write ∈ writes -> write.Covers i ->
      write.part[i - write.start]? = x) :
    (written writes buffer)[i]? = x := by
  induction writes generalizing buffer with
  | nil =>
    rcases hcover with ⟨write, hmem, -⟩
    cases hmem
  | cons write rest ih =>
    have hwrite : write.stop <= buffer.length := h write List.mem_cons_self
    have hrest : WritesFit (Write.overwrite buffer write).length rest := by
      rw [Write.length_overwrite hwrite]
      exact fun other hother => h other (List.mem_cons_of_mem write hother)
    by_cases hlater : exists other, other ∈ rest ∧ other.Covers i
    · exact ih hrest hlater (fun other hother => hagree other (List.mem_cons_of_mem write hother))
    · have hfirst : write.Covers i := by
        rcases hcover with ⟨other, hother, hcovers⟩
        rcases List.mem_cons.mp hother with hsame | hmem
        · rw [hsame] at hcovers
          exact hcovers
        · exact absurd ⟨other, hmem, hcovers⟩ hlater
      have hkept : (written rest (Write.overwrite buffer write))[i]? =
          (Write.overwrite buffer write)[i]? :=
        getElem?_written_of_not_covers hrest
          (fun other hother hcovers => hlater ⟨other, hother, hcovers⟩)
      refine Eq.trans hkept ?_
      rw [Write.getElem?_overwrite_of_covers hwrite hfirst]
      exact hagree write List.mem_cons_self hfirst

theorem getElem?_written_one {i : Nat} {x : entry} (h : WritesFit buffer.length writes)
    (hmem : Write.one i x ∈ writes) (hagree : forall write, write ∈ writes ->
      exists j y, write = Write.one j y ∧ (j = i -> y = x)) :
    (written writes buffer)[i]? = some x := by
  apply getElem?_written h
  · exact ⟨Write.one i x, hmem, Nat.le_refl i, Nat.lt_succ_self i⟩
  · intro write hwrite hcovers
    rcases hagree write hwrite with ⟨j, y, hone, hsame⟩
    rw [hone] at hcovers ⊢
    have hplace : j = i := Nat.le_antisymm hcovers.1 (Nat.le_of_lt_succ hcovers.2)
    rw [hsame hplace, hplace]
    unfold Write.one
    rw [Nat.sub_self]
    rfl

theorem written_append (first second : List (Write entry)) (buffer : List entry) :
    written (first ++ second) buffer = written second (written first buffer) :=
  List.foldl_append

end Written

/-!
## Regions
-/

/-- `buffer[start..start + length]` -/
def region (buffer : List entry) (start length : Nat) : List entry :=
  (buffer.drop start).take length

variable {buffer : List entry} {start length : Nat}

theorem length_region (h : start + length <= buffer.length) :
    (region buffer start length).length = length := by
  unfold region
  rw [List.length_take, List.length_drop]
  omega

theorem getElem?_region {start length i : Nat} (hi : i < length) :
    (region buffer start length)[i]? = buffer[start + i]? := by
  unfold region
  rw [List.getElem?_take_of_lt hi, List.getElem?_drop]

theorem region_ext {buffer part : List entry} (hlength : part.length = length)
    (h : forall i, i < length -> buffer[start + i]? = part[i]?) :
    region buffer start length = part := by
  apply List.ext_getElem?
  intro i
  by_cases hi : i < length
  · rw [getElem?_region hi, h i hi]
  · have hpart : part[i]? = none := List.getElem?_eq_none (by omega)
    have hregion : (region buffer start length)[i]? = none := by
      apply List.getElem?_eq_none
      unfold region
      rw [List.length_take]
      omega
    rw [hpart, hregion]

theorem getElem?_eq_of_region_eq {left right : List entry} {start length i : Nat}
    (h : region left start length = region right start length) (hlow : start <= i)
    (hhigh : i < start + length) : left[i]? = right[i]? := by
  have hleft : (region left start length)[i - start]? = left[start + (i - start)]? :=
    getElem?_region (by omega)
  have hright : (region right start length)[i - start]? = right[start + (i - start)]? :=
    getElem?_region (by omega)
  rw [Nat.add_sub_cancel' hlow] at hleft hright
  rw [← hleft, ← hright, h]

theorem slice_eq_region (h : start + length <= buffer.length) :
    slice buffer start (start + length) = .ok (region buffer start length) := by
  rw [slice_of_le (Nat.le_add_right start length) h, Nat.add_sub_cancel_left]
  rfl

theorem region_region {start length inner count : Nat} (h : inner + count <= length) :
    region (region buffer start length) inner count = region buffer (start + inner) count :=
  take_drop_take_drop buffer start h

theorem region_replicate {x : entry} {total start length : Nat} (h : start + length <= total) :
    region (List.replicate total x) start length = List.replicate length x := by
  unfold region
  rw [List.drop_replicate, List.take_replicate, Nat.min_eq_left (by omega)]

section RegionWritten

variable {writes : List (Write entry)} {buffer : List entry}

theorem region_written {write : Write entry} {start length : Nat}
    (h : WritesFit buffer.length writes) (hmem : write ∈ writes) (hstart : write.start = start)
    (hlength : write.part.length = length) (hothers : forall other, other ∈ writes ->
      other = write ∨ other.stop <= start ∨ start + length <= other.start) :
    region (written writes buffer) start length = write.part := by
  apply region_ext hlength
  intro i hi
  apply getElem?_written h
  · refine ⟨write, hmem, ?_, ?_⟩
    · omega
    · unfold Write.stop
      omega
  · intro other hother hcovers
    rcases hcovers with ⟨hlow, hhigh⟩
    rcases hothers other hother with hsame | hbefore | hafter
    · rw [hsame, hstart, Nat.add_sub_cancel_left]
    · omega
    · omega

theorem region_written_of_apart {start length : Nat} (h : WritesFit buffer.length writes)
    (hothers : forall other, other ∈ writes ->
      other.stop <= start ∨ start + length <= other.start) :
    region (written writes buffer) start length = region buffer start length := by
  apply List.ext_getElem?
  intro i
  by_cases hi : i < length
  · rw [getElem?_region hi, getElem?_region hi]
    apply getElem?_written_of_not_covers h
    intro other hother hcovers
    rcases hcovers with ⟨hlow, hhigh⟩
    rcases hothers other hother with hbefore | hafter
    · omega
    · omega
  · unfold region
    rw [List.getElem?_take_eq_none (Nat.not_lt.mp hi),
      List.getElem?_take_eq_none (Nat.not_lt.mp hi)]

end RegionWritten

/-!
## Writes to a stretch
-/

def WritesWithin (low high : Nat) (writes : List (Write entry)) : Prop :=
  forall write, write ∈ writes -> low <= write.start ∧ write.stop <= high

theorem WritesWithin.mono {low high lower higher : Nat} {writes : List (Write entry)}
    (h : WritesWithin low high writes) (hlow : lower <= low) (hhigh : high <= higher) :
    WritesWithin lower higher writes :=
  fun write hmem =>
    ⟨Nat.le_trans hlow (h write hmem).1, Nat.le_trans (h write hmem).2 hhigh⟩

theorem WritesWithin.append {low middle high : Nat} {first second : List (Write entry)}
    (hfirst : WritesWithin low middle first) (hsecond : WritesWithin middle high second)
    (hlow : low <= middle) (hhigh : middle <= high) :
    WritesWithin low high (first ++ second) := by
  intro write hmem
  rcases List.mem_append.mp hmem with hleft | hright
  · exact (hfirst.mono (Nat.le_refl low) hhigh) write hleft
  · exact (hsecond.mono hlow (Nat.le_refl high)) write hright

theorem WritesWithin.fit {low high length : Nat} {writes : List (Write entry)}
    (h : WritesWithin low high writes) (hhigh : high <= length) : WritesFit length writes :=
  fun write hmem => Nat.le_trans (h write hmem).2 hhigh

theorem region_written_stretch {before middle after : List (Write entry)}
    {low high start length : Nat} {write : Write entry}
    (hfit : WritesFit buffer.length (before ++ middle ++ after))
    (hbefore : forall other, other ∈ before -> other.stop <= low)
    (hafter : forall other, other ∈ after -> high <= other.start) (hlow : low <= start)
    (hhigh : start + length <= high) (hmem : write ∈ middle) (hstart : write.start = start)
    (hlength : write.part.length = length) (hothers : forall other, other ∈ middle ->
      other = write ∨ other.stop <= start ∨ start + length <= other.start) :
    region (written (before ++ middle ++ after) buffer) start length = write.part := by
  have hwhole : write ∈ before ++ middle ++ after :=
    List.mem_append_left after (List.mem_append_right before hmem)
  apply region_written hfit hwhole hstart hlength
  intro other hother
  rcases List.mem_append.mp hother with hfirst | hlast
  · rcases List.mem_append.mp hfirst with hbelow | hsame
    · exact .inr (.inl (Nat.le_trans (hbefore other hbelow) hlow))
    · exact hothers other hsame
  · exact .inr (.inr (Nat.le_trans hhigh (hafter other hlast)))

def fieldWrites (count offset width : Nat) (field : Nat -> List entry) : List (Write entry) :=
  (List.range count).map fun row =>
    { start := offset + row * width
      part := field row }

section Fields

variable {count offset width : Nat} {field : Nat -> List entry}

theorem mem_fieldWrites {write : Write entry} :
    write ∈ fieldWrites count offset width field ↔
      exists row, row < count ∧
        write =
          { start := offset + row * width
            part := field row } := by
  unfold fieldWrites
  constructor
  · intro h
    rcases List.mem_map.mp h with ⟨row, hrow, hsame⟩
    exact ⟨row, List.mem_range.mp hrow, hsame.symm⟩
  · intro h
    rcases h with ⟨row, hrow, hsame⟩
    exact List.mem_map.mpr ⟨row, List.mem_range.mpr hrow, hsame.symm⟩

theorem within_fieldWrites (h : forall row, row < count -> (field row).length = width) :
    WritesWithin offset (offset + count * width) (fieldWrites count offset width field) := by
  intro write hmem
  rcases mem_fieldWrites.mp hmem with ⟨row, hrow, hwrite⟩
  have hroom : (row + 1) * width <= count * width := Nat.mul_le_mul_right width hrow
  rw [Nat.succ_mul] at hroom
  rw [hwrite]
  unfold Write.stop
  dsimp only
  rw [h row hrow]
  omega

theorem region_fieldWrites {before after : List (Write entry)} {buffer : List entry} {row : Nat}
    (hfit : WritesFit buffer.length (before ++ fieldWrites count offset width field ++ after))
    (hbefore : forall other, other ∈ before -> other.stop <= offset)
    (hafter : forall other, other ∈ after -> offset + count * width <= other.start)
    (h : forall row, row < count -> (field row).length = width) (hrow : row < count) :
    region (written (before ++ fieldWrites count offset width field ++ after) buffer)
        (offset + row * width) width =
      field row := by
  have hroom : (row + 1) * width <= count * width := Nat.mul_le_mul_right width hrow
  rw [Nat.succ_mul] at hroom
  apply region_written_stretch hfit hbefore hafter (Nat.le_add_right offset (row * width))
    (by omega) (mem_fieldWrites.mpr ⟨row, hrow, rfl⟩) rfl (h row hrow)
  intro other hother
  rcases mem_fieldWrites.mp hother with ⟨next, hnext, hsame⟩
  rcases Nat.lt_trichotomy next row with hless | heq | hgreater
  · have hstep : (next + 1) * width <= row * width := Nat.mul_le_mul_right width hless
    rw [Nat.succ_mul] at hstep
    rw [hsame]
    unfold Write.stop
    dsimp only
    rw [h next hnext]
    omega
  · rw [hsame, heq]
    exact .inl rfl
  · have hstep : (row + 1) * width <= next * width := Nat.mul_le_mul_right width hgreater
    rw [Nat.succ_mul] at hstep
    rw [hsame]
    dsimp only
    omega

end Fields

/-!
## Blocks of a buffer
-/

def forBlocks (zero : entry) (blockLength groups cols : Nat)
    (change : Nat -> Nat -> List entry -> Checked (List entry)) : Checked (List entry) :=
  forRange
    (fun group out =>
      forRange
        (fun col out =>
          updateSlice out ((group * cols + col) * blockLength)
            ((group * cols + col) * blockLength + blockLength) (change group col))
        cols out)
    groups (List.replicate (groups * cols * blockLength) zero)

theorem forRange_add {state : Type} (body : Nat -> state -> Checked state) (n m : Nat)
    (start : state) :
    forRange body (n + m) start =
      (forRange body n start >>= fun s => forRange (fun i => body (n + i)) m s) := by
  induction m with
  | zero =>
    rw [Nat.add_zero]
    cases forRange body n start with
    | error fault => rfl
    | ok s => rfl
  | succ m ih =>
    rw [← Nat.add_assoc, forRange, ih]
    cases forRange body n start with
    | error fault => rfl
    | ok s => rfl

theorem forRange_mul {state : Type} (body : Nat -> state -> Checked state) (n m : Nat)
    (start : state) :
    forRange (fun i s => forRange (fun j => body (i * m + j)) m s) n start =
      forRange body (n * m) start := by
  induction n with
  | zero =>
    rw [Nat.zero_mul]
    rfl
  | succ n ih => rw [forRange, ih, Nat.succ_mul, forRange_add body (n * m) m start]

theorem forBlocks_delivers {zero : entry} {blockLength groups cols : Nat}
    {change : Nat -> Nat -> List entry -> Checked (List entry)} {block : Nat -> Nat -> List entry}
    (hchange : forall group col, group < groups -> col < cols ->
      change group col (List.replicate blockLength zero) = .ok (block group col))
    (hblock : forall group col, group < groups -> col < cols ->
      (block group col).length = blockLength) :
    exists out, forBlocks zero blockLength groups cols change = .ok out ∧
      out.length = groups * cols * blockLength ∧
      forall group col, group < groups -> col < cols ->
        region out ((group * cols + col) * blockLength) blockLength = block group col := by
  have hplace : forall t, t < groups * cols -> t / cols < groups ∧ t % cols < cols := by
    intro t ht
    have hcols : 0 < cols := by
      apply Nat.pos_of_ne_zero
      intro hzero
      rw [hzero, Nat.mul_zero] at ht
      exact Nat.not_lt_zero t ht
    exact ⟨(Nat.div_lt_of_lt_mul (by rw [Nat.mul_comm]; exact ht)), Nat.mod_lt t hcols⟩
  have hloop := forRange_updateSlice_delivers
    (HoldsRows.replicate blockLength (groups * cols) zero)
    (fun t ht => hchange (t / cols) (t % cols) (hplace t ht).1 (hplace t ht).2)
    (fun t ht => hblock (t / cols) (t % cols) (hplace t ht).1 (hplace t ht).2)
  have hflat : forBlocks zero blockLength groups cols change =
      forRange
        (fun t out => updateSlice out (t * blockLength) ((t + 1) * blockLength)
          (change (t / cols) (t % cols)))
        (groups * cols) (List.replicate (groups * cols * blockLength) zero) := by
    rw [← forRange_mul]
    unfold forBlocks
    apply forRange_congr
    intro group hgroup out
    apply forRange_congr
    intro col hcol out
    have hcols : 0 < cols := Nat.lt_of_le_of_lt (Nat.zero_le col) hcol
    rw [Nat.succ_mul, Nat.mul_comm group cols, Nat.mul_add_div hcols, Nat.mul_add_mod,
      Nat.div_eq_of_lt hcol, Nat.mod_eq_of_lt hcol, Nat.add_zero]
  rcases hloop with ⟨out, hrun, hholds⟩
  refine ⟨out, hflat.trans hrun, hholds.length_eq, ?_⟩
  intro group col hgroup hcol
  have hcols : 0 < cols := Nat.lt_of_le_of_lt (Nat.zero_le col) hcol
  have hroom : group * cols + col < groups * cols := by
    have hgroups : (group + 1) * cols <= groups * cols := Nat.mul_le_mul_right cols hgroup
    rw [Nat.succ_mul] at hgroups
    omega
  have hrow := hholds.row_eq (group * cols + col) hroom
  rw [Nat.mul_comm group cols, Nat.mul_add_div hcols, Nat.mul_add_mod, Nat.div_eq_of_lt hcol,
    Nat.mod_eq_of_lt hcol, Nat.add_zero, Nat.mul_comm cols group] at hrow
  exact hrow

end Library
end RunNBurn
