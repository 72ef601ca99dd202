import RunNBurn.Library.Writes

/-!
# Tables of fields

A block with several fields, each with one place for every row of the block.  Writes of fields do
not disturb each other, in whatever order they are made.
-/

namespace RunNBurn
namespace Library

variable {entry : Type}

/-- Field `f` of row `row` starts at `offset f + row * width f`. -/
structure FieldTable where
  count : Nat
  fields : Nat
  offset : Nat -> Nat
  width : Nat -> Nat
  ascending : forall f g, g < fields -> f < g -> offset f + count * width f <= offset g

namespace FieldTable

variable (table : FieldTable)

def place (f row : Nat) : Nat :=
  table.offset f + row * table.width f

def write (part : Nat -> Nat -> List entry) (f row : Nat) : Write entry where
  start := table.place f row
  part := part f row

def rowWrites (part : Nat -> Nat -> List entry) (row : Nat) : List (Write entry) :=
  (List.range table.fields).map fun f => table.write part f row

structure Fills (part : Nat -> Nat -> List entry) (present : Nat -> Prop)
    (writes : List (Write entry)) : Prop where
  complete : forall f row, f < table.fields -> row < table.count -> present row ->
    table.write part f row ∈ writes
  sound : forall write, write ∈ writes -> exists f row, f < table.fields ∧ row < table.count ∧
    present row ∧ write = table.write part f row
  width_eq : forall f row, f < table.fields -> row < table.count -> present row ->
    (part f row).length = table.width f

variable {table}

theorem fills_rowWrites {part : Nat -> Nat -> List entry} {present : Nat -> Prop}
    [DecidablePred present]
    (hwidth : forall f row, f < table.fields -> row < table.count -> present row ->
      (part f row).length = table.width f) :
    table.Fills part present
      ((List.range table.count).flatMap fun row =>
        if present row then table.rowWrites part row else []) where
  complete := by
    intro f row hf hrow hpresent
    apply List.mem_flatMap.mpr
    refine ⟨row, List.mem_range.mpr hrow, ?_⟩
    rw [if_pos hpresent]
    exact List.mem_map.mpr ⟨f, List.mem_range.mpr hf, rfl⟩
  sound := by
    intro write hmem
    rcases List.mem_flatMap.mp hmem with ⟨row, hrow, hwrite⟩
    by_cases hpresent : present row
    · rw [if_pos hpresent] at hwrite
      rcases List.mem_map.mp hwrite with ⟨f, hf, hsame⟩
      exact ⟨f, row, List.mem_range.mp hf, List.mem_range.mp hrow, hpresent, hsame.symm⟩
    · rw [if_neg hpresent] at hwrite
      cases hwrite
  width_eq := hwidth

theorem apart {f g row other : Nat} (hf : f < table.fields) (hg : g < table.fields)
    (hrow : row < table.count) (hother : other < table.count) (hne : ¬(f = g ∧ row = other)) :
    table.place f row + table.width f <= table.place g other ∨
      table.place g other + table.width g <= table.place f row := by
  have hrowRoom : (row + 1) * table.width f <= table.count * table.width f :=
    Nat.mul_le_mul_right _ hrow
  have hotherRoom : (other + 1) * table.width g <= table.count * table.width g :=
    Nat.mul_le_mul_right _ hother
  rw [Nat.succ_mul] at hrowRoom hotherRoom
  unfold place
  rcases Nat.lt_trichotomy f g with hless | hsame | hgreater
  · have hzone := table.ascending f g hg hless
    omega
  · rw [hsame] at hne ⊢
    rcases Nat.lt_trichotomy row other with hbefore | hequal | hafter
    · have hstep : (row + 1) * table.width g <= other * table.width g :=
        Nat.mul_le_mul_right _ hbefore
      rw [Nat.succ_mul] at hstep
      omega
    · exact absurd ⟨rfl, hequal⟩ hne
    · have hstep : (other + 1) * table.width g <= row * table.width g :=
        Nat.mul_le_mul_right _ hafter
      rw [Nat.succ_mul] at hstep
      omega
  · have hzone := table.ascending g f hf hgreater
    omega

namespace Fills

variable {part : Nat -> Nat -> List entry} {present : Nat -> Prop} {writes : List (Write entry)}

theorem within {low high : Nat} (h : table.Fills part present writes)
    (hlow : forall f, f < table.fields -> low <= table.offset f)
    (hhigh : forall f, f < table.fields ->
      table.offset f + table.count * table.width f <= high) :
    WritesWithin low high writes := by
  intro write hmem
  rcases h.sound write hmem with ⟨f, row, hf, hrow, hpresent, hsame⟩
  have hlength := h.width_eq f row hf hrow hpresent
  have hroom : (row + 1) * table.width f <= table.count * table.width f :=
    Nat.mul_le_mul_right _ hrow
  rw [Nat.succ_mul] at hroom
  have hzone := hhigh f hf
  have hstart := hlow f hf
  rw [hsame]
  unfold Write.stop FieldTable.write place
  dsimp only
  omega

section

variable {buffer : List entry} (h : table.Fills part present writes)
  (hfit : WritesFit buffer.length writes) {f row : Nat} (hf : f < table.fields)
  (hrow : row < table.count)
include h hfit hf hrow

theorem region_eq (hpresent : present row) :
    region (written writes buffer) (table.place f row) (table.width f) = part f row := by
  apply region_written hfit (h.complete f row hf hrow hpresent) rfl
    (h.width_eq f row hf hrow hpresent)
  intro write hmem
  rcases h.sound write hmem with ⟨g, other, hg, hother, hotherPresent, hsame⟩
  have hlength := h.width_eq g other hg hother hotherPresent
  by_cases hequal : g = f ∧ other = row
  · rw [hsame, hequal.1, hequal.2]
    exact .inl rfl
  · have happart := apart hg hf hother hrow hequal
    rw [hsame]
    unfold Write.stop FieldTable.write
    dsimp only
    omega

theorem region_of_absent (habsent : ¬present row) :
    region (written writes buffer) (table.place f row) (table.width f) =
      region buffer (table.place f row) (table.width f) := by
  apply region_written_of_apart hfit
  intro write hmem
  rcases h.sound write hmem with ⟨g, other, hg, hother, hotherPresent, hsame⟩
  have hlength := h.width_eq g other hg hother hotherPresent
  have hne : ¬(g = f ∧ other = row) := by
    intro hequal
    rw [hequal.2] at hotherPresent
    exact habsent hotherPresent
  have happart := apart hg hf hother hrow hne
  rw [hsame]
  unfold Write.stop FieldTable.write
  dsimp only
  omega

end

end Fills

end FieldTable

end Library
end RunNBurn
