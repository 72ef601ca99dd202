import Mathlib.Data.List.TakeDrop

/-!
# UTF-8 with replacement

Text is a list of characters.  Bytes that are no text are read all the same: every
longest run of bytes that starts a character and breaks off becomes one replacement
character.
-/

namespace RunNBurn
namespace Library

def encodeText (text : List Char) : List UInt8 :=
  text.flatMap String.utf8EncodeChar

def replacement : Char :=
  Char.ofNat 0xFFFD

def secondLow (first : Nat) : Nat :=
  if first = 0xE0 then 0xA0 else if first = 0xF0 then 0x90 else 0x80

def secondHigh (first : Nat) : Nat :=
  if first = 0xED then 0x9F else if first = 0xF4 then 0x8F else 0xBF

/-- The bounds of the bytes that complete a character, by its first byte. -/
def tailBounds (first : Nat) : Option (List (Nat × Nat)) :=
  if first < 0x80 then some []
  else if first < 0xC2 then none
  else if first < 0xE0 then some [(0x80, 0xBF)]
  else if first < 0xF0 then some [(secondLow first, secondHigh first), (0x80, 0xBF)]
  else if first < 0xF5 then
    some [(secondLow first, secondHigh first), (0x80, 0xBF), (0x80, 0xBF)]
  else none

def fitting : List (Nat × Nat) -> List UInt8 -> Nat
  | [], _ => 0
  | _ :: _, [] => 0
  | (low, high) :: bounds, byte :: bytes =>
    if low <= byte.toNat ∧ byte.toNat <= high then fitting bounds bytes + 1 else 0

def scalarOf : List UInt8 -> Nat
  | [a] => a.toNat
  | [a, b] => a.toNat % 32 * 64 + b.toNat % 64
  | [a, b, c] => a.toNat % 16 * 4096 + b.toNat % 64 * 64 + c.toNat % 64
  | [a, b, c, d] => a.toNat % 8 * 262144 + b.toNat % 64 * 4096 + c.toNat % 64 * 64 + d.toNat % 64
  | _ => 0

/-- The first character, and how many bytes after the first one it takes. -/
def firstChar (first : UInt8) (rest : List UInt8) : Char × Nat :=
  match tailBounds first.toNat with
  | none => (replacement, 0)
  | some bounds =>
    if fitting bounds rest = bounds.length then
      (Char.ofNat (scalarOf (first :: rest.take bounds.length)), bounds.length)
    else (replacement, fitting bounds rest)

/-- Read what is left after the next `skip` bytes. -/
def lossyAfter : (skip : Nat) -> List UInt8 -> List Char
  | _, [] => []
  | skip + 1, _ :: rest => lossyAfter skip rest
  | 0, first :: rest => (firstChar first rest).1 :: lossyAfter (firstChar first rest).2 rest

def lossy (bytes : List UInt8) : List Char :=
  lossyAfter 0 bytes

theorem lossyAfter_eq_drop (skip : Nat) (bytes : List UInt8) :
    lossyAfter skip bytes = lossy (bytes.drop skip) := by
  induction bytes generalizing skip with
  | nil =>
    rw [List.drop_nil]
    cases skip <;> rfl
  | cons first rest ih =>
    cases skip with
    | zero => rfl
    | succ skip => exact ih skip

theorem lossy_cons (first : UInt8) (rest : List UInt8) :
    lossy (first :: rest) =
      (firstChar first rest).1 :: lossy (rest.drop (firstChar first rest).2) := by
  rw [← lossyAfter_eq_drop]
  rfl

/-!
# Text is read back
-/

theorem encodeText_append (left right : List Char) :
    encodeText (left ++ right) = encodeText left ++ encodeText right :=
  List.flatMap_append

variable (c : Char)

theorem encodeText_cons (text : List Char) :
    encodeText (c :: text) = String.utf8EncodeChar c ++ encodeText text :=
  List.flatMap_cons

theorem char_bounds :
    c.val.toNat < 0xD800 ∨ 0xDFFF < c.val.toNat ∧ c.val.toNat < 0x110000 :=
  c.valid

theorem toNat_byte {n : Nat} (h : n < 256) : (UInt8.ofNat n).toNat = n := by
  rw [UInt8.toNat_ofNat']
  exact Nat.mod_eq_of_lt h

theorem firstChar_of_fitting
    {first : UInt8} {rest : List UInt8} {c : Char} (bounds : List (Nat × Nat))
    (hbounds : tailBounds first.toNat = some bounds)
    (hfitting : fitting bounds rest = bounds.length)
    (hscalar : scalarOf (first :: rest.take bounds.length) = c.val.toNat) :
    firstChar first rest = (c, bounds.length) := by
  unfold firstChar
  rw [hbounds]
  dsimp only
  rw [if_pos hfitting, hscalar]
  exact congrArg (fun scalar => (scalar, bounds.length)) (Char.ofNat_toNat c)

variable {bounds : List (Nat × Nat)}

theorem fitting_cons {low high : Nat} {byte : UInt8} {bytes : List UInt8}
    (hlow : low <= byte.toNat) (hhigh : byte.toNat <= high) :
    fitting ((low, high) :: bounds) (byte :: bytes) = fitting bounds bytes + 1 :=
  if_pos ⟨hlow, hhigh⟩

theorem secondLow_le (first : Nat) : 0x80 <= secondLow first := by
  unfold secondLow
  split
  · decide
  · split <;> decide

theorem secondHigh_le (first : Nat) : secondHigh first <= 0xBF := by
  unfold secondHigh
  split
  · decide
  · split <;> decide

theorem firstChar_encode (rest : List UInt8) :
    exists first tail, String.utf8EncodeChar c = first :: tail ∧
      firstChar first (tail ++ rest) = (c, tail.length) := by
  have hchar := char_bounds c
  unfold String.utf8EncodeChar
  dsimp only
  by_cases hone : c.val.toNat <= 0x7f
  · rw [if_pos hone]
    refine ⟨_, [], rfl, ?_⟩
    have hfirst := toNat_byte (show c.val.toNat < 256 by omega)
    apply firstChar_of_fitting []
    · unfold tailBounds
      rw [hfirst, if_pos (by omega)]
    · rfl
    · exact hfirst
  rw [if_neg hone]
  by_cases htwo : c.val.toNat <= 0x7ff
  · rw [if_pos htwo]
    refine ⟨_, [_], rfl, ?_⟩
    have hfirst := toNat_byte (show c.val.toNat / 64 % 32 + 192 < 256 by omega)
    have hsecond := toNat_byte (show c.val.toNat % 64 + 128 < 256 by omega)
    apply firstChar_of_fitting [(0x80, 0xBF)]
    · unfold tailBounds
      rw [hfirst, if_neg (by omega), if_neg (by omega), if_pos (by omega)]
    · exact fitting_cons (by omega) (by omega)
    · show UInt8.toNat _ % 32 * 64 + UInt8.toNat _ % 64 = _
      rw [hfirst, hsecond]
      omega
  rw [if_neg htwo]
  by_cases hthree : c.val.toNat <= 0xffff
  · rw [if_pos hthree]
    refine ⟨_, [_, _], rfl, ?_⟩
    have hfirst := toNat_byte (show c.val.toNat / 4096 % 16 + 224 < 256 by omega)
    have hsecond := toNat_byte (show c.val.toNat / 64 % 64 + 128 < 256 by omega)
    have hthird := toNat_byte (show c.val.toNat % 64 + 128 < 256 by omega)
    apply firstChar_of_fitting [(secondLow (c.val.toNat / 4096 % 16 + 224),
          secondHigh (c.val.toNat / 4096 % 16 + 224)), (0x80, 0xBF)]
    · unfold tailBounds
      rw [hfirst, if_neg (by omega), if_neg (by omega), if_neg (by omega), if_pos (by omega)]
    · rw [List.cons_append, fitting_cons, List.cons_append, fitting_cons (by omega) (by omega)]
      · rfl
      · rw [hsecond]
        unfold secondLow
        split
        · omega
        · split
          · omega
          · omega
      · rw [hsecond]
        unfold secondHigh
        split
        · omega
        · split
          · omega
          · omega
    · show UInt8.toNat _ % 16 * 4096 + UInt8.toNat _ % 64 * 64 + UInt8.toNat _ % 64 = _
      rw [hfirst, hsecond, hthird]
      omega
  rw [if_neg hthree]
  refine ⟨_, [_, _, _], rfl, ?_⟩
  have hfirst := toNat_byte (show c.val.toNat / 262144 % 8 + 240 < 256 by omega)
  have hsecond := toNat_byte (show c.val.toNat / 4096 % 64 + 128 < 256 by omega)
  have hthird := toNat_byte (show c.val.toNat / 64 % 64 + 128 < 256 by omega)
  have hfourth := toNat_byte (show c.val.toNat % 64 + 128 < 256 by omega)
  apply firstChar_of_fitting [(secondLow (c.val.toNat / 262144 % 8 + 240),
        secondHigh (c.val.toNat / 262144 % 8 + 240)), (0x80, 0xBF), (0x80, 0xBF)]
  · unfold tailBounds
    rw [hfirst, if_neg (by omega), if_neg (by omega), if_neg (by omega), if_neg (by omega),
      if_pos (by omega)]
  · rw [List.cons_append, fitting_cons, List.cons_append, fitting_cons (by omega) (by omega),
      List.cons_append, fitting_cons (by omega) (by omega)]
    · rfl
    · rw [hsecond]
      unfold secondLow
      split
      · omega
      · split
        · omega
        · omega
    · rw [hsecond]
      unfold secondHigh
      split
      · omega
      · split
        · omega
        · omega
  · show UInt8.toNat _ % 8 * 262144 + UInt8.toNat _ % 64 * 4096 + UInt8.toNat _ % 64 * 64 +
        UInt8.toNat _ % 64 = _
    rw [hfirst, hsecond, hthird, hfourth]
    omega

theorem lossy_encodeChar_append (rest : List UInt8) :
    lossy (String.utf8EncodeChar c ++ rest) = c :: lossy rest := by
  rcases firstChar_encode c rest with ⟨first, tail, hbytes, hchar⟩
  rw [hbytes, List.cons_append, lossy_cons, hchar]
  exact congrArg (fun left => c :: lossy left) List.drop_left

theorem lossy_encodeText_append (text : List Char) (rest : List UInt8) :
    lossy (encodeText text ++ rest) = text ++ lossy rest := by
  induction text with
  | nil => rfl
  | cons c text ih =>
    rw [encodeText_cons, List.append_assoc, lossy_encodeChar_append, ih]
    rfl

theorem lossy_encodeText (text : List Char) : lossy (encodeText text) = text := by
  have h := lossy_encodeText_append text []
  rw [List.append_nil] at h
  exact h.trans (List.append_nil text)

/-!
# Bytes in front of text
-/

def IsTail (byte : UInt8) : Prop :=
  0x80 <= byte.toNat ∧ byte.toNat <= 0xBF

def StartsFresh (bytes : List UInt8) : Prop :=
  forall byte, bytes.head? = some byte -> ¬ IsTail byte

def WithinTails (bounds : List (Nat × Nat)) : Prop :=
  forall bound, bound ∈ bounds -> 0x80 <= bound.1 ∧ bound.2 <= 0xBF

theorem withinTails_of_tailBounds {first : Nat} (h : tailBounds first = some bounds) :
    WithinTails bounds := by
  have hsecond : 0x80 <= secondLow first ∧ secondHigh first <= 0xBF :=
    ⟨secondLow_le first, secondHigh_le first⟩
  intro bound hbound
  unfold tailBounds at h
  split at h
  · cases h
    cases hbound
  · split at h
    · cases h
    · split at h
      · cases h
        simp at hbound
        simp [hbound]
      · split at h
        · cases h
          simp at hbound
          rcases hbound with hbound | hbound
          · rw [hbound]
            exact hsecond
          · simp [hbound]
        · split at h
          · cases h
            simp at hbound
            rcases hbound with hbound | hbound
            · rw [hbound]
              exact hsecond
            · simp [hbound]
          · cases h

theorem fitting_le_length (bounds : List (Nat × Nat)) (bytes : List UInt8) :
    fitting bounds bytes <= bytes.length := by
  induction bounds generalizing bytes with
  | nil => exact Nat.zero_le _
  | cons bound bounds ih =>
    cases bytes with
    | nil => exact Nat.le_refl 0
    | cons byte bytes =>
      unfold fitting
      split
      · exact Nat.succ_le_succ (ih bytes)
      · exact Nat.zero_le _

theorem firstChar_le_length (first : UInt8) (rest : List UInt8) :
    (firstChar first rest).2 <= rest.length := by
  unfold firstChar
  cases tailBounds first.toNat with
  | none => exact Nat.zero_le _
  | some bounds =>
    dsimp only
    have hlength := fitting_le_length bounds rest
    split
    · rename_i hfitting
      exact hfitting ▸ hlength
    · exact hlength

theorem encodeChar_startsFresh (rest : List UInt8) :
    StartsFresh (String.utf8EncodeChar c ++ rest) := by
  rcases firstChar_encode c [] with ⟨first, tail, hbytes, hchar⟩
  intro byte hbyte htail
  rw [hbytes] at hbyte
  cases hbyte
  have hnone : tailBounds first.toNat = none := by
    unfold tailBounds
    rcases htail with ⟨hlow, hhigh⟩
    rw [if_neg (by omega), if_pos (by omega)]
  unfold firstChar at hchar
  rw [hnone] at hchar
  -- such a byte reads as the replacement character, which has three bytes
  have hreplacement : replacement = c := congrArg Prod.fst hchar
  have hnil : 0 = tail.length := congrArg Prod.snd hchar
  have hlength := congrArg List.length hbytes
  rw [← hreplacement, List.length_cons, ← hnil] at hlength
  exact absurd hlength (by decide)

/-!
# Characters spelt with single bytes

Text in which some characters are spelt with one byte each, whatever it is.  It reads
back as it is only where these bytes are the characters' own, up to the replacement
character: a byte read together with the ones behind it loses a character.
-/

def Spelt (unit : Char × List UInt8) : Prop :=
  unit.2 = String.utf8EncodeChar unit.1 ∨ exists byte, unit.2 = [byte]

/-- The bytes are the character's own, or break off and read as the replacement. -/
def ReadsBack (unit : Char × List UInt8) : Prop :=
  unit.2 = String.utf8EncodeChar unit.1 ∨
    unit.1 = replacement ∧ exists byte : UInt8, unit.2 = [byte] ∧ 0x80 <= byte.toNat

theorem take_fitting_isTail (bytes : List UInt8) (hbounds : WithinTails bounds) :
    forall byte, byte ∈ bytes.take (fitting bounds bytes) -> IsTail byte := by
  induction bytes generalizing bounds with
  | nil =>
    intro byte hbyte
    rw [List.take_nil] at hbyte
    cases hbyte
  | cons first bytes ih =>
    cases bounds with
    | nil =>
      intro byte hbyte
      cases hbyte
    | cons bound bounds =>
      intro byte hbyte
      have hbound := hbounds bound List.mem_cons_self
      unfold fitting at hbyte
      split at hbyte
      · rename_i hwithin
        rw [List.take_succ_cons] at hbyte
        cases hbyte with
        | head => exact ⟨Nat.le_trans hbound.1 hwithin.1, Nat.le_trans hwithin.2 hbound.2⟩
        | tail _ hrest =>
          exact ih (fun other hother => hbounds other (List.mem_cons_of_mem _ hother)) byte hrest
      · cases hbyte

theorem firstChar_isTail (first : UInt8) (rest : List UInt8) :
    forall byte, byte ∈ rest.take (firstChar first rest).2 -> IsTail byte := by
  intro byte hbyte
  unfold firstChar at hbyte
  cases hbounds : tailBounds first.toNat with
  | none =>
    rw [hbounds] at hbyte
    cases hbyte
  | some bounds =>
    rw [hbounds] at hbyte
    dsimp only at hbyte
    have htails := take_fitting_isTail rest (withinTails_of_tailBounds hbounds)
    split at hbyte
    · rename_i hfitting
      rw [← hfitting] at hbyte
      exact htails byte hbyte
    · exact htails byte hbyte

theorem encodeChar_of_ascii {c : Char} (h : c.val.toNat < 0x80) :
    String.utf8EncodeChar c = [UInt8.ofNat c.val.toNat] := by
  unfold String.utf8EncodeChar
  exact if_pos (Nat.le_of_lt_succ h)

theorem toNat_ofNat_ascii {n : Nat} (h : n < 0x80) : (Char.ofNat n).val.toNat = n := by
  have hvalid : n.isValidChar := Or.inl (by omega)
  rw [Char.ofNat, dif_pos hvalid]
  rfl

theorem firstChar_alone
    {first : UInt8} {rest : List UInt8} (h : (firstChar first rest).2 = 0) :
    ReadsBack ((firstChar first rest).1, [first]) := by
  by_cases hascii : first.toNat < 0x80
  · have hchar : (firstChar first rest).1 = Char.ofNat first.toNat := by
      unfold firstChar tailBounds
      rw [if_pos hascii]
      rfl
    have hself := toNat_ofNat_ascii hascii
    apply Or.inl
    rw [hchar]
    dsimp only
    rw [encodeChar_of_ascii (hself.symm ▸ hascii), hself, UInt8.ofNat_toNat]
  · refine Or.inr ⟨?_, first, rfl, Nat.le_of_not_lt hascii⟩
    have hbroken : forall bounds, tailBounds first.toNat = some bounds -> bounds.length ≠ 0 := by
      intro bounds hbounds hnil
      unfold tailBounds at hbounds
      rw [if_neg hascii] at hbounds
      cases List.length_eq_zero_iff.mp hnil
      split at hbounds
      · cases hbounds
      · split at hbounds
        · cases hbounds
        · split at hbounds
          · cases hbounds
          · split at hbounds <;> cases hbounds
    revert h
    dsimp only
    unfold firstChar
    cases hbounds : tailBounds first.toNat with
    | none =>
      intro _
      rfl
    | some bounds =>
      dsimp only
      split
      · intro hnil
        exact absurd hnil (hbroken bounds hbounds)
      · intro _
        rfl

variable {units : List (Char × List UInt8)}

theorem drop_tails {count : Nat} (hspelt : forall unit, unit ∈ units -> Spelt unit)
    (hcount : count <= (units.flatMap Prod.snd).length)
    (htails : forall byte, byte ∈ (units.flatMap Prod.snd).take count -> IsTail byte) :
    exists rest : List (Char × List UInt8), (forall unit, unit ∈ rest -> Spelt unit) ∧
      rest.length + count = units.length ∧
      (units.flatMap Prod.snd).drop count = rest.flatMap Prod.snd := by
  induction count generalizing units with
  | zero => exact ⟨units, hspelt, rfl, rfl⟩
  | succ count ih =>
    cases units with
    | nil => cases hcount
    | cons unit units =>
      have hothers : forall other, other ∈ units -> Spelt other :=
        fun other hother => hspelt other (List.mem_cons_of_mem unit hother)
      rw [List.flatMap_cons] at hcount htails ⊢
      rcases hspelt unit List.mem_cons_self with hown | ⟨byte, hbyte⟩
      · have hfresh := encodeChar_startsFresh unit.1 (units.flatMap Prod.snd)
        rw [hown] at htails
        rcases firstChar_encode unit.1 [] with ⟨first, tail, hbytes, _⟩
        rw [hbytes] at htails hfresh
        exact absurd (htails first List.mem_cons_self) (hfresh first rfl)
      · rw [hbyte] at hcount htails ⊢
        rcases ih hothers (Nat.le_of_succ_le_succ hcount)
          (fun other hother => htails other (List.mem_cons_of_mem byte hother))
          with ⟨rest, hrest, hlength, hdrop⟩
        refine ⟨rest, hrest, ?_, hdrop⟩
        rw [List.length_cons, ← hlength]
        rfl

theorem length_lossy_le (hspelt : forall unit, unit ∈ units -> Spelt unit) :
    (lossy (units.flatMap Prod.snd)).length <= units.length := by
  induction hlength : units.length using Nat.strongRecOn generalizing units with
  | ind n ih =>
    cases units with
    | nil => exact Nat.zero_le _
    | cons unit units =>
      have hothers : forall other, other ∈ units -> Spelt other :=
        fun other hother => hspelt other (List.mem_cons_of_mem unit hother)
      rw [List.length_cons] at hlength
      rw [List.flatMap_cons]
      rcases hspelt unit List.mem_cons_self with hown | ⟨byte, hbyte⟩
      · rw [hown, lossy_encodeChar_append, List.length_cons]
        have hrest := ih units.length (by omega) hothers rfl
        omega
      · rw [hbyte, List.singleton_append, lossy_cons, List.length_cons]
        rcases drop_tails hothers (firstChar_le_length byte _) (firstChar_isTail byte _)
          with ⟨rest, hrest, hcount, hdrop⟩
        rw [hdrop]
        have hshort := ih rest.length (by omega) hrest rfl
        omega

theorem readsBack_of_lossy (hspelt : forall unit, unit ∈ units -> Spelt unit)
    (h : lossy (units.flatMap Prod.snd) = units.map Prod.fst) :
    forall unit, unit ∈ units -> ReadsBack unit := by
  induction units with
  | nil =>
    intro unit hunit
    cases hunit
  | cons head units ih =>
    have hothers : forall other, other ∈ units -> Spelt other :=
      fun other hother => hspelt other (List.mem_cons_of_mem head hother)
    rw [List.flatMap_cons, List.map_cons] at h
    rcases hspelt head List.mem_cons_self with hown | ⟨byte, hbyte⟩
    · rw [hown, lossy_encodeChar_append] at h
      intro unit hunit
      cases hunit with
      | head => exact Or.inl hown
      | tail _ hrest => exact ih hothers (List.cons.inj h).2 unit hrest
    · rw [hbyte, List.singleton_append, lossy_cons] at h
      rcases List.cons.inj h with ⟨hhead, hrest⟩
      rcases drop_tails hothers (firstChar_le_length byte _) (firstChar_isTail byte _)
        with ⟨rest, hspeltRest, hcount, hdrop⟩
      have hshort := length_lossy_le hspeltRest
      rw [← hdrop, hrest, List.length_map] at hshort
      have hzero : (firstChar byte (units.flatMap Prod.snd)).2 = 0 := by
        omega
      intro unit hunit
      cases hunit with
      | head =>
        have halone := firstChar_alone hzero
        rw [hhead] at halone
        unfold ReadsBack at halone ⊢
        rw [hbyte]
        exact halone
      | tail _ hmem =>
        rw [hzero, List.drop_zero] at hrest
        exact ih hothers hrest unit hmem

end Library
end RunNBurn
