import RunNBurn.Library.Utf8

/-!
# UTF-8 up to the first error

Bytes are text, or there is a first place where they are none: either some bytes there
start no character, or the bytes end inside one and more bytes may complete it.
-/

namespace RunNBurn
namespace Library

/-- Where reading stops, and how many bytes are wrong there, unless the bytes end. -/
structure Utf8Error where
  validUpTo : Nat
  errorLen : Option Nat
deriving DecidableEq, Repr

/-- The same result behind `count` bytes. -/
def behindBytes (count : Nat) : Except Utf8Error (List Char) -> Except Utf8Error (List Char)
  | .ok text => .ok text
  | .error error => .error { error with validUpTo := error.validUpTo + count }

def behindChar (c : Char) : Except Utf8Error (List Char) -> Except Utf8Error (List Char)
  | .ok text => .ok (c :: text)
  | .error error => .error error

/-- Read what is left after the next `skip` bytes, up to the first error. -/
def fromUtf8After : (skip : Nat) -> List UInt8 -> Except Utf8Error (List Char)
  | _, [] => .ok []
  | skip + 1, _ :: rest => behindBytes 1 (fromUtf8After skip rest)
  | 0, first :: rest =>
    match tailBounds first.toNat with
    | none => .error ⟨0, some 1⟩
    | some bounds =>
      if fitting bounds rest = bounds.length then
        behindChar (firstChar first rest).1
          (behindBytes 1 (fromUtf8After bounds.length rest))
      else if fitting bounds rest = rest.length then .error ⟨0, none⟩
      else .error ⟨0, some (fitting bounds rest + 1)⟩

/-- `str::from_utf8` -/
def fromUtf8 (bytes : List UInt8) : Except Utf8Error (List Char) :=
  fromUtf8After 0 bytes

theorem behindBytes_add (left right : Nat) (result : Except Utf8Error (List Char)) :
    behindBytes left (behindBytes right result) = behindBytes (right + left) result := by
  cases result with
  | ok text => rfl
  | error error =>
    have h := Nat.add_assoc error.validUpTo right left
    exact congrArg (fun position => Except.error (Utf8Error.mk position error.errorLen)) h

theorem behindBytes_zero (result : Except Utf8Error (List Char)) :
    behindBytes 0 result = result := by
  cases result <;> rfl

variable {bytes : List UInt8}

theorem fromUtf8After_eq_drop {skip : Nat} (h : skip <= bytes.length) :
    fromUtf8After skip bytes = behindBytes skip (fromUtf8 (bytes.drop skip)) := by
  induction bytes generalizing skip with
  | nil =>
    cases Nat.le_zero.mp h
    rfl
  | cons first rest ih =>
    cases skip with
    | zero => exact (behindBytes_zero _).symm
    | succ skip =>
      show behindBytes 1 (fromUtf8After skip rest) = _
      rw [ih (Nat.le_of_succ_le_succ h), behindBytes_add]
      rfl

/-!
# Bytes that follow
-/

variable {bounds : List (Nat × Nat)}

theorem fitting_append_of_complete (more : List UInt8) (h : fitting bounds bytes = bounds.length) :
    fitting bounds (bytes ++ more) = bounds.length := by
  induction bounds generalizing bytes with
  | nil => rfl
  | cons bound bounds ih =>
    cases bytes with
    | nil => cases h
    | cons byte bytes =>
      unfold fitting at h ⊢
      rw [List.cons_append]
      dsimp only
      split at h
      · rename_i hwithin
        rw [if_pos hwithin, ih (Nat.succ.inj h)]
        rfl
      · cases h

theorem fitting_append_of_broken (more : List UInt8) (h : fitting bounds bytes < bytes.length) :
    fitting bounds (bytes ++ more) = fitting bounds bytes := by
  induction bounds generalizing bytes with
  | nil => rfl
  | cons bound bounds ih =>
    cases bytes with
    | nil => cases h
    | cons byte bytes =>
      unfold fitting at h ⊢
      rw [List.cons_append]
      dsimp only
      split at h
      · rename_i hwithin
        rw [if_pos hwithin, if_pos hwithin, ih (Nat.lt_of_succ_lt_succ h)]
      · rename_i hwithin
        rw [if_neg hwithin, if_neg hwithin]

theorem fitting_take (h : fitting bounds bytes = bounds.length) :
    fitting bounds (bytes.take bounds.length) = bounds.length := by
  induction bounds generalizing bytes with
  | nil => rfl
  | cons bound bounds ih =>
    cases bytes with
    | nil => cases h
    | cons byte bytes =>
      unfold fitting at h ⊢
      rw [List.length_cons, List.take_succ_cons]
      dsimp only
      split at h
      · rename_i hwithin
        rw [if_pos hwithin, ih (Nat.succ.inj h)]
      · cases h

structure Whole (first : UInt8) (rest : List UInt8) (c : Char) (count : Nat) : Prop where
  fits : count <= rest.length
  reads : forall more, firstChar first (rest ++ more) = (c, count)
  alone : forall more, fromUtf8 (first :: (rest.take count ++ more)) =
    behindChar c (behindBytes (count + 1) (fromUtf8 more))

theorem whole_of_complete {first : UInt8} {rest : List UInt8}
    (hbounds : tailBounds first.toNat = some bounds)
    (hfitting : fitting bounds rest = bounds.length) :
    Whole first rest (firstChar first rest).1 bounds.length := by
  have hlength : bounds.length <= rest.length := hfitting ▸ fitting_le_length bounds rest
  have hread : forall bytes more : List UInt8, fitting bounds bytes = bounds.length ->
      firstChar first (bytes ++ more) =
        (Char.ofNat (scalarOf (first :: bytes.take bounds.length)), bounds.length) := by
    intro bytes more hcomplete
    have hbytes : bounds.length <= bytes.length := hcomplete ▸ fitting_le_length bounds bytes
    unfold firstChar
    rw [hbounds]
    dsimp only
    rw [if_pos (fitting_append_of_complete more hcomplete), List.take_append_of_le_length hbytes]
  have hself := hread rest [] hfitting
  rw [List.append_nil] at hself
  constructor
  · exact hlength
  · intro more
    rw [hself]
    exact hread rest more hfitting
  · intro more
    have htaken := fitting_take hfitting
    have hcount : (rest.take bounds.length).length = bounds.length :=
      List.length_take_of_le hlength
    have hchar : (firstChar first (rest.take bounds.length ++ more)).1 =
        (firstChar first rest).1 := by
      rw [hread _ more htaken, hself, List.take_of_length_le (Nat.le_of_eq hcount)]
    show fromUtf8After 0 _ = _
    unfold fromUtf8After
    rw [hbounds]
    dsimp only
    rw [if_pos (fitting_append_of_complete more htaken), hchar, fromUtf8After_eq_drop,
      List.drop_left' hcount, behindBytes_add]
    rw [List.length_append, hcount]
    exact Nat.le_add_right _ _

inductive Reading (first : UInt8) (rest : List UInt8) : Prop where
  | whole {c : Char} {count : Nat} :
      Whole first rest c count -> Reading first rest
  | wrong {count : Nat} :
      fromUtf8 (first :: rest) = .error ⟨0, some (count + 1)⟩ ->
      count <= rest.length ->
      (forall more, firstChar first (rest ++ more) = (replacement, count)) ->
      Reading first rest
  | ends :
      fromUtf8 (first :: rest) = .error ⟨0, none⟩ ->
      firstChar first rest = (replacement, rest.length) ->
      Reading first rest

theorem reading (first : UInt8) (rest : List UInt8) : Reading first rest := by
  cases hbounds : tailBounds first.toNat with
  | none =>
    refine @Reading.wrong first rest 0 ?_ ?_ ?_
    · show fromUtf8After 0 _ = _
      unfold fromUtf8After
      rw [hbounds]
    · exact Nat.zero_le _
    · intro more
      unfold firstChar
      rw [hbounds]
  | some bounds =>
    have hle := fitting_le_length bounds rest
    by_cases hfitting : fitting bounds rest = bounds.length
    · exact Reading.whole (whole_of_complete hbounds hfitting)
    · by_cases hends : fitting bounds rest = rest.length
      · apply Reading.ends
        · show fromUtf8After 0 _ = _
          unfold fromUtf8After
          rw [hbounds]
          dsimp only
          rw [if_neg hfitting, if_pos hends]
        · unfold firstChar
          rw [hbounds]
          dsimp only
          rw [if_neg hfitting, hends]
      · refine @Reading.wrong first rest (fitting bounds rest) ?_ ?_ ?_
        · show fromUtf8After 0 _ = _
          unfold fromUtf8After
          rw [hbounds]
          dsimp only
          rw [if_neg hfitting, if_neg hends]
        · exact hle
        · intro more
          have hbroken := fitting_append_of_broken more (Nat.lt_of_le_of_ne hle hends)
          unfold firstChar
          rw [hbounds]
          dsimp only
          rw [hbroken, if_neg hfitting]

/-!
# Text, and the first error
-/

theorem lossy_of_fromUtf8 {text : List Char} (h : fromUtf8 bytes = .ok text) (more : List UInt8) :
    lossy (bytes ++ more) = text ++ lossy more := by
  induction hlength : bytes.length using Nat.strongRecOn generalizing bytes text with
  | ind n ih =>
    cases bytes with
    | nil =>
      cases h
      rfl
    | cons first rest =>
      cases reading first rest with
      | @whole c count hwhole =>
        have hsplit : rest = rest.take count ++ rest.drop count :=
          (List.take_append_drop count rest).symm
        rw [hsplit, hwhole.alone] at h
        cases hrest : fromUtf8 (rest.drop count) with
        | error error =>
          rw [hrest] at h
          cases h
        | ok following =>
          rw [hrest] at h
          cases h
          rw [List.length_cons] at hlength
          have hshort : (rest.drop count).length < n := by
            rw [List.length_drop]
            omega
          rw [List.cons_append, lossy_cons, hwhole.reads, List.drop_append_of_le_length hwhole.fits,
            ih _ hshort hrest rfl]
          rfl
      | wrong herror _ _ =>
        rw [herror] at h
        cases h
      | ends herror _ =>
        rw [herror] at h
        cases h

/-- What stands at the first error. -/
def Broken (errorLen : Option Nat) (first : UInt8) (rest : List UInt8) : Prop :=
  match errorLen with
  | some length => exists count, length = count + 1 ∧ count <= rest.length ∧
      forall more, firstChar first (rest ++ more) = (replacement, count)
  | none => firstChar first rest = (replacement, rest.length)

theorem split_of_fromUtf8_error {error : Utf8Error} (h : fromUtf8 bytes = .error error) :
    exists valid text first rest, bytes = valid ++ first :: rest ∧
      valid.length = error.validUpTo ∧ fromUtf8 valid = .ok text ∧
      Broken error.errorLen first rest := by
  induction hlength : bytes.length using Nat.strongRecOn generalizing bytes error with
  | ind n ih =>
    cases bytes with
    | nil => cases h
    | cons first rest =>
      cases reading first rest with
      | @whole c count hwhole =>
        have hsplit : rest = rest.take count ++ rest.drop count :=
          (List.take_append_drop count rest).symm
        rw [hsplit, hwhole.alone] at h
        cases hrest : fromUtf8 (rest.drop count) with
        | ok following =>
          rw [hrest] at h
          cases h
        | error later =>
          rw [hrest] at h
          cases h
          rw [List.length_cons] at hlength
          have hshort : (rest.drop count).length < n := by
            rw [List.length_drop]
            omega
          rcases ih _ hshort hrest rfl with
            ⟨valid, text, broken, behind, hbytes, hvalid, htext, hbroken⟩
          refine ⟨first :: (rest.take count ++ valid), c :: text, broken, behind, ?_, ?_,
            ?_, hbroken⟩
          · rw [List.cons_append, List.append_assoc, ← hbytes, ← hsplit]
          · rw [List.length_cons, List.length_append, hvalid, List.length_take_of_le hwhole.fits]
            dsimp only
            omega
          · rw [hwhole.alone, htext]
            rfl
      | wrong herror hcount hreads =>
        rw [herror] at h
        cases h
        exact ⟨[], [], first, rest, rfl, rfl, rfl, _, rfl, hcount, hreads⟩
      | ends herror hreads =>
        rw [herror] at h
        cases h
        exact ⟨[], [], first, rest, rfl, rfl, rfl, hreads⟩

end Library
end RunNBurn
