import RunNBurn.Library.Bytes

/-!
# Reading bytes through a cursor

A call reads from a cursor, fails with an error, or panics.  `Reads` says that
it reads an encoding in front of every suffix; `Accepts` says what it has read
when it succeeds, and that it never panics.
-/

namespace RunNBurn
namespace Library

structure Cursor where
  data : List UInt8
  pos : Nat

inductive Stop (error : Type) where
  | panic
  | fail (fault : error)

abbrev CursorCall (error alpha : Type) : Type :=
  Cursor -> Except (Stop error) (alpha × Cursor)

namespace CursorCall

variable {error alpha beta : Type}

def andThen (call : CursorCall error alpha) (next : alpha -> CursorCall error beta) :
    CursorCall error beta :=
  fun r =>
    match call r with
    | .ok (x, left) => next x left
    | .error stop => .error stop

instance : Monad (CursorCall error) where
  pure x := fun r => .ok (x, r)
  bind := andThen

def panicking : CursorCall error alpha :=
  fun _ => .error .panic

/-- Fail with an error that names the position. -/
def failing (fault : Nat -> error) : CursorCall error alpha :=
  fun r => .error (.fail (fault r.pos))

/-- Fail with an error that names a position some bytes back; the subtraction
panics when there are not so many. -/
def failingBack (back : Nat) (fault : Nat -> error) : CursorCall error alpha :=
  fun r =>
    if r.pos < back then .error .panic else .error (.fail (fault (r.pos - back)))

def position : CursorCall error Nat :=
  fun r => .ok (r.pos, r)

def remaining : CursorCall error Nat :=
  fun r => if r.data.length < r.pos then .error .panic else .ok (r.data.length - r.pos, r)

/-- Slice the next bytes; the slice panics when it is out of range. -/
def slice (n : Nat) : CursorCall error (List UInt8) :=
  fun r =>
    if r.data.length < r.pos + n then
      .error .panic
    else
      .ok ((r.data.drop r.pos).take n, { r with pos := r.pos + n })

def require (n : Nat) (short : Nat -> Nat -> error) : CursorCall error Unit := do
  let left <- remaining
  if left < n then
    failing (fun pos => short pos left)
  else
    return ()

def take (n : Nat) (short : Nat -> Nat -> error) : CursorCall error (List UInt8) := do
  require n short
  slice n

/-- Convert what was read to an array of a fixed length; the conversion panics
on another length. -/
def exactly (n : Nat) (bytes : List UInt8) : CursorCall error (List UInt8) :=
  if bytes.length = n then pure bytes else panicking

def word (width : Nat) (short : Nat -> Nat -> error) : CursorCall error Nat := do
  let bytes <- take width short
  let digits <- exactly width bytes
  return leValue digits

/-- Call `read` a number of times. -/
def readMany (read : CursorCall error alpha) : Nat -> CursorCall error (List alpha)
  | 0 => pure []
  | n + 1 => do
      let x <- read
      let rest <- readMany read n
      return x :: rest

/-- Call `read` a number of times, each time on what has been read so far. -/
def readEach (read : List alpha -> CursorCall error alpha) :
    Nat -> List alpha -> CursorCall error (List alpha)
  | 0, seen => pure seen
  | n + 1, seen => do
      let x <- read seen
      readEach read n (seen ++ [x])

/-!
# Reading an encoding
-/

def Reads (call : CursorCall error alpha) (x : alpha) (bytes : List UInt8) : Prop :=
  forall before after, call ⟨before ++ (bytes ++ after), before.length⟩ =
    .ok (x, ⟨before ++ (bytes ++ after), before.length + bytes.length⟩)

variable {next : alpha -> CursorCall error beta} {call : CursorCall error alpha} {x : alpha}

theorem bind_of_ok {r left : Cursor} (h : call r = .ok (x, left)) :
    (call >>= next) r = next x left := by
  change andThen call next r = next x left
  unfold andThen
  rw [h]

theorem bind_of_error {r : Cursor} {stop : Stop error} (h : call r = .error stop) :
    (call >>= next) r = .error stop := by
  change andThen call next r = .error stop
  unfold andThen
  rw [h]

theorem reads_pure (x : alpha) : Reads (pure x : CursorCall error alpha) x [] := by
  intro before after
  rfl

theorem reads_bind {y : beta} {first second : List UInt8} (hcall : Reads call x first)
    (hnext : Reads (next x) y second) :
    Reads (call >>= next) y (first ++ second) := by
  intro before after
  have hfirst := hcall before (second ++ after)
  have hsecond := hnext (before ++ first) after
  rw [List.append_assoc, List.length_append] at hsecond
  rw [List.append_assoc, bind_of_ok hfirst, hsecond, List.length_append, Nat.add_assoc]

variable {bytes : List UInt8}

theorem reads_bind_nil {y : beta} (hcall : Reads call x []) (hnext : Reads (next x) y bytes) :
    Reads (call >>= next) y bytes :=
  reads_bind hcall hnext

theorem reads_bind_last {y : beta} (hcall : Reads call x bytes) (hnext : Reads (next x) y []) :
    Reads (call >>= next) y bytes :=
  List.append_nil bytes ▸ reads_bind hcall hnext

theorem reads_slice (bytes : List UInt8) :
    Reads (slice bytes.length : CursorCall error (List UInt8)) bytes bytes := by
  intro before after
  unfold slice
  have hroom : ¬ (before ++ (bytes ++ after)).length < before.length + bytes.length := by
    rw [List.length_append, List.length_append]
    omega
  dsimp only
  rw [if_neg hroom, List.drop_left, List.take_left]

theorem reads_require {next : Unit -> CursorCall error beta} {y : beta} {n : Nat}
    {short : Nat -> Nat -> error} (hlength : n <= bytes.length) (hnext : Reads (next ()) y bytes) :
    Reads (require n short >>= next) y bytes := by
  intro before after
  have hroom : ¬ (before ++ (bytes ++ after)).length < before.length := by
    rw [List.length_append]
    omega
  have hleft : ¬ (before ++ (bytes ++ after)).length - before.length < n := by
    rw [List.length_append, List.length_append]
    omega
  have hrequire : require n short ⟨before ++ (bytes ++ after), before.length⟩ =
      .ok ((), ⟨before ++ (bytes ++ after), before.length⟩) := by
    have hremaining : (remaining : CursorCall error Nat)
        ⟨before ++ (bytes ++ after), before.length⟩ =
        .ok ((before ++ (bytes ++ after)).length - before.length,
          ⟨before ++ (bytes ++ after), before.length⟩) := by
      unfold remaining
      dsimp only
      rw [if_neg hroom]
    unfold require
    rw [bind_of_ok hremaining, if_neg hleft]
    rfl
  rw [bind_of_ok hrequire]
  exact hnext before after

theorem reads_take (bytes : List UInt8) (short : Nat -> Nat -> error) :
    Reads (take bytes.length short) bytes bytes :=
  reads_require (Nat.le_refl _) (reads_slice bytes)

theorem reads_word {width n : Nat} (h : n < 256 ^ width) (short : Nat -> Nat -> error) :
    Reads (word width short) n (leBytes width n) := by
  have htake := reads_take (leBytes width n) short
  rw [leBytes_length] at htake
  have hvalue : Reads (exactly width (leBytes width n) >>= fun digits =>
      (pure (leValue digits) : CursorCall error Nat)) (leValue (leBytes width n)) [] := by
    unfold exactly
    rw [if_pos (leBytes_length width n)]
    exact reads_bind_nil (reads_pure _) (reads_pure _)
  rw [leValue_leBytes h] at hvalue
  exact reads_bind_last htake hvalue

inductive Repeats (spec : alpha -> List UInt8 -> Prop) : List alpha -> List UInt8 -> Prop where
  | nil : Repeats spec [] []
  | cons {x : alpha} {rest : List alpha} {bytes others : List UInt8}
      (head : spec x bytes) (tail : Repeats spec rest others) :
      Repeats spec (x :: rest) (bytes ++ others)

variable {spec : alpha -> List UInt8 -> Prop}

theorem reads_readMany {read : CursorCall error alpha} {items : List alpha}
    (h : Repeats spec items bytes)
    (hread : forall x xs, x ∈ items -> spec x xs -> Reads read x xs) :
    Reads (readMany read items.length) items bytes := by
  induction h with
  | nil => exact reads_pure []
  | @cons x rest bytes others head tail ih =>
    have hhead := hread x bytes List.mem_cons_self head
    have htail := ih (fun y ys hy => hread y ys (List.mem_cons_of_mem x hy))
    exact reads_bind hhead (reads_bind_last htail (reads_pure _))

theorem reads_readEach {read : List alpha -> CursorCall error alpha} {seen items : List alpha}
    (h : Repeats spec items bytes)
    (hread : forall earlier x later xs, seen ++ items = earlier ++ x :: later -> spec x xs ->
      Reads (read earlier) x xs) :
    Reads (readEach read items.length seen) (seen ++ items) bytes := by
  induction h generalizing seen with
  | nil =>
    rw [List.append_nil]
    exact reads_pure seen
  | @cons x rest bytes others head tail ih =>
    have hsplit : seen ++ x :: rest = (seen ++ [x]) ++ rest :=
      (List.append_cons seen x rest)
    rw [hsplit]
    apply reads_bind (hread seen x rest bytes rfl head)
    exact ih (fun earlier y later ys hlater hy =>
      hread earlier y later ys (hsplit.trans hlater) hy)

theorem Repeats.length_le {items : List alpha} {least : Nat} (h : Repeats spec items bytes)
    (hspec : forall x xs, spec x xs -> least <= xs.length) :
    items.length * least <= bytes.length := by
  induction h with
  | nil => exact Nat.le_of_eq (Nat.zero_mul _)
  | cons head tail ih =>
    rw [List.length_cons, List.length_append, Nat.succ_mul, Nat.add_comm]
    exact Nat.add_le_add (hspec _ _ head) ih

/-!
# What a call accepts
-/

/-- From a position of at least `low` the call never panics, and when it succeeds
it has read bytes that meet the specification. -/
def Accepts (low : Nat) (call : CursorCall error alpha)
    (spec : alpha -> List UInt8 -> Prop) : Prop :=
  forall before rest, low <= before.length ->
    match call ⟨before ++ rest, before.length⟩ with
    | .ok (x, left) => exists bytes after, rest = bytes ++ after ∧ spec x bytes ∧
        left = ⟨before ++ rest, before.length + bytes.length⟩
    | .error .panic => False
    | .error (.fail _) => True

theorem accepts_pure (low : Nat) (x : alpha) :
    Accepts low (pure x : CursorCall error alpha) (fun y bytes => y = x ∧ bytes = []) :=
  fun _ rest _ => ⟨[], rest, rfl, ⟨rfl, rfl⟩, rfl⟩

variable {low : Nat}

theorem accepts_mono {spec weaker : alpha -> List UInt8 -> Prop} (h : Accepts low call spec)
    (hspec : forall x bytes, spec x bytes -> weaker x bytes) :
    Accepts low call weaker := by
  intro before rest hlow
  have hcall := h before rest hlow
  cases hresult : call ⟨before ++ rest, before.length⟩ with
  | ok result =>
    rcases result with ⟨x, left⟩
    rw [hresult] at hcall
    rcases hcall with ⟨bytes, after, hrest, hx, hleft⟩
    exact ⟨bytes, after, hrest, hspec x bytes hx, hleft⟩
  | error stop =>
    rw [hresult] at hcall
    cases stop with
    | panic => exact hcall
    | fail fault => trivial

theorem accepts_bind {first : alpha -> List UInt8 -> Prop}
    (second : alpha -> beta -> List UInt8 -> Prop) (hcall : Accepts low call first)
    (hnext : forall x bytes, first x bytes ->
      Accepts (low + bytes.length) (next x) (second x)) :
    Accepts low (call >>= next) (fun y bytes => exists x xs ys, first x xs ∧ second x y ys ∧
      bytes = xs ++ ys) := by
  intro before rest hlow
  have hfirst := hcall before rest hlow
  cases hresult : call ⟨before ++ rest, before.length⟩ with
  | error stop =>
    rw [hresult] at hfirst
    rw [bind_of_error hresult]
    cases stop with
    | panic => exact hfirst
    | fail fault => trivial
  | ok result =>
    rcases result with ⟨x, left⟩
    rw [hresult] at hfirst
    rcases hfirst with ⟨bytes, after, hrest, hx, hleft⟩
    rw [bind_of_ok hresult, hleft, hrest]
    have hroom : low + bytes.length <= (before ++ bytes).length := by
      rw [List.length_append]
      exact Nat.add_le_add_right hlow _
    have hsecond := hnext x bytes hx (before ++ bytes) after hroom
    rw [List.append_assoc, List.length_append] at hsecond
    cases hlast : next x ⟨before ++ (bytes ++ after), before.length + bytes.length⟩ with
    | error stop =>
      rw [hlast] at hsecond
      cases stop with
      | panic => exact hsecond
      | fail fault => trivial
    | ok final =>
      rcases final with ⟨y, last⟩
      rw [hlast] at hsecond
      rcases hsecond with ⟨others, following, hafter, hy, hlast⟩
      refine ⟨bytes ++ others, following, ?_, ⟨x, bytes, others, hx, hy, rfl⟩, ?_⟩
      · rw [hafter, List.append_assoc]
      · rw [hlast, List.length_append, Nat.add_assoc]

theorem accepts_failing (low : Nat) (fault : Nat -> error) (spec : alpha -> List UInt8 -> Prop) :
    Accepts low (failing fault) spec :=
  fun _ _ _ => trivial

theorem accepts_failingBack
    {low back : Nat} (h : back <= low) (fault : Nat -> error) (spec : alpha -> List UInt8 -> Prop) :
    Accepts low (failingBack back fault) spec := by
  intro before rest hlow
  unfold failingBack
  dsimp only
  rw [if_neg (Nat.not_lt_of_le (Nat.le_trans h hlow))]
  trivial

theorem accepts_ite {condition : Prop} [Decidable condition]
    {first second : CursorCall error alpha} (hfirst : condition -> Accepts low first spec)
    (hsecond : ¬ condition -> Accepts low second spec) :
    Accepts low (if condition then first else second) spec := by
  split
  · rename_i h
    exact hfirst h
  · rename_i h
    exact hsecond h

theorem accepts_take (low n : Nat) (short : Nat -> Nat -> error) :
    Accepts low (take n short) (fun x bytes => x = bytes ∧ bytes.length = n) := by
  intro before rest hlow
  have hroom : ¬ (before ++ rest).length < before.length := by
    rw [List.length_append]
    omega
  have hremaining : (remaining : CursorCall error Nat) ⟨before ++ rest, before.length⟩ =
      .ok (rest.length, ⟨before ++ rest, before.length⟩) := by
    unfold remaining
    dsimp only
    rw [if_neg hroom, List.length_append, Nat.add_sub_cancel_left]
  by_cases hshort : rest.length < n
  · have hrequire : require n short ⟨before ++ rest, before.length⟩ =
        .error (.fail (short before.length rest.length)) := by
      unfold require
      rw [bind_of_ok hremaining, if_pos hshort]
      rfl
    unfold take
    rw [bind_of_error hrequire]
    trivial
  · have hrequire : require n short ⟨before ++ rest, before.length⟩ =
        .ok ((), ⟨before ++ rest, before.length⟩) := by
      unfold require
      rw [bind_of_ok hremaining, if_neg hshort]
      rfl
    have hslice : ¬ (before ++ rest).length < before.length + n := by
      rw [List.length_append]
      omega
    have hlength : (rest.take n).length = n :=
      List.length_take_of_le (Nat.le_of_not_lt hshort)
    unfold take
    rw [bind_of_ok hrequire]
    unfold slice
    dsimp only
    rw [if_neg hslice, List.drop_left]
    exact ⟨rest.take n, rest.drop n, (List.take_append_drop n rest).symm, ⟨rfl, hlength⟩,
      by rw [hlength]⟩

theorem accepts_word (low width : Nat) (short : Nat -> Nat -> error) :
    Accepts low (word width short) (fun n bytes => n < 256 ^ width ∧ bytes = leBytes width n) := by
  have hvalue (x : List UInt8) (hwidth : x.length = width) (low : Nat) :
      Accepts low (exactly width x >>= fun digits =>
        (pure (leValue digits) : CursorCall error Nat))
        (fun n others => n = leValue x ∧ others = []) := by
    unfold exactly
    rw [if_pos hwidth]
    exact fun before rest _ => ⟨[], rest, rfl, ⟨rfl, rfl⟩, rfl⟩
  have hboth := accepts_bind _ (accepts_take low width short)
    (fun x bytes hx => hvalue x (hx.1 ▸ hx.2) (low + bytes.length))
  refine accepts_mono hboth ?_
  rintro n bytes ⟨x, xs, ys, ⟨hx, hlength⟩, ⟨hn, hys⟩, hbytes⟩
  rw [hys, List.append_nil] at hbytes
  rw [hn, hx, hbytes, ← hlength]
  exact ⟨leValue_lt xs, (leBytes_leValue xs).symm⟩

theorem accepts_require (low n : Nat) (short : Nat -> Nat -> error) :
    Accepts low (require n short) (fun _ bytes => bytes = []) := by
  intro before rest hlow
  have hroom : ¬ (before ++ rest).length < before.length := by
    rw [List.length_append]
    omega
  have hremaining : (remaining : CursorCall error Nat) ⟨before ++ rest, before.length⟩ =
      .ok ((before ++ rest).length - before.length, ⟨before ++ rest, before.length⟩) := by
    unfold remaining
    dsimp only
    rw [if_neg hroom]
  unfold require
  rw [bind_of_ok hremaining]
  by_cases hshort : (before ++ rest).length - before.length < n
  · rw [if_pos hshort]
    trivial
  · rw [if_neg hshort]
    exact ⟨[], rest, rfl, rfl, rfl⟩

theorem accepts_readMany {read : CursorCall error alpha}
    (hread : forall low, Accepts low read spec) (n : Nat) :
    Accepts low (readMany read n)
      (fun items bytes => items.length = n ∧ Repeats spec items bytes) := by
  induction n generalizing low with
  | zero =>
    refine accepts_mono (accepts_pure low []) ?_
    rintro items bytes ⟨hitems, hbytes⟩
    rw [hitems, hbytes]
    exact ⟨rfl, Repeats.nil⟩
  | succ n ih =>
    have htail (x : alpha) (low : Nat) : Accepts low
        (readMany read n >>= fun rest => (pure (x :: rest) : CursorCall error (List alpha)))
        (fun items bytes => exists rest, items = x :: rest ∧ rest.length = n ∧
          Repeats spec rest bytes) := by
      refine accepts_mono (accepts_bind _ ih (fun rest bytes _ => accepts_pure _ (x :: rest))) ?_
      rintro items bytes ⟨rest, xs, ys, ⟨hlength, hrest⟩, ⟨hitems, hys⟩, hbytes⟩
      rw [hys, List.append_nil] at hbytes
      exact ⟨rest, hitems, hlength, hbytes ▸ hrest⟩
    refine accepts_mono (accepts_bind _ (hread low) (fun x bytes _ => htail x _)) ?_
    rintro items bytes ⟨x, xs, ys, hx, ⟨rest, hitems, hlength, hrest⟩, hbytes⟩
    rw [hitems, hbytes, List.length_cons, hlength]
    exact ⟨rfl, Repeats.cons hx hrest⟩

theorem accepts_readEach {read : List alpha -> CursorCall error alpha}
    {admits : List alpha -> alpha -> Prop} (hread : forall seen low, Accepts low (read seen)
      (fun x bytes => admits seen x ∧ spec x bytes)) (n low : Nat) (seen : List alpha) :
    Accepts low (readEach read n seen) (fun result bytes => exists items,
      result = seen ++ items ∧ items.length = n ∧ Repeats spec items bytes ∧
      forall earlier x later, items = earlier ++ x :: later -> admits (seen ++ earlier) x) := by
  induction n generalizing low seen with
  | zero =>
    refine accepts_mono (accepts_pure low seen) ?_
    rintro result bytes ⟨hresult, hbytes⟩
    refine ⟨[], ?_, rfl, ?_, ?_⟩
    · rw [hresult, List.append_nil]
    · rw [hbytes]
      exact Repeats.nil
    · intro earlier x later hsplit
      cases earlier with
      | nil => cases hsplit
      | cons y ys => cases hsplit
  | succ n ih =>
    refine accepts_mono (accepts_bind _ (hread seen low) (fun x bytes _ => ih _ (seen ++ [x]))) ?_
    rintro result bytes ⟨x, xs, ys, ⟨hadmits, hx⟩, ⟨items, hresult, hlength, hitems, hall⟩, hbytes⟩
    refine ⟨x :: items, ?_, ?_, ?_, ?_⟩
    · rw [hresult, List.append_assoc]
      rfl
    · rw [List.length_cons, hlength]
    · rw [hbytes]
      exact Repeats.cons hx hitems
    · intro earlier y later hsplit
      cases earlier with
      | nil =>
        cases hsplit
        rw [List.append_nil]
        exact hadmits
      | cons z zs =>
        cases hsplit
        rw [List.append_cons]
        exact hall zs y later rfl

end CursorCall

end Library
end RunNBurn
