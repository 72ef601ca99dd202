import RunNBurn.Tensors.StorageRuns

/-!
# Identities of host storages

A range that is looked up is named by its allocation, until there were more registrations than
there are identities.
-/

namespace RunNBurn
namespace Tensors

namespace Memory

variable {m : Memory}

/-!
## Ranges and their storages
-/

variable {bytes : Span}

theorem Within.base_covers {a o : Nat} (h : m.Within bytes a o) :
    exists span, m.Live a span ∧ span.Covers bytes.base ∧ o = bytes.base - span.base := by
  rcases h with ⟨hlen, span, hlive, hinside, hoffset⟩
  exact ⟨span, hlive, hinside.covers (Span.covers_base hlen), hoffset⟩

theorem Sound.entry_of_holds (h : m.Sound) {entry : HostStorageRegistration}
    (hlen : 0 < bytes.len) (hmem : entry ∈ m.registry) (hholds : m.Holds bytes entry) :
    exists block j, m.blocks entry.storage = some block ∧ m.issued[j]? = some block.allocation ∧
      entry.allocationId = idOf j ∧ m.Live block.allocation entry.span ∧
      entry.span.Covers bytes.base := by
  rcases h.entry_names hmem with ⟨block, j, hblock, hissued, hid⟩
  have hslice := h.entry_slice hmem
  unfold asSlice at hslice
  rw [hblock] at hslice
  exact ⟨block, j, hblock, hissued, hid, .inl ⟨_, block, hblock, hholds.1, hslice, rfl⟩,
    hholds.2.2.covers (Span.covers_base hlen)⟩

theorem Sound.allocation_eq (h : m.Sound) {a b i : Nat} {s t : Span} (hleft : m.Live a s)
    (hright : m.Live b t) (hleftCovers : s.Covers i) (hrightCovers : t.Covers i) : a = b := by
  by_cases hsame : a = b
  · exact hsame
  · exact absurd hrightCovers (h.live_apart hleft hright hsame i hleftCovers)

theorem Sound.place_of_lease (h : m.Sound) {a o : Nat} {lease : HostStorageLease}
    (hwithin : m.Within bytes a o) (hlease : m.hostStorageLease bytes = some lease) :
    exists j, m.issued[j]? = some a ∧
      lease.identity =
        { allocationId := idOf j
          byteOffset := o
          len := bytes.len } := by
  rcases hostStorageLease_eq_some hlease with ⟨entry, hmem, hholds, hsame⟩
  rcases h.entry_of_holds hwithin.1 hmem hholds with
    ⟨block, j, hblock, hissued, hid, hlive, hcovers⟩
  rcases hwithin.base_covers with ⟨span, hspanLive, hspanCovers, hoffset⟩
  have hallocation := h.allocation_eq hlive hspanLive hcovers hspanCovers
  rw [hallocation] at hissued hlive
  have hspan := h.live_eq hspanLive hlive
  refine ⟨j, hissued, ?_⟩
  rw [hsame, hoffset, hspan]
  unfold leaseOf
  rw [hid]
  rfl

theorem idOf_inj {i j n : Nat} (hi : i < n) (hj : j < n) (hn : n <= 2 ^ 64)
    (h : idOf i = idOf j) : i = j := by
  unfold idOf at h
  omega

theorem Sound.lookup_registered (h : m.Sound) {storage : Nat} {span : Span}
    (hregistered : m.Registered storage span) :
    exists id, forall bytes : Span, 0 < bytes.len -> bytes.Inside span ->
      m.hostStorageLease bytes =
        some
          { identity :=
              { allocationId := id
                byteOffset := bytes.base - span.base
                len := bytes.len }
            storage := storage } := by
  rcases h.registered hregistered with ⟨entry, hmem, hstorage⟩
  rcases hregistered with ⟨block, hblock, hslice, -, hpos⟩
  have hspan : span = entry.span := by
    have hentry := h.entry_slice hmem
    unfold asSlice at hentry
    rw [hstorage, hblock] at hentry
    exact Option.some.inj (hslice.symm.trans hentry)
  have hroom := h.live_room (.inl ⟨storage, block, hblock, hpos, hslice, rfl⟩)
  refine ⟨entry.allocationId, ?_⟩
  intro bytes hlen hinside
  have hholds : m.Holds bytes entry := by
    refine ⟨?_, ?_, ?_⟩
    · rw [hstorage]
      exact hpos
    · rw [hspan] at hroom
      exact hroom
    · rw [← hspan]
      exact hinside
  rw [hostStorageLease_of_holds hmem hholds]
  · unfold leaseOf
    rw [hstorage, hspan]
    rfl
  · intro other hother hotherHolds
    rcases h.entry_of_holds hlen hmem hholds with ⟨left, -, hleft, -, -, hleftLive, hleftCovers⟩
    rcases h.entry_of_holds hlen hother hotherHolds with
      ⟨right, -, hright, -, -, hrightLive, hrightCovers⟩
    have hallocation := h.allocation_eq hrightLive hleftLive hrightCovers hleftCovers
    exact h.entry_eq hother hmem (h.block_eq hright hleft hallocation)

theorem Sound.lookup_outside (h : m.Sound) (hmarked : m.Marked) (hlen : 0 < bytes.len)
    (houtside : forall storage span, m.Registered storage span -> ¬bytes.Inside span) :
    m.hostStorageLease bytes = none := by
  apply Option.eq_none_iff_forall_ne_some.mpr
  intro lease hlease
  rcases hostStorageLease_eq_some hlease with ⟨entry, hmem, hholds, -⟩
  rcases h.entry_of_holds hlen hmem hholds with ⟨block, j, hblock, -⟩
  have hslice := h.entry_slice hmem
  unfold asSlice at hslice
  rw [hblock] at hslice
  exact houtside entry.storage entry.span
    ⟨block, hblock, hslice, hmarked entry hmem block hblock, hholds.1⟩ hholds.2.2

end Memory

open Tensors.Memory

theorem permitted_append {m : Memory} {events later : List Event} :
    m.Permitted (events ++ later) ↔ m.Permitted events ∧ (m.after events).Permitted later := by
  induction events generalizing m with
  | nil =>
    constructor
    · intro h
      exact ⟨True.intro, h⟩
    · intro h
      exact h.2
  | cons event rest ih =>
    constructor
    · intro h
      have hrest := ih.mp h.2
      exact ⟨⟨h.1, hrest.1⟩, hrest.2⟩
    · intro h
      exact ⟨h.1.1, ih.mpr ⟨h.1.2, h.2⟩⟩

/-- Two moments of a history that makes no more registrations than there are identities. -/
theorem host_storage_identities_name_allocations {events later : List Event}
    (hpermitted : start.Permitted (events ++ later))
    (hcount : (events ++ later).countP Event.isRegister <= 2 ^ 64) :
    let m := start.after events
    let m' := start.after (events ++ later)
    (forall bytes bytes' a a' o o' identity, m.Within bytes a o -> m'.Within bytes' a' o' ->
      m.hostStorageIdentity bytes = some identity ->
      m'.hostStorageIdentity bytes' = some identity ->
      a = a' ∧ o = o' ∧ bytes.len = bytes'.len) ∧
    (forall storage span, m.Registered storage span ->
      exists id, forall bytes : Span, 0 < bytes.len -> bytes.Inside span ->
        let identity : HostStorageIdentity :=
          { allocationId := id
            byteOffset := bytes.base - span.base
            len := bytes.len }
        m.hostStorageIdentity bytes = some identity ∧
          m.hostStorageLease bytes =
            some
              { identity := identity
                storage := storage }) ∧
    (forall bytes : Span, 0 < bytes.len ->
      (forall storage span, m.Registered storage span -> ¬bytes.Inside span) ->
      m.hostStorageIdentity bytes = none ∧ m.hostStorageLease bytes = none) ∧
    forall bytes a o lease, m.Within bytes a o -> m.hostStorageLease bytes = some lease ->
      lease ∈ m'.leases ->
      0 < m'.strongCount lease.storage ∧
        exists block, m'.blocks lease.storage = some block ∧ block.allocation = a := by
  intro m m'
  have hboth := permitted_append.mp hpermitted
  have hsound : m.Sound := sound_start.after hboth.1
  have hsound' : m'.Sound := sound_start.after hpermitted
  have hmarked : m.Marked := by
    have hstart : start.Marked := by
      intro entry hmem
      cases hmem
    exact hstart.after sound_start hboth.1
  have hissued : exists new, m'.issued = m.issued ++ new := by
    rcases issued_after m later with ⟨new, hnew, -⟩
    refine ⟨new, ?_⟩
    rw [← hnew]
    exact congrArg issued List.foldl_append
  have hfew : m'.issued.length <= 2 ^ 64 := by
    rcases issued_after start (events ++ later) with ⟨new, hnew, hlength⟩
    have hall : m'.issued = new := hnew
    rw [hall]
    exact Nat.le_trans hlength hcount
  -- an identity of the first moment belongs to the same allocation in the second
  have hsame : forall {j j' a a' : Nat}, m.issued[j]? = some a -> m'.issued[j']? = some a' ->
      idOf j = idOf j' -> a = a' := by
    intro j j' a a' hfirst hsecond hid
    rcases hissued with ⟨new, hnew⟩
    rcases List.getElem?_eq_some_iff.mp hfirst with ⟨hj, -⟩
    rcases List.getElem?_eq_some_iff.mp hsecond with ⟨hj', -⟩
    have hkept : m'.issued[j]? = some a := by
      rw [hnew, List.getElem?_append_left hj, hfirst]
    rcases List.getElem?_eq_some_iff.mp hkept with ⟨hjLater, -⟩
    rw [idOf_inj hjLater hj' hfew hid] at hkept
    exact Option.some.inj (hkept.symm.trans hsecond)
  refine ⟨?_, ?_, ?_, ?_⟩
  · intro bytes bytes' a a' o o' identity hwithin hwithin' hfirst hsecond
    rw [hostStorageIdentity_eq] at hfirst hsecond
    rcases Option.map_eq_some_iff.mp hfirst with ⟨lease, hlease, hidentity⟩
    rcases Option.map_eq_some_iff.mp hsecond with ⟨lease', hlease', hidentity'⟩
    rcases hsound.place_of_lease hwithin hlease with ⟨j, hj, hplace⟩
    rcases hsound'.place_of_lease hwithin' hlease' with ⟨j', hj', hplace'⟩
    have heq := (hplace.symm.trans (hidentity.trans hidentity'.symm)).trans hplace'
    injection heq with hid hoffset hlen
    exact ⟨hsame hj hj' hid, hoffset, hlen⟩
  · intro storage span hregistered
    rcases hsound.lookup_registered hregistered with ⟨id, hfound⟩
    refine ⟨id, ?_⟩
    intro bytes hlen hinside identity
    have hlease := hfound bytes hlen hinside
    refine ⟨?_, hlease⟩
    rw [hostStorageIdentity_eq, hlease]
    rfl
  · intro bytes hlen houtside
    have hnone := hsound.lookup_outside hmarked hlen houtside
    refine ⟨?_, hnone⟩
    rw [hostStorageIdentity_eq, hnone]
    rfl
  · intro bytes a o lease hwithin hlease hmem
    refine ⟨hsound'.strongCount_pos hmem, ?_⟩
    rcases hsound'.lease_names hmem with ⟨block, j', hblock, hj', hid'⟩
    rcases hsound.place_of_lease hwithin hlease with ⟨j, hj, hplace⟩
    have hid : idOf j = idOf j' := by
      rw [hplace] at hid'
      exact hid'
    exact ⟨block, hblock, (hsame hj hj' hid).symm⟩

/-!
## Identities that come again
-/

def usedBytes : Span where
  base := 16
  len := 4

def usedBlock (n handles : Nat) (registered : Bool) : ArcBlock where
  allocation := n
  slice := some usedBytes
  handles := handles
  registered := registered

def usedEntry (n : Nat) : HostStorageRegistration where
  allocationId := idOf n
  storage := n % 2
  base := 16
  len := 4

/-- After `n + 1` storages at the same bytes, of which the last one has this many handles. -/
def used (n handles : Nat) : Memory where
  blocks := fun storage => if storage = n % 2 then some (usedBlock n handles true) else none
  buffers := []
  leases := []
  registry := [usedEntry n]
  nextHostStorageId := idOf (n + 1)
  allocations := n + 1
  issued := List.range (n + 1)

def reused (n : Nat) : Memory :=
  { used n 0 with
    blocks := fun storage =>
      if storage = (n + 1) % 2 then some (usedBlock (n + 1) 1 false) else (used n 0).blocks storage
    allocations := n + 2 }

variable (n : Nat)

theorem step_dropHandle_used : (used n 1).step (.dropHandle (n % 2)) = used n 0 := by
  unfold step act release changeBlock setBlock used
  simp [Memory.strongCount, leasesOf, usedEntry, usedBlock]
  funext s
  by_cases h : s = n % 2
  · simp [h]
  · simp [h, Ne.symm h]

theorem step_newStorage_used :
    (used n 0).step (.newStorage ((n + 1) % 2) (some usedBytes)) = reused n := by
  unfold step act release setBlock reused used
  simp [Memory.strongCount, leasesOf, usedEntry, usedBlock]
  funext s
  by_cases h : s = (n + 1) % 2
  · simp [h]
  · by_cases h' : s = n % 2
    · simp [h']
    · simp [h, h']

theorem step_register_reused :
    (reused n).step (.register ((n + 1) % 2)) = used (n + 1) 1 := by
  have hne : n % 2 ≠ (n + 1) % 2 := by omega
  have hretained : (reused n).retained = [] := by
    unfold retained reused used
    simp [Memory.strongCount, leasesOf, usedEntry, usedBlock, hne]
  have hslice : (reused n).asSlice ((n + 1) % 2) = some usedBytes := by
    simp [asSlice, reused, usedBlock]
  have hallocation : (reused n).allocationOf ((n + 1) % 2) = [n + 1] := by
    simp [allocationOf, reused, usedBlock]
  have hregister : (reused n).registerHostStorage ((n + 1) % 2) =
      { reused n with
        registry := [usedEntry (n + 1)]
        nextHostStorageId := idOf (n + 2)
        issued := List.range (n + 2) } := by
    have hnext : ((reused n).nextHostStorageId + 1) % 2 ^ 64 = idOf (n + 2) := idOf_succ (n + 1)
    unfold registerHostStorage pushRegistration
    rw [hslice, hretained, hallocation, hnext, List.range_succ]
    rfl
  unfold step act
  dsimp only
  rw [hregister]
  unfold release changeBlock setBlock reused used
  simp [Memory.strongCount, leasesOf, usedEntry, usedBlock]
  funext s
  by_cases h : s = (n + 1) % 2
  · simp [h]
  · by_cases h' : s = n % 2
    · simp [h', hne, Ne.symm hne]
    · simp [h, h', Ne.symm h]

theorem not_live_used {n a : Nat} {span : Span} : ¬(used n 0).Live a span := by
  intro hlive
  rcases hlive with ⟨storage, block, hblock, hpos, -⟩ | ⟨buffer, hmem, -⟩
  · rw [strongCount_of_block hblock] at hpos
    unfold used at hblock
    dsimp only at hblock
    split at hblock
    next =>
      cases hblock
      cases hpos
    next => cases hblock
  · cases hmem

def useAnew (n : Nat) : List Event :=
  [.newStorage (n % 2) (some usedBytes), .register (n % 2)]

theorem after_useAnew :
    (used n 0).Permitted (useAnew (n + 1)) ∧ (used n 0).after (useAnew (n + 1)) = used (n + 1)
      1 := by
  have hne : (n + 1) % 2 ≠ n % 2 := by omega
  have hnone : (used n 0).blocks ((n + 1) % 2) = none := if_neg hne
  have hfree : forall span, some usedBytes = some span -> (used n 0).Free span := by
    intro span hspan
    cases hspan
    exact ⟨by decide, fun _ _ hlive => absurd hlive not_live_used⟩
  have hheld : (reused n).blocks ((n + 1) % 2) = some (usedBlock (n + 1) 1 false) := if_pos rfl
  unfold useAnew
  constructor
  · refine ⟨⟨hnone, hfree⟩, ?_, True.intro⟩
    rw [step_newStorage_used]
    exact ⟨_, hheld, Nat.one_pos⟩
  · unfold after
    rw [List.foldl_cons, List.foldl_cons, step_newStorage_used, step_register_reused]
    rfl

/-- Storage after storage at the same bytes, each dropped before the next. -/
def useAgain : Nat -> List Event
  | 0 => [.dropHandle 0]
  | n + 1 => useAgain n ++ useAnew (n + 1) ++ [.dropHandle ((n + 1) % 2)]

theorem after_append (m : Memory) (events later : List Event) :
    m.after (events ++ later) = (m.after events).after later :=
  List.foldl_append

theorem after_useAgain :
    (used 0 1).Permitted (useAgain n) ∧ (used 0 1).after (useAgain n) = used n 0 := by
  have hdrop : forall k, (used k 1).Permitted [.dropHandle (k % 2)] ∧
      (used k 1).after [.dropHandle (k % 2)] = used k 0 :=
    fun k => ⟨⟨⟨usedBlock k 1 true, if_pos rfl, Nat.one_pos⟩, True.intro⟩, step_dropHandle_used k⟩
  induction n with
  | zero => exact hdrop 0
  | succ n ih =>
    have hnew := after_useAnew n
    unfold useAgain
    rw [permitted_append, permitted_append, after_append, after_append, after_append, ih.2, hnew.2]
    exact ⟨⟨⟨ih.1, hnew.1⟩, (hdrop (n + 1)).1⟩, (hdrop (n + 1)).2⟩

theorem start_useAnew : start.Permitted (useAnew 0) ∧ start.after (useAnew 0) = used 0 1 := by
  have hfirst : start.step (.newStorage 0 (some usedBytes)) =
      { start with
        blocks := fun storage => if storage = 0 then some (usedBlock 0 1 false) else none
        allocations := 1 } := by
    unfold step act release setBlock start
    simp [Memory.strongCount, leasesOf, usedBlock]
    funext s
    by_cases h : s = 0
    · simp [h]
    · simp [h]
  have hnone : forall a span, ¬start.Live a span := by
    intro a span hlive
    rcases hlive with ⟨storage, block, hblock, -⟩ | ⟨buffer, hmem, -⟩
    · cases hblock
    · cases hmem
  constructor
  · refine ⟨⟨rfl, ?_⟩, ?_, True.intro⟩
    · intro span hspan
      cases hspan
      exact ⟨by decide, fun _ _ hlive => absurd hlive (hnone _ _)⟩
    · change (start.step (.newStorage 0 (some usedBytes))).Allowed (.register 0)
      rw [hfirst]
      exact ⟨usedBlock 0 1 false, rfl, Nat.one_pos⟩
  · unfold after useAnew
    rw [List.foldl_cons, List.foldl_cons, hfirst]
    unfold step act release registerHostStorage changeBlock setBlock used
    simp [asSlice, retained, pushRegistration, allocationOf, Memory.strongCount, leasesOf,
      usedEntry, usedBlock, start, usedBytes]
    refine ⟨?_, rfl, rfl⟩
    funext s
    by_cases h : s = 0
    · simp [h]
    · simp [h, Ne.symm h]

theorem identity_used :
    (used n 1).hostStorageIdentity usedBytes =
      some
        { allocationId := idOf n
          byteOffset := 0
          len := 4 } := by
  have hstrong : (used n 1).strongCount (n % 2) = 1 := by
    simp [Memory.strongCount, leasesOf, used, usedBlock]
  have hentry : (used n 1).Holds usedBytes (usedEntry n) := by
    refine ⟨?_, ?_, Nat.le_refl 16, Nat.le_refl 20⟩
    · exact Nat.lt_of_lt_of_eq Nat.one_pos hstrong.symm
    · exact (by decide : 16 + 4 < 2 ^ 64)
  rw [hostStorageIdentity_eq, hostStorageLease_of_holds (List.mem_singleton.mpr rfl) hentry]
  · rfl
  · intro other hmem _
    exact List.mem_singleton.mp hmem

theorem within_used : (used n 1).Within usedBytes n 0 := by
  refine ⟨by decide, usedBytes, .inl ⟨n % 2, usedBlock n 1 true, if_pos rfl, ?_, rfl, rfl⟩,
    ⟨Nat.le_refl _, Nat.le_refl _⟩, rfl⟩
  simp [Memory.strongCount, leasesOf, used, usedBlock]

/-- The second of two storages at the same bytes. -/
theorem host_storage_identities_name_allocations_reused :
    (start.after (useAnew 0)).hostStorageIdentity usedBytes ≠ none ∧
      (start.after (useAnew 0)).hostStorageIdentity usedBytes ≠
        (start.after (useAnew 0 ++ (useAgain 0 ++ useAnew 1))).hostStorageIdentity usedBytes := by
  have hfirst := start_useAnew
  have hsecond := after_useAgain 0
  have hthird := after_useAnew 0
  have hpermitted : start.Permitted (useAnew 0 ++ (useAgain 0 ++ useAnew 1)) := by
    rw [permitted_append, permitted_append, hfirst.2, hsecond.2]
    exact ⟨hfirst.1, hsecond.1, hthird.1⟩
  have hlast : start.after (useAnew 0 ++ (useAgain 0 ++ useAnew 1)) = used 1 1 := by
    rw [after_append, after_append, hfirst.2, hsecond.2, hthird.2]
  have hsound := (host_storage_identities_name_allocations hpermitted (by decide)).1
  rw [hfirst.2, hlast] at hsound
  rw [hfirst.2, hlast, identity_used 0]
  refine ⟨Option.some_ne_none _, ?_⟩
  intro hsame
  have hplace := hsound usedBytes usedBytes 0 1 0 0 _ (within_used 0) (within_used 1)
    (identity_used 0) hsame.symm
  exact absurd hplace.1 (by decide)

/-- The identity of the first storage is that of a later one. -/
theorem host_storage_identity_comes_again :
    exists events later,
      start.Permitted (events ++ later) ∧
      (start.after events).Within usedBytes 0 0 ∧
      (start.after (events ++ later)).Within usedBytes (2 ^ 64) 0 ∧
      (start.after events).hostStorageIdentity usedBytes =
        (start.after (events ++ later)).hostStorageIdentity usedBytes ∧
      (start.after events).hostStorageIdentity usedBytes ≠ none := by
  have hlast : exists n, n + 1 = 2 ^ 64 := ⟨2 ^ 64 - 1, by omega⟩
  rcases hlast with ⟨n, hn⟩
  have hagain : idOf 0 = idOf (n + 1) := by
    unfold idOf
    omega
  have hfirst := start_useAnew
  have hsecond := after_useAgain n
  have hthird := after_useAnew n
  refine ⟨useAnew 0, useAgain n ++ useAnew (n + 1), ?_⟩
  rw [permitted_append, permitted_append, after_append, after_append, hfirst.2, hsecond.2, hthird.2,
    identity_used, identity_used, ← hn, ← hagain]
  exact ⟨⟨hfirst.1, hsecond.1, hthird.1⟩, within_used 0, within_used (n + 1), rfl,
    Option.some_ne_none _⟩

end Tensors
end RunNBurn
