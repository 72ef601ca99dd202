import RunNBurn.Tensors.Storage

/-!
# Runs of the registry of host storages

What holds of the registry after any events, whatever addresses the allocator uses again.
-/

namespace RunNBurn
namespace Tensors

namespace Span

theorem Inside.covers {inner outer : Span} (h : inner.Inside outer) {i : Nat}
    (hi : inner.Covers i) : outer.Covers i := by
  unfold Inside at h
  unfold Covers at hi ⊢
  omega

theorem covers_base {span : Span} (h : 0 < span.len) : span.Covers span.base := by
  unfold Covers
  omega

theorem Apart.symm {left right : Span} (h : left.Apart right) : right.Apart left :=
  fun i hi hother => h i hother hi

end Span

namespace Memory

/-!
## Lookup
-/

variable {m m' : Memory} {storage : Nat} {block : ArcBlock}

theorem strongCount_of_block (h : m.blocks storage = some block) :
    m.strongCount storage = block.handles + m.leasesOf storage := by
  unfold strongCount
  rw [h]

theorem exists_block (h : 0 < m.strongCount storage) :
    exists block, m.blocks storage = some block := by
  unfold strongCount at h
  cases hblock : m.blocks storage with
  | some block => exact ⟨block, rfl⟩
  | none =>
    rw [hblock] at h
    cases h

def leaseOf (entry : HostStorageRegistration) (bytes : Span) : HostStorageLease where
  identity := {
    allocationId := entry.allocationId
    byteOffset := bytes.base - entry.base
    len := bytes.len }
  storage := entry.storage

def Holds (m : Memory) (bytes : Span) (entry : HostStorageRegistration) : Prop :=
  0 < m.strongCount entry.storage ∧ entry.base + entry.len < 2 ^ 64 ∧
    bytes.Inside entry.span

variable {entry : HostStorageRegistration} {bytes : Span}

theorem resolveEntry_of_holds (h : m.Holds bytes entry) :
    m.resolveEntry bytes (bytes.base + bytes.len) entry = some (leaseOf entry bytes) := by
  rcases h with ⟨hstrong, hroom, hinside⟩
  unfold Span.Inside HostStorageRegistration.span at hinside
  dsimp only at hinside
  have hrange : ¬(bytes.base < entry.base ∨ entry.base + entry.len < bytes.base + bytes.len) := by
    omega
  unfold resolveEntry upgrade checkedAdd leaseOf
  simp only [if_pos hstrong, if_pos hroom, Option.bind_eq_bind, Option.bind_some, if_neg hrange]

variable {lease : HostStorageLease}

theorem resolveEntry_eq_some
    (h : m.resolveEntry bytes (bytes.base + bytes.len) entry = some lease) :
    m.Holds bytes entry ∧ lease = leaseOf entry bytes := by
  unfold resolveEntry upgrade checkedAdd at h
  by_cases hstrong : 0 < m.strongCount entry.storage
  · by_cases hroom : entry.base + entry.len < 2 ^ 64
    · by_cases hrange : bytes.base < entry.base ∨ entry.base + entry.len < bytes.base + bytes.len
      · simp only [if_pos hstrong, if_pos hroom, Option.bind_eq_bind, Option.bind_some,
          if_pos hrange] at h
        cases h
      · simp only [if_pos hstrong, if_pos hroom, Option.bind_eq_bind, Option.bind_some,
          if_neg hrange] at h
        cases h
        refine ⟨⟨hstrong, hroom, ?_⟩, rfl⟩
        unfold Span.Inside HostStorageRegistration.span
        dsimp only
        omega
    · simp only [if_pos hstrong, if_neg hroom, Option.bind_eq_bind, Option.bind_some,
        Option.bind_none] at h
      cases h
  · simp only [if_neg hstrong, Option.bind_eq_bind, Option.bind_none] at h
    cases h

theorem hostStorageLease_eq_some (h : m.hostStorageLease bytes = some lease) :
    exists entry, entry ∈ m.registry ∧ m.Holds bytes entry ∧ lease = leaseOf entry bytes := by
  unfold hostStorageLease at h
  rcases Option.bind_eq_some_iff.mp h with ⟨stop, hstop, hfind⟩
  unfold checkedAdd at hstop
  split at hstop
  next =>
    cases hstop
    rcases List.exists_of_findSome?_eq_some hfind with ⟨entry, hmem, hentry⟩
    exact ⟨entry, hmem, resolveEntry_eq_some hentry⟩
  next => cases hstop

theorem hostStorageIdentity_eq (m : Memory) (bytes : Span) :
    m.hostStorageIdentity bytes = (m.hostStorageLease bytes).map (·.identity) := by
  unfold hostStorageIdentity hostStorageLease
  cases checkedAdd bytes.base bytes.len with
  | none => rfl
  | some stop =>
    simp only [Option.bind_eq_bind, Option.bind_some]
    rw [List.map_findSome?]
    rfl

theorem hostStorageLease_of_holds (hmem : entry ∈ m.registry) (hholds : m.Holds bytes entry)
    (honly : forall other, other ∈ m.registry -> m.Holds bytes other -> other = entry) :
    m.hostStorageLease bytes = some (leaseOf entry bytes) := by
  have hstop : checkedAdd bytes.base bytes.len = some (bytes.base + bytes.len) := by
    rcases hholds with ⟨-, hroom, hinside⟩
    unfold Span.Inside HostStorageRegistration.span at hinside
    dsimp only at hinside
    unfold checkedAdd
    rw [if_pos (by omega)]
  have hfound : m.hostStorageLease bytes =
      m.registry.findSome? (m.resolveEntry bytes (bytes.base + bytes.len)) := by
    unfold hostStorageLease
    rw [hstop]
    rfl
  cases hresult : m.registry.findSome? (m.resolveEntry bytes (bytes.base + bytes.len)) with
  | none =>
    have hnone := List.findSome?_eq_none_iff.mp hresult entry hmem
    rw [resolveEntry_of_holds hholds] at hnone
    cases hnone
  | some lease =>
    rcases List.exists_of_findSome?_eq_some hresult with ⟨other, hother, hlease⟩
    rcases resolveEntry_eq_some hlease with ⟨hotherHolds, hsame⟩
    rw [hfound, hresult, hsame, honly other hother hotherHolds]

/-!
## The invariant
-/

/-- The identity that an allocation was given when it was the `j`-th to be given one. -/
def idOf (j : Nat) : Nat :=
  (1 + j) % 2 ^ 64

def Names (m : Memory) (storage id : Nat) : Prop :=
  exists block j, m.blocks storage = some block ∧ m.issued[j]? = some block.allocation ∧
    id = idOf j

def HasEntry (m : Memory) (storage : Nat) : Prop :=
  exists entry, entry ∈ m.registry ∧ entry.storage = storage

structure Sound (m : Memory) : Prop where
  live_apart : forall {a b s t}, m.Live a s -> m.Live b t -> a ≠ b -> s.Apart t
  live_eq : forall {a s t}, m.Live a s -> m.Live a t -> s = t
  live_room : forall {a s}, m.Live a s -> s.base + s.len < 2 ^ 64
  block_old : forall {storage block}, m.blocks storage = some block ->
    block.allocation < m.allocations
  buffer_old : forall {buffer}, buffer ∈ m.buffers -> buffer.allocation < m.allocations
  block_eq : forall {storage other block otherBlock}, m.blocks storage = some block ->
    m.blocks other = some otherBlock -> block.allocation = otherBlock.allocation ->
    storage = other
  entry_slice : forall {entry}, entry ∈ m.registry ->
    m.asSlice entry.storage = some entry.span
  entry_names : forall {entry}, entry ∈ m.registry -> m.Names entry.storage entry.allocationId
  entry_eq : forall {entry other}, entry ∈ m.registry -> other ∈ m.registry ->
    entry.storage = other.storage -> entry = other
  registered : forall {storage span}, m.Registered storage span -> m.HasEntry storage
  lease_names : forall {lease}, lease ∈ m.leases ->
    m.Names lease.storage lease.identity.allocationId
  next_eq : m.nextHostStorageId = idOf m.issued.length

theorem sound_start : start.Sound where
  live_apart := by
    intro a b s t hlive
    rcases hlive with ⟨storage, block, hblock, -⟩ | ⟨buffer, hmem, -⟩
    · cases hblock
    · cases hmem
  live_eq := by
    intro a s t hlive
    rcases hlive with ⟨storage, block, hblock, -⟩ | ⟨buffer, hmem, -⟩
    · cases hblock
    · cases hmem
  live_room := by
    intro a s hlive
    rcases hlive with ⟨storage, block, hblock, -⟩ | ⟨buffer, hmem, -⟩
    · cases hblock
    · cases hmem
  block_old := by
    intro storage block hblock
    cases hblock
  buffer_old := by
    intro buffer hmem
    cases hmem
  block_eq := by
    intro storage other block otherBlock hblock
    cases hblock
  entry_slice := by
    intro entry hmem
    cases hmem
  entry_names := by
    intro entry hmem
    cases hmem
  entry_eq := by
    intro entry other hmem
    cases hmem
  registered := by
    intro storage span h
    rcases h with ⟨block, hblock, -⟩
    cases hblock
  lease_names := by
    intro lease hmem
    cases hmem
  next_eq := rfl

/-!
## Events after which less is alive
-/

/-- Nothing new is alive, and what is marked as registered was so or is in the registry. -/
structure Fewer (m m' : Memory) : Prop where
  block : forall {storage block'}, m'.blocks storage = some block' ->
    exists block, m.blocks storage = some block ∧ block'.allocation = block.allocation ∧
      block'.slice = block.slice ∧ (0 < m'.strongCount storage -> 0 < m.strongCount storage) ∧
      (block'.registered = true -> block.registered = true ∨
        forall span, block.slice = some span -> m.HasEntry storage)
  kept : forall {entry}, entry ∈ m.registry -> exists block', m'.blocks entry.storage = some block'
  buffer : forall {buffer}, buffer ∈ m'.buffers -> buffer ∈ m.buffers
  lease : forall {lease}, lease ∈ m'.leases ->
    m.Names lease.storage lease.identity.allocationId ∧
      exists block', m'.blocks lease.storage = some block'
  registry_eq : m'.registry = m.registry
  next_eq : m'.nextHostStorageId = m.nextHostStorageId
  allocations_eq : m'.allocations = m.allocations
  issued_eq : m'.issued = m.issued

namespace Fewer

theorem live (h : Fewer m m') {a : Nat} {s : Span} (hlive : m'.Live a s) : m.Live a s := by
  rcases hlive with ⟨storage, block', hblock', hstrong, hslice, hallocation⟩ | ⟨buffer, hmem, hsame⟩
  · rcases h.block hblock' with ⟨block, hblock, hsameAllocation, hsameSlice, hstrongBefore, -⟩
    refine .inl ⟨storage, block, hblock, hstrongBefore hstrong, ?_, ?_⟩
    · rw [← hsameSlice, hslice]
    · rw [← hsameAllocation, hallocation]
  · exact .inr ⟨buffer, h.buffer hmem, hsame⟩

theorem names (h : Fewer m m') {storage id : Nat} (hnames : m.Names storage id)
    (hkept : exists block', m'.blocks storage = some block') : m'.Names storage id := by
  rcases hnames with ⟨block, j, hblock, hissued, hid⟩
  rcases hkept with ⟨block', hblock'⟩
  rcases h.block hblock' with ⟨before, hbefore, hallocation, -⟩
  rw [hblock] at hbefore
  cases hbefore
  refine ⟨block', j, hblock', ?_, hid⟩
  rw [h.issued_eq, hissued, hallocation]

theorem asSlice_eq (h : Fewer m m') {storage : Nat}
    (hkept : exists block', m'.blocks storage = some block') :
    m'.asSlice storage = m.asSlice storage := by
  rcases hkept with ⟨block', hblock'⟩
  rcases h.block hblock' with ⟨block, hblock, -, hslice, -⟩
  unfold asSlice
  rw [hblock', hblock]
  exact hslice

theorem sound (h : Fewer m m') (hsound : m.Sound) : m'.Sound where
  live_apart := fun hleft hright => hsound.live_apart (h.live hleft) (h.live hright)
  live_eq := fun hleft hright => hsound.live_eq (h.live hleft) (h.live hright)
  live_room := fun hlive => hsound.live_room (h.live hlive)
  block_old := by
    intro storage block' hblock'
    rcases h.block hblock' with ⟨block, hblock, hallocation, -⟩
    rw [hallocation, h.allocations_eq]
    exact hsound.block_old hblock
  buffer_old := by
    intro buffer hmem
    rw [h.allocations_eq]
    exact hsound.buffer_old (h.buffer hmem)
  block_eq := by
    intro storage other block' otherBlock' hblock' hotherBlock' hsame
    rcases h.block hblock' with ⟨block, hblock, hallocation, -⟩
    rcases h.block hotherBlock' with ⟨otherBlock, hotherBlock, hotherAllocation, -⟩
    rw [hallocation, hotherAllocation] at hsame
    exact hsound.block_eq hblock hotherBlock hsame
  entry_slice := by
    intro entry hmem
    rw [h.registry_eq] at hmem
    rw [h.asSlice_eq (h.kept hmem)]
    exact hsound.entry_slice hmem
  entry_names := by
    intro entry hmem
    rw [h.registry_eq] at hmem
    exact h.names (hsound.entry_names hmem) (h.kept hmem)
  entry_eq := by
    intro entry other hmem hother
    rw [h.registry_eq] at hmem hother
    exact hsound.entry_eq hmem hother
  registered := by
    intro storage span hregistered
    rcases hregistered with ⟨block', hblock', hslice, hflag, hstrong⟩
    rcases h.block hblock' with ⟨block, hblock, -, hsameSlice, hstrongBefore, hflagBefore⟩
    rw [hsameSlice] at hslice
    unfold HasEntry
    rw [h.registry_eq]
    rcases hflagBefore hflag with hbefore | hentry
    · exact hsound.registered ⟨block, hblock, hslice, hbefore, hstrongBefore hstrong⟩
    · exact hentry span hslice
  lease_names := by
    intro lease hmem
    rcases h.lease hmem with ⟨hnames, hkept⟩
    exact h.names hnames hkept
  next_eq := by
    rw [h.next_eq, h.issued_eq]
    exact hsound.next_eq

end Fewer

theorem leasesOf_pos (h : lease ∈ m.leases) :
    0 < m.leasesOf lease.storage :=
  List.countP_pos_iff.mpr ⟨lease, h, beq_self_eq_true lease.storage⟩

theorem Sound.strongCount_pos (h : m.Sound) (hmem : lease ∈ m.leases) :
    0 < m.strongCount lease.storage := by
  rcases h.lease_names hmem with ⟨block, j, hblock, -⟩
  rw [strongCount_of_block hblock]
  exact Nat.add_pos_right block.handles (leasesOf_pos hmem)

theorem strongCount_release_le (m : Memory) (storage : Nat) :
    m.release.strongCount storage <= m.strongCount storage := by
  unfold strongCount release leasesOf
  dsimp only
  split
  next block hblock =>
    split at hblock
    next =>
      apply Nat.le_of_eq
      rw [hblock]
    next => cases hblock
  next => exact Nat.zero_le _

theorem fewer_release (h : m.Sound) : Fewer m m.release where
  block := by
    intro storage block' hblock'
    have hstrong := strongCount_release_le m storage
    unfold release at hblock'
    dsimp only at hblock'
    split at hblock'
    next => exact ⟨block', hblock', rfl, rfl, fun hpos => Nat.lt_of_lt_of_le hpos hstrong, .inl⟩
    next => cases hblock'
  kept := by
    intro entry hmem
    rcases h.entry_names hmem with ⟨block, j, hblock, -⟩
    refine ⟨block, ?_⟩
    unfold release
    dsimp only
    rw [if_pos (.inr (List.any_eq_true.mpr ⟨entry, hmem, beq_self_eq_true entry.storage⟩)), hblock]
  buffer := fun hmem => hmem
  lease := by
    intro lease hmem
    refine ⟨h.lease_names hmem, ?_⟩
    rcases h.lease_names hmem with ⟨block, j, hblock, -⟩
    refine ⟨block, ?_⟩
    unfold release
    dsimp only
    rw [if_pos (.inl (h.strongCount_pos hmem)), hblock]
  registry_eq := rfl
  next_eq := rfl
  allocations_eq := rfl
  issued_eq := rfl

theorem fewer_changeBlock (h : m.Sound) (hblock : m.blocks storage = some block)
    (hhandles : 0 < block.handles) (change : ArcBlock -> ArcBlock)
    (hallocation : (change block).allocation = block.allocation)
    (hslice : (change block).slice = block.slice)
    (hflag : (change block).registered = true -> block.registered = true ∨
      forall span, block.slice = some span -> m.HasEntry storage) :
    Fewer m (m.changeBlock storage change) := by
  have hchanged : m.changeBlock storage change = m.setBlock storage (change block) := by
    unfold changeBlock
    rw [hblock]
  have hstrong : 0 < m.strongCount storage := by
    rw [strongCount_of_block hblock]
    exact Nat.add_pos_left hhandles _
  have hkept : forall other before, m.blocks other = some before ->
      exists block', (m.setBlock storage (change block)).blocks other = some block' := by
    intro other before hbefore
    unfold setBlock
    dsimp only
    split
    next => exact ⟨change block, rfl⟩
    next => exact ⟨before, hbefore⟩
  rw [hchanged]
  exact {
    block := by
      intro other block' hblock'
      unfold setBlock at hblock'
      dsimp only at hblock'
      split at hblock'
      next hsame =>
        cases hblock'
        rw [hsame]
        exact ⟨block, hblock, hallocation, hslice, fun _ => hstrong, hflag⟩
      next hne =>
        refine ⟨block', hblock', rfl, rfl, ?_, .inl⟩
        intro hpos
        have hsame : (m.setBlock storage (change block)).blocks other = some block' := by
          unfold setBlock
          dsimp only
          rw [if_neg hne, hblock']
        rw [strongCount_of_block hsame] at hpos
        rw [strongCount_of_block hblock']
        exact hpos
    kept := by
      intro entry hmem
      rcases h.entry_names hmem with ⟨before, j, hbefore, -⟩
      exact hkept _ before hbefore
    buffer := fun hmem => hmem
    lease := by
      intro lease hmem
      refine ⟨h.lease_names hmem, ?_⟩
      rcases h.lease_names hmem with ⟨before, j, hbefore, -⟩
      exact hkept _ before hbefore
    registry_eq := rfl
    next_eq := rfl
    allocations_eq := rfl
    issued_eq := rfl }

theorem fewer_leases (h : m.Sound) (leases : List HostStorageLease)
    (hleases : forall lease, lease ∈ leases -> m.Names lease.storage lease.identity.allocationId ∧
      0 < m.strongCount lease.storage) :
    Fewer m { m with leases := leases } where
  block := by
    intro storage block' hblock'
    have hbefore : m.blocks storage = some block' := hblock'
    refine ⟨block', hbefore, rfl, rfl, ?_, .inl⟩
    intro hpos
    have hafter := @strongCount_of_block { m with leases := leases } _ _ hblock'
    rw [hafter] at hpos
    by_cases hhandles : 0 < block'.handles
    · rw [strongCount_of_block hbefore]
      exact Nat.add_pos_left hhandles _
    · have hcount : 0 < leases.countP fun lease => lease.storage == storage :=
        Nat.lt_of_lt_of_le hpos (by
          rw [Nat.eq_zero_of_not_pos hhandles, Nat.zero_add]
          exact Nat.le_refl _)
      rcases List.countP_pos_iff.mp hcount with ⟨lease, hmem, hsame⟩
      rw [← eq_of_beq hsame]
      exact (hleases lease hmem).2
  kept := by
    intro entry hmem
    rcases h.entry_names hmem with ⟨block, j, hblock, -⟩
    exact ⟨block, hblock⟩
  buffer := fun hmem => hmem
  lease := by
    intro lease hmem
    exact ⟨(hleases lease hmem).1, @exists_block m _ (hleases lease hmem).2⟩
  registry_eq := rfl
  next_eq := rfl
  allocations_eq := rfl
  issued_eq := rfl

theorem fewer_buffers (h : m.Sound) (buffers : List HeapBuffer)
    (hbuffers : forall buffer, buffer ∈ buffers -> buffer ∈ m.buffers) :
    Fewer m { m with buffers := buffers } where
  block := fun hblock' => ⟨_, hblock', rfl, rfl, fun hpos => hpos, .inl⟩
  kept := by
    intro entry hmem
    rcases h.entry_names hmem with ⟨block, j, hblock, -⟩
    exact ⟨block, hblock⟩
  buffer := fun hmem => hbuffers _ hmem
  lease := by
    intro lease hmem
    rcases h.lease_names hmem with ⟨block, j, hblock, -⟩
    exact ⟨h.lease_names hmem, ⟨block, hblock⟩⟩
  registry_eq := rfl
  next_eq := rfl
  allocations_eq := rfl
  issued_eq := rfl

/-!
## New allocations
-/

theorem Sound.live_old (h : m.Sound) {a : Nat} {s : Span} (hlive : m.Live a s) :
    a < m.allocations := by
  rcases hlive with ⟨storage, block, hblock, -, -, hallocation⟩ | ⟨buffer, hmem, hallocation, -⟩
  · rw [← hallocation]
    exact h.block_old hblock
  · rw [← hallocation]
    exact h.buffer_old hmem

def Grown (m m' : Memory) (slice : Option Span) : Prop :=
  (forall span, slice = some span -> m.Free span) ∧
    forall a s, m'.Live a s -> m.Live a s ∨ a = m.allocations ∧ slice = some s

section Grown

variable {slice : Option Span}

theorem Grown.live_apart (hgrown : Grown m m' slice) (h : m.Sound) {a b : Nat} {s t : Span}
    (hleft : m'.Live a s) (hright : m'.Live b t) (hne : a ≠ b) : s.Apart t := by
  rcases hgrown with ⟨hfree, hlive⟩
  rcases hlive a s hleft with hleftOld | ⟨hleftNew, hleftSlice⟩
  · rcases hlive b t hright with hrightOld | ⟨hrightNew, hrightSlice⟩
    · exact h.live_apart hleftOld hrightOld hne
    · exact ((hfree t hrightSlice).2 a s hleftOld).symm
  · rcases hlive b t hright with hrightOld | ⟨hrightNew, hrightSlice⟩
    · exact (hfree s hleftSlice).2 b t hrightOld
    · exact absurd (hleftNew.trans hrightNew.symm) hne

theorem Grown.live_eq (hgrown : Grown m m' slice) (h : m.Sound) {a : Nat} {s t : Span}
    (hleft : m'.Live a s) (hright : m'.Live a t) : s = t := by
  rcases hgrown with ⟨-, hlive⟩
  rcases hlive a s hleft with hleftOld | ⟨hleftNew, hleftSlice⟩
  · rcases hlive a t hright with hrightOld | ⟨hrightNew, hrightSlice⟩
    · exact h.live_eq hleftOld hrightOld
    · exact absurd (h.live_old hleftOld) (by omega)
  · rcases hlive a t hright with hrightOld | ⟨hrightNew, hrightSlice⟩
    · exact absurd (h.live_old hrightOld) (by omega)
    · rw [hleftSlice] at hrightSlice
      exact Option.some.inj hrightSlice

theorem Grown.live_room (hgrown : Grown m m' slice) (h : m.Sound) {a : Nat} {s : Span}
    (hlive : m'.Live a s) : s.base + s.len < 2 ^ 64 := by
  rcases hgrown.2 a s hlive with hold | ⟨-, hslice⟩
  · exact h.live_room hold
  · exact (hgrown.1 s hslice).1

end Grown

theorem sound_newBuffer (h : m.Sound) {span : Span} (hfree : m.Free span) :
    (m.act (.newBuffer span)).Sound := by
  have hgrown : Grown m (m.act (.newBuffer span)) (some span) := by
    constructor
    · intro other hother
      cases hother
      exact hfree
    · intro a s hlive
      rcases hlive with hblock | ⟨buffer, hmem, hallocation, hspan⟩
      · exact .inl (.inl hblock)
      · rcases List.mem_cons.mp hmem with hnew | hold
        · refine .inr ⟨?_, ?_⟩
          · rw [← hallocation, hnew]
          · rw [← hspan, hnew]
        · exact .inl (.inr ⟨buffer, hold, hallocation, hspan⟩)
  exact {
    live_apart := hgrown.live_apart h
    live_eq := hgrown.live_eq h
    live_room := hgrown.live_room h
    block_old := fun hblock => Nat.lt_succ_of_lt (h.block_old hblock)
    buffer_old := by
      intro buffer hmem
      rcases List.mem_cons.mp hmem with hnew | hold
      · rw [hnew]
        exact Nat.lt_succ_self m.allocations
      · exact Nat.lt_succ_of_lt (h.buffer_old hold)
    block_eq := fun hblock hother => h.block_eq hblock hother
    entry_slice := fun hmem => h.entry_slice hmem
    entry_names := fun hmem => h.entry_names hmem
    entry_eq := fun hmem hother => h.entry_eq hmem hother
    registered := fun hregistered => h.registered hregistered
    lease_names := fun hmem => h.lease_names hmem
    next_eq := h.next_eq }

theorem sound_newStorage (h : m.Sound) {slice : Option Span} (hnone : m.blocks storage = none)
    (hfree : forall span, slice = some span -> m.Free span) :
    (m.act (.newStorage storage slice)).Sound := by
  have hother : forall {other block}, m.blocks other = some block ->
      (m.act (.newStorage storage slice)).blocks other = some block := by
    intro other block hblock
    have hne : other ≠ storage := by
      intro hsame
      rw [hsame, hnone] at hblock
      cases hblock
    unfold act setBlock
    dsimp only
    rw [if_neg hne, hblock]
  have hblocks : forall {other block}, (m.act (.newStorage storage slice)).blocks other =
      some block ->
      (other = storage ∧ block.allocation = m.allocations ∧ block.slice = slice ∧
        block.registered = false) ∨ m.blocks other = some block := by
    intro other block hblock
    unfold act setBlock at hblock
    dsimp only at hblock
    split at hblock
    next hsame =>
      cases hblock
      exact .inl ⟨hsame, rfl, rfl, rfl⟩
    next => exact .inr hblock
  have hstrong : forall {other block}, m.blocks other = some block ->
      (m.act (.newStorage storage slice)).strongCount other = m.strongCount other := by
    intro other block hblock
    rw [strongCount_of_block hblock, strongCount_of_block (hother hblock)]
    rfl
  have hnames : forall {other id}, m.Names other id ->
      (m.act (.newStorage storage slice)).Names other id := by
    intro other id hnamed
    rcases hnamed with ⟨block, j, hblock, hrest⟩
    exact ⟨block, j, hother hblock, hrest⟩
  have hgrown : Grown m (m.act (.newStorage storage slice)) slice := by
    refine ⟨hfree, ?_⟩
    intro a s hlive
    rcases hlive with ⟨other, block, hblock, hpos, hslice, hallocation⟩ | hbuffer
    · rcases hblocks hblock with ⟨-, hnew, hnewSlice, -⟩ | hold
      · refine .inr ⟨?_, ?_⟩
        · rw [← hallocation, hnew]
        · rw [← hnewSlice, hslice]
      · rw [hstrong hold] at hpos
        exact .inl (.inl ⟨other, block, hold, hpos, hslice, hallocation⟩)
    · exact .inl (.inr hbuffer)
  exact {
    live_apart := hgrown.live_apart h
    live_eq := hgrown.live_eq h
    live_room := hgrown.live_room h
    block_old := by
      intro other block hblock
      rcases hblocks hblock with ⟨-, hnew, -⟩ | hold
      · rw [hnew]
        exact Nat.lt_succ_self m.allocations
      · exact Nat.lt_succ_of_lt (h.block_old hold)
    buffer_old := fun hmem => Nat.lt_succ_of_lt (h.buffer_old hmem)
    block_eq := by
      intro left right leftBlock rightBlock hleft hright hsame
      rcases hblocks hleft with ⟨hleftStorage, hleftNew, -⟩ | hleftOld
      · rcases hblocks hright with ⟨hrightStorage, -⟩ | hrightOld
        · exact hleftStorage.trans hrightStorage.symm
        · exact absurd (h.block_old hrightOld) (by omega)
      · rcases hblocks hright with ⟨-, hrightNew, -⟩ | hrightOld
        · exact absurd (h.block_old hleftOld) (by omega)
        · exact h.block_eq hleftOld hrightOld hsame
    entry_slice := by
      intro entry hmem
      rcases h.entry_names hmem with ⟨block, -, hblock, -⟩
      have hslice := h.entry_slice hmem
      unfold asSlice at hslice ⊢
      rw [hother hblock]
      rw [hblock] at hslice
      exact hslice
    entry_names := fun hmem => hnames (h.entry_names hmem)
    entry_eq := fun hmem hother => h.entry_eq hmem hother
    registered := by
      intro other span hregistered
      rcases hregistered with ⟨block, hblock, hslice, hflag, hpos⟩
      rcases hblocks hblock with ⟨-, -, -, hnew⟩ | hold
      · rw [hnew] at hflag
        cases hflag
      · rw [hstrong hold] at hpos
        exact h.registered ⟨block, hold, hslice, hflag, hpos⟩
    lease_names := fun hmem => hnames (h.lease_names hmem)
    next_eq := h.next_eq }

/-!
## Registration
-/

theorem mem_retained :
    entry ∈ m.retained ↔ entry ∈ m.registry ∧ 0 < m.strongCount entry.storage := by
  unfold retained
  rw [List.mem_filter, decide_eq_true_iff]

theorem sound_retained (h : m.Sound) : ({ m with registry := m.retained } : Memory).Sound where
  live_apart := fun hleft hright => h.live_apart hleft hright
  live_eq := fun hleft hright => h.live_eq hleft hright
  live_room := fun hlive => h.live_room hlive
  block_old := fun hblock => h.block_old hblock
  buffer_old := fun hmem => h.buffer_old hmem
  block_eq := fun hblock hother => h.block_eq hblock hother
  entry_slice := fun hmem => h.entry_slice (mem_retained.mp hmem).1
  entry_names := fun hmem => h.entry_names (mem_retained.mp hmem).1
  entry_eq := fun hmem hother => h.entry_eq (mem_retained.mp hmem).1 (mem_retained.mp hother).1
  registered := by
    intro storage span hregistered
    rcases h.registered hregistered with ⟨entry, hmem, hsame⟩
    rcases hregistered with ⟨block, -, -, -, hpos⟩
    refine ⟨entry, mem_retained.mpr ⟨hmem, ?_⟩, hsame⟩
    rw [hsame]
    exact hpos
  lease_names := fun hmem => h.lease_names hmem
  next_eq := h.next_eq

theorem idOf_succ (n : Nat) : (idOf n + 1) % 2 ^ 64 = idOf (n + 1) := by
  unfold idOf
  omega

section

variable (h : m.Sound) (hblock : m.blocks storage = some block)
include h hblock

theorem sound_pushRegistration (hslice : block.slice = some bytes)
    (habsent : forall entry, entry ∈ m.retained -> entry.storage ≠ storage) :
    (m.pushRegistration storage bytes).Sound := by
  have hissued : m.allocationOf storage = [block.allocation] := by
    unfold allocationOf
    rw [hblock]
  have hnames : forall {other id}, m.Names other id ->
      (m.pushRegistration storage bytes).Names other id := by
    intro other id hnamed
    rcases hnamed with ⟨otherBlock, j, hother, hat, hid⟩
    refine ⟨otherBlock, j, hother, ?_, hid⟩
    rcases List.getElem?_eq_some_iff.mp hat with ⟨hj, -⟩
    unfold pushRegistration
    dsimp only
    rw [List.getElem?_append_left hj, hat]
  have hretained := sound_retained h
  have hentries : forall {entry}, entry ∈ (m.pushRegistration storage bytes).registry ->
      entry ∈ m.retained ∨ entry.storage = storage ∧ entry.span = bytes ∧
        entry.allocationId = m.nextHostStorageId := by
    intro entry hmem
    rcases List.mem_append.mp hmem with hold | hnew
    · exact .inl hold
    · rw [List.mem_singleton.mp hnew]
      exact .inr ⟨rfl, rfl, rfl⟩
  exact {
    live_apart := fun hleft hright => h.live_apart hleft hright
    live_eq := fun hleft hright => h.live_eq hleft hright
    live_room := fun hlive => h.live_room hlive
    block_old := fun hold => h.block_old hold
    buffer_old := fun hmem => h.buffer_old hmem
    block_eq := fun hleft hright => h.block_eq hleft hright
    entry_slice := by
      intro entry hmem
      rcases hentries hmem with hold | ⟨hstorage, hspan, -⟩
      · exact hretained.entry_slice hold
      · unfold asSlice
        rw [hstorage, hspan, show (m.pushRegistration storage bytes).blocks storage = some block
          from hblock]
        exact hslice
    entry_names := by
      intro entry hmem
      rcases hentries hmem with hold | ⟨hstorage, -, hid⟩
      · exact hnames (hretained.entry_names hold)
      · refine ⟨block, m.issued.length, ?_, ?_, ?_⟩
        · rw [hstorage]
          exact hblock
        · unfold pushRegistration
          dsimp only
          rw [hissued, List.getElem?_append_right (Nat.le_refl _), Nat.sub_self]
          rfl
        · rw [hid, h.next_eq]
    entry_eq := by
      intro entry other hmem hother hsame
      rcases List.mem_append.mp hmem with hold | hnew
      · rcases List.mem_append.mp hother with hotherOld | hotherNew
        · exact hretained.entry_eq hold hotherOld hsame
        · rw [List.mem_singleton.mp hotherNew] at hsame
          exact absurd hsame (habsent entry hold)
      · rcases List.mem_append.mp hother with hotherOld | hotherNew
        · rw [List.mem_singleton.mp hnew] at hsame
          exact absurd hsame.symm (habsent other hotherOld)
        · rw [List.mem_singleton.mp hnew, List.mem_singleton.mp hotherNew]
    registered := by
      intro other span hregistered
      rcases hretained.registered hregistered with ⟨entry, hmem, hsame⟩
      exact ⟨entry, List.mem_append_left _ hmem, hsame⟩
    lease_names := fun hmem => hnames (h.lease_names hmem)
    next_eq := by
      unfold pushRegistration
      dsimp only
      rw [hissued, h.next_eq, idOf_succ, List.length_append, List.length_singleton] }

theorem sound_registerHostStorage :
    (m.registerHostStorage storage).Sound ∧
      (m.registerHostStorage storage).blocks = m.blocks ∧
      forall span, block.slice = some span -> (m.registerHostStorage storage).HasEntry storage := by
  have hslice : m.asSlice storage = block.slice := by
    unfold asSlice
    rw [hblock]
  unfold registerHostStorage
  rw [hslice]
  cases hbytes : block.slice with
  | none =>
    refine ⟨h, rfl, ?_⟩
    intro span hspan
    cases hspan
  | some bytes =>
    dsimp only
    by_cases hany : (m.retained.any fun entry => entry.storage == storage) = true
    · rw [if_pos hany]
      refine ⟨sound_retained h, rfl, ?_⟩
      intro span _
      rcases List.any_eq_true.mp hany with ⟨entry, hmem, hsame⟩
      exact ⟨entry, hmem, eq_of_beq hsame⟩
    · rw [if_neg hany]
      have habsent : forall entry, entry ∈ m.retained -> entry.storage ≠ storage := by
        intro entry hmem hsame
        exact hany (List.any_eq_true.mpr ⟨entry, hmem, beq_iff_eq.mpr hsame⟩)
      refine ⟨sound_pushRegistration h hblock hbytes habsent, rfl, ?_⟩
      intro span _
      exact ⟨_, List.mem_append_right _ (List.mem_singleton.mpr rfl), rfl⟩

theorem sound_register (hhandles : 0 < block.handles) :
    (m.act (.register storage)).Sound := by
  rcases sound_registerHostStorage h hblock with ⟨hsound, hblocks, hentry⟩
  have hfewer := fewer_changeBlock hsound (by rw [hblocks]; exact hblock) hhandles
    (fun block => { block with registered := true }) rfl rfl (fun _ => .inr hentry)
  exact hfewer.sound hsound

end

/-!
## Any events
-/

theorem Sound.act (h : m.Sound) {event : Event} (hallowed : m.Allowed event) :
    (m.act event).Sound := by
  cases event with
  | newStorage storage slice => exact sound_newStorage h hallowed.1 hallowed.2
  | newBuffer span => exact sound_newBuffer h hallowed
  | freeBuffer buffer =>
    exact (fewer_buffers h _ (fun _ hmem => List.mem_of_mem_erase hmem)).sound h
  | cloneHandle storage =>
    rcases hallowed with ⟨block, hblock, hhandles⟩
    exact (fewer_changeBlock h hblock hhandles
      (fun block => { block with handles := block.handles + 1 }) rfl rfl .inl).sound h
  | dropHandle storage =>
    rcases hallowed with ⟨block, hblock, hhandles⟩
    exact (fewer_changeBlock h hblock hhandles
      (fun block => { block with handles := block.handles - 1 }) rfl rfl .inl).sound h
  | register storage =>
    rcases hallowed with ⟨block, hblock, hhandles⟩
    exact sound_register h hblock hhandles
  | identify bytes => exact h
  | lease bytes =>
    apply (fewer_leases h _ ?_).sound h
    intro lease hmem
    rcases List.mem_append.mp hmem with hnew | hold
    · rcases hostStorageLease_eq_some (Option.mem_toList.mp hnew) with
        ⟨entry, hentry, hholds, hsame⟩
      rw [hsame]
      exact ⟨h.entry_names hentry, hholds.1⟩
    · exact ⟨h.lease_names hold, h.strongCount_pos hold⟩
  | cloneLease lease =>
    apply (fewer_leases h _ ?_).sound h
    intro other hmem
    have hold : other ∈ m.leases := by
      rcases List.mem_cons.mp hmem with hnew | hold
      · rw [hnew]
        exact hallowed
      · exact hold
    exact ⟨h.lease_names hold, h.strongCount_pos hold⟩
  | dropLease lease =>
    apply (fewer_leases h _ ?_).sound h
    intro other hmem
    have hold : other ∈ m.leases := List.mem_of_mem_erase hmem
    exact ⟨h.lease_names hold, h.strongCount_pos hold⟩

theorem Sound.step (h : m.Sound) {event : Event} (hallowed : m.Allowed event) :
    (m.step event).Sound :=
  (fewer_release (h.act hallowed)).sound (h.act hallowed)

theorem Sound.after (h : m.Sound) {events : List Event} (hpermitted : m.Permitted events) :
    (m.after events).Sound := by
  induction events generalizing m with
  | nil => exact h
  | cons event rest ih => exact ih (h.step hpermitted.1) hpermitted.2

theorem issued_step (m : Memory) (event : Event) :
    exists new, (m.step event).issued = m.issued ++ new ∧
      new.length <= [event].countP Event.isRegister := by
  have hone : forall storage, exists new, (m.registerHostStorage storage).issued =
      m.issued ++ new ∧ new.length <= 1 := by
    intro storage
    have hnone : exists new, m.issued = m.issued ++ new ∧ new.length <= 1 :=
      ⟨[], (List.append_nil m.issued).symm, Nat.zero_le 1⟩
    unfold registerHostStorage
    split
    next => exact hnone
    next bytes hslice =>
      split
      next => exact hnone
      next =>
        refine ⟨m.allocationOf storage, rfl, ?_⟩
        unfold allocationOf
        split
        next => exact Nat.le_refl 1
        next => exact Nat.zero_le 1
  have hchanged : forall (n : Memory) storage change, (n.changeBlock storage change).issued =
      n.issued := by
    intro n storage change
    unfold changeBlock
    split
    next => rfl
    next => rfl
  have hsame : (m.step event).issued = m.issued -> exists new, (m.step event).issued =
      m.issued ++ new ∧ new.length <= [event].countP Event.isRegister := by
    intro heq
    exact ⟨[], by rw [heq, List.append_nil], Nat.zero_le _⟩
  cases event with
  | register storage =>
    rcases hone storage with ⟨new, hnew, hlength⟩
    exact ⟨new, (hchanged _ storage _).trans hnew, hlength⟩
  | cloneHandle storage => exact hsame (hchanged m storage _)
  | dropHandle storage => exact hsame (hchanged m storage _)
  | newStorage storage slice => exact hsame rfl
  | newBuffer span => exact hsame rfl
  | freeBuffer buffer => exact hsame rfl
  | identify bytes => exact hsame rfl
  | lease bytes => exact hsame rfl
  | cloneLease lease => exact hsame rfl
  | dropLease lease => exact hsame rfl

theorem issued_after (m : Memory) (events : List Event) :
    exists new, (m.after events).issued = m.issued ++ new ∧
      new.length <= events.countP Event.isRegister := by
  induction events generalizing m with
  | nil => exact ⟨[], (List.append_nil m.issued).symm, Nat.le_refl 0⟩
  | cons event rest ih =>
    rcases issued_step m event with ⟨first, hfirst, hfirstLength⟩
    rcases ih (m.step event) with ⟨later, hlater, hlaterLength⟩
    refine ⟨first ++ later, ?_, ?_⟩
    · rw [← List.append_assoc, ← hfirst, ← hlater]
      rfl
    · rw [List.length_append, List.countP_cons, Nat.add_comm (rest.countP _)]
      rw [List.countP_singleton] at hfirstLength
      exact Nat.add_le_add hfirstLength hlaterLength

/-!
## What the registry knows was registered
-/

def Marked (m : Memory) : Prop :=
  forall entry, entry ∈ m.registry -> forall block, m.blocks entry.storage = some block ->
    block.registered = true

theorem marked_changeBlock (h : m.Marked) (storage : Nat) (change : ArcBlock -> ArcBlock)
    (hchange : forall block, block.registered = true -> (change block).registered = true) :
    (m.changeBlock storage change).Marked := by
  unfold changeBlock
  split
  next block hblock =>
    intro entry hmem other hother
    unfold setBlock at hother
    dsimp only at hother
    split at hother
    next hsame =>
      cases hother
      rw [← hsame] at hblock
      exact hchange block (h entry hmem block hblock)
    next => exact h entry hmem other hother
  next => exact h

theorem marked_register (h : m.Marked) (storage : Nat) : (m.act (.register storage)).Marked := by
  have hblocks : (m.registerHostStorage storage).blocks = m.blocks := by
    unfold registerHostStorage
    split
    next => rfl
    next =>
      split
      next => rfl
      next => rfl
  have hentries : forall entry, entry ∈ (m.registerHostStorage storage).registry ->
      entry ∈ m.registry ∨ entry.storage = storage := by
    intro entry hmem
    unfold registerHostStorage at hmem
    split at hmem
    next => exact .inl hmem
    next =>
      split at hmem
      next => exact .inl (mem_retained.mp hmem).1
      next =>
        rcases List.mem_append.mp hmem with hold | hnew
        · exact .inl (mem_retained.mp hold).1
        · rw [List.mem_singleton.mp hnew]
          exact .inr rfl
  unfold act changeBlock
  dsimp only
  rw [hblocks]
  split
  next block hblock =>
    intro entry hmem other hother
    unfold setBlock at hother
    dsimp only at hother
    split at hother
    next =>
      cases hother
      rfl
    next hne =>
      rw [hblocks] at hother
      rcases hentries entry hmem with hold | hnew
      · exact h entry hold other hother
      · exact absurd hnew hne
  next hnone =>
    intro entry hmem other hother
    rw [hblocks] at hother
    rcases hentries entry hmem with hold | hnew
    · exact h entry hold other hother
    · rw [hnew, hnone] at hother
      cases hother

theorem Marked.step (h : m.Marked) (hsound : m.Sound) {event : Event}
    (hallowed : m.Allowed event) : (m.step event).Marked := by
  have hact : (m.act event).Marked := by
    cases event with
    | newStorage storage slice =>
      intro entry hmem block hblock
      rcases hsound.entry_names hmem with ⟨before, -, hbefore, -⟩
      have hne : entry.storage ≠ storage := by
        intro hsame
        rw [hsame, hallowed.1] at hbefore
        cases hbefore
      unfold act setBlock at hblock
      dsimp only at hblock
      rw [if_neg hne] at hblock
      exact h entry hmem block hblock
    | cloneHandle storage => exact marked_changeBlock h storage _ (fun _ hflag => hflag)
    | dropHandle storage => exact marked_changeBlock h storage _ (fun _ hflag => hflag)
    | register storage => exact marked_register h storage
    | newBuffer span => exact h
    | freeBuffer buffer => exact h
    | identify bytes => exact h
    | lease bytes => exact h
    | cloneLease lease => exact h
    | dropLease lease => exact h
  intro entry hmem block hblock
  unfold Memory.step release at hblock
  dsimp only at hblock
  split at hblock
  next => exact hact entry hmem block hblock
  next => cases hblock

theorem Marked.after (h : m.Marked) (hsound : m.Sound) {events : List Event}
    (hpermitted : m.Permitted events) : (m.after events).Marked := by
  induction events generalizing m with
  | nil => exact h
  | cons event rest ih =>
    exact ih (h.step hsound hpermitted.1) (hsound.step hpermitted.1) hpermitted.2

end Memory

end Tensors
end RunNBurn
