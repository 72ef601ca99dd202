import RunNBurn.Memory.ByteLru

/-!
# Invariants of the recency accounting

Every entry has its current touch in the heap, and the resident counter never
exceeds the bytes of the entries.  A pop therefore removes an entry that was
touched before all the others.
-/

namespace RunNBurn
namespace Memory

open Library

theorem saturatingAdd_le_u64Max (a b : Nat) : saturatingAdd a b <= u64Max :=
  Nat.min_le_right _ _

theorem saturatingAdd_le_add (a b : Nat) : saturatingAdd a b <= a + b :=
  Nat.min_le_left _ _

theorem saturatingAdd_of_le {a b : Nat} (h : a + b <= u64Max) :
    saturatingAdd a b = a + b :=
  Nat.min_eq_left h

theorem le_saturatingAdd {a b bound : Nat} (h : saturatingAdd a b <= bound)
    (hbound : bound < u64Max) :
    a + b <= bound := by
  unfold saturatingAdd at h
  unfold u64Max at hbound
  omega

theorem wrappingAdd_of_lt {a b : Nat} (h : a + b < usizeLimit) :
    wrappingAdd a b = a + b :=
  Nat.mod_eq_of_lt h

namespace ByteLruPolicy

variable {key : Type} [LinearOrder key]

instance : Std.Total (PopsBefore : Nat × key -> Nat × key -> Prop) where
  total a b := by
    rcases Nat.lt_trichotomy a.1 b.1 with h | h | h
    · exact Or.inl (Or.inl h)
    · rcases le_total a.2 b.2 with hkey | hkey
      · exact Or.inl (Or.inr ⟨h, hkey⟩)
      · exact Or.inr (Or.inr ⟨h.symm, hkey⟩)
    · exact Or.inr (Or.inl h)

instance : IsTrans (Nat × key) PopsBefore where
  trans a b c hab hbc := by
    rcases hab with hlt | ⟨heq, hkey⟩
    · rcases hbc with hnext | ⟨hnext, _⟩
      · exact Or.inl (Nat.lt_trans hlt hnext)
      · exact Or.inl (hnext ▸ hlt)
    · rcases hbc with hnext | ⟨hnext, hnextKey⟩
      · exact Or.inl (heq ▸ hnext)
      · exact Or.inr ⟨heq.trans hnext, le_trans hkey hnextKey⟩

theorem PopsBefore.touch_le {a b : Nat × key} (h : PopsBefore a b) : a.1 <= b.1 := by
  rcases h with hlt | ⟨heq, _⟩
  · exact Nat.le_of_lt hlt
  · exact Nat.le_of_eq heq

structure Sound (policy : ByteLruPolicy key) : Prop where
  sorted : policy.oldest.Pairwise PopsBefore
  current : forall k entry, policy.entries.lookup k = some entry ->
    (entry.lastTouch, k) ∈ policy.oldest
  resident_le_total : policy.residentBytes <= policy.totalBytes
  resident_le_max : policy.residentBytes <= u64Max

/-- No entry is younger than the clock, so the clock has not wrapped around
while an entry was kept. -/
def ClockAhead (policy : ByteLruPolicy key) : Prop :=
  forall k entry, policy.entries.lookup k = some entry -> entry.lastTouch <= policy.clock

theorem new_sound (maxBytes : Nat) : (new maxBytes : ByteLruPolicy key).Sound where
  sorted := List.Pairwise.nil
  current := fun k entry h => by
    rw [new, AList.lookup_empty] at h
    cases h
  resident_le_total := Nat.zero_le _
  resident_le_max := Nat.zero_le _

/-!
# Totals under the operations
-/

variable {policy : ByteLruPolicy key} {k : key} {entry : ByteLruEntry}

theorem weightAt_of_lookup (h : policy.entries.lookup k = some entry) :
    policy.entries.weightAt ByteLruEntry.bytes k = entry.bytes := by
  unfold KeyedMap.weightAt
  rw [h]
  rfl

theorem total_erase_of_lookup (h : policy.entries.lookup k = some entry) :
    KeyedMap.total ByteLruEntry.bytes (policy.entries.erase k) + entry.bytes =
      policy.totalBytes := by
  rw [← weightAt_of_lookup h]
  exact KeyedMap.total_erase_add _ _ _

theorem total_erase_of_missing (h : policy.entries.lookup k = none) :
    KeyedMap.total ByteLruEntry.bytes (policy.entries.erase k) = policy.totalBytes := by
  have hsplit := KeyedMap.total_erase_add ByteLruEntry.bytes policy.entries k
  unfold KeyedMap.weightAt at hsplit
  rw [h] at hsplit
  exact hsplit

theorem totalBytes_account (policy : ByteLruPolicy key) (k : key) (bytes : Nat) :
    (policy.account k bytes).totalBytes =
      bytes + KeyedMap.total ByteLruEntry.bytes (policy.entries.erase k) :=
  KeyedMap.total_insert _ _ _ _

/-!
# Touching
-/

theorem lookup_account (policy : ByteLruPolicy key) (k : key) (bytes : Nat) :
    (policy.account k bytes).entries.lookup k =
      some { bytes := bytes, lastTouch := wrappingAdd policy.clock 1 } :=
  AList.lookup_insert _

theorem lookup_account_ne (policy : ByteLruPolicy key) (bytes : Nat) {k other : key}
    (h : other ≠ k) :
    (policy.account k bytes).entries.lookup other = policy.entries.lookup other :=
  AList.lookup_insert_ne h

theorem resident_account_le (h : policy.residentBytes <= policy.totalBytes) (k : key)
    (bytes : Nat) :
    (policy.account k bytes).residentBytes <= (policy.account k bytes).totalBytes := by
  rw [totalBytes_account]
  unfold account
  dsimp only
  cases hk : policy.entries.lookup k with
  | none =>
    rw [total_erase_of_missing hk]
    have hadd := saturatingAdd_le_add policy.residentBytes bytes
    dsimp only
    omega
  | some entry =>
    have hsplit := total_erase_of_lookup hk
    have hadd := saturatingAdd_le_add (policy.residentBytes - entry.bytes) bytes
    dsimp only
    omega

theorem account_sound (h : policy.Sound) (k : key) (bytes : Nat) :
    (policy.account k bytes).Sound := by
  constructor
  · exact List.Pairwise.orderedInsert _ _ h.sorted
  · intro other entry hentry
    apply (List.mem_orderedInsert PopsBefore).mpr
    by_cases hk : other = k
    · rw [hk, lookup_account] at hentry
      cases hentry
      exact Or.inl (congrArg _ hk)
    · rw [lookup_account_ne policy bytes hk] at hentry
      exact Or.inr (h.current other entry hentry)
  · exact resident_account_le h.resident_le_total k bytes
  · unfold account
    dsimp only
    split
    · exact saturatingAdd_le_u64Max _ _
    · exact saturatingAdd_le_u64Max _ _

variable {bytes : Nat}

theorem resident_account_eq (h : policy.residentBytes = policy.totalBytes)
    (hfits : (policy.account k bytes).totalBytes <= u64Max) :
    (policy.account k bytes).residentBytes = (policy.account k bytes).totalBytes := by
  rw [totalBytes_account] at hfits ⊢
  unfold account
  dsimp only
  cases hk : policy.entries.lookup k with
  | none =>
    rw [total_erase_of_missing hk] at hfits ⊢
    dsimp only
    rw [h, saturatingAdd_of_le, Nat.add_comm]
    rw [Nat.add_comm]
    exact hfits
  | some entry =>
    have hsplit := total_erase_of_lookup hk
    have hrest : policy.residentBytes - entry.bytes =
        KeyedMap.total ByteLruEntry.bytes (policy.entries.erase k) := by
      rw [h, ← hsplit, Nat.add_sub_cancel]
    dsimp only
    rw [hrest, saturatingAdd_of_le, Nat.add_comm]
    rw [Nat.add_comm]
    exact hfits

theorem recorded_account (policy : ByteLruPolicy key) (k : key) (bytes : Nat) :
    (policy.account k bytes).recorded = Function.update policy.recorded k (some bytes) := by
  funext other
  unfold recorded
  by_cases hk : other = k
  · rw [hk, lookup_account, Function.update_self]
    rfl
  · rw [lookup_account_ne policy bytes hk, Function.update_of_ne hk]

theorem totalBytes_account_same (h : policy.recorded k = some bytes) :
    (policy.account k bytes).totalBytes = policy.totalBytes := by
  rcases Option.map_eq_some_iff.mp h with ⟨entry, hentry, hbytes⟩
  rw [totalBytes_account, ← total_erase_of_lookup hentry, hbytes, Nat.add_comm]

theorem resident_account_same (h : policy.Sound)
    (hexact : policy.residentBytes = policy.totalBytes) (hk : policy.recorded k = some bytes) :
    (policy.account k bytes).residentBytes = policy.residentBytes := by
  have htotal := totalBytes_account_same hk
  have hfits : (policy.account k bytes).totalBytes <= u64Max := by
    rw [htotal, ← hexact]
    exact h.resident_le_max
  rw [resident_account_eq hexact hfits, htotal, hexact]

theorem totalBytes_account_of_missing (h : policy.entries.lookup k = none) (bytes : Nat) :
    (policy.account k bytes).totalBytes = bytes + policy.totalBytes := by
  rw [totalBytes_account, total_erase_of_missing h]

theorem lookup_of_recorded_eq_none (h : policy.recorded k = none) :
    policy.entries.lookup k = none :=
  Option.map_eq_none_iff.mp h

theorem touch_of_fits (h : (policy.account k bytes).residentBytes <= policy.maxBytes) :
    policy.touch k bytes = ([], policy.account k bytes) := by
  have hfits : ¬(policy.account k bytes).residentBytes >
      (policy.account k bytes).maxBytes := Nat.not_lt_of_le h
  unfold touch
  dsimp only
  cases (policy.account k bytes).oldest.length with
  | zero => rfl
  | succ rounds =>
    unfold evictOver
    rw [if_neg hfits]

theorem touch_evicts_one {policy popped : ByteLruPolicy key} {k evicted : key}
    (hover : policy.maxBytes < (policy.account k bytes).residentBytes)
    (hpop : (policy.account k bytes).popOldest = (some evicted, popped))
    (hfits : popped.residentBytes <= popped.maxBytes) :
    policy.touch k bytes = ([evicted], popped) := by
  have hpushed : (policy.account k bytes).oldest.length = policy.oldest.length + 1 :=
    List.orderedInsert_length _ _ _
  have hrest : forall rounds, evictOver rounds popped = ([], popped) := by
    intro rounds
    cases rounds with
    | zero => rfl
    | succ rounds =>
      unfold evictOver
      rw [if_neg (Nat.not_lt_of_le hfits)]
  have hover : (policy.account k bytes).residentBytes > (policy.account k bytes).maxBytes := hover
  unfold touch
  dsimp only
  rw [hpushed]
  unfold evictOver
  rw [if_pos hover, hpop]
  dsimp only
  rw [hrest]

theorem touch_unlimited (h : policy.maxBytes = u64Max) (k : key) (bytes : Nat) :
    policy.touch k bytes = ([], policy.account k bytes) := by
  apply touch_of_fits
  rw [h]
  unfold account
  dsimp only
  split
  · exact saturatingAdd_le_u64Max _ _
  · exact saturatingAdd_le_u64Max _ _

/-!
# Removing
-/

/-- What `remove` leaves. -/
def removed (policy : ByteLruPolicy key) (k : key) : ByteLruPolicy key :=
  (policy.remove k).2

theorem removed_of_lookup (h : policy.entries.lookup k = some entry) :
    policy.removed k = { policy with
      entries := policy.entries.erase k
      residentBytes := policy.residentBytes - entry.bytes } := by
  unfold removed remove
  rw [h]

theorem removed_of_missing (h : policy.entries.lookup k = none) :
    policy.removed k = policy := by
  unfold removed remove
  rw [h]

section

variable (policy : ByteLruPolicy key)

theorem lookup_removed (k : key) :
    (policy.removed k).entries.lookup k = none := by
  cases hk : policy.entries.lookup k with
  | none => rw [removed_of_missing hk, hk]
  | some entry =>
    rw [removed_of_lookup hk]
    exact AList.lookup_erase k _

theorem lookup_removed_ne {k other : key} (h : other ≠ k) :
    (policy.removed k).entries.lookup other = policy.entries.lookup other := by
  cases hk : policy.entries.lookup k with
  | none => rw [removed_of_missing hk]
  | some entry =>
    rw [removed_of_lookup hk]
    exact AList.lookup_erase_ne h

theorem recorded_removed (k : key) :
    (policy.removed k).recorded = Function.update policy.recorded k none := by
  funext other
  unfold recorded
  by_cases hk : other = k
  · rw [hk, lookup_removed, Function.update_self]
    rfl
  · rw [lookup_removed_ne policy hk, Function.update_of_ne hk]

theorem clock_removed (k : key) :
    (policy.removed k).clock = policy.clock := by
  cases hk : policy.entries.lookup k with
  | none => rw [removed_of_missing hk]
  | some entry => rw [removed_of_lookup hk]

theorem maxBytes_removed (k : key) :
    (policy.removed k).maxBytes = policy.maxBytes := by
  cases hk : policy.entries.lookup k with
  | none => rw [removed_of_missing hk]
  | some entry => rw [removed_of_lookup hk]

theorem totalBytes_removed_le (k : key) :
    (policy.removed k).totalBytes <= policy.totalBytes := by
  cases hk : policy.entries.lookup k with
  | none => rw [removed_of_missing hk]
  | some entry =>
    rw [removed_of_lookup hk, ← total_erase_of_lookup hk]
    exact Nat.le_add_right _ _

end

theorem resident_removed_eq (h : policy.residentBytes = policy.totalBytes) (k : key) :
    (policy.removed k).residentBytes = (policy.removed k).totalBytes := by
  cases hk : policy.entries.lookup k with
  | none => rw [removed_of_missing hk, h]
  | some entry =>
    rw [removed_of_lookup hk]
    change policy.residentBytes - entry.bytes = _
    rw [h, ← total_erase_of_lookup hk, Nat.add_sub_cancel]
    rfl

theorem sound_of_erase {oldest : List (Nat × key)} (h : policy.Sound)
    (hk : policy.entries.lookup k = some entry) (hsorted : oldest.Pairwise PopsBefore)
    (hcurrent : forall other kept, other ≠ k -> policy.entries.lookup other = some kept ->
      (kept.lastTouch, other) ∈ oldest) :
    ({ policy with
      entries := policy.entries.erase k
      residentBytes := policy.residentBytes - entry.bytes
      oldest := oldest } : ByteLruPolicy key).Sound := by
  have hsplit := total_erase_of_lookup hk
  constructor
  · exact hsorted
  · intro other kept hkept
    by_cases hother : other = k
    · rw [hother] at hkept
      rw [AList.lookup_erase] at hkept
      cases hkept
    · exact hcurrent other kept hother ((AList.lookup_erase_ne hother).symm.trans hkept)
  · change policy.residentBytes - entry.bytes <=
      KeyedMap.total ByteLruEntry.bytes (policy.entries.erase k)
    have hresident := h.resident_le_total
    omega
  · exact Nat.le_trans (Nat.sub_le _ _) h.resident_le_max

theorem removed_sound (h : policy.Sound) (k : key) :
    (policy.removed k).Sound := by
  cases hk : policy.entries.lookup k with
  | none =>
    rw [removed_of_missing hk]
    exact h
  | some entry =>
    rw [removed_of_lookup hk]
    exact sound_of_erase h hk h.sorted (fun other kept _ hkept => h.current other kept hkept)

/-!
# Popping
-/

theorem popCurrent_eq_none {entries : KeyedMap key ByteLruEntry} {oldest : List (Nat × key)}
    (h : popCurrent entries oldest = none) (hk : entries.lookup k = some entry) :
    (entry.lastTouch, k) ∉ oldest := by
  induction oldest with
  | nil => exact List.not_mem_nil
  | cons item rest ih =>
    rcases item with ⟨candidateTouch, candidateKey⟩
    unfold popCurrent at h
    intro hmem
    rcases List.mem_cons.mp hmem with heq | hrest
    · cases heq
      rw [hk] at h
      dsimp only at h
      rw [if_neg (fun hne => hne rfl)] at h
      cases h
    · refine ih ?_ hrest
      split at h
      · exact h
      · split at h
        · exact h
        · cases h

theorem popCurrent_eq_some {entries : KeyedMap key ByteLruEntry} {oldest rest : List (Nat × key)}
    (h : popCurrent entries oldest = some (k, entry, rest)) :
    entries.lookup k = some entry ∧
      exists skipped, oldest = skipped ++ (entry.lastTouch, k) :: rest ∧
        forall other kept, entries.lookup other = some kept ->
          (kept.lastTouch, other) ∉ skipped := by
  induction oldest with
  | nil => cases h
  | cons item others ih =>
    rcases item with ⟨candidateTouch, candidateKey⟩
    have hskip : (forall kept, entries.lookup candidateKey = some kept ->
          kept.lastTouch ≠ candidateTouch) ->
        popCurrent entries others = some (k, entry, rest) ->
        entries.lookup k = some entry ∧
          exists skipped, (candidateTouch, candidateKey) :: others =
            skipped ++ (entry.lastTouch, k) :: rest ∧
              forall other kept, entries.lookup other = some kept ->
                (kept.lastTouch, other) ∉ skipped := by
      intro hstale hrest
      rcases ih hrest with ⟨hk, skipped, hsplit, hskipped⟩
      refine ⟨hk, (candidateTouch, candidateKey) :: skipped, by rw [hsplit]; rfl, ?_⟩
      intro other kept hkept hmem
      rcases List.mem_cons.mp hmem with heq | htail
      · cases heq
        exact hstale kept hkept rfl
      · exact hskipped other kept hkept htail
    unfold popCurrent at h
    cases hcandidate : entries.lookup candidateKey with
    | none =>
      rw [hcandidate] at h
      refine hskip (fun kept hkept => ?_) h
      rw [hcandidate] at hkept
      cases hkept
    | some found =>
      rw [hcandidate] at h
      dsimp only at h
      by_cases htouch : found.lastTouch = candidateTouch
      · rw [if_neg (fun hne => hne htouch)] at h
        cases h
        refine ⟨hcandidate, [], ?_, fun _ _ _ => List.not_mem_nil⟩
        rw [htouch]
        rfl
      · rw [if_pos htouch] at h
        refine hskip (fun kept hkept => ?_) h
        rw [hcandidate] at hkept
        cases hkept
        exact htouch

theorem popOldest_none
    {policy popped : ByteLruPolicy key} (h : policy.Sound)
    (hpop : policy.popOldest = (none, popped)) :
    (forall k, policy.entries.lookup k = none) ∧ popped = { policy with oldest := [] } := by
  unfold popOldest at hpop
  cases hcurrent : popCurrent policy.entries policy.oldest with
  | none =>
    rw [hcurrent] at hpop
    cases hpop
    refine ⟨fun k => ?_, rfl⟩
    cases hk : policy.entries.lookup k with
    | none => rfl
    | some entry => exact absurd (h.current k entry hk) (popCurrent_eq_none hcurrent hk)
  | some found =>
    rw [hcurrent] at hpop
    cases hpop

structure Pops (policy : ByteLruPolicy key) (k : key) (popped : ByteLruPolicy key) :
    Prop where
  sound : popped.Sound
  stored : exists entry, policy.entries.lookup k = some entry ∧
    popped.residentBytes = policy.residentBytes - entry.bytes ∧
    popped.totalBytes + entry.bytes = policy.totalBytes ∧
    forall other kept, policy.entries.lookup other = some kept ->
      entry.lastTouch <= kept.lastTouch
  removes : popped.entries.lookup k = none
  keeps : forall other, other ≠ k ->
    popped.entries.lookup other = policy.entries.lookup other
  clock : popped.clock = policy.clock
  maxBytes : popped.maxBytes = policy.maxBytes
  shrinks : popped.oldest.length < policy.oldest.length

theorem popOldest_some {policy popped : ByteLruPolicy key} (h : policy.Sound)
    (hpop : policy.popOldest = (some k, popped)) :
    policy.Pops k popped := by
  unfold popOldest at hpop
  cases hcurrent : popCurrent policy.entries policy.oldest with
  | none =>
    rw [hcurrent] at hpop
    cases hpop
  | some found =>
    rcases found with ⟨candidate, entry, rest⟩
    rw [hcurrent] at hpop
    cases hpop
    rcases popCurrent_eq_some hcurrent with ⟨hk, skipped, hsplit, hskipped⟩
    have hsorted := h.sorted
    rw [hsplit, List.pairwise_append] at hsorted
    rcases hsorted with ⟨_, htail, _⟩
    have hplace : forall other kept, policy.entries.lookup other = some kept ->
        (kept.lastTouch, other) ∈ (entry.lastTouch, k) :: rest := by
      intro other kept hkept
      have hmem := h.current other kept hkept
      rw [hsplit] at hmem
      exact (List.mem_append.mp hmem).resolve_left (hskipped other kept hkept)
    refine {
      sound := sound_of_erase h hk (List.pairwise_cons.mp htail).2 ?_
      stored := ⟨entry, hk, rfl, total_erase_of_lookup hk, ?_⟩
      removes := AList.lookup_erase k _
      keeps := fun other hother => AList.lookup_erase_ne hother
      clock := rfl
      maxBytes := rfl
      shrinks := ?_ }
    · intro other kept hother hkept
      rcases List.mem_cons.mp (hplace other kept hkept) with heq | hrest
      · exact absurd (congrArg Prod.snd heq) hother
      · exact hrest
    · intro other kept hkept
      rcases List.mem_cons.mp (hplace other kept hkept) with heq | hrest
      · exact Nat.le_of_eq (congrArg Prod.fst heq).symm
      · exact ((List.pairwise_cons.mp htail).1 _ hrest).touch_le
    · rw [hsplit, List.length_append, List.length_cons]
      change rest.length < _
      omega

section

variable {policy popped : ByteLruPolicy key} (h : policy.Pops k popped)
include h

theorem Pops.recorded :
    popped.recorded = Function.update policy.recorded k none := by
  funext other
  unfold ByteLruPolicy.recorded
  by_cases hk : other = k
  · rw [hk, h.removes, Function.update_self]
    rfl
  · rw [h.keeps other hk, Function.update_of_ne hk]

theorem Pops.resident_eq (hresident : policy.residentBytes = policy.totalBytes) :
    popped.residentBytes = popped.totalBytes := by
  rcases h.stored with ⟨entry, _, hpopped, htotal, _⟩
  rw [hpopped, hresident, ← htotal, Nat.add_sub_cancel]

theorem Pops.totalBytes_le :
    popped.totalBytes <= policy.totalBytes := by
  rcases h.stored with ⟨entry, _, _, htotal, _⟩
  omega

end

theorem resident_eq_zero (h : policy.Sound) (hempty : forall k, policy.entries.lookup k = none) :
    policy.residentBytes = 0 := by
  have htotal : policy.totalBytes = 0 := KeyedMap.total_eq_zero hempty
  exact Nat.le_zero.mp (htotal ▸ h.resident_le_total)

/-!
# The newest keys

As long as the clock does not wrap around, touching a key makes it younger than
every other.
-/

def Newest (keys : List key) (policy : ByteLruPolicy key) : Prop :=
  forall k, k ∈ keys -> exists entry, policy.entries.lookup k = some entry ∧
    forall other kept, other ∉ keys -> policy.entries.lookup other = some kept ->
      kept.lastTouch < entry.lastTouch

theorem newest_nil (policy : ByteLruPolicy key) : Newest [] policy :=
  fun _ h => absurd h List.not_mem_nil

theorem removed_clockAhead (h : policy.ClockAhead) (k : key) :
    (policy.removed k).ClockAhead := by
  intro other entry hentry
  rw [clock_removed]
  by_cases hk : other = k
  · rw [hk, lookup_removed] at hentry
    cases hentry
  · rw [lookup_removed_ne policy hk] at hentry
    exact h other entry hentry

theorem account_clock (hclock : policy.clock + 1 < usizeLimit) (k : key) (bytes : Nat) :
    (policy.account k bytes).clock = policy.clock + 1 :=
  wrappingAdd_of_lt hclock

theorem account_clockAhead (h : policy.ClockAhead) (hclock : policy.clock + 1 < usizeLimit)
    (k : key) (bytes : Nat) :
    (policy.account k bytes).ClockAhead := by
  intro other entry hentry
  rw [account_clock hclock]
  by_cases hk : other = k
  · rw [hk, lookup_account, wrappingAdd_of_lt hclock] at hentry
    cases hentry
    exact Nat.le_refl _
  · rw [lookup_account_ne policy bytes hk] at hentry
    exact Nat.le_succ_of_le (h other entry hentry)

variable {keys : List key}

theorem account_newest (h : policy.ClockAhead) (hclock : policy.clock + 1 < usizeLimit)
    (hnewest : Newest keys policy) (k : key) (bytes : Nat) :
    Newest (k :: keys) (policy.account k bytes) := by
  intro young hyoung
  by_cases hk : young = k
  · rw [hk]
    refine ⟨_, lookup_account policy k bytes, ?_⟩
    intro other kept hother hkept
    rw [lookup_account_ne policy bytes (List.ne_of_not_mem_cons hother)] at hkept
    rw [wrappingAdd_of_lt hclock]
    exact Nat.lt_succ_of_le (h other kept hkept)
  · rcases hnewest young ((List.mem_cons.mp hyoung).resolve_left hk) with
      ⟨entry, hentry, holder⟩
    refine ⟨entry, (lookup_account_ne policy bytes hk).trans hentry, ?_⟩
    intro other kept hother hkept
    rw [lookup_account_ne policy bytes (List.ne_of_not_mem_cons hother)] at hkept
    exact holder other kept (List.not_mem_of_not_mem_cons hother) hkept

theorem sum_weightAt_account (hk : k ∉ keys) (bytes : Nat) :
    ((k :: keys).map ((policy.account k bytes).entries.weightAt ByteLruEntry.bytes)).sum =
      bytes + (keys.map (policy.entries.weightAt ByteLruEntry.bytes)).sum := by
  rw [List.map_cons, List.sum_cons, weightAt_of_lookup (lookup_account policy k bytes)]
  congr 2
  apply List.map_congr_left
  intro other hother
  have hne : other ≠ k := fun hsame => hk (hsame ▸ hother)
  unfold KeyedMap.weightAt
  rw [lookup_account_ne policy bytes hne]

theorem Pops.only_newest {policy popped : ByteLruPolicy key} (h : policy.Pops k popped)
    (hnewest : Newest keys policy) (hk : k ∈ keys) :
    forall other, other ∉ keys -> policy.entries.lookup other = none := by
  intro other hother
  rcases h.stored with ⟨entry, hentry, _, _, hleast⟩
  rcases hnewest k hk with ⟨young, hyoung, holder⟩
  rw [hentry] at hyoung
  cases hyoung
  cases hkept : policy.entries.lookup other with
  | none => rfl
  | some kept =>
    exact absurd (holder other kept hother hkept) (Nat.not_lt_of_le (hleast other kept hkept))

theorem Pops.newest {policy popped : ByteLruPolicy key} (h : policy.Pops k popped)
    (hnewest : Newest keys policy) (hk : k ∉ keys) :
    Newest keys popped := by
  intro young hyoung
  have hne : young ≠ k := fun hsame => hk (hsame ▸ hyoung)
  rcases hnewest young hyoung with ⟨entry, hentry, holder⟩
  refine ⟨entry, (h.keeps young hne).trans hentry, ?_⟩
  intro other kept hother hkept
  by_cases hother' : other = k
  · rw [hother', h.removes] at hkept
    cases hkept
  · rw [h.keeps other hother'] at hkept
    exact holder other kept hother hkept

/-!
# A policy with one key

Where a second key does not fit, the older of the two goes, and after the clock has
wrapped around that is the new one.
-/

theorem popOldest_of_current (entry : ByteLruEntry) {rest : List (Nat × key)}
    (holdest : policy.oldest = (entry.lastTouch, k) :: rest)
    (hentry : policy.entries.lookup k = some entry) :
    policy.popOldest = (some k, { policy with
      entries := policy.entries.erase k
      residentBytes := policy.residentBytes - entry.bytes
      oldest := rest }) := by
  unfold popOldest
  rw [holdest]
  unfold popCurrent
  rw [hentry]
  dsimp only
  rw [if_neg (not_not.mpr rfl)]

def sole (maxBytes bytes clock touch : Nat) (k : key) : ByteLruPolicy key where
  maxBytes := maxBytes
  residentBytes := bytes
  clock := clock
  entries := AList.singleton k { bytes := bytes, lastTouch := touch }
  oldest := [(touch, k)]

section Sole

variable {k other : key} (maxBytes bytes : Nat)

theorem account_sole (clock touch : Nat) (hother : other ≠ k) :
    (sole maxBytes bytes clock touch k).account other bytes =
      { maxBytes := maxBytes
        residentBytes := saturatingAdd bytes bytes
        clock := wrappingAdd clock 1
        entries := (AList.singleton k { bytes := bytes, lastTouch := touch }).insert other
          { bytes := bytes, lastTouch := wrappingAdd clock 1 }
        oldest := push (wrappingAdd clock 1, other) [(touch, k)] } := by
  have hmissing : (sole maxBytes bytes clock touch k).entries.lookup other = none :=
    KeyedMap.lookup_singleton_ne _ hother
  unfold account
  rw [hmissing]
  rfl

theorem popOldest_sole_ahead {clock touch : Nat} (hother : other ≠ k)
    (hfits : bytes + bytes <= u64Max) (hnew : touch < wrappingAdd clock 1) :
    ((sole maxBytes bytes clock touch k).account other bytes).popOldest =
      (some k, sole maxBytes bytes (wrappingAdd clock 1) (wrappingAdd clock 1) other) := by
  have hlast : ¬ PopsBefore (wrappingAdd clock 1, other) (touch, k) := by
    rintro (hlt | ⟨heq, _⟩)
    · exact Nat.lt_asymm hlt hnew
    · exact Nat.ne_of_gt hnew heq
  rw [account_sole maxBytes bytes clock touch hother]
  refine (popOldest_of_current { bytes := bytes, lastTouch := touch }
    (List.orderedInsert_of_not_le _ _ hlast) ?_).trans ?_
  · exact (AList.lookup_insert_ne hother.symm).trans (KeyedMap.lookup_singleton _)
  · dsimp only
    rw [KeyedMap.erase_old _ _ hother, saturatingAdd_of_le hfits, Nat.add_sub_cancel]
    rfl

theorem popOldest_sole_wrapped {clock touch : Nat} (hother : other ≠ k)
    (hfits : bytes + bytes <= u64Max) (hnew : wrappingAdd clock 1 < touch) :
    ((sole maxBytes bytes clock touch k).account other bytes).popOldest =
      (some other, sole maxBytes bytes (wrappingAdd clock 1) touch k) := by
  have hfirst : PopsBefore (wrappingAdd clock 1, other) (touch, k) := Or.inl hnew
  rw [account_sole maxBytes bytes clock touch hother]
  refine (popOldest_of_current { bytes := bytes, lastTouch := wrappingAdd clock 1 }
    (List.orderedInsert_cons_of_le _ _ hfirst) (AList.lookup_insert _)).trans ?_
  dsimp only
  rw [KeyedMap.erase_new _ _ hother, saturatingAdd_of_le hfits, Nat.add_sub_cancel]
  rfl

end Sole

end ByteLruPolicy

end Memory
end RunNBurn
