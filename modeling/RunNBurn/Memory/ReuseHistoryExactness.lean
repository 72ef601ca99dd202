import Mathlib.Algebra.Order.Group.Nat
import RunNBurn.Memory.ReuseHistory

/-!
# The reuse history ages

Read at the current epoch, the entries of the history are those of a history that ages
epoch by epoch.
-/

namespace RunNBurn
namespace Memory

open Library
open Library.KeyedMap

namespace ExpertBundleReuseHistory

def agedEntry (history : ExpertBundleReuseHistory) (entry : ExpertBundleReuseEntry) :
    AgedEntry where
  frequency := history.effectiveFrequency entry
  lastSeen := entry.lastSeenEpoch
  unobserved := history.epoch - entry.lastSeenEpoch - 1
  observed := entry.frequency

def aged (history : ExpertBundleReuseHistory) : AgedHistory where
  capacity := history.capacity
  interval := history.decayInterval
  epoch := history.epoch
  entries := history.entries.mapValues history.agedEntry

/-- No key was seen more often than there were epochs, and none after the current one. -/
structure Bounded (history : ExpertBundleReuseHistory) : Prop where
  interval : 0 < history.decayInterval
  size : history.entries.entries.length <= history.capacity
  epoch : history.epoch < usizeLimit
  entries : forall entry, entry ∈ history.entries.entries ->
    entry.2.frequency <= entry.2.lastSeenEpoch ∧ entry.2.lastSeenEpoch <= history.epoch

/-!
# Decay
-/

theorem shiftRight_ge {n periods : Nat} (hn : n < usizeLimit) (h : 64 <= periods) :
    n / 2 ^ periods = 0 := by
  apply Nat.div_eq_of_lt
  have hpow : 2 ^ 64 <= 2 ^ periods := Nat.pow_le_pow_right (by decide) h
  have hlimit : usizeLimit = 2 ^ 64 := by
    decide
  omega

variable (history : ExpertBundleReuseHistory)

theorem effectiveFrequency_eq {entry : ExpertBundleReuseEntry}
    (hentry : entry.frequency < usizeLimit) :
    history.effectiveFrequency entry = entry.frequency /
      2 ^ ((history.epoch - entry.lastSeenEpoch - 1) / history.decayInterval) := by
  unfold effectiveFrequency
  dsimp only
  split
  · rename_i hperiods
    rw [shiftRight_ge hentry hperiods]
  · rw [Nat.shiftRight_eq_div_pow]

theorem agedEntry_tick {entry : ExpertBundleReuseEntry}
    (hfrequency : entry.frequency < usizeLimit) (hseen : entry.lastSeenEpoch <= history.epoch) :
    agedEntry { history with epoch := history.epoch + 1 } entry =
      if entry.lastSeenEpoch = history.epoch then history.agedEntry entry
      else (history.agedEntry entry).age history.decayInterval := by
  unfold agedEntry AgedEntry.age
  rw [effectiveFrequency_eq _ hfrequency, effectiveFrequency_eq _ hfrequency]
  dsimp only
  split
  · rename_i hnow
    rw [hnow, Nat.add_sub_cancel_left, Nat.sub_self, Nat.sub_self, Nat.zero_sub]
  · rename_i hpast
    have hage : history.epoch + 1 - entry.lastSeenEpoch - 1 =
        history.epoch - entry.lastSeenEpoch - 1 + 1 := by
      omega
    rw [hage, Nat.succ_div]
    split
    · rw [Nat.pow_succ, Nat.div_div_eq_div_mul]
    · rfl

theorem aged_tick {history : ExpertBundleReuseHistory} (h : history.Bounded) :
    aged { history with epoch := history.epoch + 1 } = history.aged.completeEpoch := by
  unfold aged AgedHistory.completeEpoch
  dsimp only
  rw [mapValues_mapValues]
  congr 1
  apply mapValues_congr
  intro entry hentry
  rcases h.entries entry hentry with ⟨hfrequency, hseen⟩
  have hlimit := h.epoch
  exact agedEntry_tick history (by omega) hseen

/-!
# Evictions
-/

theorem priorities_aged :
    AgedHistory.priorities history.aged.entries = history.priorities := by
  show (history.entries.entries.map _).map _ = history.entries.entries.map _
  rw [List.map_map]
  rfl

theorem evictLowestPriority_eq {history : ExpertBundleReuseHistory}
    (h : 0 < history.entries.entries.length) :
    exists key, key ∈ history.entries ∧
      history.evictLowestPriority =
        .ok { history with entries := history.entries.erase key } ∧
      AgedHistory.removeLowest history.aged.entries =
        mapValues history.agedEntry (history.entries.erase key) := by
  unfold evictLowestPriority AgedHistory.removeLowest
  rw [priorities_aged]
  cases hmin : history.priorities.min? with
  | none =>
    have hnil := List.min?_eq_none_iff.mp hmin
    rw [List.map_eq_nil_iff.mp hnil] at h
    exact absurd h (Nat.lt_irrefl 0)
  | some victim =>
    rcases List.mem_map.mp (List.min?_mem hmin) with ⟨entry, hentry, hpriority⟩
    have hkey : victim.key = entry.1 := by
      rw [← hpriority]
      rfl
    exists entry.1
    dsimp only
    rw [hkey]
    constructor
    · exact List.mem_map_of_mem hentry
    · constructor
      · rfl
      · exact erase_mapValues history.agedEntry history.entries entry.1

theorem entries_erase_subset (m : KeyedMap SparseExpertCacheKey ExpertBundleReuseEntry)
    (key : SparseExpertCacheKey) :
    (m.erase key).entries ⊆ m.entries :=
  (List.kerase_sublist key m.entries).subset

/-- The loop of `setCapacity` removes lowest keys until the rest fits. -/
theorem loop_shrinkStep {capacity rounds fuel : Nat} {history : ExpertBundleReuseHistory}
    (hrounds : history.entries.entries.length <= rounds) (hfuel : rounds < fuel) :
    exists kept, loop (shrinkStep capacity) fuel history = .ok { history with entries := kept } ∧
      kept.entries ⊆ history.entries.entries ∧ kept.entries.length <= capacity ∧
      AgedHistory.shrink capacity rounds history.aged.entries =
        mapValues history.agedEntry kept := by
  induction rounds generalizing history fuel with
  | zero =>
    cases fuel with
    | zero => exact absurd hfuel (Nat.lt_irrefl 0)
    | succ fuel =>
      have hsmall : ¬ history.entries.entries.length > capacity := by
        omega
      exists history.entries
      constructor
      · unfold loop shrinkStep
        rw [if_neg hsmall]
        rfl
      · constructor
        · exact List.Subset.refl _
        · constructor
          · omega
          · rfl
  | succ rounds ih =>
    cases fuel with
    | zero => exact absurd hfuel (Nat.not_lt_zero _)
    | succ fuel =>
      have hlength : history.aged.entries.entries.length = history.entries.entries.length :=
        length_mapValues history.agedEntry history.entries
      unfold loop shrinkStep AgedHistory.shrink
      rw [hlength]
      by_cases hover : history.entries.entries.length > capacity
      · rcases evictLowestPriority_eq (Nat.lt_of_le_of_lt (Nat.zero_le _) hover) with
          ⟨key, hmem, hevict, hremoved⟩
        have hfewer := length_erase_add_one hmem
        have hnext := @ih fuel { history with entries := history.entries.erase key }
          (by
            dsimp only
            omega)
          (Nat.lt_of_succ_lt_succ hfuel)
        rcases hnext with ⟨kept, hloop, hsubset, hfits, hshrink⟩
        rw [if_pos hover, if_pos hover, hevict, hremoved]
        exists kept
        constructor
        · exact hloop
        · constructor
          · exact List.Subset.trans hsubset (entries_erase_subset history.entries key)
          · exact ⟨hfits, hshrink⟩
      · rw [if_neg hover, if_neg hover]
        exists history.entries
        constructor
        · rfl
        · constructor
          · exact List.Subset.refl _
          · exact ⟨Nat.not_lt.mp hover, rfl⟩

/-!
# Calls
-/

theorem agedEntry_recount {entry : ExpertBundleReuseEntry} (capacity interval : Nat)
    (kept : KeyedMap SparseExpertCacheKey ExpertBundleReuseEntry)
    (hfrequency : entry.frequency < usizeLimit) :
    agedEntry {
      capacity := capacity
      decayInterval := interval
      epoch := history.epoch
      entries := kept } entry = (history.agedEntry entry).recount interval := by
  unfold agedEntry AgedEntry.recount
  rw [effectiveFrequency_eq _ hfrequency]

theorem setCapacity_eq {history : ExpertBundleReuseHistory} (h : history.Bounded) (capacity : Nat) :
    exists next, history.setCapacity capacity = .ok next ∧ next.Bounded ∧
      next.epoch = history.epoch ∧
      next.aged = history.aged.setCapacity AgedEntry.recount capacity := by
  rcases @loop_shrinkStep capacity _ _ history (Nat.le_refl _) (Nat.lt_succ_self _) with
    ⟨kept, hloop, hsubset, hfits, hshrink⟩
  exists {
    capacity := capacity
    decayInterval := capacityDecayInterval capacity
    epoch := history.epoch
    entries := kept }
  constructor
  · unfold setCapacity
    rw [hloop]
    rfl
  · constructor
    · exact {
        interval := Nat.lt_of_lt_of_le Nat.zero_lt_one (Nat.le_max_right capacity 1)
        size := hfits
        epoch := h.epoch
        entries := fun entry hentry => h.entries entry (hsubset hentry) }
    · constructor
      · rfl
      · have hlength : history.aged.entries.entries.length = history.entries.entries.length :=
          length_mapValues history.agedEntry history.entries
        unfold AgedHistory.setCapacity
        rw [hlength, hshrink, mapValues_mapValues]
        unfold aged
        dsimp only
        congr 1
        apply mapValues_congr
        intro entry hentry
        rcases h.entries entry (hsubset hentry) with ⟨hfrequency, hseen⟩
        have hlimit := h.epoch
        exact agedEntry_recount history capacity (max capacity 1) kept (by omega)

theorem bounded_tick {history : ExpertBundleReuseHistory} (h : history.Bounded)
    (hepoch : history.epoch + 1 < usizeLimit) :
    Bounded { history with epoch := history.epoch + 1 } where
  interval := h.interval
  size := h.size
  epoch := hepoch
  entries := by
    intro entry hentry
    rcases h.entries entry hentry with ⟨hfrequency, hseen⟩
    exact ⟨hfrequency, Nat.le_succ_of_le hseen⟩

theorem effectiveFrequency_le (entry : ExpertBundleReuseEntry) :
    history.effectiveFrequency entry <= entry.frequency := by
  unfold effectiveFrequency
  dsimp only
  split
  · exact Nat.zero_le _
  · rw [Nat.shiftRight_eq_div_pow]
    exact Nat.div_le_self _ _

theorem score_le {history : ExpertBundleReuseHistory} {bound : Nat}
    (h : forall entry, entry ∈ history.entries.entries -> entry.2.frequency <= bound)
    (key : SparseExpertCacheKey) :
    ((history.entries.lookup key).map history.effectiveFrequency).getD 0 <= bound := by
  cases hlookup : history.entries.lookup key with
  | none => exact Nat.zero_le bound
  | some entry =>
    have hentry := h ⟨key, entry⟩ ((mem_entries_iff history.entries key entry).mpr hlookup)
    exact Nat.le_trans (effectiveFrequency_le history entry) hentry

theorem frequency_aged (key : SparseExpertCacheKey) :
    history.aged.frequency key =
      ((history.entries.lookup key).map history.effectiveFrequency).getD 0 := by
  unfold AgedHistory.frequency
  show (((mapValues history.agedEntry history.entries).lookup key).map
    AgedEntry.frequency).getD 0 = _
  rw [lookup_mapValues, Option.map_map]
  rfl

theorem stored_aged {history : ExpertBundleReuseHistory} (key : SparseExpertCacheKey)
    (hscore : history.aged.frequency key + 1 < usizeLimit) :
    history.aged.stored key = mapValues history.agedEntry (history.entries.insert key {
      frequency := history.aged.frequency key + 1
      lastSeenEpoch := history.epoch }) := by
  have hentry : history.agedEntry {
      frequency := history.aged.frequency key + 1
      lastSeenEpoch := history.epoch } = {
        frequency := history.aged.frequency key + 1
        lastSeen := history.epoch
        unobserved := 0
        observed := history.aged.frequency key + 1 } := by
    unfold agedEntry
    rw [effectiveFrequency_eq _ hscore]
    dsimp only
    rw [Nat.sub_self, Nat.zero_sub, Nat.zero_div, Nat.pow_zero, Nat.div_one]
  rw [← insert_mapValues, hentry]
  rfl

theorem removeLowest_singleton {entries : KeyedMap SparseExpertCacheKey AgedEntry}
    (h : entries.entries.length = 1) :
    AgedHistory.removeLowest entries = ∅ := by
  have hlength := @AgedHistory.length_removeLowest entries (by omega)
  apply AList.ext
  apply List.eq_nil_of_length_eq_zero
  omega

section

variable {history : ExpertBundleReuseHistory} (h : history.Bounded)
include h

theorem Bounded.with_entries {kept : KeyedMap SparseExpertCacheKey ExpertBundleReuseEntry}
    (hsize : kept.entries.length <= history.capacity)
    (hentries : forall entry, entry ∈ kept.entries ->
      entry.2.frequency <= entry.2.lastSeenEpoch ∧ entry.2.lastSeenEpoch <= history.epoch) :
    Bounded { history with entries := kept } where
  interval := h.interval
  size := hsize
  epoch := h.epoch
  entries := hentries

/-- An aging history without room drops at once what it stores. -/
theorem Bounded.removeLowest_of_no_room
    (hzero : history.capacity = 0) (key : SparseExpertCacheKey) (entry : ExpertBundleReuseEntry) :
    history.aged.frequency key = 0 ∧ (history.entries.insert key entry).entries.length = 1 ∧
      AgedHistory.removeLowest (mapValues history.agedEntry (history.entries.insert key entry)) =
        history.aged.entries := by
  have hempty : history.entries = ∅ := by
    apply AList.ext
    have hsize := h.size
    rw [hzero] at hsize
    exact List.eq_nil_of_length_eq_zero (Nat.le_zero.mp hsize)
  have hone : (history.entries.insert key entry).entries.length = 1 := by
    rw [hempty]
    rfl
  constructor
  · rw [frequency_aged, hempty]
    rfl
  · constructor
    · exact hone
    · rw [removeLowest_singleton ((length_mapValues history.agedEntry _).trans hone)]
      unfold aged
      rw [hempty]
      rfl

theorem Bounded.entries_insert (key : SparseExpertCacheKey) {entry : ExpertBundleReuseEntry}
    (hentry : entry.frequency <= entry.lastSeenEpoch ∧ entry.lastSeenEpoch <= history.epoch) :
    (history.entries.insert key entry).entries.length <= history.entries.entries.length + 1 ∧
      forall other, other ∈ (history.entries.insert key entry).entries ->
        other.2.frequency <= other.2.lastSeenEpoch ∧
          other.2.lastSeenEpoch <= history.epoch := by
  constructor
  · exact Nat.succ_le_succ (List.kerase_sublist key history.entries.entries).length_le
  · intro other hother
    rcases List.mem_cons.mp hother with hnew | hold
    · rw [hnew]
      exact hentry
    · exact h.entries other (entries_erase_subset history.entries key hold)

theorem Bounded.evict_eq {inserted : KeyedMap SparseExpertCacheKey ExpertBundleReuseEntry}
    (hlength : inserted.entries.length <= history.entries.entries.length + 1)
    (hentries : forall entry, entry ∈ inserted.entries ->
      entry.2.frequency <= entry.2.lastSeenEpoch ∧ entry.2.lastSeenEpoch <= history.epoch)
    (hover : history.capacity < inserted.entries.length) :
    exists kept, evictLowestPriority { history with entries := inserted } =
        .ok { history with entries := kept } ∧
      Bounded { history with entries := kept } ∧
      AgedHistory.removeLowest (mapValues history.agedEntry inserted) =
        mapValues history.agedEntry kept := by
  rcases @evictLowestPriority_eq { history with entries := inserted }
    (Nat.lt_of_le_of_lt (Nat.zero_le _) hover) with ⟨victim, hmem, hevict, hremoved⟩
  have hfewer := length_erase_add_one hmem
  have hsize := h.size
  dsimp only at hfewer
  refine ⟨inserted.erase victim, hevict, h.with_entries (by omega) ?_, hremoved⟩
  exact fun entry hentry => hentries entry (entries_erase_subset inserted victim hentry)

theorem observe_eq (hepoch : history.epoch + 1 < usizeLimit) (key : SparseExpertCacheKey) :
    exists score next, history.observe key = .ok (score, next) ∧ next.Bounded ∧
      next.epoch = history.epoch + 1 ∧
      history.aged.observe key = (score, next.aged) := by
  have hsaturating : saturatingAdd history.epoch 1 = history.epoch + 1 := by
    unfold saturatingAdd
    omega
  have hbounded := bounded_tick h hepoch
  have htick := aged_tick h
  generalize hstarted : { history with epoch := history.epoch + 1 } = started at hbounded htick
  have hstartedEpoch : started.epoch = history.epoch + 1 := by
    rw [← hstarted]
  have hscore : started.aged.frequency key <= history.epoch := by
    rw [frequency_aged]
    apply score_le
    intro entry hentry
    rw [← hstarted] at hentry
    rcases h.entries entry hentry with ⟨hfrequency, hseen⟩
    exact Nat.le_trans hfrequency hseen
  have hnext : saturatingAdd (started.aged.frequency key) 1 = started.aged.frequency key + 1 := by
    unfold saturatingAdd
    omega
  have hstored := @stored_aged started key (by omega)
  have hcapacity : started.aged.capacity = started.capacity := rfl
  unfold observe AgedHistory.observe
  rw [← htick, hsaturating, hstarted]
  dsimp only
  rw [← frequency_aged, hnext, hstored, length_mapValues, hcapacity]
  by_cases hzero : started.capacity = 0
  · rcases hbounded.removeLowest_of_no_room hzero key {
      frequency := started.aged.frequency key + 1
      lastSeenEpoch := started.epoch } with ⟨hnone, hone, hremoved⟩
    refine ⟨0, started, if_pos hzero, hbounded, hstartedEpoch, ?_⟩
    rw [hone, if_pos (by omega), hremoved, hnone, ← hcapacity]
  · rw [if_neg hzero]
    rcases @Bounded.entries_insert started hbounded key {
      frequency := started.aged.frequency key + 1
      lastSeenEpoch := started.epoch } (by dsimp only; omega) with ⟨hlength, hentries⟩
    generalize started.entries.insert key _ = inserted at hlength hentries
    by_cases hover : inserted.entries.length > started.capacity
    · rcases hbounded.evict_eq hlength hentries hover with ⟨kept, hevict, hkept, hremoved⟩
      rw [if_pos hover, if_pos hover, hevict, hremoved]
      exact ⟨_, _, rfl, hkept, hstartedEpoch, rfl⟩
    · rw [if_neg hover, if_neg hover]
      exact ⟨_, _, rfl, hbounded.with_entries (Nat.not_lt.mp hover) hentries, hstartedEpoch, rfl⟩

end

theorem bounded_withDecayInterval (capacity interval : Nat) :
    (withDecayInterval capacity interval).Bounded where
  interval := Nat.lt_of_lt_of_le Nat.zero_lt_one (Nat.le_max_right interval 1)
  size := Nat.zero_le capacity
  epoch := Nat.two_pow_pos 64
  entries := by
    intro entry hentry
    cases hentry

end ExpertBundleReuseHistory

open ExpertBundleReuseHistory in
theorem runReuseCalls_eq {history : ExpertBundleReuseHistory} (calls : List ReuseCall)
    (h : history.Bounded)
    (hepoch : history.epoch + calls.countP ReuseCall.isObservation < usizeLimit) :
    exists scores final, runReuseCalls history calls = .ok (scores, final) ∧ final.Bounded ∧
      AgedHistory.run AgedEntry.recount history.aged calls = (scores, final.aged) := by
  induction calls generalizing history with
  | nil => exists [], history
  | cons call rest ih =>
    cases call with
    | observe key =>
      rw [List.countP_cons_of_pos rfl] at hepoch
      rcases observe_eq h (by omega) key with ⟨score, next, hcall, hnext, hnextEpoch, haged⟩
      rcases ih hnext (by omega) with ⟨scores, final, hrest, hfinal, hrun⟩
      exists score :: scores, final
      constructor
      · unfold runReuseCalls
        rw [hcall, ok_bind]
        dsimp only
        rw [hrest]
        rfl
      · constructor
        · exact hfinal
        · unfold AgedHistory.run
          rw [haged]
          dsimp only
          rw [hrun]
    | setCapacity capacity =>
      rw [List.countP_cons_of_neg Bool.false_ne_true] at hepoch
      rcases setCapacity_eq h capacity with ⟨next, hcall, hnext, hnextEpoch, haged⟩
      rw [← hnextEpoch] at hepoch
      rcases ih hnext hepoch with ⟨scores, final, hrest, hfinal, hrun⟩
      exists scores, final
      constructor
      · unfold runReuseCalls
        rw [hcall, ok_bind]
        exact hrest
      · constructor
        · exact hfinal
        · unfold AgedHistory.run
          rw [← haged]
          exact hrun

open ExpertBundleReuseHistory in
/-- The scores and the entries are those of a history that ages epoch by epoch and counts
the halvings anew when it is resized; what it evicts is lowest, also when it is the key
just observed. -/
theorem runReuseCalls_ages (capacity interval : Nat) (calls : List ReuseCall)
    (h : calls.countP ReuseCall.isObservation < usizeLimit) :
    (exists scores final,
      runReuseCalls (withDecayInterval capacity interval) calls = .ok (scores, final) ∧
      AgedHistory.run AgedEntry.recount (AgedHistory.start capacity interval) calls =
        (scores, final.aged) ∧
      final.entries.entries.length <= final.capacity) ∧
    (forall entries : KeyedMap SparseExpertCacheKey AgedEntry, 0 < entries.entries.length ->
      exists key, AgedHistory.IsLowest entries key ∧
        AgedHistory.removeLowest entries = entries.erase key) ∧
    forall (history : AgedHistory) (key : SparseExpertCacheKey),
      key ∉ (history.observe key).2.entries ->
        AgedHistory.IsLowest (history.completeEpoch.stored key) key := by
  constructor
  · have hepoch : (withDecayInterval capacity interval).epoch +
        calls.countP ReuseCall.isObservation < usizeLimit := by
      rw [show (withDecayInterval capacity interval).epoch = 0 from rfl, Nat.zero_add]
      exact h
    rcases runReuseCalls_eq calls (bounded_withDecayInterval capacity interval) hepoch with
      ⟨scores, final, hcode, hfinal, hrun⟩
    exists scores, final
    constructor
    · exact hcode
    · exact ⟨hrun, hfinal.size⟩
  · constructor
    · intro entries hentries
      exact AgedHistory.removeLowest_eq hentries
    · intro history key hkey
      exact AgedHistory.isLowest_of_observe hkey

/-- The first key is halved once before the history is resized, and not any more after. -/
def resizedCalls : List ReuseCall :=
  let first := SparseExpertCacheKey.new 0 1
  let second := SparseExpertCacheKey.new 0 2
  [.observe first, .observe first, .observe first, .observe first, .observe second,
    .observe second, .observe second, .setCapacity 4, .observe first]

open ExpertBundleReuseHistory in
theorem runReuseCalls_ages_resized :
    exists scores final,
      runReuseCalls (withDecayInterval 2 2) resizedCalls = .ok (scores, final) ∧
      AgedHistory.run AgedEntry.recount (AgedHistory.start 2 2) resizedCalls =
        (scores, final.aged) ∧
      final.entries.entries.length <= final.capacity :=
  (runReuseCalls_ages 2 2 resizedCalls (by decide)).1

open ExpertBundleReuseHistory in
/-- A history that keeps its frequencies when it is resized would not give these scores. -/
theorem runReuseCalls_not_kept :
    ¬ forall (capacity interval : Nat) (calls : List ReuseCall),
      calls.countP ReuseCall.isObservation < usizeLimit ->
      exists scores final,
        runReuseCalls (withDecayInterval capacity interval) calls = .ok (scores, final) ∧
        AgedHistory.run (fun _ entry => entry) (AgedHistory.start capacity interval) calls =
          (scores, final.aged) := by
  intro h
  rcases h 2 2 resizedCalls (by decide) with ⟨scores, final, hcode, hrun⟩
  have hscores : (runReuseCalls (withDecayInterval 2 2) resizedCalls).map Prod.fst =
      .ok [0, 1, 2, 3, 0, 1, 2, 4] := by
    decide
  have hkept : (AgedHistory.run (fun _ entry => entry) (AgedHistory.start 2 2) resizedCalls).1 =
      [0, 1, 2, 3, 0, 1, 2, 2] := by
    decide
  rw [hcode] at hscores
  rw [hrun] at hkept
  have hsame := Except.ok.inj hscores
  rw [hkept] at hsame
  exact absurd hsame (by decide)

end Memory
end RunNBurn
