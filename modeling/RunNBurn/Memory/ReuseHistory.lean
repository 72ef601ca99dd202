import Mathlib.Data.Prod.Lex
import RunNBurn.Library.KeyedMaps
import RunNBurn.Library.Loop

/-!
# Reuse of expert bundles

A bounded history of how often the experts of a layer are looked up.  A frequency is kept
as it was at the last observation, with the epoch of that observation, and is decayed when
it is read.
-/

namespace RunNBurn
namespace Memory

open Library

abbrev SparseExpertCacheKey : Type :=
  Lex (Nat × Nat)

def SparseExpertCacheKey.new (layerIndex expertIndex : Nat) : SparseExpertCacheKey :=
  toLex (layerIndex % 2 ^ 32, expertIndex % 2 ^ 32)

structure ExpertBundleReuseEntry where
  frequency : Nat
  lastSeenEpoch : Nat
deriving DecidableEq, Repr

structure ExpertBundleReuseHistory where
  capacity : Nat
  decayInterval : Nat
  epoch : Nat
  entries : KeyedMap SparseExpertCacheKey ExpertBundleReuseEntry

/-- What decides which key goes first: the frequency, the last observation, the key. -/
abbrev ReusePriority : Type :=
  Lex (Nat × Lex (Nat × SparseExpertCacheKey))

def reusePriority (frequency lastSeen : Nat) (key : SparseExpertCacheKey) : ReusePriority :=
  toLex (frequency, toLex (lastSeen, key))

def ReusePriority.key (priority : ReusePriority) : SparseExpertCacheKey :=
  (ofLex (ofLex priority).2).2

namespace ExpertBundleReuseHistory

def withDecayInterval (capacity decayInterval : Nat) : ExpertBundleReuseHistory where
  capacity := capacity
  decayInterval := max decayInterval 1
  epoch := 0
  entries := ∅

def capacityDecayInterval (capacity : Nat) : Nat :=
  max capacity 1

def effectiveFrequency (history : ExpertBundleReuseHistory) (entry : ExpertBundleReuseEntry) :
    Nat :=
  let unobservedEpochs := history.epoch - entry.lastSeenEpoch - 1
  let decayPeriods := unobservedEpochs / history.decayInterval
  if decayPeriods >= 64 then 0 else entry.frequency >>> decayPeriods

def priorities (history : ExpertBundleReuseHistory) : List ReusePriority :=
  history.entries.entries.map fun entry =>
    reusePriority (history.effectiveFrequency entry.2) entry.2.lastSeenEpoch entry.1

def evictLowestPriority (history : ExpertBundleReuseHistory) :
    Checked ExpertBundleReuseHistory :=
  match history.priorities.min? with
  | none => abort "cannot evict from an empty reuse history"
  | some victim => .ok { history with entries := history.entries.erase victim.key }

/-- One round of the loop of `setCapacity`. -/
def shrinkStep (capacity : Nat) (history : ExpertBundleReuseHistory) :
    Checked (Step ExpertBundleReuseHistory) :=
  if history.entries.entries.length > capacity then do
    let smaller <- history.evictLowestPriority
    return .next smaller
  else
    return .done history

def setCapacity (history : ExpertBundleReuseHistory) (capacity : Nat) :
    Checked ExpertBundleReuseHistory := do
  let kept <- loop (shrinkStep capacity) (history.entries.entries.length + 1) history
  return { kept with
    capacity := capacity
    decayInterval := capacityDecayInterval capacity }

def observe (history : ExpertBundleReuseHistory) (key : SparseExpertCacheKey) :
    Checked (Nat × ExpertBundleReuseHistory) := do
  let started := { history with epoch := saturatingAdd history.epoch 1 }
  if started.capacity = 0 then
    return (0, started)
  else
    let priorReuseScore := ((started.entries.lookup key).map started.effectiveFrequency).getD 0
    let stored := { started with
      entries := started.entries.insert key {
        frequency := saturatingAdd priorReuseScore 1
        lastSeenEpoch := started.epoch } }
    if stored.entries.entries.length > stored.capacity then
      let kept <- stored.evictLowestPriority
      return (priorReuseScore, kept)
    else
      return (priorReuseScore, stored)

end ExpertBundleReuseHistory

/-!
# Calls
-/

inductive ReuseCall where
  | observe (key : SparseExpertCacheKey)
  | setCapacity (capacity : Nat)

def ReuseCall.isObservation : ReuseCall -> Bool
  | .observe _ => true
  | .setCapacity _ => false

/-- The scores that the observations return, with the history they leave. -/
def runReuseCalls : ExpertBundleReuseHistory -> List ReuseCall ->
    Checked (List Nat × ExpertBundleReuseHistory)
  | history, [] => return ([], history)
  | history, .observe key :: calls => do
      let (score, next) <- history.observe key
      let (scores, final) <- runReuseCalls next calls
      return (score :: scores, final)
  | history, .setCapacity capacity :: calls => do
      let next <- history.setCapacity capacity
      runReuseCalls next calls

/-!
# A history that ages

What the reuse history stands for: every key has its frequency of now, which is halved
whenever the key has gone unobserved for another interval.
-/

structure AgedEntry where
  frequency : Nat
  lastSeen : Nat
  /-- The epochs that ended since without an observation. -/
  unobserved : Nat
  /-- The frequency right after the last observation. -/
  observed : Nat
deriving DecidableEq, Repr

structure AgedHistory where
  capacity : Nat
  interval : Nat
  epoch : Nat
  entries : KeyedMap SparseExpertCacheKey AgedEntry

def AgedEntry.priority (entry : AgedEntry) (key : SparseExpertCacheKey) : ReusePriority :=
  reusePriority entry.frequency entry.lastSeen key

/-- One more epoch without an observation; the one that completes an interval halves. -/
def AgedEntry.age (interval : Nat) (entry : AgedEntry) : AgedEntry where
  frequency := if interval ∣ entry.unobserved + 1 then entry.frequency / 2 else entry.frequency
  lastSeen := entry.lastSeen
  unobserved := entry.unobserved + 1
  observed := entry.observed

def AgedEntry.recount (interval : Nat) (entry : AgedEntry) : AgedEntry :=
  { entry with frequency := entry.observed / 2 ^ (entry.unobserved / interval) }

namespace AgedHistory

def start (capacity interval : Nat) : AgedHistory where
  capacity := capacity
  interval := max interval 1
  epoch := 0
  entries := ∅

/-- The epoch ends, and every key that it did not observe has aged. -/
def completeEpoch (history : AgedHistory) : AgedHistory :=
  { history with
    epoch := history.epoch + 1
    entries := history.entries.mapValues fun entry =>
      if entry.lastSeen = history.epoch then entry else entry.age history.interval }

def priorities (entries : KeyedMap SparseExpertCacheKey AgedEntry) : List ReusePriority :=
  entries.entries.map fun entry => entry.2.priority entry.1

def removeLowest (entries : KeyedMap SparseExpertCacheKey AgedEntry) :
    KeyedMap SparseExpertCacheKey AgedEntry :=
  match (priorities entries).min? with
  | none => entries
  | some victim => entries.erase victim.key

/-- The current frequency of a key, which is none for a key that is not stored. -/
def frequency (history : AgedHistory) (key : SparseExpertCacheKey) : Nat :=
  ((history.entries.lookup key).map AgedEntry.frequency).getD 0

/-- An observation of the key, stored with one more than its current frequency. -/
def stored (history : AgedHistory) (key : SparseExpertCacheKey) :
    KeyedMap SparseExpertCacheKey AgedEntry :=
  history.entries.insert key {
    frequency := history.frequency key + 1
    lastSeen := history.epoch
    unobserved := 0
    observed := history.frequency key + 1 }

def observe (history : AgedHistory) (key : SparseExpertCacheKey) : Nat × AgedHistory :=
  let started := history.completeEpoch
  let stored := started.stored key
  (started.frequency key, { started with
    entries := if stored.entries.length > started.capacity then removeLowest stored else stored })

def shrink (capacity : Nat) : Nat -> KeyedMap SparseExpertCacheKey AgedEntry ->
    KeyedMap SparseExpertCacheKey AgedEntry
  | 0, entries => entries
  | rounds + 1, entries =>
    if entries.entries.length > capacity then shrink capacity rounds (removeLowest entries)
    else entries

/-- `resized` is what happens to the entries that are kept. -/
def setCapacity (resized : Nat -> AgedEntry -> AgedEntry) (history : AgedHistory)
    (capacity : Nat) : AgedHistory where
  capacity := capacity
  interval := max capacity 1
  epoch := history.epoch
  entries := (shrink capacity history.entries.entries.length history.entries).mapValues
    (resized (max capacity 1))

def run (resized : Nat -> AgedEntry -> AgedEntry) :
    AgedHistory -> List ReuseCall -> List Nat × AgedHistory
  | history, [] => ([], history)
  | history, .observe key :: calls =>
    let (score, next) := history.observe key
    let (scores, final) := run resized next calls
    (score :: scores, final)
  | history, .setCapacity capacity :: calls =>
    run resized (history.setCapacity resized capacity) calls

/-!
# Removals
-/

/-- The key is stored and minimal in frequency, last observation and name. -/
def IsLowest (entries : KeyedMap SparseExpertCacheKey AgedEntry) (key : SparseExpertCacheKey) :
    Prop :=
  exists entry, entries.lookup key = some entry ∧
    forall other entry', entries.lookup other = some entry' ->
      entry.priority key <= entry'.priority other

variable {entries : KeyedMap SparseExpertCacheKey AgedEntry}

theorem mem_priorities {priority : ReusePriority} :
    priority ∈ priorities entries ↔
      exists key entry, entries.lookup key = some entry ∧ entry.priority key = priority := by
  unfold priorities
  rw [List.mem_map]
  constructor
  · intro h
    rcases h with ⟨⟨key, entry⟩, hmem, hpriority⟩
    exists key, entry
    exact ⟨(KeyedMap.mem_entries_iff entries key entry).mp hmem, hpriority⟩
  · intro h
    rcases h with ⟨key, entry, hlookup, hpriority⟩
    exists ⟨key, entry⟩
    exact ⟨(KeyedMap.mem_entries_iff entries key entry).mpr hlookup, hpriority⟩

theorem removeLowest_eq (h : 0 < entries.entries.length) :
    exists key, IsLowest entries key ∧ removeLowest entries = entries.erase key := by
  cases hmin : (priorities entries).min? with
  | none =>
    have hnil := List.min?_eq_none_iff.mp hmin
    unfold priorities at hnil
    rw [List.map_eq_nil_iff.mp hnil] at h
    exact absurd h (Nat.lt_irrefl 0)
  | some victim =>
    rcases List.min?_eq_some_iff.mp hmin with ⟨hmem, hleast⟩
    rcases mem_priorities.mp hmem with ⟨key, entry, hlookup, hpriority⟩
    have hkey : victim.key = key := by
      rw [← hpriority]
      rfl
    exists key
    constructor
    · exists entry
      constructor
      · exact hlookup
      · intro other entry' hother
        rw [hpriority]
        exact hleast _ (mem_priorities.mpr ⟨other, entry', hother, rfl⟩)
    · unfold removeLowest
      rw [hmin]
      dsimp only
      rw [hkey]

theorem length_removeLowest (h : 0 < entries.entries.length) :
    (removeLowest entries).entries.length + 1 = entries.entries.length := by
  rcases removeLowest_eq h with ⟨key, hlowest, hremoved⟩
  rcases hlowest with ⟨entry, hlookup, _⟩
  have hmem : key ∈ entries := AList.lookup_isSome.mp (Option.isSome_of_eq_some hlookup)
  rw [hremoved]
  exact KeyedMap.length_erase_add_one hmem

theorem isLowest_of_observe {history : AgedHistory} {key : SparseExpertCacheKey}
    (h : key ∉ (history.observe key).2.entries) :
    IsLowest (history.completeEpoch.stored key) key := by
  have hstored : key ∈ history.completeEpoch.stored key := by
    unfold stored
    exact (AList.mem_insert _).mpr (Or.inl rfl)
  unfold observe at h
  dsimp only at h
  split at h
  · rename_i hover
    rcases removeLowest_eq (Nat.lt_of_le_of_lt (Nat.zero_le _) hover) with
      ⟨victim, hlowest, hremoved⟩
    rw [hremoved, AList.mem_erase] at h
    by_cases hkey : key = victim
    · rw [hkey] at hlowest
      rw [hkey]
      exact hlowest
    · exact absurd ⟨hkey, hstored⟩ h
  · exact absurd hstored h

end AgedHistory

end Memory
end RunNBurn
