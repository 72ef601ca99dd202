import RunNBurn.Library.RecencyList
import RunNBurn.Memory.ByteLruInvariants

/-!
# The accounting as a recency list

As long as neither the clock nor the counter runs over, the lazy heap and the entries are
a list of keys in the order of their last touch.
-/

namespace RunNBurn
namespace Memory

open Library

inductive ByteLruCall (key : Type) where
  | touch (k : key) (bytes : Nat)
  | popOldest
  | remove (k : key)
deriving DecidableEq

inductive ByteLruReply (key : Type) where
  | evicted (keys : List key)
  | popped (k : Option key)
  | removed (found : Bool)
deriving DecidableEq

namespace ByteLruCall

variable {key : Type} [LinearOrder key]

def run (policy : ByteLruPolicy key) : ByteLruCall key -> ByteLruReply key × ByteLruPolicy key
  | touch k bytes => (.evicted (policy.touch k bytes).1, (policy.touch k bytes).2)
  | popOldest => (.popped policy.popOldest.1, policy.popOldest.2)
  | remove k => (.removed (policy.remove k).1, (policy.remove k).2)

def runAll (policy : ByteLruPolicy key) :
    List (ByteLruCall key) -> List (ByteLruReply key) × ByteLruPolicy key
  | [] => ([], policy)
  | call :: calls =>
    let rest := runAll (call.run policy).2 calls
    ((call.run policy).1 :: rest.1, rest.2)

/-!
# The calls on a recency list
-/

def listRun (maxBytes : Nat) (entries : List (key × Nat)) :
    ByteLruCall key -> ByteLruReply key × List (key × Nat)
  | touch k bytes =>
    let touched := moveToEnd k bytes entries
    let count := excess maxBytes touched
    (.evicted ((touched.take count).map Prod.fst), touched.drop count)
  | popOldest => (.popped (entries.head?.map Prod.fst), entries.tail)
  | remove k => (.removed (decide (k ∈ entries.map Prod.fst)), without k entries)

def listRunAll (maxBytes : Nat) (entries : List (key × Nat)) :
    List (ByteLruCall key) -> List (ByteLruReply key) × List (key × Nat)
  | [] => ([], entries)
  | call :: calls =>
    let rest := listRunAll maxBytes (call.listRun maxBytes entries).2 calls
    ((call.listRun maxBytes entries).1 :: rest.1, rest.2)

def touches : ByteLruCall key -> Nat
  | touch _ _ => 1
  | popOldest => 0
  | remove _ => 0

/-- Before it evicts, no touch counts bytes beyond a machine word. -/
def SumFits (entries : List (key × Nat)) : ByteLruCall key -> Prop
  | touch k bytes => totalSize (moveToEnd k bytes entries) < usizeLimit
  | popOldest => True
  | remove _ => True

def SumsFit (maxBytes : Nat) (entries : List (key × Nat)) : List (ByteLruCall key) -> Prop
  | [] => True
  | call :: calls => call.SumFits entries ∧ SumsFit maxBytes (call.listRun maxBytes entries).2 calls

end ByteLruCall

namespace ByteLruPolicy

variable {key : Type} [LinearOrder key] {policy : ByteLruPolicy key}

structure InOrder (policy : ByteLruPolicy key) (ages : List (key × ByteLruEntry)) : Prop where
  sound : policy.Sound
  clockAhead : policy.ClockAhead
  resident_eq : policy.residentBytes = policy.totalBytes
  lookup_iff : forall k entry, policy.entries.lookup k = some entry ↔ (k, entry) ∈ ages
  older : ages.Pairwise fun left right => left.2.lastTouch < right.2.lastTouch

def sizes (ages : List (key × ByteLruEntry)) : List (key × Nat) :=
  ages.map fun age => (age.1, age.2.bytes)

structure Refines (policy : ByteLruPolicy key) (entries : List (key × Nat)) : Prop where
  inOrder : exists ages, policy.InOrder ages ∧ entries = sizes ages
  resident_eq : policy.residentBytes = totalSize entries
  recorded_iff : forall k bytes, policy.recorded k = some bytes ↔ (k, bytes) ∈ entries
  keys_nodup : (entries.map Prod.fst).Nodup

variable {ages : List (key × ByteLruEntry)}

theorem InOrder.keys_nodup (h : policy.InOrder ages) :
    (ages.map Prod.fst).Nodup := by
  rw [List.Nodup, List.pairwise_map]
  apply h.older.imp_of_mem
  intro left right hleft hright holder hsame
  have hlookup := (h.lookup_iff left.1 left.2).mpr hleft
  rw [hsame, (h.lookup_iff right.1 right.2).mpr hright] at hlookup
  have hentry : right.2 = left.2 := Option.some.inj hlookup
  rw [hentry] at holder
  exact Nat.lt_irrefl _ holder

theorem InOrder.totalBytes_eq (h : policy.InOrder ages) :
    policy.totalBytes = totalSize (sizes ages) := by
  have hperm : (policy.entries.entries.map fun entry => (entry.1, entry.2)).Perm ages := by
    apply (List.perm_ext_iff_of_nodup _ _).mpr
    · intro age
      rw [← h.lookup_iff age.1 age.2, ← KeyedMap.mem_entries_iff, List.mem_map]
      constructor
      · intro hmem
        rcases hmem with ⟨entry, hentry, heq⟩
        cases heq
        exact hentry
      · intro hmem
        exact ⟨_, hmem, rfl⟩
    · apply List.Nodup.of_map Prod.fst
      rw [List.map_map]
      exact policy.entries.nodupKeys
    · exact List.Nodup.of_map Prod.fst h.keys_nodup
  have hsum := (hperm.map fun age => age.2.bytes).sum_eq
  rw [List.map_map] at hsum
  unfold totalBytes KeyedMap.total totalSize sizes
  rw [List.map_map]
  exact hsum

theorem InOrder.refines (h : policy.InOrder ages) :
    policy.Refines (sizes ages) where
  inOrder := ⟨ages, h, rfl⟩
  resident_eq := h.resident_eq.trans h.totalBytes_eq
  recorded_iff := by
    intro k bytes
    unfold recorded sizes
    rw [Option.map_eq_some_iff, List.mem_map]
    constructor
    · intro hrecorded
      rcases hrecorded with ⟨entry, hentry, rfl⟩
      exact ⟨(k, entry), (h.lookup_iff k entry).mp hentry, rfl⟩
    · intro hmem
      rcases hmem with ⟨age, hage, heq⟩
      cases heq
      exact ⟨age.2, (h.lookup_iff age.1 age.2).mpr hage, rfl⟩
  keys_nodup := by
    unfold sizes
    rw [List.map_map]
    exact h.keys_nodup

theorem new_inOrder (maxBytes : Nat) : (new maxBytes : ByteLruPolicy key).InOrder [] where
  sound := new_sound maxBytes
  clockAhead := by
    intro k entry hentry
    rw [new, AList.lookup_empty] at hentry
    cases hentry
  resident_eq := rfl
  lookup_iff := by
    intro k entry
    rw [new, AList.lookup_empty]
    simp
  older := List.Pairwise.nil

/-!
# Removing
-/

def withoutKey (k : key) (ages : List (key × ByteLruEntry)) : List (key × ByteLruEntry) :=
  ages.filter fun age => age.1 ≠ k

theorem sizes_withoutKey (k : key) (ages : List (key × ByteLruEntry)) :
    sizes (withoutKey k ages) = without k (sizes ages) := by
  unfold sizes withoutKey without
  rw [List.filter_map]
  rfl

theorem mem_withoutKey_iff {k : key} {age : key × ByteLruEntry} :
    age ∈ withoutKey k ages ↔ age ∈ ages ∧ age.1 ≠ k := by
  unfold withoutKey
  rw [List.mem_filter, decide_eq_true_iff]

theorem InOrder.removed (h : policy.InOrder ages) (k : key) :
    (policy.removed k).InOrder (withoutKey k ages) where
  sound := removed_sound h.sound k
  clockAhead := removed_clockAhead h.clockAhead k
  resident_eq := resident_removed_eq h.resident_eq k
  lookup_iff := by
    intro other entry
    rw [mem_withoutKey_iff, ← h.lookup_iff]
    by_cases hother : other = k
    · rw [hother, lookup_removed]
      simp
    · rw [lookup_removed_ne policy hother]
      exact (and_iff_left hother).symm
  older := h.older.filter _

theorem remove_fst (policy : ByteLruPolicy key) (k : key) :
    (policy.remove k).1 = (policy.entries.lookup k).isSome := by
  unfold remove
  cases policy.entries.lookup k with
  | none => rfl
  | some entry => rfl

theorem InOrder.remove_fst (h : policy.InOrder ages) (k : key) :
    (policy.remove k).1 = decide (k ∈ (sizes ages).map Prod.fst) := by
  rw [ByteLruPolicy.remove_fst]
  unfold sizes
  rw [List.map_map]
  cases hk : policy.entries.lookup k with
  | none =>
    symm
    rw [Option.isSome_none, decide_eq_false_iff_not]
    intro hmem
    rcases List.mem_map.mp hmem with ⟨age, hage, rfl⟩
    have hfound := (h.lookup_iff age.1 age.2).mpr hage
    exact Option.some_ne_none _ (hfound.symm.trans hk)
  | some entry =>
    symm
    rw [Option.isSome_some, decide_eq_true_iff]
    exact List.mem_map_of_mem (f := Prod.fst) ((h.lookup_iff k entry).mp hk)

/-!
# Popping
-/

theorem InOrder.popOldest (h : policy.InOrder ages) :
    policy.popOldest.1 = (sizes ages).head?.map Prod.fst ∧
      policy.popOldest.2.InOrder ages.tail ∧
      policy.popOldest.2.maxBytes = policy.maxBytes ∧
      policy.popOldest.2.clock = policy.clock ∧
      (ages ≠ [] -> policy.popOldest.2.oldest.length < policy.oldest.length) := by
  cases hpop : policy.popOldest with
  | mk found popped =>
    cases found with
    | none =>
      rcases popOldest_none h.sound hpop with ⟨hempty, rfl⟩
      have hages : ages = [] := by
        apply List.eq_nil_iff_forall_not_mem.mpr
        intro age hage
        have hlookup := (h.lookup_iff age.1 age.2).mpr hage
        rw [hempty age.1] at hlookup
        cases hlookup
      subst hages
      refine ⟨rfl, ?_, rfl, rfl, fun hne => absurd rfl hne⟩
      constructor
      · constructor
        · exact List.Pairwise.nil
        · intro k entry hentry
          have hnone : policy.entries.lookup k = some entry := hentry
          rw [hempty k] at hnone
          cases hnone
        · exact h.sound.resident_le_total
        · exact h.sound.resident_le_max
      · exact h.clockAhead
      · exact h.resident_eq
      · exact h.lookup_iff
      · exact List.Pairwise.nil
    | some k =>
      have hpops := popOldest_some h.sound hpop
      rcases hpops.stored with ⟨entry, hentry, _, _, hleast⟩
      have hmem := (h.lookup_iff k entry).mp hentry
      cases ages with
      | nil => cases hmem
      | cons first rest =>
        have hfirst : first = (k, entry) := by
          rcases List.mem_cons.mp hmem with hsame | hrest
          · exact hsame.symm
          · have hlt := (List.pairwise_cons.mp h.older).1 _ hrest
            have hle := hleast first.1 first.2
              ((h.lookup_iff first.1 first.2).mpr List.mem_cons_self)
            exact absurd hlt (Nat.not_lt_of_le hle)
        subst hfirst
        refine ⟨rfl, ?_, hpops.maxBytes, hpops.clock, fun _ => hpops.shrinks⟩
        have hkeys := List.nodup_cons.mp h.keys_nodup
        constructor
        · exact hpops.sound
        · intro other kept hkept
          by_cases hother : other = k
          · rw [hother, hpops.removes] at hkept
            cases hkept
          · rw [hpops.keeps other hother] at hkept
            rw [hpops.clock]
            exact h.clockAhead other kept hkept
        · exact hpops.resident_eq h.resident_eq
        · intro other kept
          show popped.entries.lookup other = some kept ↔ (other, kept) ∈ rest
          by_cases hother : other = k
          · rw [hother, hpops.removes]
            constructor
            · intro hnone
              cases hnone
            · intro hrest
              exact absurd (List.mem_map_of_mem (f := Prod.fst) hrest) hkeys.1
          · rw [hpops.keeps other hother, h.lookup_iff, List.mem_cons]
            constructor
            · intro hage
              rcases hage with hsame | hrest
              · cases hsame
                exact absurd rfl hother
              · exact hrest
            · exact Or.inr
        · exact (List.pairwise_cons.mp h.older).2

/-!
# Touching
-/

theorem InOrder.account (h : policy.InOrder ages) (k : key) (bytes : Nat)
    (hclock : policy.clock + 1 < usizeLimit)
    (hsum : totalSize (moveToEnd k bytes (sizes ages)) < usizeLimit) :
    (policy.account k bytes).InOrder (withoutKey k ages ++
      [(k, { bytes := bytes, lastTouch := policy.clock + 1 })]) := by
  have hclock' : wrappingAdd policy.clock 1 = policy.clock + 1 := wrappingAdd_of_lt hclock
  have hlookup : forall other entry, (policy.account k bytes).entries.lookup other = some entry ↔
      (other, entry) ∈ withoutKey k ages ++
        [(k, { bytes := bytes, lastTouch := policy.clock + 1 })] := by
    intro other entry
    rw [List.mem_append, mem_withoutKey_iff, List.mem_singleton]
    by_cases hother : other = k
    · subst hother
      rw [lookup_account, hclock']
      simp [eq_comm]
    · rw [lookup_account_ne policy bytes hother, h.lookup_iff]
      simp [hother]
  have holder : List.Pairwise
      (fun left right : key × ByteLruEntry => left.2.lastTouch < right.2.lastTouch)
      (withoutKey k ages ++ [(k, { bytes := bytes, lastTouch := policy.clock + 1 })]) := by
    apply List.pairwise_append.mpr
    refine ⟨h.older.filter _, List.pairwise_singleton _ _, ?_⟩
    intro left hleft right hright
    rw [List.mem_singleton.mp hright]
    have hmem := (mem_withoutKey_iff.mp hleft).1
    exact Nat.lt_succ_of_le (h.clockAhead left.1 left.2 ((h.lookup_iff _ _).mpr hmem))
  have hsizes : totalSize (moveToEnd k bytes (sizes ages)) =
    (policy.account k bytes).totalBytes := by
    have hremoved := (h.removed k).totalBytes_eq
    rw [totalBytes_account, moveToEnd, totalSize_append, ← sizes_withoutKey, ← hremoved,
      totalSize_cons,
      totalSize_nil, Nat.add_zero, Nat.add_comm]
    congr 1
    cases hk : policy.entries.lookup k with
    | none => rw [removed_of_missing hk, total_erase_of_missing hk]
    | some entry =>
      rw [removed_of_lookup hk]
      rfl
  constructor
  · exact account_sound h.sound k bytes
  · exact account_clockAhead h.clockAhead hclock k bytes
  · apply resident_account_eq h.resident_eq
    rw [← hsizes]
    exact Nat.le_sub_one_of_lt hsum
  · exact hlookup
  · exact holder

theorem InOrder.evictOver (h : policy.InOrder ages) (rounds : Nat)
    (hrounds : policy.oldest.length <= rounds) :
    (ByteLruPolicy.evictOver rounds policy).1 =
        ((sizes ages).take (excess policy.maxBytes (sizes ages))).map Prod.fst ∧
      (ByteLruPolicy.evictOver rounds policy).2.InOrder
        (ages.drop (excess policy.maxBytes (sizes ages))) ∧
      (ByteLruPolicy.evictOver rounds policy).2.maxBytes = policy.maxBytes ∧
      (ByteLruPolicy.evictOver rounds policy).2.clock = policy.clock := by
  have hresident := h.refines.resident_eq
  induction rounds generalizing policy ages with
  | zero =>
    have hages : ages = [] := by
      apply List.eq_nil_iff_forall_not_mem.mpr
      intro age hage
      have hmem := h.sound.current _ _ ((h.lookup_iff age.1 age.2).mpr hage)
      rw [List.length_eq_zero_iff.mp (Nat.le_zero.mp hrounds)] at hmem
      cases hmem
    subst hages
    rw [excess_eq_zero (Nat.zero_le _)]
    exact ⟨rfl, h, rfl, rfl⟩
  | succ rounds ih =>
    unfold ByteLruPolicy.evictOver
    by_cases hover : policy.residentBytes > policy.maxBytes
    · rw [if_pos hover]
      have hpop := h.popOldest
      cases ages with
      | nil =>
        rw [hresident] at hover
        cases hover
      | cons first rest =>
        rcases hpop with ⟨hkey, hrest, hmax, hclock, hshrinks⟩
        have hover' : policy.maxBytes < totalSize (sizes (first :: rest)) := hresident ▸ hover
        have hshorter := hshrinks (List.cons_ne_nil first rest)
        cases hpopped : policy.popOldest with
        | mk found popped =>
          rw [hpopped] at hkey hrest hmax hclock hshorter
          cases hkey
          have hnext := ih hrest (by omega) hrest.refines.resident_eq
          dsimp only at hmax hclock
          rw [hmax, hclock] at hnext
          show (first.1 :: (ByteLruPolicy.evictOver rounds popped).1) = _ ∧ _
          rw [show sizes (first :: rest) = (first.1, first.2.bytes) :: sizes rest from rfl]
            at hover' ⊢
          rw [excess_cons hover']
          exact ⟨congrArg (List.cons first.1) hnext.1, hnext.2⟩
    · rw [if_neg hover]
      have hfits : totalSize (sizes ages) <= policy.maxBytes := by
        rw [← hresident]
        exact Nat.le_of_not_lt hover
      rw [excess_eq_zero hfits]
      exact ⟨rfl, h, rfl, rfl⟩

end ByteLruPolicy

/-!
# Whole runs
-/

namespace ByteLruCall

variable {key : Type} [LinearOrder key]

open ByteLruPolicy

theorem run_refines {policy : ByteLruPolicy key} {entries : List (key × Nat)}
    (h : policy.Refines entries) (call : ByteLruCall key)
    (hclock : policy.clock + call.touches < usizeLimit) (hsum : call.SumFits entries) :
    (call.run policy).1 = (call.listRun policy.maxBytes entries).1 ∧
      (call.run policy).2.Refines (call.listRun policy.maxBytes entries).2 ∧
      (call.run policy).2.maxBytes = policy.maxBytes ∧
      (call.run policy).2.clock = policy.clock + call.touches := by
  rcases h.inOrder with ⟨ages, hages, rfl⟩
  cases call with
  | touch k bytes =>
    have haccount := hages.account k bytes hclock hsum
    have hevict := haccount.evictOver _ (Nat.le_refl _)
    have htouched : sizes (withoutKey k ages ++
        [(k, { bytes := bytes, lastTouch := policy.clock + 1 })]) =
          moveToEnd k bytes (sizes ages) := by
      rw [moveToEnd, ← sizes_withoutKey]
      exact List.map_append
    rw [htouched] at hevict
    rcases hevict with ⟨hkeys, hkept, hmax, hclockNext⟩
    have hrefines := hkept.refines
    rw [sizes, List.map_drop, ← sizes, htouched] at hrefines
    refine ⟨congrArg ByteLruReply.evicted hkeys, hrefines, hmax, ?_⟩
    · rw [account_clock hclock] at hclockNext
      exact hclockNext
  | popOldest =>
    rcases hages.popOldest with ⟨hkey, hrest, hmax, hclockNext, _⟩
    refine ⟨congrArg ByteLruReply.popped hkey, ?_, hmax, hclockNext⟩
    have hrefines := hrest.refines
    rw [sizes, List.map_tail] at hrefines
    exact hrefines
  | remove k =>
    refine ⟨congrArg ByteLruReply.removed (hages.remove_fst k), ?_, maxBytes_removed policy k,
      clock_removed policy k⟩
    have hrefines := (hages.removed k).refines
    rw [sizes_withoutKey] at hrefines
    exact hrefines

theorem runAll_refines {policy : ByteLruPolicy key} {entries : List (key × Nat)}
    (h : policy.Refines entries) (calls : List (ByteLruCall key))
    (hclock : policy.clock + (calls.map touches).sum < usizeLimit)
    (hsums : SumsFit policy.maxBytes entries calls) :
    (runAll policy calls).1 = (listRunAll policy.maxBytes entries calls).1 ∧
      (runAll policy calls).2.Refines (listRunAll policy.maxBytes entries calls).2 := by
  induction calls generalizing policy entries with
  | nil => exact ⟨rfl, h⟩
  | cons call calls ih =>
    rw [List.map_cons, List.sum_cons] at hclock
    rcases hsums with ⟨hsum, hsums⟩
    rcases run_refines h call (by omega) hsum with ⟨hreply, hnext, hmax, hclockNext⟩
    rw [← hmax] at hsums
    have hrest := ih hnext (by omega) (hmax ▸ hsums)
    rw [hmax] at hrest
    unfold runAll listRunAll
    dsimp only
    rw [hreply, hrest.1]
    exact ⟨rfl, hrest.2⟩

/-- From an empty policy on, every call answers what the recency list answers. -/
theorem runAll_new_refines (maxBytes : Nat) (calls : List (ByteLruCall key))
    (htouches : (calls.map touches).sum < usizeLimit) (hsums : SumsFit maxBytes [] calls) :
    (runAll (new maxBytes) calls).1 = (listRunAll maxBytes [] calls).1 ∧
      (runAll (new maxBytes) calls).2.Refines (listRunAll maxBytes [] calls).2 := by
  apply runAll_refines
  · exact (new_inOrder maxBytes).refines
  · show 0 + (calls.map touches).sum < usizeLimit
    rw [Nat.zero_add]
    exact htouches
  · exact hsums

/-- Two keys fit; when a third comes, the one touched longest ago goes. -/
theorem runAll_new_refines_three :
    ([touch 1 4, touch 2 4, touch 1 4, touch 3 5].map (@touches Nat)).sum < usizeLimit ∧
      (runAll (new 10) [touch 1 4, touch 2 4, touch 1 4, touch 3 5]).1 =
        [.evicted [], .evicted [], .evicted [], .evicted [2]] := by
  have htouches : ([touch 1 4, touch 2 4, touch 1 4, touch 3 5].map (@touches Nat)).sum <
      usizeLimit := by
    decide
  have hsums : SumsFit 10 [] [touch 1 4, touch 2 4, touch 1 4, touch 3 5] := by
    refine ⟨?_, ?_, ?_, ?_, trivial⟩ <;> show _ < _ <;> decide +kernel
  refine ⟨htouches, ?_⟩
  rw [(runAll_new_refines 10 _ htouches hsums).1]
  decide +kernel

end ByteLruCall

end Memory
end RunNBurn
