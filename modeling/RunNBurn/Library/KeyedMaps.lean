import Mathlib.Algebra.Order.BigOperators.Group.List
import Mathlib.Algebra.Order.Ring.Nat
import Mathlib.Data.Finmap
import Mathlib.Data.List.Induction

/-!
# Totals over maps

Maps with finitely many keys, and the sum of a weight over their entries.
-/

namespace RunNBurn
namespace Library

abbrev KeyedMap (key value : Type) : Type :=
  AList (fun _ : key => value)

namespace KeyedMap

variable {key value : Type}

def total (weight : value -> Nat) (m : KeyedMap key value) : Nat :=
  (m.entries.map (fun entry => weight entry.2)).sum

variable [DecidableEq key]

/-- The weight under one key, which is zero when the key is missing. -/
def weightAt (weight : value -> Nat) (m : KeyedMap key value) (k : key) : Nat :=
  ((m.lookup k).map weight).getD 0

theorem sum_kerase_add (weight : value -> Nat) (entries : List (Sigma fun _ : key => value))
    (k : key) :
    ((entries.kerase k).map (fun entry => weight entry.2)).sum +
        ((entries.dlookup k).map weight).getD 0 =
      (entries.map (fun entry => weight entry.2)).sum := by
  induction entries with
  | nil => rfl
  | cons entry rest ih =>
    rcases entry with ⟨other, v⟩
    by_cases hk : k = other
    · cases hk
      rw [List.kerase_cons_eq (rfl : k = (⟨k, v⟩ : Sigma fun _ : key => value).1),
        List.dlookup_cons_eq]
      exact Nat.add_comm _ _
    · rw [List.kerase_cons_ne hk, List.dlookup_cons_ne rest ⟨other, v⟩ hk, List.map_cons,
        List.map_cons, List.sum_cons, List.sum_cons, ← ih, Nat.add_assoc]

theorem total_erase_add (weight : value -> Nat) (m : KeyedMap key value) (k : key) :
    total weight (m.erase k) + weightAt weight m k = total weight m :=
  sum_kerase_add weight m.entries k

theorem total_insert (weight : value -> Nat) (m : KeyedMap key value) (k : key) (v : value) :
    total weight (m.insert k v) = weight v + total weight (m.erase k) := by
  unfold total
  rw [AList.entries_insert, List.map_cons, List.sum_cons]
  rfl

variable {m : KeyedMap key value} {weight : value -> Nat}

theorem total_eq_zero (h : forall k, m.lookup k = none) :
    total weight m = 0 := by
  have hentries : m.entries = [] := by
    cases hm : m.entries with
    | nil => rfl
    | cons entry rest =>
      have hmem : entry.1 ∈ m := by
        rw [AList.mem_keys, AList.keys, hm]
        exact List.mem_cons_self
      exact absurd hmem (AList.lookup_eq_none.mp (h entry.1))
  unfold total
  rw [hentries]
  rfl

theorem weightAt_erase_le (weight : value -> Nat) (m : KeyedMap key value) (k other : key) :
    weightAt weight (m.erase k) other <= weightAt weight m other := by
  unfold weightAt
  by_cases hsame : other = k
  · rw [hsame, AList.lookup_erase]
    exact Nat.zero_le _
  · rw [AList.lookup_erase_ne hsame]

theorem total_le_of_keys {keys : List key} (h : forall k, k ∉ keys -> m.lookup k = none) :
    total weight m <= (keys.map (weightAt weight m)).sum := by
  induction keys generalizing m with
  | nil => exact Nat.le_of_eq (total_eq_zero (fun k => h k List.not_mem_nil))
  | cons k rest ih =>
    have hrest : forall other, other ∉ rest -> (m.erase k).lookup other = none := by
      intro other hother
      by_cases hsame : other = k
      · rw [hsame]
        exact AList.lookup_erase k m
      · rw [AList.lookup_erase_ne hsame]
        exact h other (List.not_mem_cons_of_ne_of_not_mem hsame hother)
    have hless : (rest.map (weightAt weight (m.erase k))).sum <=
        (rest.map (weightAt weight m)).sum :=
      List.sum_le_sum (fun other _ => weightAt_erase_le weight m k other)
    rw [← total_erase_add weight m k, List.map_cons, List.sum_cons, Nat.add_comm]
    exact Nat.add_le_add_left (Nat.le_trans (ih hrest) hless) _

theorem mem_entries_iff (m : KeyedMap key value) (k : key) (v : value) :
    (⟨k, v⟩ : Sigma fun _ : key => value) ∈ m.entries ↔ m.lookup k = some v :=
  AList.mem_lookup_iff.symm

/-!
# The values of a map
-/

def values (m : KeyedMap key value) : List value :=
  m.entries.map Sigma.snd

theorem values_erase_perm {k : key} {v : value} (h : m.lookup k = some v) :
    m.values.Perm (v :: values (m.erase k)) := by
  have hmem : k ∈ m.entries.keys := AList.mem_keys.mp (AList.lookup_isSome.mp (by rw [h]; rfl))
  rcases List.exists_of_kerase hmem with ⟨found, front, back, hfront, hsplit, herase⟩
  have hlookup : m.lookup k = some found := by
    rw [← mem_entries_iff, hsplit]
    exact List.mem_append_right _ List.mem_cons_self
  cases hlookup.symm.trans h
  have hrest : (m.erase k).entries = front ++ back := herase
  unfold values
  rw [hrest, hsplit, List.map_append, List.map_append, List.map_cons]
  exact List.perm_middle

theorem values_insert (m : KeyedMap key value) (k : key) (v : value) :
    values (m.insert k v) = v :: values (m.erase k) := by
  unfold values
  rw [AList.entries_insert, List.map_cons]
  rfl

theorem values_insert_perm {k : key} (v : value) (h : m.lookup k = none) :
    values (m.insert k v) = v :: m.values := by
  unfold values
  rw [AList.entries_insert_of_notMem (AList.lookup_eq_none.mp h), List.map_cons]

theorem mem_values_iff (m : KeyedMap key value) (v : value) :
    v ∈ m.values ↔ exists k, m.lookup k = some v := by
  unfold values
  rw [List.mem_map]
  constructor
  · rintro ⟨⟨k, found⟩, hmem, rfl⟩
    exact ⟨k, (mem_entries_iff m k found).mp hmem⟩
  · rintro ⟨k, hk⟩
    exact ⟨⟨k, v⟩, (mem_entries_iff m k v).mpr hk, rfl⟩

theorem eq_of_lookup_eq {k other : key} {v : value} (hnodup : m.values.Nodup)
    (hk : m.lookup k = some v) (hother : m.lookup other = some v) :
    k = other := by
  by_contra hne
  have hperm := values_erase_perm hk
  have hrest : (m.erase k).lookup other = some v := by
    rw [AList.lookup_erase_ne (Ne.symm hne)]
    exact hother
  have hmem : v ∈ values (m.erase k) := (mem_values_iff _ v).mpr ⟨other, hrest⟩
  exact (List.nodup_cons.mp (hperm.nodup_iff.mp hnodup)).1 hmem

theorem total_eq_of_weights {other : Type} {weight' : other -> Nat} {m' : KeyedMap key other}
    (h : forall k, (m.lookup k).map weight = (m'.lookup k).map weight') :
    total weight m = total weight' m' := by
  induction m' using AList.insertRec generalizing m with
  | H0 =>
    rw [total_eq_zero]
    · rfl
    · intro k
      have hk := h k
      rw [AList.lookup_empty, Option.map_none] at hk
      exact Option.map_eq_none_iff.mp hk
  | IH k v rest hk ih =>
    have hweight := h k
    rw [AList.lookup_insert] at hweight
    have hrest : total weight (m.erase k) = total weight' rest := by
      apply ih
      intro found
      by_cases hfound : found = k
      · rw [hfound, AList.lookup_erase, AList.lookup_eq_none.mpr hk]
        rfl
      · rw [AList.lookup_erase_ne hfound, h found, AList.lookup_insert_ne hfound]
    have hgone : rest.erase k = rest := by
      apply AList.ext
      exact List.kerase_of_notMem_keys hk
    rw [← total_erase_add weight m k, hrest, total_insert, hgone]
    unfold weightAt
    rw [hweight]
    exact Nat.add_comm _ _

omit [DecidableEq key] in
theorem total_const (c : Nat) (m : KeyedMap key value) :
    total (fun _ => c) m = m.values.length * c := by
  unfold total values
  rw [List.map_const', List.sum_replicate, List.length_map]
  rfl

/-!
# Maps with one or two keys
-/

section Singletons

variable {a b : key} (x y : value)

theorem lookup_singleton_ne (h : b ≠ a) :
    (AList.singleton a x : KeyedMap key value).lookup b = none := by
  apply AList.lookup_eq_none.mpr
  rw [AList.mem_keys, AList.keys_singleton, List.mem_singleton]
  exact h

theorem lookup_singleton : (AList.singleton a x : KeyedMap key value).lookup a = some x := by
  rw [← AList.insert_empty]
  exact AList.lookup_insert _

theorem erase_old (h : b ≠ a) :
    ((AList.singleton a x : KeyedMap key value).insert b y).erase a = AList.singleton b y := by
  apply AList.ext
  simp [AList.insert, AList.erase, AList.singleton, h, h.symm]

theorem erase_new (h : b ≠ a) :
    ((AList.singleton a x : KeyedMap key value).insert b y).erase b = AList.singleton a x := by
  apply AList.ext
  simp [AList.insert, AList.erase, AList.singleton, h]

end Singletons

end KeyedMap

/-!
# Changing the values of a map

A function on the values, applied under every key.
-/

namespace KeyedMap

variable {key value other : Type}

def mapValues (f : value -> other) (m : KeyedMap key value) : KeyedMap key other where
  entries := m.entries.map fun entry => ⟨entry.1, f entry.2⟩
  nodupKeys := by
    have hkeys : (m.entries.map fun entry =>
        (⟨entry.1, f entry.2⟩ : Sigma fun _ : key => other)).keys = m.entries.keys := by
      unfold List.keys
      rw [List.map_map]
      rfl
    have h := m.nodupKeys
    unfold List.NodupKeys at h
    unfold List.NodupKeys
    rw [hkeys]
    exact h

variable (f : value -> other)

theorem length_mapValues (m : KeyedMap key value) :
    (mapValues f m).entries.length = m.entries.length := by
  show (m.entries.map _).length = _
  rw [List.length_map]

theorem mapValues_mapValues {last : Type} (g : other -> last) (m : KeyedMap key value) :
    mapValues g (mapValues f m) = mapValues (fun v => g (f v)) m := by
  apply AList.ext
  show (m.entries.map _).map _ = m.entries.map _
  rw [List.map_map]
  rfl

theorem mapValues_congr {f g : value -> other} {m : KeyedMap key value}
    (h : forall entry, entry ∈ m.entries -> f entry.2 = g entry.2) :
    mapValues f m = mapValues g m := by
  apply AList.ext
  apply List.map_congr_left
  intro entry hentry
  rw [h entry hentry]

variable [DecidableEq key]

theorem lookup_mapValues (m : KeyedMap key value) (k : key) :
    (mapValues f m).lookup k = (m.lookup k).map f := by
  rcases m with ⟨entries, hnodup⟩
  show @List.dlookup key (fun _ => other) _ k (entries.map fun entry => ⟨entry.1, f entry.2⟩) =
    Option.map f (@List.dlookup key (fun _ => value) _ k entries)
  clear hnodup
  induction entries with
  | nil => rfl
  | cons entry rest ih =>
    rcases entry with ⟨first, v⟩
    by_cases hk : k = first
    · cases hk
      rw [List.map_cons, List.dlookup_cons_eq, List.dlookup_cons_eq]
      rfl
    · rw [List.map_cons, List.dlookup_cons_ne _ _ hk, List.dlookup_cons_ne _ _ hk]
      exact ih

theorem erase_mapValues (m : KeyedMap key value) (k : key) :
    (mapValues f m).erase k = mapValues f (m.erase k) := by
  apply AList.ext
  rcases m with ⟨entries, hnodup⟩
  show (entries.map _).kerase k = (entries.kerase k).map _
  clear hnodup
  induction entries with
  | nil => rfl
  | cons entry rest ih =>
    rcases entry with ⟨first, v⟩
    by_cases hk : k = first
    · rw [List.map_cons, List.kerase_cons_eq hk, List.kerase_cons_eq hk]
    · rw [List.map_cons, List.kerase_cons_ne hk, List.kerase_cons_ne hk, List.map_cons, ih]

theorem insert_mapValues (m : KeyedMap key value) (k : key) (v : value) :
    (mapValues f m).insert k (f v) = mapValues f (m.insert k v) := by
  have herase := congrArg AList.entries (erase_mapValues f m k)
  apply AList.ext
  show (⟨k, f v⟩ : Sigma fun _ : key => other) :: ((mapValues f m).erase k).entries = _
  rw [herase]
  rfl

theorem length_erase_add_one {m : KeyedMap key value} {k : key} (h : k ∈ m) :
    (m.erase k).entries.length + 1 = m.entries.length := by
  have hkeys : (m.erase k).keys.length = m.keys.length - 1 := by
    rw [AList.keys_erase, List.length_erase_of_mem h]
  have hpos : 0 < m.keys.length := List.length_pos_of_mem h
  have hlength : forall m : KeyedMap key value, m.keys.length = m.entries.length := by
    intro m
    exact List.length_map _
  rw [hlength, hlength] at hkeys
  rw [hlength] at hpos
  omega

end KeyedMap

/-!
# Unions of maps

Maps that are poured one after another into one map.  When no key is in two of them,
nothing is overwritten: every entry is found again, and none is counted twice.
-/

namespace KeyedMap

variable {key value : Type} [DecidableEq key]

def unions (maps : List (KeyedMap key value)) : KeyedMap key value :=
  maps.foldl (fun all m => m ∪ all) ∅

theorem unions_nil : unions ([] : List (KeyedMap key value)) = ∅ := rfl

theorem unions_append_singleton (maps : List (KeyedMap key value)) (m : KeyedMap key value) :
    unions (maps ++ [m]) = m ∪ unions maps := by
  unfold unions
  rw [List.foldl_append]
  rfl

variable {maps : List (KeyedMap key value)}

theorem mem_unions {k : key} :
    k ∈ unions maps ↔ exists m, m ∈ maps ∧ k ∈ m := by
  induction maps using List.reverseRecOn with
  | nil => simp [unions_nil]
  | append_singleton earlier m ih =>
    rw [unions_append_singleton, AList.mem_union, ih]
    constructor
    · intro h
      rcases h with hk | ⟨other, hother, hk⟩
      · exists m
        exact ⟨(by simp), hk⟩
      · exists other
        exact ⟨List.mem_append_left [m] hother, hk⟩
    · intro h
      rcases h with ⟨other, hother, hk⟩
      rcases List.mem_append.mp hother with hearlier | hlast
      · apply Or.inr
        exists other
      · rw [List.mem_singleton.mp hlast] at hk
        exact Or.inl hk

def Apart (maps : List (KeyedMap key value)) : Prop :=
  maps.Pairwise AList.Disjoint

omit [DecidableEq key] in
theorem apart_nil : Apart ([] : List (KeyedMap key value)) :=
  List.Pairwise.nil

theorem apart_append_singleton {m : KeyedMap key value} :
    Apart (maps ++ [m]) ↔ Apart maps ∧ forall k, k ∈ m -> k ∉ unions maps := by
  unfold Apart
  rw [List.pairwise_append]
  constructor
  · intro h
    rcases h with ⟨hmaps, _, hacross⟩
    constructor
    · exact hmaps
    · intro k hk hunion
      rcases mem_unions.mp hunion with ⟨other, hother, hkother⟩
      exact hacross other hother m (List.mem_singleton_self m) k hkother hk
  · intro h
    rcases h with ⟨hmaps, hfresh⟩
    constructor
    · exact hmaps
    · constructor
      · exact List.pairwise_singleton _ m
      · intro other hother last hlast k hkother hk
        rw [List.mem_singleton.mp hlast] at hk
        apply hfresh k hk
        exact mem_unions.mpr (Exists.intro other ⟨hother, hkother⟩)

theorem lookup_unions (h : Apart maps) (k : key) (v : value) :
    (unions maps).lookup k = some v ↔ exists m, m ∈ maps ∧ m.lookup k = some v := by
  induction maps using List.reverseRecOn with
  | nil => simp [unions_nil]
  | append_singleton earlier m ih =>
    rcases apart_append_singleton.mp h with ⟨hearlier, hfresh⟩
    rw [unions_append_singleton, AList.lookup_union_eq_some, ih hearlier]
    constructor
    · intro hfound
      rcases hfound with hv | ⟨_, other, hother, hv⟩
      · exists m
        exact ⟨(by simp), hv⟩
      · exists other
        exact ⟨List.mem_append_left [m] hother, hv⟩
    · intro hfound
      rcases hfound with ⟨other, hother, hv⟩
      rcases List.mem_append.mp hother with hmem | hlast
      · apply Or.inr
        constructor
        · intro hk
          apply hfresh k hk
          apply mem_unions.mpr
          exists other
          apply And.intro hmem
          exact AList.lookup_isSome.mp (Option.isSome_of_eq_some hv)
        · exists other
      · rw [List.mem_singleton.mp hlast] at hv
        exact Or.inl hv

theorem length_kunion {first second : List (Sigma fun _ : key => value)}
    (h : forall k, k ∈ first.keys -> k ∉ second.keys) :
    (first.kunion second).length = first.length + second.length := by
  induction first with
  | nil => simp
  | cons entry rest ih =>
    have hentry : entry.1 ∉ second.keys := h entry.1 (by simp)
    rw [List.kunion_cons, List.kerase_of_notMem_keys hentry, List.length_cons, List.length_cons,
      ih (fun k hk => h k (by simp [hk]))]
    omega

theorem length_unions (h : Apart maps) :
    (unions maps).entries.length = (maps.map fun m => m.entries.length).sum := by
  induction maps using List.reverseRecOn with
  | nil => rfl
  | append_singleton earlier m ih =>
    rcases apart_append_singleton.mp h with ⟨hearlier, hfresh⟩
    rw [unions_append_singleton, AList.union_entries,
      length_kunion (fun k hk => hfresh k hk), ih hearlier, List.map_append, List.sum_append,
      List.map_singleton, List.sum_singleton]
    omega

omit [DecidableEq key] in
/-- Maps on fewer keys are apart as well. -/
theorem apart_map {item other : Type} {items : List item} {f : item -> KeyedMap key value}
    {g : item -> KeyedMap key other} (hkeys : forall x, x ∈ items -> forall k, k ∈ g x -> k ∈ f x)
    (h : Apart (items.map f)) :
    Apart (items.map g) := by
  unfold Apart at h
  rw [List.pairwise_map] at h
  unfold Apart
  rw [List.pairwise_map]
  apply List.Pairwise.imp_of_mem _ h
  intro a b ha hb hdisjoint k hka hkb
  exact hdisjoint k (hkeys a ha k hka) (hkeys b hb k hkb)

end KeyedMap

end Library
end RunNBurn
