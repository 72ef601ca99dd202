import Mathlib.Data.List.Basic
import Mathlib.Data.List.Nodup

/-!
# Cursors into a list

A list is paged with cursors: the key of an item stands for the position of the first
item that has it.  Every item can be used as a cursor exactly when every item has a
key and no two items share one.
-/

namespace RunNBurn
namespace Library

variable {item key : Type} [DecidableEq key] (keyOf : item -> Option key)

def findCursor (cursor : key) (items : List item) : Option Nat :=
  items.findIdx? (fun candidate => keyOf candidate == some cursor)

def Cursors (items : List item) : Prop :=
  forall (position : Nat) (candidate : item), items[position]? = some candidate ->
    exists cursor, keyOf candidate = some cursor ∧ findCursor keyOf cursor items = some position

variable {keyOf}

theorem findCursor_eq_some_iff {cursor : key} {items : List item} {position : Nat} :
    findCursor keyOf cursor items = some position ↔
      (exists candidate, items[position]? = some candidate ∧ keyOf candidate = some cursor) ∧
        forall (earlier : Nat) (candidate : item), earlier < position ->
          items[earlier]? = some candidate -> keyOf candidate ≠ some cursor := by
  unfold findCursor
  rw [List.findIdx?_eq_some_iff_getElem]
  constructor
  · intro h
    rcases h with ⟨hposition, hfound, hbefore⟩
    constructor
    · exact ⟨_, List.getElem?_eq_getElem hposition, by simpa using hfound⟩
    · intro earlier candidate hlt hcandidate hsame
      rcases List.getElem?_eq_some_iff.mp hcandidate with ⟨hearlier, rfl⟩
      exact hbefore earlier hlt (by simpa using hsame)
  · intro h
    rcases h with ⟨⟨candidate, hcandidate, hkey⟩, hbefore⟩
    rcases List.getElem?_eq_some_iff.mp hcandidate with ⟨hposition, rfl⟩
    refine ⟨hposition, by simpa using hkey, ?_⟩
    intro earlier hlt hsame
    exact hbefore earlier _ hlt (List.getElem?_eq_getElem (Nat.lt_trans hlt hposition))
      (by simpa using hsame)

theorem cursors_iff (items : List item) :
    Cursors keyOf items ↔
      (forall candidate, candidate ∈ items -> keyOf candidate ≠ none) ∧
        (items.map keyOf).Nodup := by
  constructor
  · intro h
    constructor
    · intro candidate hmem hnone
      rcases List.mem_iff_getElem?.mp hmem with ⟨position, hposition⟩
      rcases h position candidate hposition with ⟨cursor, hcursor, _⟩
      rw [hnone] at hcursor
      cases hcursor
    · rw [List.nodup_iff_pairwise_ne, List.pairwise_iff_getElem]
      intro i j hi hj hlt hsame
      rw [List.getElem_map, List.getElem_map] at hsame
      rw [List.length_map] at hi hj
      rcases h j items[j] (List.getElem?_eq_getElem hj) with ⟨cursor, hcursor, hfound⟩
      have hbefore := (findCursor_eq_some_iff.mp hfound).2
      exact hbefore i items[i] hlt (List.getElem?_eq_getElem hi) (hsame.trans hcursor)
  · intro h position candidate hcandidate
    have hsome := h.1 candidate (List.mem_of_getElem? hcandidate)
    rcases Option.ne_none_iff_exists'.mp hsome with ⟨cursor, hcursor⟩
    refine ⟨cursor, hcursor, findCursor_eq_some_iff.mpr ⟨⟨candidate, hcandidate, hcursor⟩, ?_⟩⟩
    intro earlier other hlt hother hsame
    rcases List.getElem?_eq_some_iff.mp hcandidate with ⟨hposition, hat⟩
    rcases List.getElem?_eq_some_iff.mp hother with ⟨hearlier, hbefore⟩
    have hpairs := List.pairwise_iff_getElem.mp (List.nodup_iff_pairwise_ne.mp h.2)
    have hne := hpairs earlier position (by rw [List.length_map]; exact hearlier)
      (by rw [List.length_map]; exact hposition) hlt
    rw [List.getElem_map, List.getElem_map, hat, hbefore, hsame, hcursor] at hne
    exact hne rfl

theorem cursors_reverse (items : List item) :
    Cursors keyOf items.reverse ↔ Cursors keyOf items := by
  rw [cursors_iff, cursors_iff, List.map_reverse, List.nodup_reverse]
  constructor
  · intro h
    exact ⟨fun candidate hmem => h.1 candidate (List.mem_reverse.mpr hmem), h.2⟩
  · intro h
    exact ⟨fun candidate hmem => h.1 candidate (List.mem_reverse.mp hmem), h.2⟩

end Library
end RunNBurn
