import Mathlib.Data.List.Sort
import RunNBurn.Gdn.Kernels

/-!
# The collector of prefix states

A verified window may be cut back to any requested prefix.  For each of these the
collector gathers, layer by layer, what the recurrent state is restored from.
-/

namespace RunNBurn
namespace Gdn

open Library

variable {F : Type}

structure VerifyWindowSsmDeltaInput (F : Type) where
  q : List F
  k : List F
  v : List F
  gate : List F
  beta : List F
  numHeads : Nat
  headKDim : Nat
  headVDim : Nat

structure VerifyWindowSsmLayerPrefixState (F : Type) where
  layerIdx : Nat
  convState : List F
  deltaInput : Option (VerifyWindowSsmDeltaInput F)
  deltaState : Option (List F)

structure VerifyWindowPrefixState (F : Type) where
  prefixTokens : Nat
  layers : List (VerifyWindowSsmLayerPrefixState F)

/-- A requested prefix with its layers; the source keeps three vectors of one length. -/
structure PrefixSlot (F : Type) where
  prefixTokens : Nat
  layers : List (VerifyWindowSsmLayerPrefixState F)
  incompleteLayer : Option Nat

structure GdnPrefixStateCollector (F : Type) where
  slots : List (PrefixSlot F)

/-- `Vec::dedup` -/
def dedup : List Nat -> List Nat
  | [] => []
  | [x] => [x]
  | x :: y :: rest => if x = y then dedup (y :: rest) else x :: dedup (y :: rest)

namespace PrefixSlot

def record (slot : PrefixSlot F) (layer : VerifyWindowSsmLayerPrefixState F) : PrefixSlot F :=
  { slot with layers := slot.layers ++ [layer] }

def markIncomplete (slot : PrefixSlot F) (layerIdx : Nat) : PrefixSlot F :=
  { slot with incompleteLayer := some (slot.incompleteLayer.getD layerIdx) }

end PrefixSlot

namespace GdnPrefixStateCollector

def newMany (prefixTokens : List Nat) : GdnPrefixStateCollector F where
  slots := (dedup (prefixTokens.insertionSort (fun x y => x <= y))).map fun requested =>
    { prefixTokens := requested
      layers := []
      incompleteLayer := none }

def Snapshots (seqLen prefixTokens : Nat) : Prop :=
  0 < prefixTokens ∧ prefixTokens < seqLen

instance (seqLen prefixTokens : Nat) : Decidable (Snapshots seqLen prefixTokens) :=
  inferInstanceAs (Decidable (0 < prefixTokens ∧ prefixTokens < seqLen))

def snapshotPrefixTokens (collector : GdnPrefixStateCollector F) (seqLen : Nat) : List Nat :=
  (collector.slots.map PrefixSlot.prefixTokens).filter fun requested => Snapshots seqLen requested

def wantsSnapshotFor (collector : GdnPrefixStateCollector F) (seqLen : Nat) : Bool :=
  collector.slots.any fun slot => Snapshots seqLen slot.prefixTokens

def markIncomplete (collector : GdnPrefixStateCollector F) (layerIdx : Nat) :
    GdnPrefixStateCollector F where
  slots := collector.slots.map fun slot => slot.markIncomplete layerIdx

/-- `index_for_prefix`, and the change of the slot found there. -/
def changePrefix (collector : GdnPrefixStateCollector F) (prefixTokens : Nat)
    (change : PrefixSlot F -> PrefixSlot F) : GdnPrefixStateCollector F :=
  match collector.slots.findIdx? (fun slot => slot.prefixTokens == prefixTokens) with
  | some idx => { slots := collector.slots.modify idx change }
  | none => collector

section

variable (collector : GdnPrefixStateCollector F) (prefixTokens layerIdx : Nat)

def markIncompleteForPrefix :
    GdnPrefixStateCollector F :=
  collector.changePrefix prefixTokens fun slot => slot.markIncomplete layerIdx

def recordLayerForPrefix
    (convState : List F) (deltaInput : VerifyWindowSsmDeltaInput F) : GdnPrefixStateCollector F :=
  collector.changePrefix prefixTokens fun slot =>
    slot.record {
      layerIdx := layerIdx
      convState := convState
      deltaInput := some deltaInput
      deltaState := none }

def recordLayerWithDeltaStateForPrefix
    (convState deltaState : List F) : GdnPrefixStateCollector F :=
  collector.changePrefix prefixTokens fun slot =>
    slot.record {
      layerIdx := layerIdx
      convState := convState
      deltaInput := none
      deltaState := some deltaState }

end

def finishSlot (slot : PrefixSlot F) : Checked (VerifyWindowPrefixState F) :=
  match slot.incompleteLayer with
  | some layerIdx => report s!"GDN prefix state snapshot was unavailable for layer {layerIdx}"
  | none =>
    if slot.layers.isEmpty then
      report "GDN prefix state snapshot captured no layers"
    else
      .ok {
        prefixTokens := slot.prefixTokens
        layers := slot.layers }

def finishManyRequired (collector : GdnPrefixStateCollector F) :
    Checked (List (VerifyWindowPrefixState F)) :=
  collector.slots.mapM finishSlot

end GdnPrefixStateCollector

inductive PrefixDeltaRestoreKind where
  | oneStepDeltaInput
  | residentSnapshot
  | unsupported
deriving DecidableEq, Repr

def prefixDeltaRestoreKind (prefixTokens : Nat) (residentSnapshotAvailable : Bool) :
    PrefixDeltaRestoreKind :=
  if residentSnapshotAvailable then
    .residentSnapshot
  else if prefixTokens = 1 then
    .oneStepDeltaInput
  else
    .unsupported

/-- The delta state that a layer is restored to: the recorded one, or one step from the
state before the window. -/
def VerifyWindowSsmLayerPrefixState.restoredDelta [Field F] (e : Elementary F)
    (layer : VerifyWindowSsmLayerPrefixState F) (before : List F) : Checked (List F) :=
  match layer.deltaState, layer.deltaInput with
  | some deltaState, _ => .ok deltaState
  | none, some input =>
    deltaNetStepStateOnly e input.k input.v input.gate input.beta before input.numHeads
      input.headKDim input.headVDim
  | none, none => report s!"verify prefix layer {layer.layerIdx} has no delta restore payload"

/-!
# What the collector keeps
-/

theorem mem_dedup {x : Nat} {xs : List Nat} : x ∈ dedup xs ↔ x ∈ xs := by
  induction xs using dedup.induct with
  | case1 => exact Iff.rfl
  | case2 y => exact Iff.rfl
  | case3 y rest ih =>
    rw [dedup, if_pos rfl, ih]
    simp
  | case4 y z rest hne ih => rw [dedup, if_neg hne, List.mem_cons, ih, List.mem_cons (b := y)]

theorem pairwise_dedup {xs : List Nat} (h : xs.Pairwise (fun x y => x <= y)) :
    (dedup xs).Pairwise (fun x y => x < y) := by
  induction xs using dedup.induct with
  | case1 => exact List.Pairwise.nil
  | case2 y => exact List.pairwise_singleton _ _
  | case3 y rest ih =>
    rw [dedup, if_pos rfl]
    exact ih (List.pairwise_cons.mp h).2
  | case4 y z rest hne ih =>
    rcases List.pairwise_cons.mp h with ⟨hfirst, hrest⟩
    rw [dedup, if_neg hne]
    apply List.pairwise_cons.mpr
    constructor
    · intro w hw
      have hyz : y < z := Nat.lt_of_le_of_ne (hfirst z List.mem_cons_self) hne
      rcases List.mem_cons.mp (mem_dedup.mp hw) with hz | hlater
      · rw [hz]
        exact hyz
      · exact Nat.lt_of_lt_of_le hyz ((List.pairwise_cons.mp hrest).1 w hlater)
    · exact ih hrest

theorem modify_findIdx?_eq_map {item : Type} (key : item -> Nat) (found : Nat)
    (change : item -> item) {items : List item} (h : (items.map key).Nodup) :
    (match items.findIdx? (fun x => key x == found) with
      | some idx => items.modify idx change
      | none => items) =
      items.map (fun x => if key x = found then change x else x) := by
  induction items with
  | nil => rfl
  | cons first rest ih =>
    rcases List.nodup_cons.mp h with ⟨hfirst, hrest⟩
    rw [List.findIdx?_cons, List.map_cons]
    by_cases hfound : key first = found
    · have hsame : rest.map (fun x => if key x = found then change x else x) = rest := by
        rw [List.map_congr_left (g := id)]
        · exact List.map_id rest
        · intro x hx
          apply if_neg
          intro hkey
          exact hfirst (List.mem_map.mpr ⟨x, hx, hkey.trans hfound.symm⟩)
      rw [hsame, if_pos hfound, if_pos (beq_iff_eq.mpr hfound)]
      rfl
    · rw [if_neg hfound, if_neg (fun heq => hfound (beq_iff_eq.mp heq)), ← ih hrest]
      cases rest.findIdx? (fun x => key x == found) with
      | none => rfl
      | some idx => rfl

namespace GdnPrefixStateCollector

def Ordered (collector : GdnPrefixStateCollector F) : Prop :=
  (collector.slots.map PrefixSlot.prefixTokens).Pairwise (fun x y => x < y)

variable {collector : GdnPrefixStateCollector F}

theorem changePrefix_eq_map (h : collector.Ordered) (prefixTokens : Nat)
    (change : PrefixSlot F -> PrefixSlot F) :
    (collector.changePrefix prefixTokens change).slots =
      collector.slots.map
        (fun slot => if slot.prefixTokens = prefixTokens then change slot else slot) := by
  have hmodify := modify_findIdx?_eq_map PrefixSlot.prefixTokens prefixTokens change
    (h.imp Nat.ne_of_lt)
  unfold changePrefix
  rw [← hmodify]
  cases collector.slots.findIdx? (fun slot => slot.prefixTokens == prefixTokens) with
  | none => rfl
  | some idx => rfl

theorem ordered_of_slots {collector following : GdnPrefixStateCollector F} (h : collector.Ordered)
    (hsame : following.slots.map PrefixSlot.prefixTokens =
      collector.slots.map PrefixSlot.prefixTokens) :
    following.Ordered := by
  unfold Ordered at h ⊢
  rw [hsame]
  exact h

theorem ordered_changePrefix (h : collector.Ordered) {prefixTokens : Nat}
    {change : PrefixSlot F -> PrefixSlot F}
    (hchange : forall slot, (change slot).prefixTokens = slot.prefixTokens) :
    (collector.changePrefix prefixTokens change).Ordered := by
  apply ordered_of_slots h
  rw [changePrefix_eq_map h, List.map_map]
  apply List.map_congr_left
  intro slot _
  rw [Function.comp_apply]
  split
  · exact hchange slot
  · rfl

theorem foldl_changePrefix (h : collector.Ordered) {prefixes : List Nat}
    (hprefixes : prefixes.Nodup) {change : Nat -> PrefixSlot F -> PrefixSlot F}
    (hchange : forall requested slot, (change requested slot).prefixTokens = slot.prefixTokens) :
    (prefixes.foldl (fun collector requested => collector.changePrefix requested (change requested))
        collector).slots =
      collector.slots.map (fun slot =>
        if slot.prefixTokens ∈ prefixes then change slot.prefixTokens slot else slot) := by
  induction prefixes generalizing collector with
  | nil => simp
  | cons first rest ih =>
    rcases List.nodup_cons.mp hprefixes with ⟨hfirst, hrest⟩
    rw [List.foldl_cons, ih (ordered_changePrefix h (hchange first)) hrest,
      changePrefix_eq_map h, List.map_map]
    apply List.map_congr_left
    intro slot _
    rw [Function.comp_apply]
    by_cases hslot : slot.prefixTokens = first
    · rw [if_pos hslot, hchange, hslot, if_neg hfirst, if_pos List.mem_cons_self]
    · rw [if_neg hslot]
      simp only [List.mem_cons, hslot, false_or]

theorem nodup_snapshotPrefixTokens (h : collector.Ordered) (seqLen : Nat) :
    (collector.snapshotPrefixTokens seqLen).Nodup :=
  (h.imp Nat.ne_of_lt).filter _

theorem mem_snapshotPrefixTokens {slot : PrefixSlot F} (hslot : slot ∈ collector.slots)
    (seqLen : Nat) :
    slot.prefixTokens ∈ collector.snapshotPrefixTokens seqLen ↔
      Snapshots seqLen slot.prefixTokens := by
  unfold snapshotPrefixTokens
  rw [List.mem_filter, decide_eq_true_eq]
  constructor
  · intro h
    exact h.2
  · intro h
    exact ⟨List.mem_map.mpr ⟨slot, hslot, rfl⟩, h⟩

theorem wantsSnapshotFor_iff {seqLen : Nat} :
    collector.wantsSnapshotFor seqLen = true ↔
      exists slot, slot ∈ collector.slots ∧ Snapshots seqLen slot.prefixTokens := by
  unfold wantsSnapshotFor
  rw [List.any_eq_true]
  simp only [decide_eq_true_eq]

theorem ordered_newMany (requested : List Nat) :
    (newMany requested : GdnPrefixStateCollector F).Ordered := by
  unfold Ordered newMany
  rw [List.map_map]
  simp only [Function.comp_def, List.map_id']
  exact pairwise_dedup (List.pairwise_insertionSort _ requested)

end GdnPrefixStateCollector

end Gdn
end RunNBurn
