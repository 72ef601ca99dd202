import Mathlib.Data.Prod.Lex
import Mathlib.Tactic.SplitIfs
import RunNBurn.Library.Loop
import RunNBurn.Library.RankedMerge
import RunNBurn.Tokenization.Tokens

/-!
# Merging token ids by rank

The symbols of a text are linked to their neighbours; pairs with a merge rule wait in
a heap, which is never cleaned up.  What is left are the tokens that merging
neighbours by rank leaves.
-/

namespace RunNBurn
namespace Tokenization

open Library

structure BpeMergeSymbol where
  id : TokenId
  prev : Option Nat
  next : Option Nat
  alive : Bool
deriving DecidableEq, Repr

/-- The greatest pair in the heap is the one of the least rank, from the left. -/
def bpeOrder (candidate : Candidate) : OrderDual (Lex (Nat × Nat)) :=
  OrderDual.toDual (toLex (candidate.rank, candidate.left))

structure BpeState where
  symbols : List BpeMergeSymbol
  heap : List Candidate

def initialSymbols (tokens : List TokenId) : List BpeMergeSymbol :=
  tokens.zipIdx.map fun (id, idx) =>
    { id := id
      prev := if idx = 0 then none else some (idx - 1)
      next := if idx + 1 < tokens.length then some (idx + 1) else none
      alive := true }

def bpeCandidateIsCurrent (symbols : List BpeMergeSymbol) (candidate : Candidate) : Bool :=
  match symbols[candidate.left]?, symbols[candidate.right]? with
  | some left, some right =>
    left.alive && right.alive && left.next == some candidate.right &&
      right.prev == some candidate.left
  | _, _ => false

def collectAlive (symbols : List BpeMergeSymbol) :
    (fuel : Nat) -> (cursor : Option Nat) -> (out : List TokenId) -> Checked (List TokenId)
  | _, none, out => .ok out
  | 0, some _, _ => abort "the links never end"
  | fuel + 1, some idx, out => do
      let symbol <- index symbols idx
      collectAlive symbols fuel symbol.next
        (if symbol.alive then out ++ [symbol.id] else out)

/-- Join the symbol at `right` to the one at `left`. -/
def joinSymbols (symbols : List BpeMergeSymbol) (left right : Nat) (mergedId : TokenId)
    (next : Option Nat) : Checked (List BpeMergeSymbol) := do
  let symbols <- modifyAt symbols left fun symbol =>
    { symbol with
      id := mergedId
      next := next }
  let symbols <- modifyAt symbols right fun symbol =>
    { symbol with
      alive := false
      prev := none
      next := none }
  match next with
  | none => return symbols
  | some nextIdx =>
    modifyAt symbols nextIdx fun symbol =>
      { symbol with prev := some left }

variable {score : Type}

namespace Tokenizer

section

variable (tok : Tokenizer score)

def pushBpeBigram (symbols : List BpeMergeSymbol) (left right : Nat)
    (heap : List Candidate) : Checked (List Candidate) := do
  let leftSymbol <- index symbols left
  let rightSymbol <- index symbols right
  if !leftSymbol.alive || !rightSymbol.alive || leftSymbol.next != some right then
    return heap
  else
    match tok.mergeRank leftSymbol.id rightSymbol.id with
    | some rank => return { rank := rank, left := left, right := right } :: heap
    | none => return heap

def joinTokens (left right : TokenId) : Option TokenId :=
  tok.vocab.tokenId ((tok.vocab.tokenStr left).getD [] ++ (tok.vocab.tokenStr right).getD [])

/-- Queue the pair to the left of `left`, if there is one. -/
def pushPrev (symbols : List BpeMergeSymbol) (prev : Option Nat)
    (left : Nat) (heap : List Candidate) : Checked (List Candidate) :=
  match prev with
  | some prevIdx => tok.pushBpeBigram symbols prevIdx left heap
  | none => .ok heap

/-- Queue the pair to the right of `left`, if there is one. -/
def pushNext (symbols : List BpeMergeSymbol) (left : Nat)
    (next : Option Nat) (heap : List Candidate) : Checked (List Candidate) :=
  match next with
  | some nextIdx => tok.pushBpeBigram symbols left nextIdx heap
  | none => .ok heap

/-- What happens to a candidate whose symbols still are neighbours. -/
def mergeCandidate (symbols : List BpeMergeSymbol)
    (heap : List Candidate) (candidate : Candidate) : Checked (Step BpeState) := do
  let left <- index symbols candidate.left
  let right <- index symbols candidate.right
  if tok.mergeRank left.id right.id = some candidate.rank then
    match tok.joinTokens left.id right.id with
    | none => return .done ⟨symbols, heap⟩
    | some mergedId => do
        let prev := left.prev
        let next := right.next
        let symbols <- joinSymbols symbols candidate.left candidate.right mergedId next
        let heap <- tok.pushPrev symbols prev candidate.left heap
        let heap <- tok.pushNext symbols candidate.left next heap
        return .next ⟨symbols, heap⟩
  else
    return .next ⟨symbols, heap⟩

def bpeStep (s : BpeState) : Checked (Step BpeState) :=
  match popMaximum bpeOrder s.heap with
  | none => .ok (.done s)
  | some (candidate, heap) =>
    if bpeCandidateIsCurrent s.symbols candidate then
      tok.mergeCandidate s.symbols heap candidate
    else
      .ok (.next ⟨s.symbols, heap⟩)

def bpeMerge (tokens : List TokenId) : Checked (List TokenId) :=
  if tokens.length < 2 then .ok tokens
  else do
    let symbols := initialSymbols tokens
    let heap <- forRange (fun left heap => tok.pushBpeBigram symbols left (left + 1) heap)
      (tokens.length - 1) []
    let merged <- loop tok.bpeStep (4 * tokens.length) ⟨symbols, heap⟩
    collectAlive merged.symbols (tokens.length + 1) (some 0) []

end

end Tokenizer

/-!
# The row of the symbols
-/

section

variable (symbols : List BpeMergeSymbol) (i : Nat)

def usedAt : Prop :=
  exists symbol, symbols[i]? = some symbol ∧ symbol.alive = true

def prevAt : Option Nat :=
  symbols[i]?.bind BpeMergeSymbol.prev

def nextAt : Option Nat :=
  symbols[i]?.bind BpeMergeSymbol.next

def idAt : TokenId :=
  (symbols[i]?.map BpeMergeSymbol.id).getD 0

end

abbrev BpeRow (symbols : List BpeMergeSymbol) (row : List Nat) : Prop :=
  Row (usedAt symbols) (prevAt symbols) (nextAt symbols) row

variable {symbols : List BpeMergeSymbol}

theorem BpeRow.symbol {row : List Nat} {i : Nat} (h : BpeRow symbols row) (hi : i ∈ row) :
    symbols[i]? = some ⟨idAt symbols i, prevAt symbols i, nextAt symbols i, true⟩ := by
  rcases (h.used_iff i).mpr hi with ⟨symbol, hsymbol, halive⟩
  unfold idAt prevAt nextAt
  rw [hsymbol, ← halive]
  rfl

theorem initialSymbols_getElem? {tokens : List TokenId} {i : Nat} {id : TokenId}
    (h : tokens[i]? = some id) :
    (initialSymbols tokens)[i]? =
      some ⟨id, if i = 0 then none else some (i - 1),
        if i + 1 < tokens.length then some (i + 1) else none, true⟩ := by
  unfold initialSymbols
  rw [List.getElem?_map, List.getElem?_zipIdx, h, Nat.zero_add]
  rfl

theorem initialSymbols_row (tokens : List TokenId) :
    BpeRow (initialSymbols tokens) (List.range tokens.length) := by
  apply row_range
  · intro i
    constructor
    · rintro ⟨symbol, hsymbol, _⟩
      have hlt := (List.getElem?_eq_some_iff.mp hsymbol).1
      simpa [initialSymbols] using hlt
    · intro hlt
      exact ⟨_, initialSymbols_getElem? (List.getElem?_eq_getElem hlt), rfl⟩
  · intro i hlt
    unfold prevAt
    rw [initialSymbols_getElem? (List.getElem?_eq_getElem hlt)]
    rfl
  · intro i hlt
    unfold nextAt
    rw [initialSymbols_getElem? (List.getElem?_eq_getElem hlt)]
    rfl

theorem initialSymbols_ids (tokens : List TokenId) :
    (List.range tokens.length).map (idAt (initialSymbols tokens)) = tokens := by
  apply List.ext_getElem
  · rw [List.length_map, List.length_range]
  · intro i hleft hright
    rw [List.getElem_map, List.getElem_range]
    unfold idAt
    rw [initialSymbols_getElem? (List.getElem?_eq_getElem hright)]
    rfl

theorem collectAlive_eq {fuel : Nat} (before after : List Nat)
    (h : BpeRow symbols (before ++ after)) (hfuel : after.length <= fuel) :
    collectAlive symbols fuel after.head? (before.map (idAt symbols)) =
      .ok ((before ++ after).map (idAt symbols)) := by
  induction fuel generalizing before after with
  | zero =>
    cases after with
    | nil =>
      rw [List.append_nil]
      rfl
    | cons i after => cases hfuel
  | succ fuel ih =>
    cases after with
    | nil =>
      rw [List.append_nil]
      rfl
    | cons i after =>
      have hshift : (before ++ [i]) ++ after = before ++ i :: after := by
        simp
      have hnext := ih (before ++ [i]) after (hshift ▸ h) (Nat.le_of_succ_le_succ hfuel)
      have hsymbol := BpeRow.symbol h (i := i) (by simp)
      unfold collectAlive
      dsimp only [List.head?_cons]
      rw [index_of_getElem?_eq_some hsymbol, ok_bind]
      dsimp only
      rw [if_pos rfl, h.next_eq]
      rw [List.map_append, List.map_singleton, hshift] at hnext
      exact hnext

/-!
# One merge
-/

/-- The symbol at `i` after a join. -/
def joinedSymbol (left right : Nat) (mergedId : TokenId) (next : Option Nat) (i : Nat)
    (symbol : BpeMergeSymbol) : BpeMergeSymbol where
  id := if i = left then mergedId else symbol.id
  prev := if next = some i then some left else if i = right then none else symbol.prev
  next := if i = right then none else if i = left then next else symbol.next
  alive := if i = right then false else symbol.alive

theorem joinSymbols_getElem? {left right : Nat} {next : Option Nat} (mergedId : TokenId)
    (hleft : left < symbols.length) (hright : right < symbols.length)
    (hnext : forall i, next = some i -> i < symbols.length) :
    exists joined, joinSymbols symbols left right mergedId next = .ok joined ∧
      forall i, joined[i]? = symbols[i]?.map (joinedSymbol left right mergedId next i) := by
  unfold joinSymbols
  rw [modifyAt_of_lt hleft, ok_bind, modifyAt_of_lt (by simpa using hright), ok_bind]
  cases next with
  | none =>
    refine ⟨_, rfl, ?_⟩
    intro i
    rw [getElem?_modify_eq_map, getElem?_modify_eq_map, Option.map_map]
    congr 1
    funext symbol
    simp only [Function.comp_apply, joinedSymbol]
    split_ifs <;> simp_all
  | some nextIdx =>
    have hbound : nextIdx < symbols.length := hnext nextIdx rfl
    refine ⟨_, modifyAt_of_lt (by simpa using hbound), ?_⟩
    intro i
    rw [getElem?_modify_eq_map, getElem?_modify_eq_map, getElem?_modify_eq_map, Option.map_map,
      Option.map_map]
    congr 1
    funext symbol
    simp only [Function.comp_apply, joinedSymbol]
    split_ifs <;> simp_all

theorem BpeRow.lt_length {row : List Nat} {i : Nat} (h : BpeRow symbols row) (hi : i ∈ row) :
    i < symbols.length :=
  (List.getElem?_eq_some_iff.mp (BpeRow.symbol h hi)).1

theorem joinSymbols_row {before after : List Nat} {left right : Nat}
    (h : BpeRow symbols (before ++ left :: right :: after)) (mergedId : TokenId) :
    exists joined, joinSymbols symbols left right mergedId (nextAt symbols right) = .ok joined ∧
      BpeRow joined (before ++ left :: after) ∧
      forall i, i ∈ before ++ left :: after ->
        idAt joined i = Function.update (idAt symbols) left mergedId i := by
  have hlt : left < right := neighbours_lt h.ascending (neighbours_split before after left right)
  have hbehind : forall i, nextAt symbols right = some i ->
      i ∈ before ++ left :: right :: after := by
    intro i hi
    exact ((h.next_iff right i (by simp)).mp hi).mem_right
  rcases joinSymbols_getElem? mergedId (h.lt_length (i := left) (by simp))
    (BpeRow.lt_length h (i := right) (by simp))
    (fun i hi => BpeRow.lt_length h (hbehind i hi)) with ⟨joined, hjoined, hget⟩
  have hkept : forall i, i ∈ before ++ left :: after -> joined[i]? =
      some (joinedSymbol left right mergedId (nextAt symbols right) i
        ⟨idAt symbols i, prevAt symbols i, nextAt symbols i, true⟩) := by
    intro i hi
    have hrow : i ∈ before ++ left :: right :: after := by
      simp at hi ⊢
      tauto
    rw [hget, BpeRow.symbol h hrow]
    rfl
  have hne : forall i, i ∈ before ++ left :: after -> i ≠ right :=
    fun i hi heq => not_mem_drop h.ascending (heq ▸ hi)
  refine ⟨joined, hjoined, ?_, ?_⟩
  · apply h.drop
    · intro i
      unfold usedAt
      rw [hget]
      cases symbols[i]? with
      | none => simp
      | some symbol =>
        simp [joinedSymbol]
        tauto
    · intro i hi
      show joined[i]?.bind _ = _
      rw [hkept i hi]
      exact if_neg (hne i hi)
    · intro i hi
      show joined[i]?.bind _ = _
      rw [hkept i hi]
      show (if _ then _ else if i = right then none else _) = _
      rw [if_neg (hne i hi)]
  · intro i hi
    show (joined[i]?.map _).getD 0 = _
    rw [hkept i hi, Function.update_apply]
    rfl

/-!
# The queue
-/

theorem mem_of_bpeOrder_le {first second : Candidate} (h : bpeOrder second <= bpeOrder first) :
    first.Before second := by
  have h : toLex (first.rank, first.left) <= toLex (second.rank, second.left) := h
  exact Prod.Lex.toLex_le_toLex.mp h

theorem bpeCandidateIsCurrent_iff {row : List Nat} (h : BpeRow symbols row)
    (candidate : Candidate) :
    bpeCandidateIsCurrent symbols candidate = true ↔
      Neighbours row candidate.left candidate.right := by
  constructor
  · intro hcurrent
    unfold bpeCandidateIsCurrent at hcurrent
    cases hleft : symbols[candidate.left]? with
    | none => simp [hleft] at hcurrent
    | some left =>
      cases hright : symbols[candidate.right]? with
      | none => simp [hleft, hright] at hcurrent
      | some right =>
        simp [hleft, hright] at hcurrent
        have hmem : candidate.left ∈ row :=
          (h.used_iff _).mp ⟨left, hleft, hcurrent.1.1.1⟩
        apply (h.next_iff candidate.left candidate.right hmem).mp
        show symbols[candidate.left]?.bind _ = _
        rw [hleft]
        exact hcurrent.1.2
  · intro hpair
    unfold bpeCandidateIsCurrent
    rw [h.symbol hpair.mem_left, h.symbol hpair.mem_right]
    dsimp only
    rw [(h.next_iff _ _ hpair.mem_left).mpr hpair, (h.prev_iff _ _ hpair.mem_right).mpr hpair]
    simp

variable {score : Type}

namespace Tokenizer

variable {symbols : List BpeMergeSymbol} (tok : Tokenizer score)

theorem pushBpeBigram_eq {row : List Nat} {left right : Nat} (heap : List Candidate)
    (h : BpeRow symbols row) (hpair : Neighbours row left right) :
    exists pushed, tok.pushBpeBigram symbols left right heap = .ok pushed ∧
      pushed.length <= heap.length + 1 ∧
      (forall candidate, candidate ∈ heap -> candidate ∈ pushed) ∧
      forall least, tok.mergeRank (idAt symbols left) (idAt symbols right) = some least ->
        { rank := least, left := left, right := right } ∈ pushed := by
  unfold pushBpeBigram
  rw [index_of_getElem?_eq_some (h.symbol hpair.mem_left), ok_bind,
    index_of_getElem?_eq_some (h.symbol hpair.mem_right), ok_bind]
  dsimp only
  rw [(h.next_iff _ _ hpair.mem_left).mpr hpair, if_neg (by simp)]
  cases hrank : tok.mergeRank (idAt symbols left) (idAt symbols right) with
  | none =>
    refine ⟨heap, rfl, Nat.le_succ _, fun _ hmem => hmem, ?_⟩
    intro least hleast
    cases hleast
  | some rank =>
    refine ⟨_, rfl, Nat.le_refl _, fun _ hmem => List.mem_cons_of_mem _ hmem, ?_⟩
    intro least hleast
    cases hleast
    exact List.mem_cons_self

theorem pushPrev_eq {before after : List Nat} {left : Nat} (heap : List Candidate)
    (h : BpeRow symbols (before ++ left :: after)) :
    exists pushed, tok.pushPrev symbols before.getLast? left heap = .ok pushed ∧
      pushed.length <= heap.length + 1 ∧
      (forall candidate, candidate ∈ heap -> candidate ∈ pushed) ∧
      forall i least, before.getLast? = some i ->
        tok.mergeRank (idAt symbols i) (idAt symbols left) = some least ->
        { rank := least, left := i, right := left } ∈ pushed := by
  cases hlast : before.getLast? with
  | none =>
    refine ⟨heap, rfl, Nat.le_succ _, fun _ hmem => hmem, ?_⟩
    intro i least hi
    cases hi
  | some last =>
    have hpair : Neighbours (before ++ left :: after) last left :=
      (neighbours_predecessor_iff h.ascending).mpr hlast
    rcases tok.pushBpeBigram_eq heap h hpair with ⟨pushed, hpushed, hlength, hkept, hnew⟩
    refine ⟨pushed, hpushed, hlength, hkept, ?_⟩
    intro i least hi
    cases hi
    exact hnew least

theorem pushNext_eq {before after : List Nat} {left : Nat} (heap : List Candidate)
    (h : BpeRow symbols (before ++ left :: after)) :
    exists pushed, tok.pushNext symbols left after.head? heap = .ok pushed ∧
      pushed.length <= heap.length + 1 ∧
      (forall candidate, candidate ∈ heap -> candidate ∈ pushed) ∧
      forall j least, after.head? = some j ->
        tok.mergeRank (idAt symbols left) (idAt symbols j) = some least ->
        { rank := least, left := left, right := j } ∈ pushed := by
  cases hhead : after.head? with
  | none =>
    refine ⟨heap, rfl, Nat.le_succ _, fun _ hmem => hmem, ?_⟩
    intro j least hj
    cases hj
  | some head =>
    have hpair : Neighbours (before ++ left :: after) left head :=
      (neighbours_successor_iff h.ascending).mpr hhead
    rcases tok.pushBpeBigram_eq heap h hpair with ⟨pushed, hpushed, hlength, hkept, hnew⟩
    refine ⟨pushed, hpushed, hlength, hkept, ?_⟩
    intro j least hj
    cases hj
    exact hnew least

/-!
# The loop
-/

/-- What holds between two merges of the tokens, with so many rounds left at most. -/
structure Merging (tok : Tokenizer score) (tokens : List TokenId) (rounds : Nat) (s : BpeState)
    (row : List Nat) : Prop where
  linked : BpeRow s.symbols row
  head : row.head? = some 0
  covers : Covers tok.mergeRank (idAt s.symbols) row (fun candidate => candidate ∈ s.heap)
  leads : forall ys, Merges tok.mergeRank tok.joinTokens (row.map (idAt s.symbols)) ys ->
    Merges tok.mergeRank tok.joinTokens tokens ys
  length : row.length <= tokens.length
  bound : 3 * row.length + s.heap.length <= rounds

def Merged (tok : Tokenizer score) (tokens : List TokenId) (s : BpeState) : Prop :=
  exists row, BpeRow s.symbols row ∧ row.head? = some 0 ∧ row.length <= tokens.length ∧
    Merges tok.mergeRank tok.joinTokens tokens (row.map (idAt s.symbols))

variable {allowed : Fault -> Prop}

theorem mergeCandidate_triple {tokens : List TokenId} {rounds : Nat} {s : BpeState}
    {row : List Nat} {heap : List Candidate} {candidate : Candidate}
    (h : tok.Merging tokens rounds s row) (hpopped : Popped bpeOrder s.heap candidate heap)
    (hpair : Neighbours row candidate.left candidate.right) :
    Triple allowed (tok.mergeCandidate s.symbols heap candidate)
      (Step.Satisfies (fun following => exists fewer, fewer < rounds ∧
          exists row, tok.Merging tokens fewer following row)
        (tok.Merged tokens)) := by
  have hbound := h.bound
  have hheap := hpopped.length
  unfold mergeCandidate
  rw [index_of_getElem?_eq_some (h.linked.symbol hpair.mem_left), ok_bind,
    index_of_getElem?_eq_some (h.linked.symbol hpair.mem_right), ok_bind]
  dsimp only
  split
  · rename_i hrank
    rcases hpair with ⟨before, after, rfl⟩
    have hbest : BestPair tok.mergeRank (before.map (idAt s.symbols))
        (idAt s.symbols candidate.left) (idAt s.symbols candidate.right)
        (after.map (idAt s.symbols)) candidate.rank :=
      bestPair_of_current h.linked.ascending h.covers
        (fun other hother => mem_of_bpeOrder_le (hpopped.le other hother)) hrank
    have hleads := h.leads
    rw [List.map_append, List.map_cons, List.map_cons] at hleads
    cases hjoin : tok.joinTokens (idAt s.symbols candidate.left)
        (idAt s.symbols candidate.right) with
    | none =>
      apply triple_pure
      refine ⟨_, h.linked, h.head, h.length, ?_⟩
      rw [List.map_append, List.map_cons, List.map_cons]
      exact hleads _ (Merges.stuck hbest hjoin)
    | some mergedId =>
      rcases joinSymbols_row h.linked mergedId with ⟨joined, hjoined, hrow, hids⟩
      rcases tok.pushPrev_eq heap hrow with ⟨withPrev, hprev, hprevLength, hprevKept, hprevNew⟩
      rcases tok.pushNext_eq withPrev hrow with
        ⟨withNext, hnext, hnextLength, hnextKept, hnextNew⟩
      dsimp only
      rw [hjoined, ok_bind, h.linked.prev_eq, hprev, ok_bind, h.linked.next_right_eq, hnext]
      apply triple_pure
      have hlength := h.length
      rw [List.length_append, List.length_cons, List.length_cons] at hlength hbound
      refine ⟨_, ?_, before ++ candidate.left :: after, hrow, ?_, ?_, ?_, ?_, Nat.le_refl _⟩
      · rw [List.length_append, List.length_cons]
        dsimp only
        omega
      · have hhead := h.head
        cases before with
        | nil => exact hhead
        | cons first before => exact hhead
      · refine Covers.congr ?_ hids
        refine h.covers.merge h.linked.ascending ?_ ?_ ?_
        · intro other hother hne _ _ _
          have hrest := hpopped.mem_rest hother (fun heq => hne (congrArg Candidate.left heq))
          exact hnextKept _ (hprevKept _ hrest)
        · intro i least hi hrank
          apply hnextKept
          apply hprevNew i least hi
          have hbefore := List.mem_of_getLast? hi
          rw [hids i (List.mem_append_left _ hbefore), hids candidate.left (by simp),
            Function.update_self, Function.update_of_ne]
          · exact hrank
          · exact Nat.ne_of_lt (before_lt_of_ascending hrow.ascending hbefore)
        · intro j least hj hrank
          apply hnextNew j least hj
          have hafter := List.mem_of_head? hj
          rw [hids j (List.mem_append_right _ (List.mem_cons_of_mem _ hafter)),
            hids candidate.left (by simp), Function.update_self, Function.update_of_ne]
          · exact hrank
          · exact Nat.ne_of_gt (after_gt_of_ascending hrow.ascending hafter)
      · intro ys hys
        apply hleads
        apply Merges.merge hbest hjoin
        rw [List.map_congr_left hids, map_update_row hrow.ascending] at hys
        exact hys
      · rw [List.length_append, List.length_cons]
        omega
  · rename_i hrank
    apply triple_pure
    refine ⟨3 * row.length + heap.length, by omega, row, h.linked, h.head, ?_, h.leads, h.length,
      Nat.le_refl _⟩
    exact h.covers.pass (fun hcurrent => hrank hcurrent.2)
      (fun other hother hne => hpopped.mem_rest hother hne)

theorem bpeStep_triple {tokens : List TokenId} (rounds : Nat) (s : BpeState)
    (h : exists row, tok.Merging tokens rounds s row) :
    Triple allowed (tok.bpeStep s)
      (Step.Satisfies (fun following => exists fewer, fewer < rounds ∧
          exists row, tok.Merging tokens fewer following row)
        (tok.Merged tokens)) := by
  rcases h with ⟨row, h⟩
  unfold bpeStep
  cases hpop : popMaximum bpeOrder s.heap with
  | none =>
    apply triple_ok
    refine ⟨row, h.linked, h.head, h.length, h.leads _ ?_⟩
    apply rest_of_covers h.covers
    intro candidate hcandidate
    rw [popMaximum_eq_none hpop] at hcandidate
    cases hcandidate
  | some popped =>
    rcases popped with ⟨candidate, heap⟩
    have hpopped := popped_of_popMaximum hpop
    have hbound := h.bound
    have hheap := hpopped.length
    dsimp only
    split
    · rename_i hcurrent
      exact tok.mergeCandidate_triple h hpopped
        ((bpeCandidateIsCurrent_iff h.linked candidate).mp hcurrent)
    · rename_i hstale
      apply triple_ok
      refine ⟨3 * row.length + heap.length, by omega, row, h.linked, h.head, ?_, h.leads,
        h.length, Nat.le_refl _⟩
      have hpassed : ¬ candidate.Current tok.mergeRank (idAt s.symbols) row :=
        fun hpair => hstale ((bpeCandidateIsCurrent_iff h.linked candidate).mpr hpair.1)
      exact h.covers.pass hpassed (fun other hother hne => hpopped.mem_rest hother hne)

def QueuedUpTo (tok : Tokenizer score) (tokens : List TokenId) (count : Nat)
    (heap : List Candidate) : Prop :=
  heap.length <= count ∧ forall i least, i < count ->
    tok.mergeRank (idAt (initialSymbols tokens) i) (idAt (initialSymbols tokens) (i + 1)) =
      some least ->
    { rank := least, left := i, right := i + 1 } ∈ heap

theorem initialHeap_triple (tokens : List TokenId) :
    Triple allowed
      (forRange (fun left heap => tok.pushBpeBigram (initialSymbols tokens) left (left + 1) heap)
        (tokens.length - 1) [])
      (fun heap => heap.length <= tokens.length - 1 ∧
        Covers tok.mergeRank (idAt (initialSymbols tokens)) (List.range tokens.length)
          (fun candidate => candidate ∈ heap)) := by
  have h : Delivers
      (forRange (fun left heap => tok.pushBpeBigram (initialSymbols tokens) left (left + 1) heap)
        (tokens.length - 1) [])
      (tok.QueuedUpTo tokens (tokens.length - 1)) := by
    apply forRange_delivers (tok.QueuedUpTo tokens)
    · exact ⟨Nat.le_refl 0, fun i least hi => absurd hi (Nat.not_lt_zero i)⟩
    · intro count hcount heap hheap
      have hpair : Neighbours (List.range tokens.length) count (count + 1) :=
        neighbours_range_iff.mpr ⟨rfl, by omega⟩
      rcases tok.pushBpeBigram_eq heap (initialSymbols_row tokens) hpair with
        ⟨pushed, hpushed, hlength, hkept, hnew⟩
      refine ⟨pushed, hpushed, ?_, ?_⟩
      · exact Nat.le_trans hlength (Nat.succ_le_succ hheap.1)
      · intro i least hi hrank
        rcases Nat.lt_succ_iff_lt_or_eq.mp hi with hlt | heq
        · exact hkept _ (hheap.2 i least hlt hrank)
        · subst heq
          exact hnew least hrank
  rcases h with ⟨heap, hheap, hlength, hpairs⟩
  rw [hheap]
  refine triple_ok ⟨hlength, ?_⟩
  intro i j least hpair hrank
  rcases neighbours_range_iff.mp hpair with ⟨rfl, hlt⟩
  exact hpairs i least (by omega) hrank

theorem bpeMerge_delivers (tokens : List TokenId) :
    Delivers (tok.bpeMerge tokens) (Merges tok.mergeRank tok.joinTokens tokens) := by
  apply Triple.delivers
  unfold bpeMerge
  split
  · rename_i hshort
    apply triple_ok
    apply Merges.rest
    rintro x y ⟨before, after, rfl⟩
    rw [List.length_append, List.length_cons, List.length_cons] at hshort
    omega
  · rename_i hlong
    refine (tok.initialHeap_triple tokens).bind ?_
    rintro heap ⟨hlength, hcovers⟩
    refine (loop_triple_bounded (3 * tokens.length + heap.length)
      (fun rounds s => exists row, tok.Merging tokens rounds s row) (tok.Merged tokens)
      tok.bpeStep_triple ?_ (by omega)).bind ?_
    · refine ⟨List.range tokens.length, initialSymbols_row tokens, ?_, hcovers, ?_, ?_, ?_⟩
      · rw [List.head?_range, if_neg (by omega)]
      · intro ys hys
        rw [initialSymbols_ids] at hys
        exact hys
      · rw [List.length_range]
      · rw [List.length_range]
    · rintro merged ⟨row, hrow, hhead, hrowLength, hmerges⟩
      have hcollect := collectAlive_eq [] row hrow (Nat.le_succ_of_le hrowLength)
      rw [hhead, List.map_nil, List.nil_append] at hcollect
      rw [hcollect]
      exact triple_ok hmerges

end Tokenizer

end Tokenization
end RunNBurn
