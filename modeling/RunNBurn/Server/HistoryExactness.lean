import RunNBurn.Server.HistoryEntries

/-!
# The history of a session as a chat

When the messages that a stored history is read as carry every turn, each part of it once
and in order.
-/

namespace RunNBurn
namespace Server

open Library
open Assistant

variable {image : Type}

/-!
# What the messages carry
-/

section Carrying

variable {host : InputHost image} {calls : List Value} {reasoning : Option String}

def gathered (calls : List Value) (reasoning : Option String)
    (entries : List (Entry image)) : List Carried :=
  (assemble calls reasoning entries).flatMap carriedBy

def carriedPending (calls : List Value) (reasoning : Option String) : List Carried :=
  (flushed calls reasoning).flatMap carriedBy

theorem carriedReasoning_some {text : String} (h : text ≠ "") :
    carriedReasoning (some text) = [.reasoning text] :=
  if_neg h

theorem carriedPending_nil (reasoning : Option String) :
    carriedPending [] reasoning = [] := rfl

theorem carriedPending_of_ne (hcalls : calls ≠ []) (reasoning : Option String) :
    carriedPending calls reasoning = carriedReasoning reasoning ++ calls.map carriedCall := by
  unfold carriedPending flushed
  rw [if_neg hcalls, List.flatMap_singleton]
  show carriedReasoning reasoning ++ [] ++ calls.map carriedCall = _
  rw [List.append_nil]

theorem carriedPending_append (hidle : Idle calls reasoning) {more : List Value}
    (hmore : more ≠ []) :
    carriedPending (calls ++ more) reasoning =
      carriedPending calls reasoning ++ more.map carriedCall := by
  by_cases hcalls : calls = []
  · rw [hcalls, List.nil_append, hidle hcalls, carriedPending_of_ne hmore, carriedPending_nil]
    rfl
  · have hboth : calls ++ more ≠ [] := by
      simp [hcalls]
    rw [carriedPending_of_ne hboth, carriedPending_of_ne hcalls, List.map_append, List.append_assoc]

theorem carriedPending_none (calls : List Value) :
    carriedPending calls none = calls.map carriedCall := by
  by_cases hcalls : calls = []
  · rw [hcalls]
    rfl
  · rw [carriedPending_of_ne hcalls]
    rfl

theorem carriedBy_assistant (text : Text) (reasoning : Option String) :
    carriedBy (assistantMessage text reasoning) =
      carriedReasoning reasoning ++ carriedText (String.ofList text) := by
  have hjoin : String.join [String.ofList text] = String.ofList text := by
    simp [String.join]
  show carriedReasoning reasoning ++ carriedText (String.join [String.ofList text]) ++ [] = _
  rw [hjoin, List.append_nil]

theorem ClientEntry.carriedBy_message (entry : ClientEntry host) :
    carriedBy entry.message = [.client entry.message] := by
  have hrole : entry.message.role ≠ "assistant" := by
    rcases entry with ⟨item, message, decoded, accepted⟩
    dsimp only
    cases accepted with
    | user hobject hkind hrole hread =>
      rw [role_of_normalizeMessage hrole hread]
      decide
    | output hobject hkind hread =>
      rw [role_of_normalizeFunctionOutput hread]
      decide
  exact if_neg hrole

theorem gathered_message (read : ChatMessage) (decoded : Option image)
    (entries : List (Entry image)) :
    gathered calls reasoning (.message read decoded :: entries) =
      carriedPending calls reasoning ++ carriedBy read ++ gathered [] none entries := by
  unfold gathered carriedPending
  rw [show assemble calls reasoning (.message read decoded :: entries) =
    flushed calls reasoning ++ read :: assemble [] none entries from rfl]
  simp

theorem gathered_calls (more : List Value) (written : Option String)
    (entries : List (Entry image)) :
    gathered calls reasoning (more.map (fun call => .call call written) ++ entries) =
      gathered (calls ++ more) (if more = [] then reasoning else written.or reasoning)
        entries := by
  induction more generalizing calls reasoning with
  | nil =>
    rw [List.append_nil]
    rfl
  | cons call more ih =>
    have hstep : gathered calls reasoning
        ((call :: more).map (fun call => .call call written) ++ entries) =
        gathered (calls ++ [call]) (written.or reasoning)
          (more.map (fun call => .call call written) ++ entries) := rfl
    rw [hstep, ih, List.append_assoc, if_neg (List.cons_ne_nil call more)]
    congr 1
    split
    · rfl
    · cases written <;> rfl

theorem gathered_clients (client : List (ClientEntry host)) (entries : List (Entry image)) :
    gathered [] none
        (client.map (fun entry => .message entry.message entry.image) ++ entries) =
      client.map (fun entry => .client entry.message) ++ gathered [] none entries := by
  induction client with
  | nil => rfl
  | cons entry client ih =>
    rw [List.map_cons, List.cons_append, gathered_message, ih, entry.carriedBy_message,
      carriedPending_nil]
    rfl

theorem gathered_clientEntries {turn : StoredTurn host} (hclient : turn.client ≠ [])
    (entries : List (Entry image)) :
    gathered calls reasoning (turn.clientEntries ++ entries) =
      carriedPending calls reasoning ++
        (turn.client.map (fun entry => .client entry.message) ++ gathered [] none entries) := by
  unfold StoredTurn.clientEntries
  cases hentries : turn.client with
  | nil => exact absurd hentries hclient
  | cons entry client =>
    rw [List.map_cons, List.cons_append, gathered_message, gathered_clients,
      entry.carriedBy_message, List.append_assoc]
    rfl

theorem gathered_reasons (hcalls : calls ≠ []) {text : String} (htext : text ≠ "")
    (hreasoning : reasoning = some text) (entries : List (Entry image))
    (hentries : forall call written, Entry.call call written ∈ entries -> written ≠ some "") :
    exists other more, gathered calls reasoning entries =
      .reasoning other :: (calls.map carriedCall ++ more) := by
  induction entries generalizing calls reasoning text with
  | nil =>
    have hflush : gathered calls reasoning ([] : List (Entry image)) =
        carriedPending calls reasoning := rfl
    rw [hflush, carriedPending_of_ne hcalls, hreasoning]
    refine ⟨text, [], ?_⟩
    rw [List.append_nil, carriedReasoning_some htext]
    rfl
  | cons entry entries ih =>
    cases entry with
    | message read decoded =>
      rw [gathered_message, carriedPending_of_ne hcalls, hreasoning]
      refine ⟨text, carriedBy read ++ gathered [] none entries, ?_⟩
      rw [carriedReasoning_some htext]
      simp
    | call read written =>
      have hrest : forall call written, Entry.call call written ∈ entries ->
          written ≠ some "" :=
        fun call written hmem => hentries call written (List.mem_cons_of_mem _ hmem)
      have hstep : gathered calls reasoning (.call read written :: entries) =
          gathered (calls ++ [read]) (written.or reasoning) entries := rfl
      have hne : calls ++ [read] ≠ [] := by
        simp
      have hpending : exists text, text ≠ "" ∧ written.or reasoning = some text := by
        cases hwritten : written with
        | none => exact ⟨text, htext, hreasoning⟩
        | some other =>
          refine ⟨other, ?_, rfl⟩
          intro hempty
          rw [hempty] at hwritten
          exact hentries read written List.mem_cons_self hwritten
      rcases hpending with ⟨text, htext, hreasoning⟩
      rcases ih hne htext hreasoning hrest with ⟨other, more, hmore⟩
      refine ⟨other, carriedCall read :: more, ?_⟩
      rw [hstep, hmore, List.map_append, List.append_assoc]
      rfl

theorem carriedReasoning_cases (reasoning : Option String) :
    carriedReasoning reasoning = [] ∨
      exists text, carriedReasoning reasoning = [.reasoning text] := by
  unfold carriedReasoning
  cases reasoning with
  | none => exact Or.inl rfl
  | some text =>
    dsimp only
    split
    · exact Or.inl rfl
    · exact Or.inr ⟨text, rfl⟩

theorem reasoning_lost {own : List Value} {text other : String} {more rest : List Carried}
    (hcalls : calls ≠ []) (hown : own ≠ [])
    (h : Carried.reasoning other :: ((calls ++ own).map carriedCall ++ more) =
      (carriedReasoning reasoning ++ calls.map carriedCall) ++ ([.reasoning text] ++ rest)) :
    False := by
  cases carriedReasoning_cases reasoning with
  | inl hnothing =>
    rw [hnothing, List.nil_append] at h
    cases calls with
    | nil => exact hcalls rfl
    | cons call calls => cases h
  | inr hsome =>
    rcases hsome with ⟨first, hfirst⟩
    rw [hfirst, List.map_append, List.append_assoc, List.append_assoc,
      List.singleton_append, List.cons.injEq, List.append_cancel_left_eq] at h
    cases own with
    | nil => exact hown rfl
    | cons call own => cases h.2

end Carrying

/-!
# A turn
-/

namespace StoredTurn

variable {host : InputHost image} {calls : List Value} {reasoning : Option String}
  (turn : StoredTurn host)

theorem reasons_cases :
    (¬ turn.reasons ∧ carriedReasoning turn.reasoning = [] ∧ turn.callReasoning = none) ∨
      exists text, text ≠ "" ∧ turn.reasons ∧
        carriedReasoning turn.reasoning = [.reasoning text] ∧
        turn.callReasoning = some text := by
  unfold reasons callReasoning
  cases hreasoning : turn.reasoning with
  | none => exact Or.inl ⟨fun h => h rfl, rfl, rfl⟩
  | some text =>
    by_cases htext : text = ""
    · rw [htext]
      exact Or.inl ⟨fun h => h rfl, rfl, rfl⟩
    · apply Or.inr
      rw [carriedReasoning_some htext]
      exact ⟨text, htext, List.cons_ne_nil _ _, rfl, Option.filter_some_pos (decide_eq_true htext)⟩

theorem calls_eq_nil :
    turn.calls = [] ↔ turn.output.toolCalls = [] := by
  unfold calls
  rw [List.mapIdx_eq_nil_iff]

theorem callEntries_written {call : Value} {written : Option String}
    (h : Entry.call call written ∈ turn.entries) :
    written ≠ some "" := by
  unfold entries at h
  rw [List.mem_append, List.mem_append] at h
  rcases h with (hmessage | hcall) | hclient
  · unfold messageEntries at hmessage
    split at hmessage
    · cases List.mem_singleton.mp hmessage
    · cases hmessage
  · unfold callEntries at hcall
    rcases List.mem_map.mp hcall with ⟨call, _, hcall⟩
    cases hcall
    intro hempty
    exact absurd rfl (of_decide_eq_true (Option.filter_eq_some_iff.mp hempty).2)
  · unfold clientEntries at hclient
    rcases List.mem_map.mp hclient with ⟨entry, _, hentry⟩
    cases hentry

theorem behind_written (turns : List (StoredTurn host)) :
    forall call written,
      Entry.call call written ∈ turn.clientEntries ++ turns.flatMap entries ->
        written ≠ some "" := by
  intro call written h
  cases List.mem_append.mp h with
  | inl hclient => exact turn.callEntries_written (List.mem_append_right _ hclient)
  | inr hlater =>
    rcases List.mem_flatMap.mp hlater with ⟨later, _, hentry⟩
    exact later.callEntries_written hentry

variable {turns : List (StoredTurn host)}

theorem gathered_behind
    (hlater : forall calls reasoning, Idle calls reasoning ->
      (gathered calls reasoning (turns.flatMap entries) =
          carriedPending calls reasoning ++ turns.flatMap carried ↔
        KeepsReasoning (!calls.isEmpty) turns)) (turn : StoredTurn host) (calls : List Value)
    (reasoning : Option String) (hidle : Idle calls reasoning)
    (hcalls : turn.client = [] -> calls.isEmpty = turn.output.toolCalls.isEmpty) :
    gathered calls reasoning (turn.clientEntries ++ turns.flatMap entries) =
        carriedPending calls reasoning ++
          (turn.client.map (fun entry => .client entry.message) ++ turns.flatMap carried) ↔
      KeepsReasoning (turn.client.isEmpty && !turn.output.toolCalls.isEmpty) turns := by
  by_cases hclient : turn.client = []
  · have hentries : turn.clientEntries = [] := by
      unfold clientEntries
      rw [hclient]
      rfl
    rw [hentries, hclient, ← hcalls hclient]
    exact hlater calls reasoning hidle
  · have hempty : turn.client.isEmpty = false := by
      simpa using hclient
    rw [gathered_clientEntries hclient, hempty, Bool.false_and, List.append_cancel_left_eq,
      List.append_cancel_left_eq]
    exact hlater [] none (fun _ => rfl)

theorem keepsReasoning_cons (calling : Bool) (turn : StoredTurn host)
    (turns : List (StoredTurn host)) :
    KeepsReasoning calling (turn :: turns) ↔
      (turn.reasons ->
        ¬ (turn.speaks ∧ turn.output.toolCalls ≠ []) ∧ ¬ (calling = true ∧ ¬ turn.speaks)) ∧
      KeepsReasoning (turn.client.isEmpty && !turn.output.toolCalls.isEmpty) turns :=
  Iff.rfl

section

variable
  (hlater : forall calls reasoning, Idle calls reasoning ->
    (gathered calls reasoning (turns.flatMap entries) =
        carriedPending calls reasoning ++ turns.flatMap carried ↔
      KeepsReasoning (!calls.isEmpty) turns))
include hlater

theorem gathered_speaking (turn : StoredTurn host) (hspeaks : turn.speaks) :
    gathered calls reasoning ((turn :: turns).flatMap entries) =
        carriedPending calls reasoning ++ (turn :: turns).flatMap carried ↔
      KeepsReasoning (!calls.isEmpty) (turn :: turns) := by
  have hmessage : turn.messageEntries =
      [.message (assistantMessage turn.output.content turn.reasoning) none] := if_pos hspeaks
  have hgathered : gathered calls reasoning ((turn :: turns).flatMap entries) =
      carriedPending calls reasoning ++
        (carriedReasoning turn.reasoning ++ carriedText (String.ofList turn.output.content) ++
          gathered turn.calls (if turn.calls = [] then none else turn.callReasoning)
            (turn.clientEntries ++ turns.flatMap entries)) := by
    rw [List.flatMap_cons]
    unfold entries callEntries
    rw [hmessage, List.append_assoc, List.append_assoc, List.singleton_append,
      gathered_message, carriedBy_assistant, gathered_calls, List.nil_append, Option.or_none,
      List.append_assoc]
  have hcarried : (turn :: turns).flatMap carried =
      carriedReasoning turn.reasoning ++ carriedText (String.ofList turn.output.content) ++
        (turn.calls.map carriedCall ++
          (turn.client.map (fun entry => .client entry.message) ++ turns.flatMap carried)) := by
    rw [List.flatMap_cons]
    unfold carried
    simp only [List.append_assoc]
  rw [hgathered, hcarried, List.append_cancel_left_eq, List.append_cancel_left_eq,
    keepsReasoning_cons]
  by_cases hdouble : turn.reasons ∧ turn.calls ≠ []
  · apply iff_of_false
    · intro h
      rcases turn.reasons_cases with ⟨hsilent, _⟩ | ⟨text, htext, _, _, hreasoning⟩
      · exact hsilent hdouble.1
      · rw [if_neg hdouble.2] at h
        rcases gathered_reasons hdouble.2 htext hreasoning _ (turn.behind_written turns) with
          ⟨other, more, hmore⟩
        rw [hmore] at h
        cases hcalls : turn.calls with
        | nil => exact hdouble.2 hcalls
        | cons call calls =>
          rw [hcalls] at h
          cases h
    · intro h
      exact (h.1 hdouble.1).1 ⟨hspeaks, fun hnone => hdouble.2 (turn.calls_eq_nil.mpr hnone)⟩
  · have hreasoning : (if turn.calls = [] then none else turn.callReasoning) = none := by
      by_cases hcalls : turn.calls = []
      · exact if_pos hcalls
      · rw [if_neg hcalls]
        rcases turn.reasons_cases with ⟨_, _, hnone⟩ | ⟨text, _, hreasons, _⟩
        · exact hnone
        · exact absurd ⟨hreasons, hcalls⟩ hdouble
    have hcalls : turn.client = [] -> turn.calls.isEmpty = turn.output.toolCalls.isEmpty := by
      intro _
      rw [Bool.eq_iff_iff, List.isEmpty_iff, List.isEmpty_iff]
      exact turn.calls_eq_nil
    have hbehind := gathered_behind hlater turn turn.calls none (fun _ => rfl) hcalls
    rw [carriedPending_none] at hbehind
    rw [hreasoning, hbehind]
    constructor
    · intro h
      refine ⟨?_, h⟩
      intro hreasons
      constructor
      · intro hboth
        exact hdouble ⟨hreasons, fun hnone => hboth.2 (turn.calls_eq_nil.mp hnone)⟩
      · intro hboth
        exact hboth.2 hspeaks
    · intro h
      exact h.2

theorem gathered_calling (turn : StoredTurn host) (hsilent : ¬ turn.speaks)
    (hidle : Idle calls reasoning) :
    gathered calls reasoning ((turn :: turns).flatMap entries) =
        carriedPending calls reasoning ++ (turn :: turns).flatMap carried ↔
      KeepsReasoning (!calls.isEmpty) (turn :: turns) := by
  have hmessage : turn.messageEntries = [] := if_neg hsilent
  have hparts := not_or.mp hsilent
  have hcontent : turn.output.content = [] := not_not.mp hparts.1
  have hcalls : turn.calls ≠ [] := fun hnone => hparts.2 (turn.calls_eq_nil.mp hnone)
  have hgathered : gathered calls reasoning ((turn :: turns).flatMap entries) =
      gathered (calls ++ turn.calls) (turn.callReasoning.or reasoning)
        (turn.clientEntries ++ turns.flatMap entries) := by
    rw [List.flatMap_cons]
    unfold entries callEntries
    rw [hmessage, List.nil_append, List.append_assoc, gathered_calls, if_neg hcalls]
  have hcarried : (turn :: turns).flatMap carried =
      carriedReasoning turn.reasoning ++
        (turn.calls.map carriedCall ++
          (turn.client.map (fun entry => .client entry.message) ++ turns.flatMap carried)) := by
    rw [List.flatMap_cons]
    unfold carried
    have hnothing : carriedText (String.ofList turn.output.content) = [] := by
      rw [hcontent]
      rfl
    rw [hnothing, List.append_nil, List.append_assoc, List.append_assoc]
  have hboth : calls ++ turn.calls ≠ [] := by
    simp [hcalls]
  have hempty : turn.client = [] ->
      (calls ++ turn.calls).isEmpty = turn.output.toolCalls.isEmpty := by
    intro _
    rw [List.isEmpty_eq_false_iff.mpr hboth, List.isEmpty_eq_false_iff.mpr hparts.2]
  have hbehind := gathered_behind hlater turn (calls ++ turn.calls)
    (turn.callReasoning.or reasoning) (fun hnone => absurd hnone hboth) hempty
  have hkeeps : KeepsReasoning (!calls.isEmpty) (turn :: turns) ↔
      (turn.reasons -> calls = []) ∧
        KeepsReasoning (turn.client.isEmpty && !turn.output.toolCalls.isEmpty) turns := by
    rw [keepsReasoning_cons]
    simp [hsilent]
  rw [hgathered, hcarried, hkeeps]
  rcases turn.reasons_cases with
    ⟨hno, hnothing, hnone⟩ | ⟨text, htext, hreasons, hsome, hwritten⟩
  · rw [hnone, Option.none_or] at hbehind ⊢
    rw [carriedPending_append hidle hcalls, List.append_assoc] at hbehind
    rw [hnothing, List.nil_append, hbehind]
    simp [hno]
  · by_cases hfirst : calls = []
    · rw [hwritten, hfirst, List.nil_append, Option.some_or] at hbehind
      rw [carriedPending_of_ne hcalls, carriedReasoning_some htext, List.append_assoc] at hbehind
      rw [hwritten, hfirst, List.nil_append, Option.some_or, carriedPending_nil,
        List.nil_append, hsome, hbehind]
      simp
    · apply iff_of_false
      · intro h
        rw [hwritten, Option.some_or] at h
        rcases gathered_reasons hboth htext rfl _ (turn.behind_written turns) with
          ⟨other, more, hmore⟩
        rw [hmore, hsome, carriedPending_of_ne hfirst] at h
        exact reasoning_lost hfirst hcalls h
      · intro h
        exact hfirst (h.1 hreasons)

end

theorem gathered_turns (turns : List (StoredTurn host)) (calls : List Value)
    (reasoning : Option String) (hidle : Idle calls reasoning) :
    gathered calls reasoning (turns.flatMap entries) =
        carriedPending calls reasoning ++ turns.flatMap carried ↔
      KeepsReasoning (!calls.isEmpty) turns := by
  induction turns generalizing calls reasoning with
  | nil =>
    apply iff_of_true
    · rw [List.flatMap_nil, List.flatMap_nil, List.append_nil]
      rfl
    · trivial
  | cons turn turns ih =>
    by_cases hspeaks : turn.speaks
    · exact gathered_speaking ih turn hspeaks
    · exact gathered_calling ih turn hspeaks hidle

theorem images_entries (turns : List (StoredTurn host)) :
    (turns.flatMap entries).filterMap Entry.decoded = turns.flatMap images := by
  induction turns with
  | nil => rfl
  | cons turn turns ih =>
    have hmessage : turn.messageEntries.filterMap Entry.decoded = [] := by
      unfold messageEntries
      split <;> rfl
    have hcalls : turn.callEntries.filterMap Entry.decoded = [] := by
      unfold callEntries
      rw [List.filterMap_map]
      exact List.filterMap_eq_nil_iff.mpr fun call _ => rfl
    have hclient : turn.clientEntries.filterMap Entry.decoded = turn.images := by
      unfold clientEntries images
      rw [List.filterMap_map]
      rfl
    rw [List.flatMap_cons, List.flatMap_cons, List.filterMap_append, ih]
    unfold entries
    rw [List.filterMap_append, List.filterMap_append, hmessage, hcalls, hclient]
    rfl

end StoredTurn

/-!
# The whole history
-/

section History

variable {host : InputHost image} {turns : List (StoredTurn host)}

theorem forall₂_flatMap {alpha beta gamma : Type} {related : beta -> gamma -> Prop}
    {left : alpha -> List beta} {right : alpha -> List gamma} {items : List alpha}
    (h : forall item, item ∈ items -> List.Forall₂ related (left item) (right item)) :
    List.Forall₂ related (items.flatMap left) (items.flatMap right) := by
  induction items with
  | nil => exact .nil
  | cons item items ih =>
    rw [List.flatMap_cons, List.flatMap_cons]
    exact List.rel_append (h item List.mem_cons_self)
      (ih fun other hother => h other (List.mem_cons_of_mem _ hother))

theorem items_ne_nil (turn : StoredTurn host) : turn.items ≠ [] := by
  unfold StoredTurn.items outputItems outputMessages
  by_cases hspeaks : turn.output.content ≠ [] ∨ turn.output.toolCalls = []
  · simp [hspeaks]
  · rw [not_or] at hspeaks
    simp [hspeaks.2]

theorem history_eq_nil : turns.flatMap StoredTurn.items = [] ↔ turns = [] := by
  constructor
  · intro h
    cases turns with
    | nil => rfl
    | cons turn turns =>
      rw [List.flatMap_cons, List.append_eq_nil_iff] at h
      exact absurd h.1 (items_ne_nil turn)
  · intro h
    rw [h]
    rfl

def opened (instructions : Option String) : Normalizing image where
  messages := openingMessages instructions
  image := none
  pendingCalls := []
  pendingReasoning := none

variable (instructions : Option String)

theorem normalizeInput_eq (hturns : turns ≠ []) :
    normalizeInput host (turns.flatMap StoredTurn.items) instructions =
      match Normalizing.normalizeItems host 0 (opened instructions)
        (turns.flatMap StoredTurn.items) with
      | .error error => .error error
      | .ok state => .ok (state.flushFunctionCalls.messages, state.image) := by
  unfold normalizeInput
  dsimp only
  rw [if_neg (fun h => hturns (history_eq_nil.mp h))]
  cases instructions <;> rfl

theorem carriedBy_opening :
    (openingMessages instructions).flatMap carriedBy =
      (openingMessages instructions).map Carried.client := by
  cases instructions with
  | none => rfl
  | some instructions => rfl

theorem normalizeItems_history
    (hcalls : forall turn, turn ∈ turns -> forall call, call ∈ turn.output.toolCalls ->
      CallAccepted host call) :
    Normalizing.normalizeItems host 0 (opened instructions) (turns.flatMap StoredTurn.items) =
      (turns.flatMap StoredTurn.entries).foldlM Entry.apply (opened instructions) :=
  normalizeItems_denotes
    (forall₂_flatMap fun turn hturn => turn.items_denote (hcalls turn hturn)) 0 _

theorem imagesOf_opened :
    imagesOf (opened instructions) (turns.flatMap StoredTurn.entries) =
      turns.flatMap StoredTurn.images := by
  unfold imagesOf
  rw [StoredTurn.images_entries]
  rfl

theorem rejected_of_call {turn : StoredTurn host} {call : ParsedToolCall}
    (hturn : turn ∈ turns) (hcall : call ∈ turn.output.toolCalls)
    (h : ¬ CallAccepted host call) (instructions : Option String) :
    exists error,
      Normalizing.normalizeItems host 0 (opened instructions)
        (turns.flatMap StoredTurn.items) = .error error := by
  rcases List.mem_iff_getElem.mp hcall with ⟨position, hposition, hat⟩
  have hitem : functionItem turn.identity
      ((outputMessages turn.identity turn.output turn.status).length + position) call
      turn.status turn.output.reasoningContent ∈ turn.items := by
    unfold StoredTurn.items outputItems
    apply List.mem_append_left
    apply List.mem_append_right
    rw [List.mem_mapIdx]
    exact ⟨position, hposition, by rw [hat]⟩
  apply normalizeItems_rejected (List.mem_flatMap.mpr ⟨turn, hturn, hitem⟩)
  intro index state
  exact functionItem_rejected _ _ _ _ index state h

theorem normalizeInput_history (hturns : turns ≠ [])
    (hcalls : forall turn, turn ∈ turns -> forall call, call ∈ turn.output.toolCalls ->
      CallAccepted host call) (himages : (turns.flatMap StoredTurn.images).length <= 1) :
    exists messages decoded,
      normalizeInput host (turns.flatMap StoredTurn.items) instructions =
          .ok (messages, decoded) ∧
        messages.flatMap carriedBy =
          (openingMessages instructions).map .client ++
            gathered [] none (turns.flatMap StoredTurn.entries) := by
  have hcount : (imagesOf (opened instructions) (turns.flatMap StoredTurn.entries)).length
      <= 1 := by
    rw [imagesOf_opened]
    exact himages
  rw [normalizeInput_eq instructions hturns, normalizeItems_history instructions hcalls,
    foldlM_absorbs _ _ hcount]
  refine ⟨_, _, rfl, ?_⟩
  rw [messages_foldl_absorb _ _ (fun _ => rfl)]
  show (openingMessages instructions ++
    assemble [] none (turns.flatMap StoredTurn.entries)).flatMap carriedBy = _
  rw [List.flatMap_append, carriedBy_opening]
  rfl

theorem normalizeInput_error_of_images
    (hcalls : forall turn, turn ∈ turns -> forall call, call ∈ turn.output.toolCalls ->
      CallAccepted host call) (himages : 1 < (turns.flatMap StoredTurn.images).length) :
    exists error,
      Normalizing.normalizeItems host 0 (opened instructions)
        (turns.flatMap StoredTurn.items) = .error error := by
  rw [normalizeItems_history instructions hcalls]
  apply foldlM_second
  rw [imagesOf_opened]
  exact himages

end History

/-- A stored history is read back whole and in order exactly when its calls are accepted, it
has one image at most and its turns keep their reasoning. -/
theorem history_carries_iff (host : InputHost image) (instructions : Option String)
    (turns : List (StoredTurn host)) :
    HistoryCarries host instructions turns ↔ HistoryFits host turns := by
  constructor
  · rintro ⟨messages, decoded, hread, hcarried⟩
    have hturns : turns ≠ [] := by
      intro hnone
      rw [hnone] at hread
      cases hread
    have hreads : forall error,
        Normalizing.normalizeItems host 0 (opened instructions)
          (turns.flatMap StoredTurn.items) ≠ .error error := by
      intro error herror
      rw [normalizeInput_eq instructions hturns, herror] at hread
      cases hread
    have hcalls : forall turn, turn ∈ turns -> forall call, call ∈ turn.output.toolCalls ->
        CallAccepted host call := by
      intro turn hturn call hcall
      by_contra hrejected
      rcases rejected_of_call hturn hcall hrejected instructions with ⟨error, herror⟩
      exact hreads error herror
    have himages : (turns.flatMap StoredTurn.images).length <= 1 := by
      by_contra hmany
      rcases normalizeInput_error_of_images instructions hcalls (Nat.lt_of_not_le hmany) with
        ⟨error, herror⟩
      exact hreads error herror
    rcases normalizeInput_history instructions hturns hcalls himages with
      ⟨same, other, hsame, hgathered⟩
    rw [hread] at hsame
    cases hsame
    rw [hcarried, List.append_cancel_left_eq] at hgathered
    exact {
      nonempty := hturns
      calls := hcalls
      images := himages
      reasoning := (StoredTurn.gathered_turns turns [] none (fun _ => rfl)).mp hgathered.symm }
  · intro h
    rcases normalizeInput_history instructions h.nonempty h.calls h.images with
      ⟨messages, decoded, hread, hgathered⟩
    have hkept := (StoredTurn.gathered_turns turns [] none (fun _ => rfl)).mpr h.reasoning
    refine ⟨messages, decoded, hread, ?_⟩
    rw [hgathered, hkept]
    rfl

/-- A host that reads every text as an empty object and has no images. -/
def objectHost : InputHost Empty where
  serde :=
    { fromStr := fun _ => .ok (.object [])
      toString := fun _ => [] }
  decodeDataImage := fun _ _ _ => .error (invalidInput "no images")

def reasonedCall : StoredTurn objectHost where
  identity :=
    { id := "resp_0_1"
      suffix := "0_1" }
  status := "completed"
  output :=
    { content := "hi".toList
      reasoningContent := some "why".toList
      toolCalls :=
        [{ name := "look".toList
           arguments := "{}".toList }] }
  client := []

/-- Its reasoning is read twice, with the message and with the call. -/
theorem reasoning_is_read_twice : ¬ HistoryCarries objectHost none [reasonedCall] := by
  rintro ⟨messages, decoded, hread, hcarried⟩
  have hmessages : normalizeInput objectHost
      ([reasonedCall].flatMap StoredTurn.items) none =
      .ok
        ([assistantMessage "hi".toList (some "why"),
          Normalizing.callsMessage reasonedCall.calls (some "why")], none) := rfl
  rw [hread] at hmessages
  cases hmessages
  exact absurd (congrArg List.length hcarried) (by decide)

end Server
end RunNBurn
