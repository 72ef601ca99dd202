import RunNBurn.Library.CursorWalk
import RunNBurn.Server.CommitExactness

/-!
# Walking the stored input items

A client pages through the input items of a stored response with the last id of each
page as the next cursor.  The walk lists every item once, and every item can be used
as a cursor, exactly when the ids of the stored items are strings and distinct.
-/

namespace RunNBurn
namespace Server

open Library

/-!
# Fields of an object
-/

variable {fields : List (String × Value)} {value : Value}

theorem lookup_append_single {name : String} :
    (fields ++ [(name, value)]).lookup name = some ((fields.lookup name).getD value) := by
  rw [List.lookup_append]
  cases fields.lookup name with
  | none => simp
  | some found => simp

variable {name other : String}

theorem lookup_append_other (h : other ≠ name) :
    (fields ++ [(name, value)]).lookup other = fields.lookup other := by
  rw [List.lookup_append]
  have hdiffers : (other == name) = false := by simpa using h
  have hnone : List.lookup other [(name, value)] = none := by
    rw [List.lookup_cons, hdiffers]
    rfl
  rw [hnone, Option.or_none]

theorem lookup_entryOrInsert (fields : List (String × Value)) (name : String) (value : Value) :
    (entryOrInsert fields name value).lookup name = some ((fields.lookup name).getD value) := by
  unfold entryOrInsert
  cases hfound : fields.lookup name with
  | some found => exact hfound
  | none =>
    dsimp only
    rw [lookup_append_single, hfound]

theorem lookup_entryOrInsert_other (h : other ≠ name) :
    (entryOrInsert fields name value).lookup other = fields.lookup other := by
  unfold entryOrInsert
  cases fields.lookup name with
  | some found => rfl
  | none => exact lookup_append_other h

theorem lookup_map_replace_other (h : other ≠ name) :
    (fields.map (fun entry => if entry.1 = name then (name, value) else entry)).lookup other =
      fields.lookup other := by
  induction fields with
  | nil => rfl
  | cons entry rest ih =>
    rcases entry with ⟨entryName, entryValue⟩
    rw [List.map_cons]
    by_cases hname : entryName = name
    · have hother : (other == entryName) = false := by
        rw [hname]
        simpa using h
      have hmapped : (other == name) = false := by simpa using h
      rw [if_pos hname, List.lookup_cons, List.lookup_cons, hother, hmapped, ih]
    · rw [if_neg hname, List.lookup_cons, List.lookup_cons, ih]

theorem lookup_insertField_other (h : other ≠ name) :
    (insertField fields name value).lookup other = fields.lookup other := by
  unfold insertField
  cases fields.lookup name with
  | some found => exact lookup_map_replace_other h
  | none => exact lookup_append_other h

/-!
# The id of a stored item
-/

def itemIdText (itemPrefix responseId : String) (position : Nat) : String :=
  s!"{itemPrefix}_{itemSuffix responseId}_{position}"

def generatedItemId (responseId : String) (position : Nat)
    (fields : List (String × Value)) : String :=
  let kind := (fields.lookup "type").bind Value.asStr
  let itemPrefix :=
    if kind.isNone || kind == some "message" then "msg"
    else if kind == some "function_call" || kind == some "function_call_output" then "fc"
    else "item"
  itemIdText itemPrefix responseId position

/-- The id of a client item: its own when that is a string, a generated one when it
has no id field. -/
def clientItemId (responseId : String) (position : Nat) (item : Value) : Option String :=
  match item with
  | .object fields =>
    match fields.lookup "id" with
    | some given => given.asStr
    | none => some (generatedItemId responseId position fields)
  | _ => none

def clientItemIds (responseId : String) (items : List Value) : List (Option String) :=
  items.mapIdx (clientItemId responseId)

theorem itemId_storedInputItem (responseId : String) (position : Nat) (item : Value) :
    ResponseStore.itemId (storedInputItem responseId position item) =
      clientItemId responseId position item := by
  cases item with
  | object fields =>
    have hread : forall stored : List (String × Value), ResponseStore.itemId (.object stored) =
        (stored.lookup "id").bind Value.asStr := by
      intro stored
      unfold ResponseStore.itemId Value.field Value.get
      dsimp only
      cases stored.lookup "id" with
      | none => rfl
      | some found => rfl
    have hwith : forall generated : String,
        ((entryOrInsert fields "id" (.string generated)).lookup "id").bind Value.asStr =
          match fields.lookup "id" with
          | some given => given.asStr
          | none => some generated := by
      intro generated
      rw [lookup_entryOrInsert]
      cases fields.lookup "id" with
      | none => rfl
      | some given => rfl
    unfold storedInputItem
    dsimp only
    split
    · rename_i hmessage
      have hclient : clientItemId responseId position (.object fields) =
          match fields.lookup "id" with
          | some given => given.asStr
          | none => some (itemIdText "msg" responseId position) := by
        unfold clientItemId generatedItemId
        dsimp only
        rw [if_pos hmessage]
      rw [hread, lookup_entryOrInsert_other (by decide), hclient]
      split
      · rw [lookup_insertField_other (by decide), lookup_entryOrInsert_other (by decide), hwith]
        rfl
      · rw [lookup_entryOrInsert_other (by decide), hwith]
        rfl
    · rename_i hother
      have hclient : clientItemId responseId position (.object fields) =
          match fields.lookup "id" with
          | some given => given.asStr
          | none => some (generatedItemId responseId position fields) := rfl
      rw [hread, hwith, hclient]
      unfold generatedItemId
      dsimp only
      rw [if_neg hother]
      rfl
  | null => rfl
  | bool value => rfl
  | number literal => rfl
  | string text => rfl
  | array items => rfl

theorem map_itemId_storedInputItems (items : List Value) (responseId : String) :
    (storedInputItems items responseId).map ResponseStore.itemId =
      clientItemIds responseId items := by
  unfold storedInputItems clientItemIds
  apply List.ext_getElem?
  intro position
  rw [List.getElem?_map, List.getElem?_mapIdx, List.getElem?_mapIdx, Option.map_map]
  congr 1
  funext item
  exact itemId_storedInputItem responseId position item

/-!
# One page
-/

namespace ResponseStore

variable {store : ResponseStore} {entry : StoredResponse} {id : String}

theorem readResponse_of_lookup (h : store.responses.lookup id = some entry) :
    readResponse id store = (store.touchRecord (.response id) entry.bytes, .ok entry) := by
  unfold readResponse
  rw [h]
  dsimp only
  rw [if_neg]
  unfold touchRecord
  dsimp only
  rw [h]
  exact Bool.false_ne_true

def requested (descending : Bool) (items : List Value) : List Value :=
  if descending then items.reverse else items

theorem length_requested (descending : Bool) (items : List Value) :
    (requested descending items).length = items.length := by
  unfold requested
  split
  · exact List.length_reverse
  · rfl

def itemPage (items : List Value) (start limit : Nat) : Value :=
  let remaining := items.length - start
  let take := min remaining limit
  let data := (items.drop start).take take
  .object [("object", .string "list"), ("data", .array data),
    ("first_id", optionalString (data.head?.bind itemId)),
    ("last_id", optionalString (data.getLast?.bind itemId)), ("has_more", .bool (remaining > take))]

theorem getInputItems_of_lookup {now : Nat} (descending : Bool) (after : Option String)
    (limit : Nat) (h : store.responses.lookup id = some entry) (hlater : now < entry.expiresAt) :
    (getInputItems id now descending after limit store).1.responses.lookup id = some entry ∧
      (getInputItems id now descending after limit store).2 =
        (startAfter after (requested descending entry.modelInputItems)).map
          (fun start => itemPage (requested descending entry.modelInputItems) start limit) := by
  have hpruned := pruneExpired_lookup h hlater
  have hread := readResponse_of_lookup hpruned
  have htouched : ((store.pruneExpired now).touchRecord (.response id)
      entry.bytes).responses.lookup id = some entry := hpruned
  unfold getInputItems
  rw [InPlace.modifying_bind, InPlace.bind_of_ok hread]
  dsimp only
  show _ ∧ _ = (startAfter after (if descending then entry.modelInputItems.reverse
    else entry.modelInputItems)).map _
  cases startAfter after (if descending then entry.modelInputItems.reverse
      else entry.modelInputItems) with
  | error fault => exact ⟨htouched, rfl⟩
  | ok start => exact ⟨htouched, rfl⟩

theorem startAfter_some {cursor : String} {items : List Value} {position : Nat}
    (h : findCursor itemId cursor items = some position) :
    startAfter (some cursor) items = .ok (position + 1) := by
  unfold findCursor at h
  unfold startAfter
  dsimp only
  rw [h]

/-!
# The walk
-/

/-- The pages a client reads with the last id of each as the next cursor; a null id is
no cursor.  There is no result when the calls run out or one of them fails. -/
def walkInputItems (id : String) (descending : Bool) (limit : Nat) :
    List Nat -> Option String -> ResponseStore -> Option (List Value)
  | [], _, _ => none
  | now :: later, after, store =>
    match getInputItems id now descending after limit store with
    | (_, .error _) => none
    | (left, .ok page) =>
      let data := ((page.field "data").asArray).getD []
      if (page.field "has_more").asBool = some true then
        (walkInputItems id descending limit later (page.field "last_id").asStr left).map
          (fun rest => data ++ rest)
      else
        some data

theorem field_itemPage (items : List Value) (start limit : Nat) :
    ((itemPage items start limit).field "data").asArray =
        some ((items.drop start).take (min (items.length - start) limit)) ∧
      ((itemPage items start limit).field "has_more").asBool =
        some (decide (items.length - start > min (items.length - start) limit)) ∧
      ((itemPage items start limit).field "last_id").asStr =
        ((items.drop start).take (min (items.length - start) limit)).getLast?.bind itemId := by
  constructor
  · rfl
  constructor
  · rfl
  · show (optionalString _).asStr = _
    cases ((items.drop start).take (min (items.length - start) limit)).getLast?.bind itemId with
    | none => rfl
    | some text => rfl

/-- From a cursor behind `start` the walk reads what is left, in at most one call for
each item left and one more. -/
theorem walkInputItems_eq {descending : Bool} {limit : Nat} {times : List Nat}
    {after : Option String} {start : Nat} (hlimit : 1 <= limit)
    (hcursors : Cursors itemId (requested descending entry.modelInputItems))
    (hstored : store.responses.lookup id = some entry)
    (htimes : forall now, now ∈ times -> now < entry.expiresAt)
    (hstart : startAfter after (requested descending entry.modelInputItems) = .ok start)
    (hcalls : entry.modelInputItems.length - start < times.length) :
    walkInputItems id descending limit times after store =
      some ((requested descending entry.modelInputItems).drop start) := by
  induction times generalizing after start store with
  | nil => exact absurd hcalls (Nat.not_lt_zero _)
  | cons now later ih =>
    have hpage := getInputItems_of_lookup descending after limit hstored
      (htimes now List.mem_cons_self)
    have hrest : forall other, other ∈ later -> other < entry.expiresAt :=
      fun other hother => htimes other (List.mem_cons_of_mem now hother)
    rw [hstart] at hpage
    unfold walkInputItems
    generalize getInputItems id now descending after limit store = result at hpage
    rcases result with ⟨left, answer⟩
    have hanswer : answer =
        .ok (itemPage (requested descending entry.modelInputItems) start limit) := hpage.2
    have hleft : left.responses.lookup id = some entry := hpage.1
    have hfields := field_itemPage (requested descending entry.modelInputItems) start limit
    subst hanswer
    dsimp only
    rw [hfields.1, hfields.2.1, hfields.2.2, Option.getD_some]
    have hlength := length_requested descending entry.modelInputItems
    generalize requested descending entry.modelInputItems = items
      at hcursors hstart hlength ih ⊢
    rw [List.length_cons] at hcalls
    by_cases hlast : items.length - start <= limit
    · have hall : (items.drop start).take (items.length - start) = items.drop start := by
        rw [← List.length_drop, List.take_length]
      rw [Nat.min_eq_left hlast, if_neg, hall]
      simp
    · have hlimit' := Nat.lt_of_not_le hlast
      have hindex : start + limit - 1 < items.length := by omega
      have hnext : start + limit - 1 + 1 = start + limit := by omega
      have hat : ((items.drop start).take limit).getLast? =
          some (items[start + limit - 1]) := by
        rw [List.getLast?_eq_getElem?, List.length_take, List.length_drop,
          Nat.min_eq_left (Nat.le_of_lt hlimit'), List.getElem?_take_of_lt (by omega),
          List.getElem?_drop, ← Nat.add_sub_assoc hlimit, List.getElem?_eq_getElem hindex]
      rcases hcursors _ _ (List.getElem?_eq_getElem hindex) with ⟨cursor, hkey, hfound⟩
      have hresume := startAfter_some hfound
      rw [hnext] at hresume
      have hwalk := ih hleft hrest hresume (by omega)
      rw [Nat.min_eq_right (Nat.le_of_lt hlimit'), hat, Option.bind_some, hkey, hwalk,
        if_pos (by simpa using hlimit'), Option.map_some, ← List.drop_drop,
        List.take_append_drop]

/-- The walk reads every stored item once, in the requested order, whatever the times of
its calls before the response expires. -/
def EnumeratesOnce (store : ResponseStore) (id : String) (entry : StoredResponse)
    (descending : Bool) (limit : Nat) : Prop :=
  exists calls, forall times : List Nat, times.length = calls ->
    (forall now, now ∈ times -> now < entry.expiresAt) ->
      walkInputItems id descending limit times none store =
        some (requested descending entry.modelInputItems)

theorem inputItems_walk_iff (store : ResponseStore) (id : String) (entry : StoredResponse)
    (items : List Value) (descending : Bool) (limit : Nat)
    (hstored : store.responses.lookup id = some entry)
    (hitems : entry.modelInputItems = storedInputItems items id) (hlimit : 1 <= limit) :
    EnumeratesOnce store id entry descending limit ∧
        Cursors itemId (requested descending entry.modelInputItems) ↔
      none ∉ clientItemIds id items ∧ (clientItemIds id items).Nodup := by
  have hcursors : Cursors itemId (requested descending entry.modelInputItems) ↔
      none ∉ clientItemIds id items ∧ (clientItemIds id items).Nodup := by
    have hreversed : Cursors itemId (requested descending entry.modelInputItems) ↔
        Cursors itemId entry.modelInputItems := by
      unfold requested
      split
      · exact cursors_reverse entry.modelInputItems
      · exact Iff.rfl
    rw [hreversed, cursors_iff, hitems, map_itemId_storedInputItems,
      ← map_itemId_storedInputItems, List.mem_map]
    constructor
    · intro h
      constructor
      · intro hnone
        rcases hnone with ⟨item, hmem, hid⟩
        exact h.1 item hmem hid
      · exact h.2
    · intro h
      constructor
      · intro item hmem hid
        exact h.1 ⟨item, hmem, hid⟩
      · exact h.2
  constructor
  · intro h
    exact hcursors.mp h.2
  · intro h
    have hfit := hcursors.mpr h
    constructor
    · exists entry.modelInputItems.length + 1
      intro times htimes hlater
      have hcalls : entry.modelInputItems.length - 0 < times.length := by
        rw [htimes, Nat.sub_zero]
        exact Nat.lt_succ_self _
      exact walkInputItems_eq hlimit hfit hstored hlater rfl hcalls
    · exact hfit

def userMessage (text : String) (id : Option String) : Value :=
  .object ([("type", .string "message"), ("role", .string "user"),
    ("content", .string text)] ++ id.toList.map (fun id => ("id", .string id)))

def pagedEntry (items : List Value) : StoredResponse where
  response := .object [("id", .string "resp_page")]
  modelInputItems := storedInputItems items "resp_page"
  historyItems := items
  sequenceState := none
  expiresAt := 100
  bytes := 0

def pagedStore (items : List Value) : ResponseStore :=
  { new 1000 with responses := AList.insert "resp_page" (pagedEntry items) ∅ }

theorem pagedStore_lookup (items : List Value) :
    (pagedStore items).responses.lookup "resp_page" = some (pagedEntry items) :=
  AList.lookup_insert _

/-- One client id and one generated id. -/
theorem inputItems_walk_two :
    (pagedStore [userMessage "one" (some "a"), userMessage "two" none]).responses.lookup
        "resp_page" = some (pagedEntry [userMessage "one" (some "a"), userMessage "two" none]) ∧
      EnumeratesOnce (pagedStore [userMessage "one" (some "a"), userMessage "two" none])
        "resp_page" (pagedEntry [userMessage "one" (some "a"), userMessage "two" none]) true 1 := by
  have hstored := pagedStore_lookup [userMessage "one" (some "a"), userMessage "two" none]
  have hids : none ∉ clientItemIds "resp_page"
        [userMessage "one" (some "a"), userMessage "two" none] ∧
      (clientItemIds "resp_page"
        [userMessage "one" (some "a"), userMessage "two" none]).Nodup := by
    decide
  exact ⟨hstored, ((inputItems_walk_iff _ "resp_page" _ _ true 1 hstored rfl
    (Nat.le_refl 1)).mpr hids).1⟩

def repeatedId : List Value :=
  [userMessage "one" (some "a"), userMessage "two" (some "a"), userMessage "three" (some "a")]

theorem walk_repeatedId {times : List Nat} {after : Option String}
    (hafter : after = none ∨ after = some "a")
    (hstored : store.responses.lookup "resp_page" = some (pagedEntry repeatedId))
    (htimes : forall now, now ∈ times -> now < 100) :
    walkInputItems "resp_page" false 1 times after store = none := by
  induction times generalizing after store with
  | nil => rfl
  | cons now later ih =>
    have hpage := getInputItems_of_lookup false after 1 hstored
      (htimes now List.mem_cons_self)
    have hstart : exists start, start < 2 ∧
        startAfter after (requested false (pagedEntry repeatedId).modelInputItems) =
          .ok start := by
      rcases hafter with hnone | hcursor
      · rw [hnone]
        exact ⟨0, by decide, rfl⟩
      · rw [hcursor]
        exact ⟨1, by decide, rfl⟩
    rcases hstart with ⟨start, hlt, hstart⟩
    have hpages : forall start, start < 2 ->
        ((itemPage (requested false (pagedEntry repeatedId).modelInputItems) start 1).field
            "has_more").asBool = some true ∧
          ((itemPage (requested false (pagedEntry repeatedId).modelInputItems) start 1).field
            "last_id").asStr = some "a" := by
      decide
    rw [hstart] at hpage
    unfold walkInputItems
    generalize getInputItems "resp_page" now false after 1 store = result at hpage
    rcases result with ⟨left, answer⟩
    have hanswer : answer = .ok (itemPage
        (requested false (pagedEntry repeatedId).modelInputItems) start 1) := hpage.2
    have hrest := ih (Or.inr rfl) hpage.1
      (fun other hother => htimes other (List.mem_cons_of_mem now hother))
    subst hanswer
    dsimp only
    rw [(hpages start hlt).1, (hpages start hlt).2, if_pos rfl, hrest]
    rfl

/-- Two items with one id send the walk back to the first of them, for ever. -/
theorem repeated_id_never_ends :
    (pagedStore repeatedId).responses.lookup "resp_page" = some (pagedEntry repeatedId) ∧
      ¬ EnumeratesOnce (pagedStore repeatedId) "resp_page" (pagedEntry repeatedId) false 1 := by
  constructor
  · exact pagedStore_lookup repeatedId
  · intro henumerates
    rcases henumerates with ⟨calls, hcalls⟩
    have htimes : forall now, now ∈ List.replicate calls 0 -> now < 100 := by
      intro now hmem
      rw [List.eq_of_mem_replicate hmem]
      decide
    have hwalk := hcalls (List.replicate calls 0) List.length_replicate htimes
    rw [walk_repeatedId (Or.inl rfl) (pagedStore_lookup repeatedId) htimes] at hwalk
    cases hwalk

/-!
# What a stored response lists

Every stored response of a run lists the input items of the commit that stored it.
-/

def ListsInputs (store : ResponseStore) : Prop :=
  forall id entry, store.responses.lookup id = some entry ->
    exists items, entry.modelInputItems = storedInputItems items id

theorem listsInputs_of_responses {store other : ResponseStore} (h : store.ListsInputs)
    (hsame : other.responses = store.responses) : other.ListsInputs := by
  intro id entry hentry
  rw [hsame] at hentry
  exact h id entry hentry

theorem listsInputs_of_insert {store other : ResponseStore} {items : List Value}
    (h : store.ListsInputs) (hinserted : other.responses = store.responses.insert id entry)
    (hitems : entry.modelInputItems = storedInputItems items id) : other.ListsInputs := by
  intro found stored hstored
  rw [hinserted] at hstored
  by_cases hid : found = id
  · subst hid
    rw [AList.lookup_insert] at hstored
    cases hstored
    exact ⟨items, hitems⟩
  · rw [AList.lookup_insert_ne hid] at hstored
    exact h found stored hstored

theorem listsInputs_of_erase {store other : ResponseStore} (h : store.ListsInputs)
    (herased : other.responses = store.responses.erase id) : other.ListsInputs := by
  intro found stored hstored
  rw [herased] at hstored
  by_cases hid : found = id
  · subst hid
    rw [AList.lookup_erase] at hstored
    cases hstored
  · rw [AList.lookup_erase_ne hid] at hstored
    exact h found stored hstored

theorem dropSnapshot_listsInputs (h : store.ListsInputs) (key : CacheKey) :
    (store.dropSnapshot key).ListsInputs := by
  unfold dropSnapshot
  cases key with
  | response id =>
    dsimp only
    split
    · rename_i entry hentry
      rcases h id entry hentry with ⟨items, hitems⟩
      exact listsInputs_of_insert h rfl hitems
    · exact h
  | conversation id =>
    dsimp only
    split
    · exact listsInputs_of_responses h rfl
    · exact h

theorem enforceBudget_listsInputs (h : store.ListsInputs) :
    store.enforceBudget.ListsInputs := by
  apply iterate_invariant ListsInputs _ _ h
  intro current hcurrent
  have hevicts := evict_evicts current
  generalize current.evict = round at hevicts
  cases hevicts with
  | fits hfits => exact hcurrent
  | @snapshot key snapshots hover hpop =>
    show ({ current with snapshotsLru := snapshots }.dropSnapshot key).ListsInputs
    apply dropSnapshot_listsInputs
    exact listsInputs_of_responses hcurrent rfl
  | @record key snapshots records hover hnone hpop =>
    cases key with
    | response id => exact listsInputs_of_erase hcurrent rfl
    | conversation id => exact listsInputs_of_responses hcurrent rfl
  | empty hover hnone hpop => exact listsInputs_of_responses hcurrent rfl

theorem tends_listsInputs {host : StoreHost} {start store : ResponseStore}
    (h : Tends host start store) (hstart : start.ListsInputs) : store.ListsInputs := by
  induction h with
  | start => exact hstart
  | touchRecord _ _ ih => exact listsInputs_of_responses ih rfl
  | touchSnapshot _ _ ih => exact listsInputs_of_responses ih rfl
  | removeResponse id _ ih => exact listsInputs_of_erase ih rfl
  | removeConversation id _ ih => exact listsInputs_of_responses ih rfl

theorem commit_listsInputs {host : StoreHost} {request : CommitRequest} (h : store.ListsInputs) :
    (commit host request store).1.ListsInputs := by
  have hcommits := commit_commits host request store
  generalize commit host request store = result at hcommits
  cases hcommits with
  | refused fault hfault => exact h
  | skipped hkeep hid => exact h
  | @written bytes hsizes hsized hid =>
    apply enforceBudget_listsInputs
    have hfirst : (conversationStage request bytes store).ListsInputs := by
      apply listsInputs_of_responses h
      unfold conversationStage
      split
      · split
        · rfl
        · rfl
      · rfl
    apply listsInputs_of_responses _ (touchStage_maps _).1
    unfold responseStage
    split
    · exact listsInputs_of_insert hfirst (touchBoth_maps _ _ _ _).1 rfl
    · exact hfirst

end ResponseStore

theorem StoreOp.call_listsInputs {host : StoreHost} {store : ResponseStore} (op : StoreOp)
    (h : store.ListsInputs) : (op.call host store).ListsInputs := by
  have htends : forall after : ResponseStore, ResponseStore.Tends host store after ->
      after.ListsInputs :=
    fun after hreaches => ResponseStore.tends_listsInputs hreaches h
  cases op with
  | resolve request now => exact htends _ (ResponseStore.resolve_tends request now store)
  | commit request => exact ResponseStore.commit_listsInputs h
  | getResponse id now => exact htends _ (ResponseStore.getResponse_tends id now store)
  | getInputItems id now descending after limit =>
    exact htends _ (ResponseStore.getInputItems_tends id now descending after limit store)
  | deleteResponse id => exact htends _ (ResponseStore.deleteResponse_tends id store)
  | createConversation request now serial =>
    have hcreates := ResponseStore.createConversation_creates host request now serial store
    show (ResponseStore.createConversation host request now serial store).1.ListsInputs
    generalize (ResponseStore.createConversation host request now serial store).1 = result
      at hcreates ⊢
    cases hcreates with
    | refused => exact h
    | inserted hmetadata =>
      exact ResponseStore.enforceBudget_listsInputs (ResponseStore.listsInputs_of_responses h rfl)
  | getConversation id => exact htends _ (ResponseStore.getConversation_tends id store)
  | deleteConversation id => exact htends _ (ResponseStore.deleteConversation_tends id store)

theorem StoreOp.run_listsInputs (host : StoreHost) (maxBytes : Nat) (ops : List StoreOp) :
    (StoreOp.run host (ResponseStore.new maxBytes) ops).ListsInputs := by
  induction ops using List.reverseRecOn with
  | nil =>
    intro id entry hentry
    cases hentry
  | append_singleton ops op ih =>
    rw [StoreOp.run_append]
    exact StoreOp.call_listsInputs op ih

end Server
end RunNBurn
