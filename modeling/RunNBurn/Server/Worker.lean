import RunNBurn.Server.InputItems
import RunNBurn.Server.Routes

/-!
# The server

Connection threads read requests and submit them to a bounded queue, and one worker thread
takes them from it and calls the store.  A step is one of the things that some thread does
next; the threads take their steps in any order.
-/

namespace RunNBurn
namespace Server

open Library
open Http (HttpRequest)

/-- `available_parallelism`, when it is known. -/
def connectionHandlerLimit (availableParallelism : Nat) : Nat :=
  max 4 (min 32 (max availableParallelism 1 * 2))

def connectionLimit (parallelism : Option Nat) : Nat :=
  max 1 (connectionHandlerLimit (parallelism.getD 4))

def queueCapacity (parallelism : Option Nat) : Nat :=
  max 1 (parallelism.getD 1 * 2)

/-- A connection is named by the number of connections that were accepted before. -/
structure WorkerRequest where
  connection : Nat
  request : HttpRequest

/-- How a connection ends.  A refusal is written by the thread that refuses; what the worker
does with a request is written by the worker, an error only when `written`. -/
inductive Outcome where
  | refused (error : ApiError)
  | handled (result : Except ApiError Unit) (written : Bool)
  | skipped
  | dropped

inductive WorkerThread where
  | idle
  | serving (work : WorkerRequest)
  | stopped

def WorkerThread.isStopped : WorkerThread -> Bool
  | stopped => true
  | _ => false

def WorkerThread.connections : WorkerThread -> List Nat
  | serving work => [work.connection]
  | _ => []

/-- `ready` are the requests that are read and monitored; `admitted`, `taken`, `served` and
`lost` remember what went into the queue, what the worker took out, what it handled, and what
was in the queue when it panicked. -/
structure ServerState (Engine : Type) where
  accepting : Bool
  accepted : Nat
  joins : List Nat
  reading : List Nat
  ready : List WorkerRequest
  queue : List WorkerRequest
  worker : WorkerThread
  cancelled : List Nat
  closed : List (Nat × Outcome)
  returned : Bool
  engine : Engine
  store : ResponseStore
  admitted : List WorkerRequest
  taken : List WorkerRequest
  served : List (Nat × Handling)
  lost : List WorkerRequest

section Steps

variable {Engine : Type}

def ServerState.start (engine : Engine) (maxBytes : Nat) : ServerState Engine where
  accepting := true
  accepted := 0
  joins := []
  reading := []
  ready := []
  queue := []
  worker := .idle
  cancelled := []
  closed := []
  returned := false
  engine := engine
  store := ResponseStore.new maxBytes
  admitted := []
  taken := []
  served := []
  lost := []

/-- `worker.submit(work)`, and the answer when it fails. -/
def submit (capacity : Nat) (s : ServerState Engine) (work : WorkerRequest) :
    ServerState Engine :=
  if s.worker.isStopped then
    { s with closed := s.closed ++ [(work.connection,
        .refused (ApiError.internal "engine worker is not available"))] }
  else if s.queue.length < capacity then
    { s with
      queue := s.queue ++ [work]
      admitted := s.admitted ++ [work] }
  else
    { s with closed := s.closed ++ [(work.connection, .refused ApiError.overloaded)] }

/-- The error of a request is written unless it was cancelled. -/
def outcomeOf (result : Except ApiError Unit) (cancelled : Bool) : Outcome :=
  match result with
  | .ok () => .handled (.ok ()) false
  | .error error => .handled (.error error) (error.status ≠ 499 ∧ !cancelled)

/-- `handle_worker_request`, and what `worker_loop` does with its result. -/
def serve (host : WorkerHost Engine) (s : ServerState Engine) (work : WorkerRequest)
    (now serial : Nat) : ServerState Engine :=
  let handling : Handling := {
    request := work.request
    now := now
    serial := serial }
  let call := handleWorkerRequest host handling (s.engine, s.store)
  { s with
    worker := .idle
    engine := call.1.1
    store := call.1.2
    served := s.served ++ [(work.connection, handling)]
    closed := s.closed ++
      [(work.connection, outcomeOf call.2 (s.cancelled.contains work.connection))] }

inductive ServerStep (parallelism : Option Nat) (host : WorkerHost Engine) :
    ServerState Engine -> ServerState Engine -> Prop where
  /-- A connection, when all connection threads are taken. -/
  | refuse (s : ServerState Engine) :
      s.accepting = true -> connectionLimit parallelism <= s.joins.length ->
      ServerStep parallelism host s { s with
        accepted := s.accepted + 1
        closed := s.closed ++ [(s.accepted, .refused ApiError.overloaded)] }
  | accept (s : ServerState Engine) :
      s.accepting = true -> s.joins.length < connectionLimit parallelism ->
      ServerStep parallelism host s { s with
        accepted := s.accepted + 1
        joins := s.joins ++ [s.accepted]
        reading := s.reading ++ [s.accepted] }
  /-- `reap_finished`, one finished thread at a time. -/
  | reap (s : ServerState Engine) (connection : Nat) :
      s.accepting = true -> connection ∉ s.reading ->
      connection ∉ s.ready.map WorkerRequest.connection ->
      ServerStep parallelism host s { s with joins := s.joins.erase connection }
  | readFails (s : ServerState Engine) (before after : List Nat) (connection : Nat)
      (error : ApiError) :
      s.reading = before ++ connection :: after ->
      ServerStep parallelism host s { s with
        reading := before ++ after
        closed := s.closed ++ [(connection, .refused error)] }
  | read (s : ServerState Engine) (before after : List Nat) (connection : Nat)
      (request : HttpRequest) :
      s.reading = before ++ connection :: after ->
      ServerStep parallelism host s { s with
        reading := before ++ after
        ready := s.ready ++ [{
          connection := connection
          request := request }] }
  | submit (s : ServerState Engine) (before after : List WorkerRequest) (work : WorkerRequest) :
      s.ready = before ++ work :: after ->
      ServerStep parallelism host s
        (submit (queueCapacity parallelism) { s with ready := before ++ after } work)
  /-- The monitor of a connection, when the client is gone or the server shuts down. -/
  | cancel (s : ServerState Engine) (connection : Nat) :
      ServerStep parallelism host s { s with cancelled := connection :: s.cancelled }
  | skip (s : ServerState Engine) (work : WorkerRequest) (rest : List WorkerRequest) :
      s.worker = .idle -> s.queue = work :: rest -> work.connection ∈ s.cancelled ->
      ServerStep parallelism host s { s with
        queue := rest
        taken := s.taken ++ [work]
        closed := s.closed ++ [(work.connection, .skipped)] }
  | receive (s : ServerState Engine) (work : WorkerRequest) (rest : List WorkerRequest) :
      s.worker = .idle -> s.queue = work :: rest -> work.connection ∉ s.cancelled ->
      ServerStep parallelism host s { s with
        queue := rest
        taken := s.taken ++ [work]
        worker := .serving work }
  | serve (s : ServerState Engine) (work : WorkerRequest) (now serial : Nat) :
      s.worker = .serving work -> ServerStep parallelism host s (serve host s work now serial)
  /-- A panic ends the worker and drops what is queued. -/
  | panic (s : ServerState Engine) (work : WorkerRequest) :
      s.worker = .serving work ->
      ServerStep parallelism host s { s with
        worker := .stopped
        queue := []
        lost := s.queue
        closed := s.closed ++ (work.connection, .dropped) ::
          s.queue.map (fun queued => (queued.connection, .dropped)) }
  /-- The accept loop ends on shutdown or on an error. -/
  | leave (s : ServerState Engine) :
      ServerStep parallelism host s { s with accepting := false }
  /-- Without connection threads the worker's queue closes once it is empty. -/
  | finish (s : ServerState Engine) :
      s.accepting = false -> s.reading = [] -> s.ready = [] -> s.queue = [] ->
      s.worker.connections = [] ->
      ServerStep parallelism host s { s with
        worker := .stopped
        returned := true }

/-!
# The calls of a request
-/

def CallsAtMost {alpha : Type} (host : WorkerHost Engine) (n : Nat)
    (call : WorkerCall Engine alpha) : Prop :=
  forall state, exists ops : List StoreOp, ops.length <= n ∧
    (call state).1.2 = StoreOp.run host.store state.2 ops

section Calls

variable {alpha beta : Type} {host : WorkerHost Engine} {n m : Nat}

theorem callsAtMost_none
    {call : WorkerCall Engine alpha} (h : forall state, (call state).1.2 = state.2) :
    CallsAtMost host n call :=
  fun state => ⟨[], Nat.zero_le n, h state⟩

theorem callsAtMost_onStore
    {call : InPlace ApiError ResponseStore alpha} (op : StoreOp)
    (h : forall store, (call store).1 = StoreOp.call host.store store op) :
    CallsAtMost host 1 (onStore call) :=
  fun state => ⟨[op], Nat.le_refl 1, h state.2⟩

theorem CallsAtMost.bind
    {call : WorkerCall Engine alpha} {next : alpha -> WorkerCall Engine beta}
    (h : CallsAtMost host n call) (hnext : forall x, CallsAtMost host m (next x)) :
    CallsAtMost host (n + m) (call >>= next) := by
  intro state
  rcases h state with ⟨ops, hlength, hstore⟩
  change exists ops : List StoreOp, _ ∧ (InPlace.andThen call next state).1.2 = _
  unfold InPlace.andThen
  rcases hcall : call state with ⟨left, error | x⟩
  · rw [hcall] at hstore
    exact ⟨ops, hlength.trans (Nat.le_add_right n m), hstore⟩
  · rw [hcall] at hstore
    rcases hnext x left with ⟨others, hothers, hrest⟩
    refine ⟨ops ++ others, ?_, ?_⟩
    · rw [List.length_append]
      exact Nat.add_le_add hlength hothers
    · dsimp only at hstore ⊢
      rw [hrest, hstore, StoreOp.run, StoreOp.run, StoreOp.run, List.foldl_append]

theorem callsAtMost_answering
    {call : InPlace ApiError ResponseStore Value} (op : StoreOp)
    (h : forall store, (call store).1 = StoreOp.call host.store store op) :
    CallsAtMost host 2 (answering host call) :=
  CallsAtMost.bind (m := 1) (callsAtMost_onStore op h)
    (fun _ => callsAtMost_none (fun _ => rfl))

theorem callsAtMost_createResponse (handling : Handling) :
    CallsAtMost host 2 (createResponse host handling) := by
  refine CallsAtMost.bind (n := 0) (m := 2) (callsAtMost_none (fun _ => rfl)) ?_
  intro request
  refine CallsAtMost.bind (n := 1) (m := 1)
    (callsAtMost_onStore (.resolve request handling.now) (fun _ => rfl)) ?_
  intro context
  refine CallsAtMost.bind (n := 0) (m := 1) (callsAtMost_none (fun _ => rfl)) ?_
  intro commit
  cases commit with
  | none => exact callsAtMost_none (fun _ => rfl)
  | some commit => exact fun state => ⟨[.commit commit], Nat.le_refl 1, rfl⟩

theorem callsAtMost_createConversation (handling : Handling) :
    CallsAtMost host 2 (createConversation host handling) := by
  refine CallsAtMost.bind (n := 0) (m := 2) (callsAtMost_none (fun _ => rfl)) ?_
  intro request
  exact callsAtMost_answering (.createConversation request handling.now handling.serial)
    (fun _ => rfl)

theorem callsAtMost_getInputItems (handling : Handling) (id : String) :
    CallsAtMost host 2 (getInputItems host handling id) := by
  refine CallsAtMost.bind (n := 0) (m := 2) (callsAtMost_none (fun _ => rfl)) ?_
  intro page
  exact callsAtMost_answering
    (.getInputItems id handling.now page.descending page.after page.limit) (fun _ => rfl)

theorem callsAtMost_handleWorkerRequest (host : WorkerHost Engine) (handling : Handling) :
    CallsAtMost host 2 (handleWorkerRequest host handling) := by
  unfold handleWorkerRequest
  dsimp only
  split
  · exact callsAtMost_none (fun _ => rfl)
  · split
    · unfold getRoute
      dsimp only
      split
      · exact callsAtMost_none (fun _ => rfl)
      · split
        · exact callsAtMost_getInputItems handling _
        · exact callsAtMost_answering (.getResponse _ handling.now) (fun _ => rfl)
        · exact callsAtMost_answering (.getConversation _) (fun _ => rfl)
        · split
          · exact callsAtMost_none (fun _ => rfl)
          · exact callsAtMost_none (fun _ => rfl)
    · split
      · unfold postRoute
        dsimp only
        split
        · exact callsAtMost_none (fun _ => rfl)
        · split
          · exact callsAtMost_createResponse handling
          · split
            · exact callsAtMost_createConversation handling
            · split
              · exact callsAtMost_none (fun _ => rfl)
              · exact callsAtMost_none (fun _ => rfl)
      · split
        · unfold deleteRoute
          split
          · exact callsAtMost_answering (.deleteResponse _) (fun _ => rfl)
          · exact callsAtMost_answering (.deleteConversation _) (fun _ => rfl)
          · exact callsAtMost_none (fun _ => rfl)
        · exact callsAtMost_none (fun _ => rfl)

end Calls

/-!
# What holds in every state
-/

def runHandlings (host : WorkerHost Engine) (state : Engine × ResponseStore)
    (handlings : List (Nat × Handling)) : Engine × ResponseStore :=
  handlings.foldl (fun state handling => (handleWorkerRequest host handling.2 state).1) state

def resultsOf (host : WorkerHost Engine) (state : Engine × ResponseStore) :
    List (Nat × Handling) -> List (Nat × Except ApiError Unit)
  | [] => []
  | handling :: rest =>
    let call := handleWorkerRequest host handling.2 state
    (handling.1, call.2) :: resultsOf host call.1 rest

section

variable (host : WorkerHost Engine) (state : Engine × ResponseStore)
  (handlings : List (Nat × Handling))

theorem runHandlings_append (last : Nat × Handling) :
    runHandlings host state (handlings ++ [last]) =
      (handleWorkerRequest host last.2 (runHandlings host state handlings)).1 := by
  unfold runHandlings
  rw [List.foldl_append]
  rfl

theorem resultsOf_append (last : Nat × Handling) :
    resultsOf host state (handlings ++ [last]) = resultsOf host state handlings ++
      [(last.1, (handleWorkerRequest host last.2 (runHandlings host state handlings)).2)] := by
  induction handlings generalizing state with
  | nil => rfl
  | cons handling rest ih => exact congrArg _ (ih (handleWorkerRequest host handling.2 state).1)

theorem runHandlings_calls :
    exists ops : List StoreOp, ops.length <= 2 * handlings.length ∧
      (runHandlings host state handlings).2 = StoreOp.run host.store state.2 ops := by
  induction handlings generalizing state with
  | nil => exact ⟨[], Nat.le_refl 0, rfl⟩
  | cons handling rest ih =>
    rcases callsAtMost_handleWorkerRequest host handling.2 state with ⟨ops, hlength, hstore⟩
    rcases ih (handleWorkerRequest host handling.2 state).1 with ⟨others, hothers, hrest⟩
    refine ⟨ops ++ others, ?_, ?_⟩
    · rw [List.length_append, List.length_cons]
      omega
    · rw [hstore] at hrest
      rw [StoreOp.run, List.foldl_append]
      exact hrest

end

/-- How many times a connection is named in the places where connections are. -/
def ServerState.placesOf (s : ServerState Engine) (connection : Nat) : Nat :=
  s.reading.count connection + (s.ready.map WorkerRequest.connection).count connection +
    (s.queue.map WorkerRequest.connection).count connection +
    s.worker.connections.count connection + (s.closed.map Prod.fst).count connection

/-- The requests that the worker has handled and the one that it handles. -/
def ServerState.underWay (s : ServerState Engine) : List HttpRequest :=
  s.served.map (fun handling => handling.2.request) ++
    match s.worker with
    | .serving work => [work.request]
    | _ => []

def Outcome.result : Nat × Outcome -> Option (Nat × Except ApiError Unit)
  | (connection, .handled result _) => some (connection, result)
  | _ => none

def ServerState.results (s : ServerState Engine) : List (Nat × Except ApiError Unit) :=
  s.closed.filterMap Outcome.result

structure ServerState.Ordered (parallelism : Option Nat) (host : WorkerHost Engine)
    (before : Engine × ResponseStore) (s : ServerState Engine) : Prop where
  places : forall connection, s.placesOf connection = if connection < s.accepted then 1 else 0
  queue : s.queue.length <= queueCapacity parallelism
  joins : s.joins.length <= connectionLimit parallelism
  fifo : s.admitted = s.taken ++ s.queue ++ s.lost
  lost : s.lost = [] ∨ (s.queue = [] ∧ s.worker.isStopped = true)
  underWay : s.underWay.Sublist (s.taken.map WorkerRequest.request)
  state : (s.engine, s.store) = runHandlings host before s.served
  results : s.results = resultsOf host before s.served
  returned : s.returned = true -> s.accepting = false ∧ s.reading = [] ∧ s.ready = [] ∧
    s.queue = [] ∧ s.worker.connections = []

variable {parallelism : Option Nat} {host : WorkerHost Engine}
  {before : Engine × ResponseStore} {s next : ServerState Engine}

theorem start_ordered (parallelism : Option Nat) (host : WorkerHost Engine) (engine : Engine)
    (maxBytes : Nat) :
    (ServerState.start engine maxBytes).Ordered parallelism host
      (engine, ResponseStore.new maxBytes) := by
  constructor
  · exact fun _ => rfl
  · exact Nat.zero_le _
  · exact Nat.zero_le _
  · rfl
  · exact Or.inl rfl
  · exact List.Sublist.refl _
  · rfl
  · rfl
  · exact nofun

theorem count_append_singleton (items : List Nat) (item other : Nat) :
    (items ++ [item]).count other = items.count other + if item = other then 1 else 0 := by
  rw [List.count_append, List.count_singleton]
  simp only [beq_iff_eq]

theorem count_middle (front back : List Nat) (item other : Nat) :
    (front ++ item :: back).count other =
      (front ++ back).count other + if item = other then 1 else 0 := by
  rw [List.count_append, List.count_append, List.count_cons]
  simp only [beq_iff_eq]
  omega

theorem count_cons (rest : List Nat) (item other : Nat) :
    (item :: rest).count other = rest.count other + if item = other then 1 else 0 := by
  rw [List.count_cons]
  simp only [beq_iff_eq]

theorem filterMap_result
    {closed : List (Nat × Outcome)} {last : Nat × Outcome} (h : Outcome.result last = none) :
    (closed ++ [last]).filterMap Outcome.result = closed.filterMap Outcome.result := by
  rw [List.filterMap_append, List.filterMap_cons_none h, List.filterMap_nil, List.append_nil]

theorem result_outcomeOf (connection : Nat) (result : Except ApiError Unit) (cancelled : Bool) :
    Outcome.result (connection, outcomeOf result cancelled) = some (connection, result) := by
  cases result with
  | ok => rfl
  | error error => rfl

theorem ServerState.Ordered.lost_of_live {worker : WorkerThread}
    (h : s.Ordered parallelism host before) (hworker : s.worker = worker)
    (hlive : worker.isStopped = false) : s.lost = [] := by
  refine h.lost.resolve_right ?_
  rw [hworker, hlive]
  exact fun hboth => nomatch hboth.2

theorem ServerState.Ordered.dequeued {work : WorkerRequest} {rest : List WorkerRequest}
    (h : s.Ordered parallelism host before) (hqueue : s.queue = work :: rest) :
    rest.length <= queueCapacity parallelism ∧
      s.admitted = s.taken ++ [work] ++ rest ++ s.lost := by
  have hlength := h.queue
  rw [hqueue] at hlength
  constructor
  · exact (Nat.le_succ _).trans hlength
  · rw [h.fifo, hqueue, List.append_assoc s.taken [work] rest, List.singleton_append]

/-! While there is something to do, the server has not returned. -/

theorem ServerState.Ordered.running_of_accepting
    (h : s.Ordered parallelism host before) (haccepting : s.accepting = true) :
    ¬ s.returned = true := by
  intro hreturned
  rw [(h.returned hreturned).1] at haccepting
  cases haccepting

theorem ServerState.Ordered.running_of_reading {front back : List Nat} {connection : Nat}
    (h : s.Ordered parallelism host before) (hreading : s.reading = front ++ connection :: back) :
    ¬ s.returned = true := by
  intro hreturned
  rw [(h.returned hreturned).2.1] at hreading
  exact absurd hreading.symm (List.append_ne_nil_of_right_ne_nil _ (List.cons_ne_nil _ _))

theorem ServerState.Ordered.running_of_queued {work : WorkerRequest} {rest : List WorkerRequest}
    (h : s.Ordered parallelism host before) (hqueue : s.queue = work :: rest) :
    ¬ s.returned = true := by
  intro hreturned
  rw [(h.returned hreturned).2.2.2.1] at hqueue
  cases hqueue

theorem ServerState.Ordered.running_of_serving {work : WorkerRequest}
    (h : s.Ordered parallelism host before) (hworker : s.worker = .serving work) :
    ¬ s.returned = true := by
  intro hreturned
  have hconnections := (h.returned hreturned).2.2.2.2
  rw [hworker] at hconnections
  cases hconnections

theorem submit_ordered
    {front back : List WorkerRequest} {work : WorkerRequest}
    (h : s.Ordered parallelism host before) (hready : s.ready = front ++ work :: back) :
    (submit (queueCapacity parallelism) { s with ready := front ++ back } work).Ordered
      parallelism host before := by
  have hplaces := h.places
  have hreturned : s.returned = true -> False := by
    intro hreturned
    rw [(h.returned hreturned).2.2.1] at hready
    exact absurd hready.symm (List.append_ne_nil_of_right_ne_nil _ (List.cons_ne_nil _ _))
  unfold ServerState.placesOf at hplaces
  simp only [hready, List.map_append, List.map_cons, count_middle] at hplaces
  have hrefused : forall error, ServerState.Ordered parallelism host before { s with
      ready := front ++ back
      closed := s.closed ++ [(work.connection, .refused error)] } := by
    intro error
    constructor
    · intro connection
      have hplace := hplaces connection
      unfold ServerState.placesOf
      simp only [List.map_append, List.map_singleton, count_append_singleton]
      omega
    · exact h.queue
    · exact h.joins
    · exact h.fifo
    · exact h.lost
    · exact h.underWay
    · exact h.state
    · exact (filterMap_result rfl).trans h.results
    · exact fun hdone => (hreturned hdone).elim
  have hadmitted : ¬ s.worker.isStopped = true ->
      s.queue.length < queueCapacity parallelism ->
      ServerState.Ordered parallelism host before { s with
        ready := front ++ back
        queue := s.queue ++ [work]
        admitted := s.admitted ++ [work] } := by
    intro hworker hroom
    have hlost := h.lost_of_live rfl (Bool.eq_false_iff.mpr hworker)
    constructor
    · intro connection
      have hplace := hplaces connection
      unfold ServerState.placesOf
      simp only [List.map_append, List.map_singleton, count_append_singleton]
      omega
    · exact (List.length_append.trans_le (Nat.succ_le_of_lt hroom))
    · exact h.joins
    · dsimp only
      rw [h.fifo, hlost, List.append_nil, List.append_nil, List.append_assoc]
    · exact Or.inl hlost
    · exact h.underWay
    · exact h.state
    · exact h.results
    · exact fun hdone => (hreturned hdone).elim
  unfold submit
  dsimp only
  split
  · exact hrefused _
  · rename_i hworker
    split
    · rename_i hroom
      exact hadmitted hworker hroom
    · exact hrefused _

section

variable {work : WorkerRequest} {rest : List WorkerRequest} (h : s.Ordered parallelism host before)
  (hworker : s.worker = .idle) (hqueue : s.queue = work :: rest)
include h hworker hqueue

theorem skip_ordered :
    ServerState.Ordered parallelism host before { s with
      queue := rest
      taken := s.taken ++ [work]
      closed := s.closed ++ [(work.connection, .skipped)] } := by
  have hdequeued := h.dequeued hqueue
  refine ⟨?_, hdequeued.1, h.joins, hdequeued.2, Or.inl (h.lost_of_live hworker rfl), ?_,
    h.state, (filterMap_result rfl).trans h.results, ?_⟩
  · intro connection
    have hplace := h.places connection
    unfold ServerState.placesOf at hplace ⊢
    rw [hqueue, List.map_cons, count_cons] at hplace
    simp only [List.map_append, List.map_singleton, count_append_singleton]
    omega
  · rw [List.map_append]
    exact h.underWay.trans (List.sublist_append_left _ _)
  · exact fun hreturned => (h.running_of_queued hqueue hreturned).elim

theorem receive_ordered :
    ServerState.Ordered parallelism host before { s with
      queue := rest
      taken := s.taken ++ [work]
      worker := .serving work } := by
  have hdequeued := h.dequeued hqueue
  refine ⟨?_, hdequeued.1, h.joins, hdequeued.2, Or.inl (h.lost_of_live hworker rfl), ?_,
    h.state, h.results, ?_⟩
  · intro connection
    have hplace := h.places connection
    unfold ServerState.placesOf at hplace ⊢
    rw [hqueue, List.map_cons, count_cons, hworker] at hplace
    dsimp only [WorkerThread.connections] at hplace ⊢
    rw [List.count_singleton]
    simp only [List.count_nil, beq_iff_eq] at hplace ⊢
    omega
  · have hunder := h.underWay
    unfold ServerState.underWay at hunder ⊢
    rw [hworker, List.append_nil] at hunder
    rw [List.map_append]
    exact hunder.append (List.Sublist.refl _)
  · exact fun hreturned => (h.running_of_queued hqueue hreturned).elim

end

theorem serve_ordered {work : WorkerRequest} (now serial : Nat)
    (h : s.Ordered parallelism host before) (hworker : s.worker = .serving work) :
    (serve host s work now serial).Ordered parallelism host before := by
  refine ⟨?_, h.queue, h.joins, h.fifo, Or.inl (h.lost_of_live hworker rfl), ?_, ?_, ?_, ?_⟩
  · intro connection
    have hplace := h.places connection
    unfold ServerState.placesOf at hplace ⊢
    rw [hworker] at hplace
    unfold serve
    simp only [List.map_append, List.map_singleton, count_append_singleton,
      WorkerThread.connections, List.count_nil, List.count_singleton, beq_iff_eq] at hplace ⊢
    omega
  · have hunder := h.underWay
    unfold ServerState.underWay at hunder ⊢
    rw [hworker] at hunder
    unfold serve
    rw [List.map_append, List.append_nil]
    exact hunder
  · unfold serve
    dsimp only
    rw [runHandlings_append, <- h.state]
  · unfold serve ServerState.results
    dsimp only
    rw [resultsOf_append, List.filterMap_append, <- h.state]
    exact congrArg₂ _ h.results (List.filterMap_cons_some (result_outcomeOf ..))
  · exact fun hreturned => (h.running_of_serving hworker hreturned).elim

theorem panic_ordered {work : WorkerRequest}
    (h : s.Ordered parallelism host before) (hworker : s.worker = .serving work) :
    ServerState.Ordered parallelism host before { s with
      worker := .stopped
      queue := []
      lost := s.queue
      closed := s.closed ++ (work.connection, .dropped) ::
        s.queue.map (fun queued => (queued.connection, .dropped)) } := by
  have hlost := h.lost_of_live hworker rfl
  refine ⟨?_, Nat.zero_le _, h.joins, ?_, Or.inr ⟨rfl, rfl⟩, ?_, h.state, ?_, ?_⟩
  · intro connection
    have hplace := h.places connection
    unfold ServerState.placesOf at hplace ⊢
    rw [hworker] at hplace
    simp only [List.map_append, List.map_cons, List.map_map, List.map_nil, List.count_append,
      count_cons, WorkerThread.connections, List.count_nil] at hplace ⊢
    have hqueued : (s.queue.map (Prod.fst ∘ fun queued => (queued.connection,
        Outcome.dropped))) = s.queue.map WorkerRequest.connection := rfl
    rw [hqueued]
    omega
  · have hfifo := h.fifo
    rw [hlost, List.append_nil] at hfifo
    dsimp only
    rw [hfifo, List.append_nil]
  · have hunder := h.underWay
    unfold ServerState.underWay at hunder ⊢
    rw [hworker] at hunder
    dsimp only
    rw [List.append_nil]
    exact (List.sublist_append_left _ _).trans hunder
  · have hdropped : ((work.connection, Outcome.dropped) ::
        s.queue.map (fun queued => (queued.connection, Outcome.dropped))).filterMap
          Outcome.result = [] := by
      rw [List.filterMap_cons_none rfl, List.filterMap_map, List.filterMap_eq_nil_iff]
      exact fun _ _ => rfl
    exact List.filterMap_append.trans
      ((congrArg _ hdropped).trans ((List.append_nil _).trans h.results))
  · exact fun hreturned => (h.running_of_serving hworker hreturned).elim

theorem ServerStep.ordered
    (h : s.Ordered parallelism host before) (hstep : ServerStep parallelism host s next) :
    next.Ordered parallelism host before := by
  have hplaces := h.places
  unfold ServerState.placesOf at hplaces
  cases hstep with
  | refuse haccepting hfull =>
    refine ⟨?_, h.queue, h.joins, h.fifo, h.lost, h.underWay, h.state,
      (filterMap_result rfl).trans h.results, ?_⟩
    · intro connection
      have hplace := hplaces connection
      unfold ServerState.placesOf
      simp only [List.map_append, List.map_singleton, count_append_singleton]
      split_ifs at hplace ⊢ <;> omega
    · exact fun hreturned => (h.running_of_accepting haccepting hreturned).elim
  | accept haccepting hroom =>
    refine ⟨?_, h.queue, ?_, h.fifo, h.lost, h.underWay, h.state, h.results, ?_⟩
    · intro connection
      have hplace := hplaces connection
      unfold ServerState.placesOf
      simp only [count_append_singleton]
      split_ifs at hplace ⊢ <;> omega
    · exact List.length_append.trans_le (Nat.succ_le_of_lt hroom)
    · exact fun hreturned => (h.running_of_accepting haccepting hreturned).elim
  | reap connection haccepting hreading hready =>
    exact ⟨h.places, h.queue, (List.length_erase_le ..).trans h.joins, h.fifo, h.lost,
      h.underWay, h.state, h.results, h.returned⟩
  | readFails front back connection error hreading =>
    refine ⟨?_, h.queue, h.joins, h.fifo, h.lost, h.underWay, h.state,
      (filterMap_result rfl).trans h.results, ?_⟩
    · intro other
      have hplace := hplaces other
      rw [hreading, count_middle] at hplace
      unfold ServerState.placesOf
      simp only [List.map_append, List.map_singleton, count_append_singleton]
      omega
    · exact fun hreturned => (h.running_of_reading hreading hreturned).elim
  | read front back connection request hreading =>
    refine ⟨?_, h.queue, h.joins, h.fifo, h.lost, h.underWay, h.state, h.results, ?_⟩
    · intro other
      have hplace := hplaces other
      rw [hreading, count_middle] at hplace
      unfold ServerState.placesOf
      simp only [List.map_append, List.map_singleton, count_append_singleton]
      omega
    · exact fun hreturned => (h.running_of_reading hreading hreturned).elim
  | submit front back work hready => exact submit_ordered h hready
  | cancel connection =>
    exact ⟨h.places, h.queue, h.joins, h.fifo, h.lost, h.underWay, h.state, h.results, h.returned⟩
  | skip work rest hworker hqueue hcancelled => exact skip_ordered h hworker hqueue
  | receive work rest hworker hqueue hlive => exact receive_ordered h hworker hqueue
  | serve work now serial hworker => exact serve_ordered now serial h hworker
  | panic work hworker => exact panic_ordered h hworker
  | leave =>
    exact ⟨h.places, h.queue, h.joins, h.fifo, h.lost, h.underWay, h.state,
      h.results, fun hreturned => ⟨rfl, (h.returned hreturned).2⟩⟩
  | finish haccepting hreading hready hqueue hworker =>
    refine ⟨?_, h.queue, h.joins, h.fifo, ?_, ?_, h.state, h.results, ?_⟩
    · intro connection
      have hplace := hplaces connection
      rw [hworker] at hplace
      exact hplace
    · exact h.lost.imp_right (fun hboth => ⟨hboth.1, rfl⟩)
    · have hunder := h.underWay
      unfold ServerState.underWay at hunder ⊢
      exact (List.Sublist.append_left (List.nil_sublist _) _).trans hunder
    · exact fun _ => ⟨haccepting, hreading, hready, hqueue, rfl⟩

theorem run_ordered
    {engine : Engine} {maxBytes : Nat} (h : Relation.ReflTransGen (ServerStep parallelism host)
      (ServerState.start engine maxBytes) s) :
    s.Ordered parallelism host (engine, ResponseStore.new maxBytes) := by
  induction h with
  | refl => exact start_ordered parallelism host engine maxBytes
  | tail _ hstep ih => exact ServerStep.ordered ih hstep

theorem ServerState.Ordered.closed_perm
    (h : s.Ordered parallelism host before) (hreturned : s.returned = true) :
    (s.closed.map Prod.fst).Perm (List.range s.accepted) := by
  rw [List.perm_iff_count]
  intro connection
  rcases h.returned hreturned with ⟨-, hreading, hready, hqueue, hworker⟩
  have hplace := h.places connection
  unfold ServerState.placesOf at hplace
  rw [hreading, hready, hqueue, hworker] at hplace
  rw [List.nodup_range.count]
  simp only [List.map_nil, List.count_nil, List.mem_range] at hplace ⊢
  omega

/-- In whatever order the threads take their steps: every connection is in one place and is
closed once, the queue and the threads stay within their limits, the worker takes the
requests in the order in which they were admitted, and what it leaves in the engine and the
store and what it answers is what handling them one after the other gives. -/
theorem server_serial
    {engine : Engine} {maxBytes : Nat} (h : Relation.ReflTransGen (ServerStep parallelism host)
      (ServerState.start engine maxBytes) s) :
    (forall connection, s.placesOf connection = if connection < s.accepted then 1 else 0) ∧
      s.queue.length <= queueCapacity parallelism ∧
      s.joins.length <= connectionLimit parallelism ∧
      s.admitted = s.taken ++ s.queue ++ s.lost ∧
      s.underWay.Sublist (s.taken.map WorkerRequest.request) ∧
      (s.engine, s.store) =
        runHandlings host (engine, ResponseStore.new maxBytes) s.served ∧
      s.results = resultsOf host (engine, ResponseStore.new maxBytes) s.served ∧
      (exists ops : List StoreOp, ops.length <= 2 * s.served.length ∧
        s.store = StoreOp.run host.store (ResponseStore.new maxBytes) ops) ∧
      s.store.ListsInputs ∧
      (s.returned = true -> (s.closed.map Prod.fst).Perm (List.range s.accepted)) := by
  have hordered := run_ordered h
  have hruns : exists ops : List StoreOp, ops.length <= 2 * s.served.length ∧
      s.store = StoreOp.run host.store (ResponseStore.new maxBytes) ops := by
    rcases runHandlings_calls host (engine, ResponseStore.new maxBytes) s.served with
      ⟨ops, hlength, hstore⟩
    exact ⟨ops, hlength, (congrArg Prod.snd hordered.state).trans hstore⟩
  refine ⟨hordered.places, hordered.queue, hordered.joins, hordered.fifo, hordered.underWay,
    hordered.state, hordered.results, hruns, ?_, fun hreturned =>
      hordered.closed_perm hreturned⟩
  rcases hruns with ⟨ops, -, hstore⟩
  rw [hstore]
  exact StoreOp.run_listsInputs host.store maxBytes ops

end Steps

def countingHost : WorkerHost Nat where
  store := smallHost
  parseResponse := fun _ => .error ""
  parseConversation := fun _ => .error ""
  chat := fun _ engine => (engine + 1, .ok ())
  respond := fun _ _ _ engine => (engine, .ok none)
  afterCommit := fun _ result => result
  models := .null
  write := fun _ => .ok ()

def chatRequest : HttpRequest where
  method := "POST".toList
  path := "/v1/chat/completions".toList
  query := none
  body := []

/-- Of three connections the third is read first and the second finds the queue full. -/
theorem server_serial_chat :
    exists s : ServerState Nat, s.returned = true ∧ s.engine = 2 ∧
      s.results = [(2, .ok ()), (0, .ok ())] ∧
      s.admitted.map WorkerRequest.connection = [2, 0] ∧
      (s.closed.map Prod.fst).Perm [0, 1, 2] := by
  have haccepted : Relation.ReflTransGen (ServerStep (some 1) countingHost)
      (ServerState.start 0 100) _ :=
    ((Relation.ReflTransGen.refl.tail (.accept _ rfl (by decide))).tail
      (.accept _ rfl (by decide))).tail (.accept _ rfl (by decide))
  have hread := ((haccepted.tail (.read _ [0, 1] [] 2 chatRequest rfl)).tail
    (.read _ [] [1] 0 chatRequest rfl)).tail (.read _ [] [] 1 chatRequest rfl)
  have hsubmitted := ((hread.tail (.submit _ [] _ _ rfl)).tail (.submit _ [] _ _ rfl)).tail
    (.submit _ [] [] _ rfl)
  have hfirst := (hsubmitted.tail (.receive _ _ _ rfl rfl (by decide))).tail
    (.serve _ _ 0 0 rfl)
  have hserved := (hfirst.tail (.receive _ _ [] rfl rfl (by decide))).tail (.serve _ _ 1 1 rfl)
  have hserial := server_serial ((hserved.tail (.leave _)).tail (.finish _ rfl rfl rfl rfl rfl))
  exact ⟨_, rfl, by decide +kernel, hserial.2.2.2.2.2.2.1.trans (by rfl), rfl,
    hserial.2.2.2.2.2.2.2.2.2 rfl⟩

end Server
end RunNBurn
