import RunNBurn.Server.Http
import RunNBurn.Server.StoreCalls

/-!
# What the worker does for a request

A request is routed by its method and path.  Only the store calls of a route change the
store; the engine, the parsing of the bodies and the writing of the answers come from
outside.
-/

namespace RunNBurn
namespace Server

open Library
open Http (HttpRequest)
open ResponseStore (CommitRequest)

namespace ApiError

def routeNotFound : ApiError where
  status := 404
  message := "Not found"
  errorType := "invalid_request_error"
  param := none
  code := some "not_found"

def methodNotAllowed : ApiError where
  status := 405
  message := "Method not allowed"
  errorType := "invalid_request_error"
  param := none
  code := some "method_not_allowed"

def overloaded : ApiError where
  status := 429
  message := "The server is handling too many active or queued requests"
  errorType := "server_error"
  param := none
  code := some "server_overloaded"

end ApiError

def stripPrefix (front text : Text) : Option Text :=
  if front <+: text then some (text.drop front.length) else none

/-- An id is not empty and holds no slash. -/
def idOf (text : Text) : Option String :=
  if text ≠ [] ∧ '/' ∉ text then some (String.ofList text) else none

def responseId (path : Text) : Option String :=
  (stripPrefix "/v1/responses/".toList path).bind idOf

def responseInputItemsId (path : Text) : Option String :=
  ((stripPrefix "/v1/responses/".toList path).bind (stripSuffix "/input_items".toList)).bind idOf

def conversationId (path : Text) : Option String :=
  (stripPrefix "/v1/conversations/".toList path).bind idOf

/-!
# The page of input items
-/

structure InputItemsPage where
  descending : Bool
  after : Option String
  limit : Nat
deriving DecidableEq, Repr

/-- `split_once('=')` -/
def nameAndValue (parameter : Text) : Text × Text :=
  (splitAtWord ['='] parameter).getD (parameter, [])

def parseLimit (value : Text) : Except ApiError Nat :=
  match (Http.parseUsize value).filter (fun limit => 1 <= limit ∧ limit <= 100) with
  | some limit => .ok limit
  | none =>
    .error (ApiError.invalid "limit must be an integer between 1 and 100" (some "limit")
      (some "invalid_value"))

def parseParameter (page : InputItemsPage) (parameter : Text) : Except ApiError InputItemsPage :=
  if parameter = [] then .ok page
  else
    let name := String.ofList (nameAndValue parameter).1
    let value := (nameAndValue parameter).2
    if name = "order" then
      if value = "asc".toList then .ok { page with descending := false }
      else if value = "desc".toList then .ok { page with descending := true }
      else
        .error (ApiError.invalid "order must be 'asc' or 'desc'" (some "order")
          (some "invalid_value"))
    else if name = "after" then
      if value ≠ [] then .ok { page with after := some (String.ofList value) }
      else
        .error (ApiError.invalid "after must be a non-empty item ID" (some "after")
          (some "invalid_value"))
    else if name = "limit" then
      (parseLimit value).map fun limit => { page with limit := limit }
    else if name = "include" ∨ name = "include[]" ∨ name = "include%5B%5D" then
      .error (ApiError.invalid "include is not supported by this server" (some "include")
        (some "unsupported_parameter"))
    else
      .error (ApiError.invalid s!"unsupported query parameter '{name}'" (some "query")
        (some "invalid_value"))

def parseInputItemsQuery (query : Option Text) : Except ApiError InputItemsPage :=
  ((query.map (List.splitOn '&')).getD []).foldlM parseParameter {
    descending := true
    after := none
    limit := 20 }

/-!
# The routes
-/

/-- What a request needs besides the store.  `respond` prepares and generates a response and
says what is to be committed, if anything; `afterCommit` says what the commit is answered
with. -/
structure WorkerHost (Engine : Type) where
  store : StoreHost
  parseResponse : List UInt8 -> Except String ResponseRequest
  parseConversation : List UInt8 -> Except String ConversationCreateRequest
  chat : List UInt8 -> Engine -> Engine × Except ApiError Unit
  respond : List UInt8 -> ResolvedResponseContext -> ResponseStore -> Engine ->
    Engine × Except ApiError (Option CommitRequest)
  afterCommit : List UInt8 -> Except ApiError Unit -> Except ApiError Unit
  models : Value
  write : Value -> Except ApiError Unit

structure Handling where
  request : HttpRequest
  now : Nat
  serial : Nat

section Routes

variable {Engine : Type}

abbrev WorkerCall (Engine alpha : Type) : Type :=
  InPlace ApiError (Engine × ResponseStore) alpha

def onStore {alpha : Type} (call : InPlace ApiError ResponseStore alpha) :
    WorkerCall Engine alpha :=
  InPlace.onPart Prod.snd (fun store state => (state.1, store)) call

def answering (host : WorkerHost Engine) (call : InPlace ApiError ResponseStore Value) :
    WorkerCall Engine Unit := do
  let body <- onStore call
  InPlace.reading fun _ => host.write body

/-- `serde_json::from_slice(&request.body)` -/
def jsonBody {alpha : Type} (parsed : Except String alpha) : WorkerCall Engine alpha :=
  InPlace.reading fun _ => parsed.mapError fun error =>
    ApiError.invalid ("Invalid JSON request body: " ++ error) none (some "invalid_json")

def generating (host : WorkerHost Engine) (body : List UInt8)
    (context : ResolvedResponseContext) : WorkerCall Engine (Option CommitRequest) :=
  fun state =>
    let result := host.respond body context state.2 state.1
    ((result.1, state.2), result.2)

def committing (host : WorkerHost Engine) (body : List UInt8) :
    Option CommitRequest -> WorkerCall Engine Unit
  | none => fun state => (state, .ok ())
  | some commit => fun state =>
    let result := ResponseStore.commit host.store commit state.2
    ((state.1, result.1), host.afterCommit body result.2)

def createResponse (host : WorkerHost Engine) (handling : Handling) : WorkerCall Engine Unit := do
  let request <- jsonBody (host.parseResponse handling.request.body)
  let context <- onStore (ResponseStore.resolve host.store request handling.now)
  let commit <- generating host handling.request.body context
  committing host handling.request.body commit

def createConversation (host : WorkerHost Engine) (handling : Handling) :
    WorkerCall Engine Unit := do
  let request <- jsonBody (host.parseConversation handling.request.body)
  answering host
    (ResponseStore.createConversation host.store request handling.now handling.serial)

def getInputItems (host : WorkerHost Engine) (handling : Handling) (id : String) :
    WorkerCall Engine Unit := do
  let page <- InPlace.reading fun _ => parseInputItemsQuery handling.request.query
  answering host
    (ResponseStore.getInputItems id handling.now page.descending page.after page.limit)

section

variable (host : WorkerHost Engine)

def chatCompletions (body : List UInt8) : WorkerCall Engine Unit :=
  fun state =>
    let result := host.chat body state.1
    ((result.1, state.2), result.2)

def getRoute (handling : Handling) : WorkerCall Engine Unit :=
  let path := handling.request.path
  if path = "/v1/models".toList then InPlace.reading fun _ => host.write host.models
  else
    match responseInputItemsId path, responseId path, conversationId path with
    | some id, _, _ => getInputItems host handling id
    | none, some id, _ => answering host (ResponseStore.getResponse id handling.now)
    | none, none, some id => answering host (ResponseStore.getConversation id)
    | none, none, none =>
      if path = "/v1/chat/completions".toList ∨ path = "/v1/responses".toList ∨
          path = "/v1/conversations".toList then
        InPlace.failing ApiError.methodNotAllowed
      else
        InPlace.failing ApiError.routeNotFound

def postRoute (handling : Handling) : WorkerCall Engine Unit :=
  let path := handling.request.path
  if path = "/v1/chat/completions".toList then chatCompletions host handling.request.body
  else if path = "/v1/responses".toList then createResponse host handling
  else if path = "/v1/conversations".toList then createConversation host handling
  else if path = "/v1/models".toList then InPlace.failing ApiError.methodNotAllowed
  else InPlace.failing ApiError.routeNotFound

def deleteRoute (path : Text) : WorkerCall Engine Unit :=
  match responseId path, conversationId path with
  | some id, _ => answering host (ResponseStore.deleteResponse id)
  | none, some id => answering host (ResponseStore.deleteConversation id)
  | none, none => InPlace.failing ApiError.routeNotFound

end

def queryAllowed (request : HttpRequest) : Bool :=
  (request.method = "GET".toList ∧ (responseInputItemsId request.path).isSome) ∨
    request.query.getD [] = []

def handleWorkerRequest (host : WorkerHost Engine) (handling : Handling) :
    WorkerCall Engine Unit :=
  let method := handling.request.method
  if queryAllowed handling.request = false then
    InPlace.failing (ApiError.invalid "query parameters are not supported for this endpoint"
      (some "query") (some "unsupported_parameter"))
  else if method = "GET".toList then getRoute host handling
  else if method = "POST".toList then postRoute host handling
  else if method = "DELETE".toList then deleteRoute host handling.request.path
  else InPlace.failing ApiError.routeNotFound

end Routes

end Server
end RunNBurn
