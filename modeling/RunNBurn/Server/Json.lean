import RunNBurn.Library.Checked

/-!
# JSON values and request errors

The values that requests and responses are made of, with the accessors that the
server uses, and the error that a failed request reports.
-/

namespace RunNBurn
namespace Server

/-- `serde_json::Value`; a number is kept as it is written. -/
inductive Value where
  | null
  | bool (value : Bool)
  | number (literal : String)
  | string (text : String)
  | array (items : List Value)
  | object (fields : List (String × Value))

namespace Value

def isNull : Value -> Bool
  | null => true
  | _ => false

def asStr : Value -> Option String
  | string text => some text
  | _ => none

def asBool : Value -> Option Bool
  | bool value => some value
  | _ => none

def asArray : Value -> Option (List Value)
  | array items => some items
  | _ => none

def asObject : Value -> Option (List (String × Value))
  | object fields => some fields
  | _ => none

def get (value : Value) (name : String) : Option Value :=
  match value with
  | object fields => fields.lookup name
  | _ => none

/-- `value["name"]`, which is null when the field is missing. -/
def field (value : Value) (name : String) : Value :=
  (value.get name).getD null

end Value

/-- `object.entry(name).or_insert(value)`. -/
def entryOrInsert (fields : List (String × Value)) (name : String) (value : Value) :
    List (String × Value) :=
  match fields.lookup name with
  | some _ => fields
  | none => fields ++ [(name, value)]

/-- `object.insert(name, value)`. -/
def insertField (fields : List (String × Value)) (name : String) (value : Value) :
    List (String × Value) :=
  match fields.lookup name with
  | some _ => fields.map (fun entry => if entry.1 = name then (name, value) else entry)
  | none => fields ++ [(name, value)]

structure ApiError where
  status : Nat
  message : String
  errorType : String
  param : Option String
  code : Option String
deriving DecidableEq, Repr

namespace ApiError

def invalid (message : String) (param code : Option String) : ApiError where
  status := 400
  message := message
  errorType := "invalid_request_error"
  param := param
  code := code

def resourceNotFound (message : String) (param : Option String) : ApiError where
  status := 404
  message := message
  errorType := "invalid_request_error"
  param := param
  code := some "not_found"

def internal (message : String) : ApiError where
  status := 500
  message := message
  errorType := "server_error"
  param := none
  code := some "server_error"

end ApiError

end Server
end RunNBurn
