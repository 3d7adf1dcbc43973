import SagaEngine.Binary64.Decimal
import SagaEngine.Text.Quoted
import SagaEngine.Wire.Encode

/-! Reading faults, outcomes, run states, operations and messages from JSON. A record is read from an
object, whose unknown fields do not matter, or from an array of its fields in order. A variant is read
from its name, or from an object with its name as the only field. -/

namespace SagaEngine.Wire

inductive Error where
  | invalidType (found expected : String)
  | invalidValue (found expected : String)
  | invalidLength (found : Nat) (expected : String)
  | missingField (name : String)
  | unknownVariant (name : String) (known : List String)
  | uuid (e : Uuid.ReadError)
deriving DecidableEq, Repr

def ticked (s : String) : String := "\x60" ++ s ++ "\x60"

def Error.message : Error → String
  | .invalidType found expected => "invalid type: " ++ found ++ ", expected " ++ expected
  | .invalidValue found expected => "invalid value: " ++ found ++ ", expected " ++ expected
  | .invalidLength found expected => "invalid length " ++ toString found ++ ", expected " ++ expected
  | .missingField name => "missing field " ++ ticked name
  | .unknownVariant name known =>
    "unknown variant " ++ ticked name ++ ", expected one of " ++
      ", ".intercalate (known.map ticked)
  | .uuid e => "UUID parsing failed: " ++ e.message

def describe : Json → String
  | .null => "null"
  | .bool b => "boolean " ++ ticked (toString b)
  | .int n => "integer " ++ ticked (toString n)
  | .float x => "floating point " ++ ticked x.pretty
  | .str s => "string " ++ Text.quote s
  | .arr _ => "sequence"
  | .obj _ => "map"

def mismatch {α : Type} (v : Json) (expected : String) : Except Error α :=
  .error (.invalidType (describe v) expected)

def string : Json → Except Error String
  | .str s => .ok s
  | v => mismatch v "a string"

def optionalString : Json → Except Error (Option String)
  | .null => .ok none
  | v => (string v).map some

def uuid : Json → Except Error Uuid
  | .str s => match Uuid.read s with
    | .ok u => .ok u
    | .error e => .error (.uuid e)
  | v => mismatch v "a formatted UUID string"

/-- Reads a record, whose `items` come from an array and whose `fields` from an object. -/
def record {α : Type} (type : String) (items : List Json → Except Error (α × List Json))
    (fields : List (String × Json) → Except Error α) : Json → Except Error α
  | .arr vs => do
    let (a, rest) ← items vs
    if rest.isEmpty then .ok a
    else .error (.invalidLength vs.length "fewer elements in array")
  | .obj fs => fields fs
  | v => mismatch v ("struct " ++ type)

def item {α : Type} (read : Json → Except Error α) (index : Nat) (expected : String) :
    List Json → Except Error (α × List Json)
  | v :: rest => (read v).map (·, rest)
  | [] => .error (.invalidLength index expected)

def itemOr {α : Type} (read : Json → Except Error α) (default : α) :
    List Json → Except Error (α × List Json)
  | v :: rest => (read v).map (·, rest)
  | [] => .ok (default, [])

def checkFields (check : String → Json → Except Error Unit) :
    List (String × Json) → Except Error Unit
  | [] => .ok ()
  | (k, v) :: rest => do
    check k v
    checkFields check rest

def field {α : Type} (read : Json → Except Error α) (fs : Table Json) (name : String) :
    Except Error α :=
  match fs.get? name with
  | some v => read v
  | none => .error (.missingField name)

def fieldOr {α : Type} (read : Json → Except Error α) (fs : Table Json) (name : String)
    (default : α) : Except Error α :=
  match fs.get? name with
  | some v => read v
  | none => .ok default

def faultExpected : String := "struct Fault with 3 elements"

def fault : Json → Except Error Fault :=
  record "Fault"
    (fun vs => do
      let (name, vs) ← item string 0 faultExpected vs
      let (message, vs) ← itemOr optionalString none vs
      let (payload, vs) ← itemOr .ok .null vs
      .ok (⟨name, message, payload⟩, vs))
    (fun fs => do
      checkFields (fun k v => match k with
        | "name" => (string v).map fun _ => ()
        | "message" => (optionalString v).map fun _ => ()
        | _ => .ok ()) fs
      let name ← field string fs "name"
      let message ← fieldOr optionalString fs "message" none
      let payload ← fieldOr .ok fs "payload" .null
      .ok ⟨name, message, payload⟩)

def inputOperation : Json → Except Error InputOperation :=
  record "InputOperation"
    (fun vs => do
      let (name, vs) ← item string 0 "struct InputOperation with 1 element" vs
      .ok (⟨name⟩, vs))
    (fun fs => do
      let name ← field string fs "name"
      .ok ⟨name⟩)

def messageExpected : String := "struct SessionMessage with 3 elements"

def message : Json → Except Error (Message Uuid) :=
  record "SessionMessage"
    (fun vs => do
      let (id, vs) ← item uuid 0 messageExpected vs
      let (operation, vs) ← item string 1 messageExpected vs
      let (payload, vs) ← item .ok 2 messageExpected vs
      .ok (⟨id, operation, payload⟩, vs))
    (fun fs => do
      checkFields (fun k v => match k with
        | "id" => (uuid v).map fun _ => ()
        | "operation" => (string v).map fun _ => ()
        | _ => .ok ()) fs
      let id ← field uuid fs "id"
      let operation ← field string fs "operation"
      let payload ← field .ok fs "payload"
      .ok ⟨id, operation, payload⟩)

def variant (known : List String) : Json → Except Error (String × Option Json)
  | .str name => check name none
  | .obj [(name, content)] => check name (some content)
  | .obj _ => .error (.invalidValue "map" "map with a single key")
  | v => mismatch v "string or map"
where
  check (name : String) (content : Option Json) : Except Error (String × Option Json) :=
    if known.contains name then .ok (name, content) else .error (.unknownVariant name known)

def unit : Option Json → Except Error Unit
  | none | some .null => .ok ()
  | some v => mismatch v "unit"

def faultContent : Option Json → Except Error Fault
  | some v => fault v
  | none => .error (.invalidType "unit variant" "newtype variant")

def runStates : List RunState := [.created, .running, .paused, .completed, .killed, .failed]

def runState (v : Json) : Except Error RunState := do
  let (name, content) ← variant (runStates.map RunState.name) v
  unit content
  match runStates.find? fun s => s.name == name with
  | some s => .ok s
  | none => .error (.unknownVariant name (runStates.map RunState.name))

def outcomeNames : List String := ["Completed", "Killed", "Escalated", "Failed"]

def outcome (v : Json) : Except Error Outcome := do
  let (name, content) ← variant outcomeNames v
  match name with
  | "Completed" => (unit content).map fun _ => .completed
  | "Killed" => (faultContent content).map .killed
  | "Escalated" => (faultContent content).map .escalated
  | _ => (faultContent content).map .failed

end SagaEngine.Wire
