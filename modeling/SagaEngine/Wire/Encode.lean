import SagaEngine.Mailbox
import SagaEngine.Outcome
import SagaEngine.Uuid

/-! The JSON forms of faults, outcomes, run states, operations and messages. A fault leaves out a
missing message, but shows a null payload. -/

namespace SagaEngine

def Fault.toJson (f : Fault) : Json :=
  let message := match f.message with
    | some m => [("message", Json.str m)]
    | none => []
  .obj (message ++ [("name", .str f.name), ("payload", f.payload)])

def RunState.name : RunState → String
  | .created => "created"
  | .running => "running"
  | .paused => "paused"
  | .completed => "completed"
  | .killed => "killed"
  | .failed => "failed"

def RunState.toJson (s : RunState) : Json := .str s.name

def Outcome.toJson : Outcome → Json
  | .completed => .str "Completed"
  | .killed f => .obj [("Killed", f.toJson)]
  | .escalated f => .obj [("Escalated", f.toJson)]
  | .failed f => .obj [("Failed", f.toJson)]

def Fault.optionToJson : Option Fault → Json
  | some f => f.toJson
  | none => .null

structure InputOperation where
  name : String
deriving DecidableEq, Repr

def InputOperation.toJson (o : InputOperation) : Json := .obj [("name", .str o.name)]

def Message.toJson (m : Message Uuid) : Json :=
  .obj [("id", .str m.id.text), ("operation", .str m.operation), ("payload", m.payload)]

end SagaEngine
