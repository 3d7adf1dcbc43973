import SagaEngine.Json

/-! Faults: named values that running programs raise and handlers catch by name. Failed evaluations
become faults with fixed names, so that they meet the same handlers. -/

namespace SagaEngine

structure Fault where
  name : String
  message : Option String := none
  payload : Json := .null
deriving DecidableEq, Repr, Inhabited

namespace Fault

def defaultHandler : String := "default"

/-- What a cancelled wait raises when nothing else explains the cancellation. -/
def interrupted : Fault := ⟨"Interrupted", some "Wait interrupted by cancellation", .null⟩

def text (f : Fault) : String :=
  match f.message with
  | some m => f.name ++ ": " ++ m
  | none => f.name

def same (f g : Fault) : Bool := f.name == g.name && f.message == g.message && f.payload.same g.payload

end Fault

inductive EvalError where
  | typeCasting (text : String)
  | arithmetic (text : String)
deriving DecidableEq, Repr

namespace EvalError

def message : EvalError → String
  | .typeCasting text => "type casting failed: " ++ text
  | .arithmetic text => "arithmetic error: " ++ text

def toFault : EvalError → Fault
  | .typeCasting text => ⟨"CastingException", some text, .null⟩
  | .arithmetic text => ⟨"ArithmeticException", some text, .null⟩

end EvalError

end SagaEngine
