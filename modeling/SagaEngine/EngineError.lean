import SagaEngine.Fault

/-! Failures of the engine protocol itself. A program that runs into one raises it as a fault. -/

namespace SagaEngine

inductive EngineError where
  | noScope (context : String)
  | scopeUnderflow (context : String)
  | noRuntime
deriving DecidableEq, Repr

namespace EngineError

def message : EngineError → String
  | .noScope context => "no scope is active in context " ++ context ++ " or any of its ancestors"
  | .scopeUnderflow context => "cannot pop scope: context " ++ context ++ " has no scope of its own"
  | .noRuntime => "no tokio runtime is available to schedule contexts on"

def toFault (e : EngineError) : Fault := ⟨"EngineError", some e.message, .null⟩

end EngineError

inductive Failure where
  | fault (f : Fault)
  | engine (e : EngineError)
deriving DecidableEq, Repr

def Failure.toFault : Failure → Fault
  | .fault f => f
  | .engine e => e.toFault

end SagaEngine
