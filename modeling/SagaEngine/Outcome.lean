import SagaEngine.Fault

/-! The run states of a context, and how its drive loop ends. -/

namespace SagaEngine

inductive RunState where
  | created
  | running
  | paused
  | completed
  | killed
  | failed
deriving DecidableEq, Repr

def RunState.isTerminal : RunState → Bool
  | .completed | .killed | .failed => true
  | _ => false

/-- `escalated` is a fault that the parent has to handle, and `failed` one that nobody does. -/
inductive Outcome where
  | completed
  | killed (f : Fault)
  | escalated (f : Fault)
  | failed (f : Fault)
deriving DecidableEq, Repr

def Outcome.fault : Outcome → Option Fault
  | .completed => none
  | .killed f | .escalated f | .failed f => some f

end SagaEngine
