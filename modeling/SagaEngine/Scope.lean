import SagaEngine.Fault
import SagaEngine.Table

/-! Fault handling scopes. A scope maps fault names to handlers and scope names to compensations. Its
own compensation lives under its own name; those of completed inner scopes are merged in beside it,
so that an enclosing scope can roll them back later. -/

namespace SagaEngine

structure Scope (α : Type) where
  id : String
  handlers : Table α := []
  compensations : Table α := []
deriving Repr, DecidableEq

namespace Scope

variable {α : Type}

def installCompensation (s : Scope α) (k : α) : Scope α :=
  { s with compensations := s.compensations.insert s.id k }

def installHandler (s : Scope α) (fault : String) (k : α) : Scope α :=
  { s with handlers := s.handlers.insert fault k }

/-- The name under which a fault is handled: its own, or else the default. -/
def handlerName? (s : Scope α) (fault : String) : Option String :=
  if s.handlers.contains fault then some fault
  else if s.handlers.contains Fault.defaultHandler then some Fault.defaultHandler
  else none

def handler? (s : Scope α) (fault : String) : Option α :=
  (s.handlerName? fault).bind s.handlers.get?

def takeHandler (s : Scope α) (fault : String) : Option α × Scope α :=
  match s.handlerName? fault with
  | some name => (s.handlers.get? name, { s with handlers := s.handlers.erase name })
  | none => (none, s)

def lookup (s : Scope α) (fault : String) (erase : Bool) : Option α × Scope α :=
  if erase then s.takeHandler fault else (s.handler? fault, s)

def ownCompensation? (s : Scope α) : Option α := s.compensations.get? s.id

def takeCompensation (s : Scope α) (id : String) : Option α × Scope α :=
  (s.compensations.get? id, { s with compensations := s.compensations.erase id })

def mergeCompensations (s inner : Scope α) : Scope α :=
  { s with compensations := s.compensations.merge inner.compensations }

def hasCompensation (s : Scope α) (id : String) : Bool := s.compensations.contains id

def handlerCount (s : Scope α) : Nat := s.handlers.length

end Scope

end SagaEngine
