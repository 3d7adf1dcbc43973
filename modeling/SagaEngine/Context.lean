import SagaEngine.Cancellation
import SagaEngine.Outcome
import SagaEngine.Program
import SagaEngine.Scope

/-! Execution contexts. A context owns a stack of scopes, the continuations pending at its current
scope level with those of the outer levels set aside, and its record of being killed. This module
has what a context does by itself. -/

namespace SagaEngine

abbrev ContextId := Nat

abbrev SessionId := Nat

/-- A continuation in a table of a scope; `serial` tells one installation from another. -/
structure Installed where
  serial : Nat
  continuation : Continuation

/-- Stacks have their top at the head, `ancestors` the nearest first; `permit` is a stored wake-up. -/
structure Context where
  label : String
  session : SessionId
  ancestors : List ContextId := []
  sliceBudget : Nat
  scopes : List (Scope Installed) := []
  pending : List Continuation := []
  saved : List (List Continuation) := []
  marker : Option String := none
  killer : Option Fault := none
  escalated : Option Fault := none
  registry : Registry := {}
  pauseRequested : Bool := false
  runState : RunState := .created
  activeChildren : Nat := 0
  permit : Bool := false
  idle : List TaskId := []
deriving Inhabited

namespace Context

def parent? (c : Context) : Option ContextId := c.ancestors.head?

def isKilled (c : Context) : Bool := c.killer.isSome

def executeNext (c : Context) (ks : List Continuation) : Context :=
  { c with pending := ks ++ c.pending }

def nextContinuation (c : Context) : Option Continuation × Context :=
  match c.pending with
  | [] => (none, c)
  | k :: ks => (some k, { c with pending := ks })

def discardPending (c : Context) : Context := { c with pending := [] }

def pushScope (c : Context) (id : String) (marker : Option String) : Context :=
  { c with
    scopes := { id } :: c.scopes
    pending := []
    saved := c.pending :: c.saved
    marker }

def popScope? (c : Context) (marker : Option String) : Option (Scope Installed × Context) :=
  match c.scopes with
  | [] => none
  | s :: scopes =>
    some (s, match c.saved with
      | [] => { c with scopes, marker }
      | level :: saved => { c with scopes, pending := level, saved, marker })

def unwindFloor (c : Context) : Nat := if c.ancestors.isEmpty then 1 else 0

/-- Abandons scopes from the top until one handles the fault. `fuel` is the number of scopes. -/
def unwindFrom (fault : String) : Nat → Context → Option Installed × Context
  | 0, c => (none, c)
  | fuel + 1, c =>
    match c.scopes with
    | [] => (none, c)
    | s :: below => match s.takeHandler fault with
      | (some k, s) => (some k, { c with scopes := s :: below })
      | (none, _) =>
        if c.unwindFloor < c.scopes.length then
          match c.popScope? none with
          | some (_, c) => unwindFrom fault fuel c
          | none => (none, c)
        else (none, c)

def unwind (c : Context) (fault : String) : Option Installed × Context :=
  unwindFrom fault c.scopes.length c

def interruption? (c : Context) : Option Fault := c.killer.or c.escalated

end Context

end SagaEngine
