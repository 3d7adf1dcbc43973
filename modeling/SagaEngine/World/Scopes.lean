import SagaEngine.EngineError
import SagaEngine.World

/-! Scope operations in the tree of contexts. Code outside any scope of its own context acts on the
current scope of the nearest ancestor that has one; only popping is never delegated. -/

namespace SagaEngine.World

def lineage (w : World) (c : ContextId) : List ContextId := c :: (w.context c).ancestors

def hasScope (w : World) (c : ContextId) : Bool := !(w.context c).scopes.isEmpty

def scopeOwner? (w : World) (c : ContextId) : Option ContextId := (w.lineage c).find? w.hasScope

def nearestScope? (w : World) (c : ContextId) : Option (Scope Installed) :=
  (w.scopeOwner? c).bind fun o => (w.context o).scopes.head?

def setTopScope (w : World) (c : ContextId) (s : Scope Installed) : World :=
  w.modifyContext c fun x => { x with scopes := s :: x.scopes.tail }

def noScope (w : World) (c : ContextId) : EngineError := .noScope (w.context c).label

def readScope {α : Type} (w : World) (c : ContextId) (f : Scope Installed → α) :
    Except EngineError α :=
  match w.nearestScope? c with
  | some s => .ok (f s)
  | none => .error (w.noScope c)

def updateScope {α : Type} (w : World) (c : ContextId)
    (f : Scope Installed → α × Scope Installed) : World × Except EngineError α :=
  match w.scopeOwner? c, w.nearestScope? c with
  | some o, some s => let (a, s) := f s; (w.setTopScope o s, .ok a)
  | _, _ => (w, .error (w.noScope c))

/-- Puts a continuation into a table of the nearest scope, numbered like its event in the record. -/
def install (w : World) (c : ContextId) (role : Role) (k : Continuation)
    (put : Installed → Scope Installed → Scope Installed) : World × Except EngineError Unit :=
  let x : Installed := ⟨w.history.size, k⟩
  match w.updateScope c fun s => ((), put x s) with
  | (w, .ok ()) => (w.record (.installed role x), .ok ())
  | failed => failed

def installCompensation (w : World) (c : ContextId) (k : Continuation) :
    World × Except EngineError Unit :=
  w.install c .compensation k fun x s => s.installCompensation x

def installHandler (w : World) (c : ContextId) (fault : String) (k : Continuation) :
    World × Except EngineError Unit :=
  w.install c .handler k fun x s => s.installHandler fault x

def lookupHandler (w : World) (c : ContextId) (fault : String) (erase : Bool) :
    World × Except EngineError (Option Installed) :=
  w.updateScope c fun s => s.lookup fault erase

def takeCompensation (w : World) (c : ContextId) (id : String) :
    World × Except EngineError (Option Installed) :=
  w.updateScope c fun s => s.takeCompensation id

def ownCompensation (w : World) (c : ContextId) : Except EngineError (Option Installed) :=
  w.readScope c Scope.ownCompensation?

def currentScopeId (w : World) (c : ContextId) : Except EngineError String :=
  w.readScope c Scope.id

def mergeUpward (w : World) (c : ContextId) (s : Scope Installed) : World :=
  match (w.context c).parent? with
  | some p => (w.updateScope p fun outer => ((), outer.mergeCompensations s)).1
  | none => w

/-- With `merge` the compensations move to the nearest enclosing scope, and else they are gone. -/
def popScope (w : World) (c : ContextId) (merge : Bool) (marker : Option String) :
    World × Except EngineError Unit :=
  match (w.context c).popScope? marker with
  | none => (w, .error (.scopeUnderflow (w.context c).label))
  | some (s, x) =>
    let w := w.modifyContext c fun _ => x
    match merge, x.scopes with
    | false, _ => (w, .ok ())
    | true, outer :: _ => (w.setTopScope c (outer.mergeCompensations s), .ok ())
    | true, [] => (w.mergeUpward c s, .ok ())

def pushScope (w : World) (c : ContextId) (id : String) (marker : Option String) :
    Option String × World :=
  ((w.context c).marker, w.modifyContext c fun x => x.pushScope id marker)

end SagaEngine.World
