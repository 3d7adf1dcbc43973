import SagaEngine.Text.Quoted
import SagaEngine.Wire.Encode
import SagaEngine.World.Messages
import SagaEngine.World.Scopes

/-! What can be seen of contexts, handles and waits from outside, as JSON. -/

namespace SagaEngine.World

def label (w : World) (c : ContextId) : String := (w.context c).label

def inspect (w : World) (c : ContextId) : Json :=
  let x := w.context c
  .object [
    ("state", x.runState.toJson),
    ("terminal", .bool x.runState.isTerminal),
    ("killed", Fault.optionToJson x.killer),
    ("killed_at", .bool x.isKilled),
    ("escalated", Fault.optionToJson x.escalated),
    ("children", .ofNat x.activeChildren),
    ("pending", .ofNat x.pending.length),
    ("pause", .bool x.pauseRequested),
    ("has_scope", .bool (w.hasScope c)),
    ("scope_depth", .ofNat x.scopes.length),
    ("scope", .ofOption ((w.nearestScope? c).map Scope.id)),
    ("exec", .ofOption x.marker),
    ("registered", .ofNat x.registry.size),
    ("live", .ofNat (x.registry.liveCount w.handles)),
    ("depth", .ofNat x.ancestors.length)]

def handleState (w : World) (h : HandleId) : Json :=
  let x := w.handles.getD h {}
  .obj [("cancelled", .bool x.cancelled), ("finished", .bool x.finished), ("ready", .bool x.cancelled)]

def debugText (w : World) (c : ContextId) : String :=
  let x := w.context c
  let id := fun c => "ContextId(" ++ w.label c ++ ")"
  let parent := match x.parent? with
    | some p => "Some(" ++ id p ++ ")"
    | none => "None"
  "ExecutionContext \x7b id: " ++ id c ++ ", session: " ++ Text.quote (w.session x.session).id ++
    ", parent: " ++ parent ++ ", .. \x7d"

def scopeSummary (s : Scope Installed) (ids : List String) : Json :=
  .obj [
    ("handlers", .ofNat s.handlerCount),
    ("has", .arr (ids.map fun id => .bool (s.hasCompensation id))),
    ("id", .str s.id),
    ("own", .ofOption (s.ownCompensation?.map fun x => x.continuation.name))]

end SagaEngine.World
