import SagaEngine.World.Run

/-! Scripts. A script drives the engine from outside: it creates root contexts, performs actions on
contexts by label, and lets tasks run. Its report has the result of each step with what happened during
it, and the state of contexts and sessions at the end. -/

namespace SagaEngine

inductive HostStep where
  | root (label session scope : String) (budget : Nat) (k : Option Continuation)
  | on (label : String) (action : Action)
  | settle
  | tick (n : Nat)

namespace HostStep

def weight : HostStep → Nat
  | .root _ _ _ _ (some k) => k.weight + 1
  | .on _ a => a.weight + 1
  | _ => 1

end HostStep

abbrev Script := List HostStep

namespace Script

/-- More small steps than the tasks of a script can take, whose steps cause a handful each. -/
def fuel (s : Script) : Nat := 64 * (s.foldl (fun n step => n + step.weight) 0 + 1)

end Script

namespace World

def ticks (fuel : Nat) : Nat → World → Option World
  | 0, w => some w
  | n + 1, w => if w.atRest then some w else (w.turn fuel).bind (ticks fuel n)

def failureJson : Failure → Json
  | .fault f => .obj [("fault", f.toJson)]
  | .engine e => match e with
    | .noScope c =>
      .obj [("context", .str c), ("error", .str "NoScope"), ("message", .str e.message)]
    | .scopeUnderflow c =>
      .obj [("context", .str c), ("error", .str "ScopeUnderflow"), ("message", .str e.message)]
    | .noRuntime => .obj [("error", .str "NoRuntime"), ("message", .str e.message)]

def hostStep (w : World) (fuel : Nat) : HostStep → Option (Json × World)
  | .root label session scope budget k =>
    let (s, w) := w.openSession session
    let (label, w) := w.addRoot label s scope budget k
    some (.str label, w)
  | .on label action => match w.findContext? label with
    | none => some (.null, w)
    | some c => match w.perform c action with
      | (w, .ok reply) => some (reply, w)
      | (w, .error e) => some (failureJson e, w)
  | .settle => (w.settle fuel).map ((.null, ·))
  | .tick n => (w.ticks fuel n).map ((.null, ·))

def eventJson? (w : World) : Event → Option Json
  | .started c k => if k.traced then some (.arr [.str "run", .str (w.label c), .str k.name]) else none
  | .performed c frame action reply =>
    if frame.traced && reply != .null then
      some (.arr [.str "act", .str (w.label c), .str frame.name, .str action, reply])
    else none
  | .raised c frame f =>
    if frame.traced then
      some (.arr [.str "raise", .str (w.label c), .str frame.name, f.toJson])
    else none
  | .installed _ _ | .caught _ _ _ | .delivered _ _ | .returned _ _ _ => none
  | .received tag result =>
    let shown := match result with
      | .ok m => .obj [("ok", letterJson m)]
      | .error f => .obj [("fault", f.toJson)]
    some (.arr [.str "recv", .str tag, shown])
  | .awaited slot result =>
    let shown := match result with
      | .ok m => .obj [("ok", letterJson m)]
      | .error unread => .obj [("display", .str "message wait interrupted"),
          ("interrupted", match unread with
            | some m => letterJson m
            | none => .null)]
    some (.arr [.str "wait", .str slot, shown])

def loops (w : World) : List (TaskId × Loop) :=
  w.tasks.toList.zipIdx.filterMap fun (task, t) => match task with
    | .loop l => some (t, l)
    | _ => none

def outcome? (l : Loop) : Option Outcome :=
  match l.point with
  | .ended o => some o
  | _ => none

def newlyEnded (before w : World) : List Json :=
  w.loops.filterMap fun (t, l) =>
    let hadEnded := match before.tasks[t]? with
      | some (.loop l) => (outcome? l).isSome
      | _ => false
    match outcome? l with
    | some o => if hadEnded then none else some (.arr [.str (w.label l.context), o.toJson])
    | none => none

def nonemptyField (name : String) (items : List Json) : List (String × Json) :=
  if items.isEmpty then [] else [(name, .arr items)]

def stepReport (before w : World) (result : Json) : Json :=
  let trace := (w.history.toList.drop before.history.size).filterMap w.eventJson?
  .obj (nonemptyField "f" (newlyEnded before w) ++ ("r", result) :: nonemptyField "t" trace)

/-- Takes the steps of a script. `none` when the tasks do not come to rest within the fuel. -/
def runScript (fuel : Nat) : World → Script → Option (List Json × World)
  | w, [] => some ([], w)
  | w, s :: rest => do
    let (result, after) ← w.hostStep fuel s
    let (reports, last) ← runScript fuel after rest
    some (stepReport w after result :: reports, last)

def sessionReport (operations : List String) (s : Session) : Json :=
  let queued := operations.map fun op => (op, Json.ofNat (s.mailbox.queued op))
  .arr [.str s.id, .obj [("data", s.data.snapshot), ("queued", .object queued),
    ("waiters", .ofNat s.mailbox.waiterCount)]]

end World

def Script.report? (s : Script) : Option Json := do
  let (steps, w) ← World.runScript s.fuel {} s
  let contexts := w.names.listed.toList.map fun c => Json.arr [.str (w.label c), w.inspect c]
  let unfinished := w.loops.filter fun (_, l) => (World.outcome? l).isNone
  some <| .obj [
    ("contexts", .arr contexts),
    ("sessions", .arr (w.sessions.toList.map (World.sessionReport w.names.operations))),
    ("steps", .arr steps),
    ("unfinished", .arr (unfinished.map fun (_, l) => .str (w.label l.context)))]

end SagaEngine
