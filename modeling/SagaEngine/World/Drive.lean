import SagaEngine.World.Perform

/-! The drive loop of a context, one small step at a time. A round looks at a kill first, then at a
fault handed up by a child, then at a pause request, and then starts the next continuation; when none
is left it waits for active children, and completes when there are none. -/

namespace SagaEngine.World

def setTask (w : World) (t : TaskId) (task : Task) : World :=
  { w with tasks := w.tasks.set! t task }

def setLoop (w : World) (t : TaskId) (l : Loop) : World := w.setTask t (.loop l)

def suspend (w : World) : World := { w with current := none }

def yieldTask (w : World) (t : TaskId) : World :=
  { w with current := none, ready := w.ready ++ [t] }

/-- The effects of an end come first; then the parent stops counting the loop. -/
def endLoop (w : World) (t : TaskId) (l : Loop) (o : Outcome) : World :=
  let w := (w.setLoop t { l with point := .ended o }).suspend
  match l.counted, (w.context l.context).parent? with
  | true, some p => w.childFinished p
  | _, _ => w

def endKilled (w : World) (t : TaskId) (l : Loop) (f : Fault) : World :=
  (w.setRunState l.context .killed).endLoop t l (.killed f)

/-- `none` means that a scope of the context has handled the fault. -/
def raise (w : World) (c : ContextId) (f : Fault) : World × Option Outcome :=
  let (handler, x) := (w.context c).unwind f.name
  let w := w.modifyContext c fun _ => x
  match handler with
  | some h =>
    let w := w.modifyContext c fun x => x.discardPending.executeNext [h.continuation]
    (w.record (.caught c f h), none)
  | none =>
    let w := (w.kill c f).setRunState c .failed
    match (w.context c).parent?, w.hasScope c with
    | some p, false => (w.escalate p f, some (.escalated f))
    | _, _ => (w, some (.failed f))

def startContinuation (w : World) (t : TaskId) (l : Loop) (k : Continuation) : World :=
  let w := if k.traced then w.list l.context else w
  (w.record (.started l.context k)).setLoop t { l with point := .body ⟨k.name, k.traced⟩ k.steps }

/-- With nothing left to start, a loop waits for its active children, and completes without any. -/
def runDry (w : World) (t : TaskId) (l : Loop) : World :=
  let c := l.context
  let x := w.context c
  if 0 < x.activeChildren then
    if x.permit then w.modifyContext c fun x => { x with permit := false }
    else
      ((w.modifyContext c fun x => { x with idle := x.idle ++ [t] }).setLoop t
        { l with point := .idle }).suspend
  -- a child hands its fault up before it stops counting, so that there is another look for one
  else if x.escalated.isSome then w
  else (w.setRunState c .completed).endLoop t l .completed

/-- One round of the loop, up to the start of a continuation, a suspension or the end. -/
def round (w : World) (t : TaskId) (l : Loop) : World :=
  let c := l.context
  let x := w.context c
  match x.killer, x.escalated with
  | some f, _ => w.endKilled t l f
  | none, some f =>
    match (w.modifyContext c fun x => { x with escalated := none }).raise c f with
    | (w, some o) => w.endLoop t l o
    | (w, none) => w.setLoop t { l with point := .head }
  | none, none =>
    if x.pauseRequested then
      let w := w.modifyContext c fun x => { x with pauseRequested := false, runState := .paused }
      (w.setLoop t { l with point := .paused }).yieldTask t
    else match x.pending with
      | k :: rest => (w.modifyContext c fun x => { x with pending := rest }).startContinuation t l k
      | [] => w.runDry t l

def finishRound (w : World) (t : TaskId) (l : Loop) : World :=
  if l.budget ≤ l.slice + 1 then (w.setLoop t { l with slice := 0, point := .head }).yieldTask t
  else w.setLoop t { l with slice := l.slice + 1, point := .head }

/-- A kill decides the outcome, and a fault handed up takes the place of the continuation's own. -/
def failContinuation (w : World) (t : TaskId) (l : Loop) (f : Fault) : World :=
  let c := l.context
  match (w.context c).killer with
  | some killer => w.endKilled t l killer
  | none =>
    let f := (w.context c).escalated.getD f
    match (w.modifyContext c fun x => { x with escalated := none }).raise c f with
    | (w, some o) => w.endLoop t l o
    | (w, none) => w.finishRound t l

def failStep (w : World) (t : TaskId) (l : Loop) (frame : Frame) (f : Fault) : World :=
  (w.record (.raised l.context frame f)).failContinuation t l f

def letterJson (m : Letter) : Json := .arr [.str m.operation, m.payload]

def passStep (w : World) (t : TaskId) (l : Loop) (frame : Frame) (rest : List Step) (name : String)
    (reply : Json) : World :=
  (w.record (.performed l.context frame name reply)).setLoop t { l with point := .body frame rest }

def receiveStep (w : World) (t : TaskId) (l : Loop) (frame : Frame) (rest : List Step)
    (r : Receipt) (result : Except Fault Letter) : World :=
  match result with
  | .ok m =>
    (w.modifyData l.context fun d => d.insert r.key m.payload).passStep t l frame rest r.name
      (letterJson m)
  | .error f =>
    if r.catches then w.passStep t l frame rest r.name (.obj [("caught", f.toJson)])
    else w.failStep t l frame f

def bodyStep (w : World) (t : TaskId) (l : Loop) (frame : Frame) : List Step → World
  | [] => w.finishRound t l
  | .act a :: rest => match w.perform l.context a with
    | (w, .ok reply) => w.passStep t l frame rest a.name reply
    | (w, .error e) => w.failStep t l frame e.toFault
  | .yield :: rest => (w.setLoop t { l with point := .body frame rest }).yieldTask t
  | .receive ops key name catches :: rest =>
    let receipt := ⟨key, name, catches⟩
    let w := w.mention ops
    match w.beginReceive l.context ops with
    | .error f => w.receiveStep t l frame rest receipt (.error f)
    | .ok (i, w) => w.setLoop t { l with point := .receiving frame rest i receipt }

def loopStep (w : World) (t : TaskId) (l : Loop) : World :=
  match l.point with
  | .fresh => (w.setRunState l.context .running).setLoop t { l with point := .head }
  | .head => w.round t l
  | .paused =>
    (w.setRunState l.context .running).setLoop t { l with slice := 0, point := .head }
  | .idle => w.setLoop t { l with point := .head }
  | .body frame rest => w.bodyStep t l frame rest
  | .receiving frame rest i receipt => match w.resolution? i with
    | none => w.sleepOn t i
    | some r =>
      let (w, result) :=
        (w.setLoop t { l with point := .body frame rest }).endReceive l.context i r
      w.receiveStep t l frame rest receipt result
  | .ended _ => w.suspend

def receiverStep (w : World) (t : TaskId) (c : ContextId) (tag : String) (ops : List String) : World :=
  match w.beginReceive c ops with
  | .error f => ((w.record (.received tag (.error f))).setTask t .done).suspend
  | .ok (i, w) => w.setTask t (.receiving c tag i)

def taskStep (w : World) (t : TaskId) : World :=
  match w.tasks[t]? with
  | some (.loop l) => w.loopStep t l
  | some (.receiver c tag ops) => w.receiverStep t c tag ops
  | some (.receiving c tag i) => match w.resolution? i with
    | none => w.sleepOn t i
    | some r =>
      let (w, result) := w.endReceive c i r
      ((w.record (.received tag result)).setTask t .done).suspend
  | some (.awaiting slot i) => match w.resolution? i with
    | none => w.sleepOn t i
    | some r => (((w.closeWait i).2.record (.awaited slot r)).setTask t .done).suspend
  | some .done | none => w.suspend

end SagaEngine.World
