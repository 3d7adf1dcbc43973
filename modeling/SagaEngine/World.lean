import SagaEngine.Context
import SagaEngine.Session

/-! The state of the engine: sessions, contexts, handles, tasks, and the queue of tasks that are ready
to run. Only one task runs at a time, and it gives up control at a suspension only, so that whatever
happens between two suspensions is atomic. -/

namespace SagaEngine

structure WaitId where
  session : SessionId
  index : Nat
deriving DecidableEq, Repr

structure Frame where
  name : String
  traced : Bool
deriving DecidableEq, Repr

structure Receipt where
  key : String
  name : String
  catches : Bool
deriving DecidableEq, Repr

/-- `head` is the start of a round, and `body` is inside a continuation, before its remaining steps. -/
inductive Point where
  | fresh
  | head
  | paused
  | idle
  | body (frame : Frame) (rest : List Step)
  | receiving (frame : Frame) (rest : List Step) (wait : WaitId) (receipt : Receipt)
  | ended (outcome : Outcome)

/-- `slice` counts the starts since the last yield; a `counted` loop is an active child. -/
structure Loop where
  context : ContextId
  budget : Nat
  counted : Bool
  slice : Nat := 0
  point : Point := .fresh

inductive Task where
  | loop (l : Loop)
  | receiver (context : ContextId) (tag : String) (ops : List String)
  | receiving (context : ContextId) (tag : String) (wait : WaitId)
  | awaiting (slot : String) (wait : WaitId)
  | done

inductive Role where
  | handler
  | compensation
deriving DecidableEq, Repr

/-- `delivered` came in from outside, and `returned` is the end of a receipt that had to wait. -/
inductive Event where
  | started (c : ContextId) (k : Continuation)
  | performed (c : ContextId) (frame : Frame) (action : String) (reply : Json)
  | raised (c : ContextId) (frame : Frame) (fault : Fault)
  | installed (role : Role) (x : Installed)
  | caught (c : ContextId) (fault : Fault) (handler : Installed)
  | delivered (s : SessionId) (m : Letter)
  | returned (c : ContextId) (i : WaitId) (result : Except Fault Letter)
  | received (tag : String) (result : Except Fault Letter)
  | awaited (slot : String) (result : Except (Option Letter) Letter)

structure Names where
  listed : Array ContextId := #[]
  handles : Table HandleId := []
  waits : Table WaitId := []
  operations : List String := []

/-- `current` is the running task. `arrivals` numbers the messages. -/
structure World where
  sessions : Array Session := #[]
  contexts : Array Context := #[]
  handles : Handles := #[]
  tasks : Array Task := #[]
  ready : List TaskId := []
  current : Option TaskId := none
  arrivals : Nat := 0
  names : Names := {}
  history : Array Event := #[]

namespace World

def context (w : World) (c : ContextId) : Context := w.contexts.getD c default

def session (w : World) (s : SessionId) : Session := w.sessions.getD s default

def modifyContext (w : World) (c : ContextId) (f : Context → Context) : World :=
  { w with contexts := w.contexts.modify c f }

def modifySession (w : World) (s : SessionId) (f : Session → Session) : World :=
  { w with sessions := w.sessions.modify s f }

def mailbox (w : World) (s : SessionId) : Mailbox := (w.session s).mailbox

def setMailbox (w : World) (s : SessionId) (mb : Mailbox) : World :=
  w.modifySession s fun x => { x with mailbox := mb }

def record (w : World) (e : Event) : World := { w with history := w.history.push e }

def wake (w : World) (t : TaskId) : World :=
  if w.ready.contains t then w else { w with ready := w.ready ++ [t] }

def spawnTask (w : World) (task : Task) : World :=
  { w with tasks := w.tasks.push task, ready := w.ready ++ [w.tasks.size] }

def wakeSleeper (w : World) (h : HandleId) : World :=
  match w.handles[h]? with
  | some ⟨_, _, some t⟩ => w.wake t
  | _ => w

def newHandle (w : World) : HandleId × World :=
  (w.handles.size, { w with handles := w.handles.push {} })

def finishHandle (w : World) (h : HandleId) : World := { w with handles := w.handles.finish h }

def cancelHandle (w : World) (h : HandleId) : Bool × World :=
  let (hit, handles) := w.handles.cancel h
  let w := { w with handles }
  (hit, if hit then w.wakeSleeper h else w)

/-- Wakes the task that has waited longest for activity, or else stores a permit. -/
def notify (w : World) (c : ContextId) : World :=
  match (w.context c).idle with
  | t :: idle => (w.modifyContext c fun x => { x with idle }).wake t
  | [] => w.modifyContext c fun x => { x with permit := true }

def cancelRegistered (w : World) (c : ContextId) : World :=
  let (hits, registry, handles) := (w.context c).registry.cancelAll w.handles
  let w := { w with handles }.modifyContext c fun x => { x with registry }
  hits.foldl wakeSleeper w

/-- The first fault wins, but a later kill still cancels what has been registered. -/
def kill (w : World) (c : ContextId) (f : Fault) : World :=
  ((w.modifyContext c fun x => { x with killer := x.killer.or (some f) }).cancelRegistered c).notify c

def clearKill (w : World) (c : ContextId) : World :=
  w.modifyContext c fun x => { x with killer := none }

/-- The first fault handed up wins. A context that has finished cannot raise it and is killed. -/
def escalate (w : World) (c : ContextId) (f : Fault) : World :=
  let w :=
    if (w.context c).runState.isTerminal then w.kill c f
    else
      (w.modifyContext c fun x => { x with escalated := x.escalated.or (some f) }).cancelRegistered c
  w.notify c

def cancelIfKilled (w : World) (c : ContextId) (h : HandleId) : World :=
  let w := w.modifyContext c fun x => { x with registry := x.registry.prune w.handles }
  if (w.context c).isKilled then (w.cancelHandle h).2
  else w.modifyContext c fun x => { x with registry := x.registry.register h }

def childStarted (w : World) (c : ContextId) : World :=
  w.modifyContext c fun x => { x with activeChildren := x.activeChildren + 1 }

def childFinished (w : World) (c : ContextId) : World :=
  (w.modifyContext c fun x => { x with activeChildren := x.activeChildren - 1 }).notify c

def setRunState (w : World) (c : ContextId) (s : RunState) : World :=
  w.modifyContext c fun x => { x with runState := s }

def addLoop (w : World) (c : ContextId) (budget : Nat) (counted : Bool) : World :=
  w.spawnTask (.loop { context := c, budget := max budget 1, counted })

def start (w : World) (c : ContextId) : World :=
  let x := w.context c
  match x.parent? with
  | some p => (w.childStarted p).addLoop c x.sliceBudget true
  | none => w.addLoop c x.sliceBudget false

def hasLabel (w : World) (label : String) : Bool := w.contexts.any fun x => x.label == label

def numberedLabel (w : World) (label : String) (n : Nat) : Nat → String
  | 0 => label
  | fuel + 1 =>
    let numbered := label ++ "#" ++ toString n
    if w.hasLabel numbered then w.numberedLabel label (n + 1) fuel else numbered

def freshLabel (w : World) (label : String) : String :=
  if w.hasLabel label then w.numberedLabel label 2 (w.contexts.size + 1) else label

def mention (w : World) (ops : List String) : World :=
  let operations := ops.foldl (fun noted op => noted.insert op) w.names.operations
  { w with names := { w.names with operations } }

def addContext (w : World) (x : Context) : ContextId × World :=
  (w.contexts.size, { w with contexts := w.contexts.push x })

def list (w : World) (c : ContextId) : World :=
  if w.names.listed.contains c then w
  else { w with names := { w.names with listed := w.names.listed.push c } }

def findContext? (w : World) (label : String) : Option ContextId :=
  w.names.listed.find? fun c => (w.context c).label == label

def addChild (w : World) (p : ContextId) (label : String) (k : Option Continuation) :
    String × ContextId × World :=
  let label := w.freshLabel label
  let x := w.context p
  let (c, w) := w.addContext
    { label, session := x.session, ancestors := p :: x.ancestors, sliceBudget := x.sliceBudget,
      pending := k.toList }
  (label, c, w)

def addRoot (w : World) (label : String) (s : SessionId) (scope : String) (budget : Nat)
    (k : Option Continuation) : String × World :=
  let label := w.freshLabel label
  let (c, w) := w.addContext
    { label, session := s, sliceBudget := budget, scopes := [{ id := scope }], pending := k.toList }
  (label, w.list c)

def findSession? (w : World) (id : String) : Option SessionId :=
  w.sessions.findIdx? fun s => s.id == id

def openSession (w : World) (id : String) : SessionId × World :=
  match w.findSession? id with
  | some s => (s, w)
  | none => (w.sessions.size, { w with sessions := w.sessions.push { id } })

end World

end SagaEngine
