import SagaEngine.World

/-! Messages and waits. A receipt by a context registers its wait for cancellation, and cancellation
wins over a message that has arrived but was not read: such a message goes back to the mailbox. -/

namespace SagaEngine.World

def newLetter (w : World) (op : String) (v : Json) : Letter × World :=
  (⟨w.arrivals, op, v⟩, { w with arrivals := w.arrivals + 1 })

def waitRecord? (w : World) (i : WaitId) : Option Wait := (w.mailbox i.session).waits[i.index]?

def waitHandle? (w : World) (i : WaitId) : Option HandleId := (w.waitRecord? i).map Wait.handle

def wakeServed (w : World) (s : SessionId) (served : Option Nat) : World :=
  match served.bind fun i => w.waitHandle? ⟨s, i⟩ with
  | some h => w.wakeSleeper h
  | none => w

def deliver (w : World) (s : SessionId) (m : Letter) : Bool × World :=
  let (served, mb) := (w.mailbox s).deliver m
  (served.isSome, ((w.setMailbox s mb).wakeServed s served).record (.delivered s m))

def requeue (w : World) (s : SessionId) (m : Letter) : World :=
  let (served, mb) := (w.mailbox s).requeue m
  (w.setMailbox s mb).wakeServed s served

def request (w : World) (s : SessionId) (ops : List String) : WaitId × World :=
  let (h, w) := w.newHandle
  let (i, mb) := (w.mailbox s).request ops h
  (⟨s, i⟩, w.setMailbox s mb)

def closeWait (w : World) (i : WaitId) : Option Letter × World :=
  let (unread, mb) := (w.mailbox i.session).close i.index
  let w' := w.setMailbox i.session mb
  (unread, match w.waitHandle? i with
    | some h => w'.finishHandle h
    | none => w')

/-- What has become of a wait, `none` while it is unresolved. Cancellation is looked at first. -/
def resolution? (w : World) (i : WaitId) : Option (Except (Option Letter) Letter) :=
  match w.waitRecord? i with
  | none => some (.error none)
  | some ⟨h, channel, _⟩ => match w.handles.isCancelled h, channel with
    | true, .holding m => some (.error (some m))
    | true, _ => some (.error none)
    | false, .holding m => some (.ok m)
    | false, .awaiting => none
    | false, _ => some (.error none)

def sleepOn (w : World) (t : TaskId) (i : WaitId) : World :=
  match w.waitHandle? i with
  | some h => { w with
      handles := w.handles.modify h fun x => { x with sleeper := some t }, current := none }
  | none => { w with current := none }

def beginReceive (w : World) (c : ContextId) (ops : List String) : Except Fault (WaitId × World) :=
  match (w.context c).interruption? with
  | some f => .error f
  | none =>
    let (i, w) := w.request (w.context c).session ops
    .ok (i, match w.waitHandle? i with
      | some h => w.cancelIfKilled c h
      | none => w)

/-- A message left unread is put back before the interruption is explained. -/
def endReceive (w : World) (c : ContextId) (i : WaitId) (r : Except (Option Letter) Letter) :
    World × Except Fault Letter :=
  let w := (w.closeWait i).2
  match r with
  | .ok m => (w.record (.returned c i (.ok m)), .ok m)
  | .error unread =>
    let w := match unread with
      | some m => w.requeue i.session m
      | none => w
    let f := (w.context c).interruption?.getD Fault.interrupted
    (w.record (.returned c i (.error f)), .error f)

end SagaEngine.World
