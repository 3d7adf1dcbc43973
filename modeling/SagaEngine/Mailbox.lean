import SagaEngine.Cancellation
import SagaEngine.Json

/-! The mailbox of a session. A message goes to the oldest live wait on its operation, or else is
queued there. A wait may span several operations; it is entered under each of them and served at
most once. Entries of waits that were served or went away stay until a request prunes them, or until
a message pops them on its way to a live one. -/

namespace SagaEngine

structure Message (Id : Type) where
  id : Id
  operation : String
  payload : Json
deriving Repr, DecidableEq

abbrev Letter := Message Nat

/-- `abandoned` when no message can come any more, `closed` when nobody reads it any more. -/
inductive Channel where
  | awaiting
  | holding (m : Letter)
  | abandoned
  | closed
deriving Repr, DecidableEq

structure Wait where
  handle : HandleId
  channel : Channel
  operations : List String
deriving Repr, DecidableEq

structure Mailbox where
  queues : Table (List Letter) := []
  waiters : Table (List Nat) := []
  waits : Array Wait := #[]
deriving Repr, DecidableEq, Inhabited

namespace Mailbox

def queue (mb : Mailbox) (op : String) : List Letter := (mb.queues.get? op).getD []

def queued (mb : Mailbox) (op : String) : Nat := (mb.queue op).length

def waiterCount (mb : Mailbox) : Nat := mb.waiters.foldl (fun n e => n + e.2.length) 0

def isLive (mb : Mailbox) (w : Nat) : Bool :=
  match mb.waits[w]? with
  | some x => x.channel == .awaiting
  | none => false

def setChannel (mb : Mailbox) (w : Nat) (ch : Channel) : Mailbox :=
  { mb with waits := mb.waits.modify w fun x => { x with channel := ch } }

def prune (mb : Mailbox) : Mailbox :=
  { mb with
    waiters := mb.waiters.filterMap fun (op, ws) =>
      let live := ws.filter mb.isLive
      if live.isEmpty then none else some (op, live) }

def setWaiters (mb : Mailbox) (op : String) (ws : List Nat) : Mailbox :=
  { mb with waiters := if ws.isEmpty then mb.waiters.erase op else mb.waiters.insert op ws }

/-- Pops the entries of an operation up to the first live one, which is claimed. -/
def claim (mb : Mailbox) (op : String) : Option Nat × Mailbox :=
  match mb.waiters.get? op with
  | none => (none, mb)
  | some ws => match ws.dropWhile fun w => !mb.isLive w with
    | [] => (none, mb.setWaiters op [])
    | w :: rest => (some w, mb.setWaiters op rest)

def hand (mb : Mailbox) (m : Letter) : Option Nat × Mailbox :=
  match mb.claim m.operation with
  | (some w, mb) => (some w, mb.setChannel w (.holding m))
  | (none, mb) => (none, mb)

def setQueue (mb : Mailbox) (op : String) (q : List Letter) : Mailbox :=
  { mb with queues := mb.queues.insert op q }

def deliver (mb : Mailbox) (m : Letter) : Option Nat × Mailbox :=
  match mb.hand m with
  | (some w, mb) => (some w, mb)
  | (none, mb) => (none, mb.setQueue m.operation (mb.queue m.operation ++ [m]))

def requeue (mb : Mailbox) (m : Letter) : Option Nat × Mailbox :=
  match mb.hand m with
  | (some w, mb) => (some w, mb)
  | (none, mb) => (none, mb.setQueue m.operation (m :: mb.queue m.operation))

def takeFirst (mb : Mailbox) : List String → Option (Letter × Mailbox)
  | [] => none
  | op :: ops => match mb.queue op with
    | m :: rest => some (m, mb.setQueue op rest)
    | [] => mb.takeFirst ops

def enter (mb : Mailbox) (w : Nat) (op : String) : Mailbox :=
  { mb with waiters := mb.waiters.insert op ((mb.waiters.get? op).getD [] ++ [w]) }

def request (mb : Mailbox) (ops : List String) (handle : HandleId) : Nat × Mailbox :=
  let mb := mb.prune
  let w := mb.waits.size
  match mb.takeFirst ops with
  | some (m, mb) => (w, { mb with waits := mb.waits.push ⟨handle, .holding m, ops⟩ })
  | none =>
    let channel := if ops.isEmpty then Channel.abandoned else .awaiting
    let mb := { mb with waits := mb.waits.push ⟨handle, channel, ops⟩ }
    (w, ops.foldl (fun mb op => mb.enter w op) mb)

def close (mb : Mailbox) (w : Nat) : Option Letter × Mailbox :=
  let unread := match mb.waits[w]? with
    | some ⟨_, .holding m, _⟩ => some m
    | _ => none
  (unread, mb.setChannel w .closed)

end Mailbox

end SagaEngine
