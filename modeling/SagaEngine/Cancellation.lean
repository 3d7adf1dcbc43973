/-! Cancellation. An operation holds a handle, which finishes once: by completing, by being dropped or
by being cancelled. A registry keeps the handles of running operations in order of registration,
drops finished ones from its front, and can cancel all that are still live. -/

namespace SagaEngine

abbrev HandleId := Nat

abbrev TaskId := Nat

structure Handle where
  finished : Bool := false
  cancelled : Bool := false
  sleeper : Option TaskId := none
deriving Repr, DecidableEq

abbrev Handles := Array Handle

namespace Handles

def isLive (hs : Handles) (h : HandleId) : Bool :=
  match hs[h]? with
  | some x => !x.finished
  | none => false

def isCancelled (hs : Handles) (h : HandleId) : Bool :=
  match hs[h]? with
  | some x => x.cancelled
  | none => false

def finish (hs : Handles) (h : HandleId) : Handles :=
  hs.modify h fun x => { x with finished := true }

def cancel (hs : Handles) (h : HandleId) : Bool × Handles :=
  if hs.isLive h then (true, hs.modify h fun x => { x with finished := true, cancelled := true })
  else (false, hs)

def cancelEach (hs : Handles) : List HandleId → List HandleId × Handles
  | [] => ([], hs)
  | h :: rest =>
    let (hit, hs) := hs.cancel h
    let (hits, hs) := hs.cancelEach rest
    (if hit then h :: hits else hits, hs)

end Handles

structure Registry where
  entries : List HandleId := []
deriving Repr, DecidableEq

namespace Registry

/-- Drops finished entries from the front, up to the first live one. -/
def prune (r : Registry) (hs : Handles) : Registry :=
  ⟨r.entries.dropWhile fun h => !hs.isLive h⟩

def register (r : Registry) (h : HandleId) : Registry := ⟨r.entries ++ [h]⟩

def size (r : Registry) : Nat := r.entries.length

def liveCount (r : Registry) (hs : Handles) : Nat := r.entries.countP hs.isLive

def cancelAll (r : Registry) (hs : Handles) : List HandleId × Registry × Handles :=
  let (hits, hs) := hs.cancelEach r.entries
  (hits, {}, hs)

end Registry

end SagaEngine
