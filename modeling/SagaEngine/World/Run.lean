import SagaEngine.World.Drive

/-! Running the tasks of a world. The task at the front of the queue runs until it gives up control,
and then the next one does. A world is at rest when no task is ready. -/

namespace SagaEngine.World

def dispatch (w : World) : World :=
  match w.current, w.ready with
  | none, t :: ready => { w with current := some t, ready }
  | _, _ => w

/-- One small step: of the running task, or else the choice of the next one. -/
def step (w : World) : World :=
  match w.current with
  | some t => w.taskStep t
  | none => w.dispatch

def atRest (w : World) : Bool := w.current.isNone && w.ready.isEmpty

def finishTurn : Nat → World → Option World
  | 0, w => if w.current.isNone then some w else none
  | fuel + 1, w => match w.current with
    | none => some w
    | some t => finishTurn fuel (w.taskStep t)

def turn (fuel : Nat) (w : World) : Option World := finishTurn fuel w.dispatch

/-- Steps until the world is at rest. `none` when that takes more than `fuel` steps. -/
def settle : Nat → World → Option World
  | 0, w => if w.atRest then some w else none
  | fuel + 1, w => if w.atRest then some w else settle fuel w.step

end SagaEngine.World
