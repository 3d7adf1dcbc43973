import SagaEngine.Arithmetic

/-! Programs. A continuation is a named list of steps that a context runs from first to last; it is
plain data, and may queue, install or spawn further continuations. A step is an action, which takes
effect at once, or one of the two ways to give up control: a yield, and the receipt of a message.
Contexts, handles and waits are named by labels. -/

namespace SagaEngine

mutual

inductive Action where
  -- session data
  | log (v : Json)
  | push (key : String) (v : Json)
  | set (key : String) (v : Json)
  | get (key : String)
  | remove (key : String)
  | snapshot
  | sessionId
  | arith (operation : Arithmetic.Operation) (left right dest : String)
  | raise (fault : Fault)
  -- scopes
  | pushScope (id : String) (marker : Option String)
  | popScope (merge : Bool) (marker : Option String)
  | leaveScope (merge : Bool)
  | handle (fault : String) (k : Continuation)
  | compensation (k : Continuation)
  | lookup (fault : String) (erase : Bool)
  | ownCompensation
  | takeCompensation (id : String)
  | compensate (id : String) (after : List Continuation)
  | scopeId
  | scope (ids : List String)
  | hasScope
  | scopeDepth
  | marker
  -- continuations
  | next (ks : List Continuation)
  | popNext
  | discard
  | pending
  | pause
  | takePause
  | runState
  -- kill
  | kill (fault : Fault)
  | clearKill
  | killed
  | ifNotKilled (actions : List Action)
  -- tree
  | child (label : String) (k : Option Continuation)
  | spawn (label : String) (k : Continuation)
  | start
  | drive (budget : Nat)
  | lineage
  | parent
  | inspect
  | on (label : String) (action : Action)
  | repeated (n : Nat) (action : Action)
  | debug (k : Continuation)
  -- handles
  | newHandle (name : String)
  | registerHandle (name : String)
  | cancelHandle (name : String)
  | completeHandle (name : String)
  | dropHandle (name : String)
  | handleState (name : String)
  -- messages
  | deliver (op : String) (v : Json)
  | requeue (op : String) (v : Json)
  | queued (op : String)
  | waiters
  | request (slot : String) (ops : List String)
  | requestOne (slot : String) (ops : List String)
  | registerWait (slot : String)
  | cancelWait (slot : String)
  | waitState (slot : String)
  | dropWait (slot : String)
  | await (slot : String)
  | receiver (tag : String) (ops : List String)

/-- A receipt that `catches` has an interruption for its result instead of a fault. -/
inductive Step where
  | act (a : Action)
  | receive (ops : List String) (key : String) (name : String) (catches : Bool)
  | yield

inductive Continuation where
  | mk (name : String) (traced : Bool) (steps : List Step)

end

namespace Continuation

def name : Continuation → String
  | .mk name _ _ => name

def traced : Continuation → Bool
  | .mk _ traced _ => traced

def steps : Continuation → List Step
  | .mk _ _ steps => steps

instance : Inhabited Continuation := ⟨.mk "" false []⟩

def noop (name : String) : Continuation := .mk name false []

end Continuation

def Action.name : Action → String
  | .log _ => "log"
  | .push _ _ => "push"
  | .set _ _ => "set"
  | .get _ => "get"
  | .remove _ => "remove"
  | .snapshot => "snapshot"
  | .sessionId => "session_id"
  | .arith _ _ _ _ => "arith"
  | .raise _ => "raise"
  | .pushScope _ _ => "push_scope"
  | .popScope _ _ => "pop_scope"
  | .leaveScope _ => "leave_scope"
  | .handle _ _ => "handler"
  | .compensation _ => "comp"
  | .lookup _ _ => "lookup"
  | .ownCompensation => "self_comp"
  | .takeCompensation _ => "take_comp"
  | .compensate _ _ => "run_comp"
  | .scopeId => "scope_id"
  | .scope _ => "scope"
  | .hasScope => "has_scope"
  | .scopeDepth => "scope_depth"
  | .marker => "exec"
  | .next _ => "next"
  | .popNext => "next_pop"
  | .discard => "discard"
  | .pending => "pending"
  | .pause => "pause"
  | .takePause => "take_pause"
  | .runState => "run_state"
  | .kill _ => "kill"
  | .clearKill => "clear_kill"
  | .killed => "killed"
  | .ifNotKilled _ => "if_not_killed"
  | .child _ _ => "child"
  | .spawn _ _ => "spawn"
  | .start => "start"
  | .drive _ => "drive"
  | .lineage => "lineage"
  | .parent => "parent"
  | .inspect => "inspect"
  | .on _ _ => "on"
  | .repeated _ _ => "repeat"
  | .debug _ => "debug"
  | .newHandle _ => "h_new"
  | .registerHandle _ => "h_register"
  | .cancelHandle _ => "h_cancel"
  | .completeHandle _ => "h_complete"
  | .dropHandle _ => "h_drop"
  | .handleState _ => "h_state"
  | .deliver _ _ => "deliver"
  | .requeue _ _ => "requeue"
  | .queued _ => "queued"
  | .waiters => "waiters"
  | .request _ _ | .requestOne _ _ => "p_request"
  | .registerWait _ => "p_register"
  | .cancelWait _ => "p_cancel"
  | .waitState _ => "p_state"
  | .dropWait _ => "p_drop"
  | .await _ => "p_wait"
  | .receiver _ _ => "h_recv"

mutual

/-- How many actions and steps an action can cause in all, counting those that it only stores. -/
def Action.weight : Action → Nat
  | .handle _ k | .compensation k | .spawn _ k | .child _ (some k) => k.weight + 1
  | .compensate _ ks | .next ks => weightOfContinuations ks + 1
  | .ifNotKilled as => weightOfActions as + 1
  | .on _ a => a.weight + 1
  | .repeated n a => n * a.weight + 1
  | .request _ ops | .requestOne _ ops | .receiver _ ops => ops.length + 1
  | _ => 1

def Step.weight : Step → Nat
  | .act a => a.weight + 1
  | .receive ops _ _ _ => ops.length + 1
  | .yield => 1

def Continuation.weight : Continuation → Nat
  | .mk _ _ steps => weightOfSteps steps + 1

def weightOfActions : List Action → Nat
  | [] => 0
  | a :: as => a.weight + weightOfActions as

def weightOfSteps : List Step → Nat
  | [] => 0
  | s :: ss => s.weight + weightOfSteps ss

def weightOfContinuations : List Continuation → Nat
  | [] => 0
  | k :: ks => k.weight + weightOfContinuations ks

end

end SagaEngine
