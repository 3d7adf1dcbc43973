import SagaEngine.Proofs.Frame
import SagaEngine.Script

/-! Runs. Code outside the engine, a host or the continuation that a drive loop is running, has control
at times, and may then call any operation on any context. A continuation is not looked into: what it
does next may depend on all that it has seen. Tasks that are ready run in any order. Scripts, which run
them first come first served, are among these runs. -/

namespace SagaEngine

def Task.wait? : Task → Option WaitId
  | .loop l => match l.point with
    | .receiving _ _ i _ => some i
    | _ => none
  | .receiving _ _ i => some i
  | .awaiting _ i => some i
  | .receiver _ _ _ | .done => none

def Task.context? : Task → Option ContextId
  | .loop l => some l.context
  | .receiver c _ _ => some c
  | .receiving c _ _ => some c
  | .awaiting _ _ | .done => none

def Point.inEngine : Point → Bool
  | .body _ _ | .receiving _ _ _ _ => false
  | _ => true

mutual

def Action.handlesWaits : Action → Bool
  | .requeue _ _ | .request _ _ | .requestOne _ _ | .dropWait _ | .await _ => true
  | .ifNotKilled actions => anyHandlesWaits actions
  | .on _ action => action.handlesWaits
  | .repeated _ action => action.handlesWaits
  | _ => false

def anyHandlesWaits : List Action → Bool
  | [] => false
  | a :: as => a.handlesWaits || anyHandlesWaits as

end

namespace World

def Runs (w : World) (t : TaskId) (l : Loop) (frame : Frame) (rest : List Step) : Prop :=
  w.current = some t ∧ w.tasks[t]? = some (.loop l) ∧ l.point = .body frame rest

/-- Code outside the engine has control: the host, when no task runs, or a continuation. -/
def AtLiberty (w : World) : Prop :=
  w.current = none ∨ ∃ t l frame rest, w.Runs t l frame rest

inductive Edit (w : World) : World → Prop where
  | data (c : ContextId) (f : Data → Data) : Edit w (w.modifyData c f)
  | mention (ops : List String) : Edit w (w.mention ops)
  | list (c : ContextId) : c < w.contexts.size → Edit w (w.list c)
  | pushScope (c : ContextId) (id : String) (marker : Option String) :
      Edit w (w.pushScope c id marker).2
  | popScope (c : ContextId) (merge : Bool) (marker : Option String) :
      Edit w (w.popScope c merge marker).1
  | installHandler (c : ContextId) (fault : String) (k : Continuation) :
      Edit w (w.installHandler c fault k).1
  | installCompensation (c : ContextId) (k : Continuation) : Edit w (w.installCompensation c k).1
  | lookupHandler (c : ContextId) (fault : String) (erase : Bool) :
      Edit w (w.lookupHandler c fault erase).1
  | takeCompensation (c : ContextId) (id : String) : Edit w (w.takeCompensation c id).1
  | executeNext (c : ContextId) (ks : List Continuation) :
      Edit w (w.modifyContext c fun x => x.executeNext ks)
  | popNext (c : ContextId) : Edit w (w.modifyContext c fun _ => (w.context c).nextContinuation.2)
  | discard (c : ContextId) : Edit w (w.modifyContext c Context.discardPending)
  | pause (c : ContextId) (requested : Bool) :
      Edit w (w.modifyContext c fun x => { x with pauseRequested := requested })

theorem Edit.edits {w w' : World} (e : Edit w w') : Edits w w' := by
  cases e with
  | data c f => exact edits_modifyData w c f
  | mention ops => exact edits_mention w ops
  | list c hc => exact edits_list w hc
  | pushScope c id marker => exact edits_modifyContext w c _ fun _ => rfl
  | popScope c merge marker => exact edits_popScope w c merge marker
  | installHandler c fault k => exact edits_install w c _ k _
  | installCompensation c k => exact edits_install w c _ k _
  | lookupHandler c fault erase => exact edits_updateScope w c _
  | takeCompensation c id => exact edits_updateScope w c _
  | executeNext c ks => exact edits_modifyContext w c _ fun _ => rfl
  | popNext c => exact edits_replaceContext w c (bare_nextContinuation _)
  | discard c => exact edits_modifyContext w c _ fun _ => rfl
  | pause c requested => exact edits_modifyContext w c _ fun _ => rfl

/-- A call of one operation of the engine. Waits are used by hand only where `raw` holds. -/
inductive Call (raw : Prop) (w : World) : World → Prop where
  | edit {w' : World} : Edit w w' → Call raw w w'
  | kill (c : ContextId) (f : Fault) : Call raw w (w.kill c f)
  | clearKill (c : ContextId) : Call raw w (w.clearKill c)
  | root (label session scope : String) (budget : Nat) (k : Option Continuation) :
      Call raw w ((w.openSession session).2.addRoot label (w.openSession session).1 scope budget k).2
  | child (p : ContextId) (label : String) (k : Option Continuation) :
      p < w.contexts.size → Call raw w (w.addChild p label k).2.2
  | start (c : ContextId) : c < w.contexts.size → Call raw w (w.start c)
  | drive (c : ContextId) (budget : Nat) :
      c < w.contexts.size → Call raw w (w.addLoop c budget false)
  | newHandle (name : String) : Call raw w (w.nameNewHandle name)
  | dropHandle (name : String) : Call raw w (w.dropHandle name)
  | register (c : ContextId) (h : HandleId) : Call raw w (w.cancelIfKilled c h)
  | cancel (h : HandleId) : Call raw w (w.cancelHandle h).2
  | deliver (c : ContextId) (op : String) (v : Json) :
      c < w.contexts.size →
      Call raw w ((w.newLetter op v).2.deliver (w.context c).session (w.newLetter op v).1).2
  | receiver (c : ContextId) (tag : String) (ops : List String) :
      c < w.contexts.size → Call raw w (w.spawnTask (.receiver c tag ops))
  | requeue (c : ContextId) (op : String) (v : Json) :
      raw → c < w.contexts.size →
      Call raw w ((w.newLetter op v).2.requeue (w.context c).session (w.newLetter op v).1)
  | request (c : ContextId) (slot : String) (ops : List String) :
      raw → c < w.contexts.size → Call raw w (w.requestInto c slot ops)
  | dropWait (slot : String) (i : WaitId) :
      raw → w.names.waits.get? slot = some i → Call raw w ((w.closeWait i).2.forgetWait slot)
  | await (slot : String) (i : WaitId) :
      raw → w.names.waits.get? slot = some i →
      Call raw w ((w.forgetWait slot).spawnTask (.awaiting slot i))

inductive Transition (raw : Prop) (w : World) : World → Prop where
  | call {w' : World} : w.AtLiberty → Call raw w w' → Transition raw w w'
  | pick (t : TaskId) :
      w.current = none → t ∈ w.ready →
      Transition raw w { w with current := some t, ready := w.ready.erase t }
  -- what a continuation does, besides calls
  | pass {t : TaskId} {l : Loop} {frame : Frame} {rest : List Step} (rest' : List Step)
      (name : String) (reply : Json) :
      w.Runs t l frame rest → Transition raw w (w.passStep t l frame rest' name reply)
  | finish {t : TaskId} {l : Loop} {frame : Frame} {rest : List Step} :
      w.Runs t l frame rest → Transition raw w (w.finishRound t l)
  | fail {t : TaskId} {l : Loop} {frame : Frame} {rest : List Step} (f : Fault) :
      w.Runs t l frame rest → Transition raw w (w.failStep t l frame f)
  | pauseBody {t : TaskId} {l : Loop} {frame : Frame} {rest : List Step} (rest' : List Step) :
      w.Runs t l frame rest →
      Transition raw w ((w.setLoop t { l with point := .body frame rest' }).yieldTask t)
  | receive {t : TaskId} {l : Loop} {frame : Frame} {rest : List Step} {i : WaitId} {w' : World}
      (rest' : List Step) (receipt : Receipt) (ops : List String) :
      w.Runs t l frame rest → w.beginReceive l.context ops = .ok (i, w') →
      Transition raw w (w'.setLoop t { l with point := .receiving frame rest' i receipt })
  | resume {t : TaskId} {l : Loop} {frame : Frame} {rest : List Step} {i : WaitId}
      {receipt : Receipt} {r : Except (Option Letter) Letter} (rest' : List Step) :
      w.current = some t → w.tasks[t]? = some (.loop l) →
      l.point = .receiving frame rest i receipt → w.resolution? i = some r →
      Transition raw w
        ((w.setLoop t { l with point := .body frame rest' }).endReceive l.context i r).1
  -- what the engine does
  | drive {t : TaskId} {l : Loop} :
      w.current = some t → w.tasks[t]? = some (.loop l) → l.point.inEngine = true →
      Transition raw w (w.loopStep t l)
  | sleep {t : TaskId} {task : Task} {i : WaitId} :
      w.current = some t → w.tasks[t]? = some task → task.wait? = some i →
      w.resolution? i = none → Transition raw w (w.sleepOn t i)
  | beginReceipt {t : TaskId} {c : ContextId} {tag : String} {ops : List String} :
      w.current = some t → w.tasks[t]? = some (.receiver c tag ops) →
      Transition raw w (w.receiverStep t c tag ops)
  | endReceipt {t : TaskId} {c : ContextId} {tag : String} {i : WaitId}
      {r : Except (Option Letter) Letter} :
      w.current = some t → w.tasks[t]? = some (.receiving c tag i) → w.resolution? i = some r →
      Transition raw w
        ((((w.endReceive c i r).1.record (.received tag (w.endReceive c i r).2)).setTask t
          .done).suspend)
  | endAwait {t : TaskId} {slot : String} {i : WaitId} {r : Except (Option Letter) Letter} :
      w.current = some t → w.tasks[t]? = some (.awaiting slot i) → w.resolution? i = some r →
      Transition raw w ((((w.closeWait i).2.record (.awaited slot r)).setTask t .done).suspend)
  | halt {t : TaskId} :
      w.current = some t → (∀ task, w.tasks[t]? = some task → task = .done) →
      Transition raw w w.suspend

/-- The worlds of the runs in which every world on the way is one that `admits`. -/
inductive Reachable (raw : Prop) (admits : World → Prop) : World → Prop where
  | start : admits {} → Reachable raw admits {}
  | next {w w' : World} :
      Reachable raw admits w → Transition raw w w' → admits w' → Reachable raw admits w'

end World

end SagaEngine
