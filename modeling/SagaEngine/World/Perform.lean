import SagaEngine.World.Inspect

/-! The effect of each action on the world, for the context that performs it. An action answers with a
value, null where there is nothing to say, or fails; what it did before it failed stays done. -/

namespace SagaEngine.World

abbrev Performed := World × Except Failure Json

def ok (w : World) (reply : Json) : Performed := (w, .ok reply)

def silent (w : World) : Performed := w.ok .null

def andThen {α : Type} (r : World × Except EngineError α) (f : World → α → Performed) : Performed :=
  match r with
  | (w, .ok a) => f w a
  | (w, .error e) => (w, .error (.engine e))

def answer {α : Type} (w : World) (r : Except EngineError α) (f : α → Json) : Performed :=
  andThen (w, r) fun w a => w.ok (f a)

def found (k : Option Continuation) : Json := .obj [("found", .ofOption (k.map Continuation.name))]

def foundInstalled (x : Option Installed) : Json := found (x.map Installed.continuation)

def modifyData (w : World) (c : ContextId) (f : Data → Data) : World :=
  w.modifySession (w.context c).session fun s => { s with data := f s.data }

def data (w : World) (c : ContextId) : Data := (w.session (w.context c).session).data

def arith (w : World) (c : ContextId) (operation : Arithmetic.Operation) (left right dest : String) :
    Performed :=
  let operand := fun key => ((w.data c).get? key).getD .null
  match operation.apply (operand left) (operand right) with
  | .ok v => (w.modifyData c fun d => d.insert dest v).ok (.present (some v))
  | .error e => (w, .error (.fault e.toFault))

def compensate (w : World) (c : ContextId) (id : String) (after : List Continuation) : Performed :=
  andThen (w.takeCompensation c id) fun w x =>
    let k := x.map Installed.continuation
    (w.modifyContext c fun x => x.executeNext (k.toList ++ after)).ok (found k)

def leaveScope (w : World) (c : ContextId) (merge : Bool) : Performed :=
  andThen (w, w.currentScopeId c) fun w id =>
    andThen (w.popScope c merge none) fun w _ =>
      (w.modifyData c fun d => d.push "log" (.str ("leave " ++ id))).silent

def dropHandle (w : World) (name : String) : World :=
  match w.names.handles.get? name with
  | some h =>
    { w.finishHandle h with names := { w.names with handles := w.names.handles.erase name } }
  | none => w

def withHandle (w : World) (name : String) (f : HandleId → Performed) : Performed :=
  match w.names.handles.get? name with
  | some h => f h
  | none => w.silent

def nameNewHandle (w : World) (name : String) : World :=
  let (h, w) := (w.dropHandle name).newHandle
  { w with names := { w.names with handles := w.names.handles.insert name h } }

def withWait (w : World) (slot : String) (f : WaitId → Performed) : Performed :=
  match w.names.waits.get? slot with
  | some i => f i
  | none => w.silent

def forgetWait (w : World) (slot : String) : World :=
  { w with names := { w.names with waits := w.names.waits.erase slot } }

def requestInto (w : World) (c : ContextId) (slot : String) (ops : List String) : World :=
  let old := w.names.waits.get? slot
  let (i, w) := w.request (w.context c).session ops
  let w := match old with
    | some j => (w.closeWait j).2
    | none => w
  { w with names := { w.names with waits := w.names.waits.insert slot i } }

def withWaitHandle (w : World) (slot : String) (f : HandleId → Performed) : Performed :=
  w.withWait slot fun i => match w.waitHandle? i with
    | some h => f h
    | none => w.silent

def iterate (f : World → Performed) : Nat → World → Json → Performed
  | 0, w, reply => w.ok reply
  | n + 1, w, _ => match f w with
    | (w, .ok reply) => iterate f n w reply
    | failed => failed

mutual

def perform (w : World) (c : ContextId) : Action → Performed
  | .log v => (w.modifyData c fun d => d.push "log" v).silent
  | .push key v => (w.modifyData c fun d => d.push key v).silent
  | .set key v => (w.modifyData c fun d => d.insert key v).ok (.present ((w.data c).get? key))
  | .get key => w.ok (.present ((w.data c).get? key))
  | .remove key => (w.modifyData c fun d => d.erase key).ok (.present ((w.data c).get? key))
  | .snapshot => w.ok (w.data c).snapshot
  | .sessionId => w.ok (.str (w.session (w.context c).session).id)
  | .arith operation left right dest => w.arith c operation left right dest
  | .raise f => (w, .error (.fault f))
  | .pushScope id marker =>
    let (previous, w) := w.pushScope c id marker
    w.ok (.obj [("previous", .ofOption previous)])
  | .popScope merge marker => andThen (w.popScope c merge marker) fun w _ => w.silent
  | .leaveScope merge => w.leaveScope c merge
  | .handle fault k => andThen (w.installHandler c fault k) fun w _ => w.silent
  | .compensation k => andThen (w.installCompensation c k) fun w _ => w.silent
  | .lookup fault erase => andThen (w.lookupHandler c fault erase) fun w x => w.ok (foundInstalled x)
  | .ownCompensation => w.answer (w.ownCompensation c) foundInstalled
  | .takeCompensation id => andThen (w.takeCompensation c id) fun w x => w.ok (foundInstalled x)
  | .compensate id after => w.compensate c id after
  | .scopeId => w.answer (w.currentScopeId c) .str
  | .scope ids => w.answer (w.readScope c fun s => scopeSummary s ids) id
  | .hasScope => w.ok (.bool (w.hasScope c))
  | .scopeDepth => w.ok (.ofNat (w.context c).scopes.length)
  | .marker => w.ok (.arr [.ofOption (w.context c).marker])
  | .next ks => (w.modifyContext c fun x => x.executeNext ks).silent
  | .popNext =>
    let (k, x) := (w.context c).nextContinuation
    (w.modifyContext c fun _ => x).ok (found k)
  | .discard =>
    (w.modifyContext c Context.discardPending).ok (.ofNat (w.context c).pending.length)
  | .pending => w.ok (.ofNat (w.context c).pending.length)
  | .pause => (w.modifyContext c fun x => { x with pauseRequested := true }).silent
  | .takePause =>
    (w.modifyContext c fun x => { x with pauseRequested := false }).ok
      (.bool (w.context c).pauseRequested)
  | .runState => w.ok (w.context c).runState.toJson
  | .kill f => (w.kill c f).silent
  | .clearKill => (w.clearKill c).silent
  | .killed => w.ok (.arr [Fault.optionToJson (w.context c).killer, .bool (w.context c).isKilled])
  | .ifNotKilled actions =>
    if (w.context c).isKilled then w.ok (.obj [("ran", .bool false)])
    else match performAll w c actions with
      | (w, .ok _) => w.ok (.obj [("ran", .bool true)])
      | failed => failed
  | .child label k =>
    let (label, child, w) := w.addChild c label k
    (w.list child).ok (.str label)
  | .spawn label k =>
    let (label, child, w) := w.addChild c label (some k)
    (w.start child).ok (.str label)
  | .start => (w.start c).silent
  | .drive budget => (w.addLoop c budget false).silent
  | .lineage => w.ok (.arr ((w.lineage c).map fun c => .str (w.label c)))
  | .parent => w.ok (.arr [.ofOption ((w.context c).parent?.map w.label)])
  | .inspect => w.ok (w.inspect c)
  | .on label action => match w.findContext? label with
    | some d => perform w d action
    | none => w.silent
  | .repeated n action => iterate (fun w => perform w c action) n w .null
  | .debug k =>
    w.ok (.arr [.str (w.debugText c), .str ("Continuation(" ++ Text.quote k.name ++ ")")])
  | .newHandle name => (w.nameNewHandle name).silent
  | .registerHandle name => w.withHandle name fun h => (w.cancelIfKilled c h).silent
  | .cancelHandle name => w.withHandle name fun h =>
    let (hit, w) := w.cancelHandle h
    w.ok (.bool hit)
  | .completeHandle name | .dropHandle name => (w.dropHandle name).silent
  | .handleState name => w.withHandle name fun h => w.ok (w.handleState h)
  | .deliver op v =>
    let (m, w) := (w.mention [op]).newLetter op v
    let (served, w) := w.deliver (w.context c).session m
    w.ok (.bool served)
  | .requeue op v =>
    let (m, w) := (w.mention [op]).newLetter op v
    (w.requeue (w.context c).session m).silent
  | .queued op => (w.mention [op]).ok (.ofNat ((w.mailbox (w.context c).session).queued op))
  | .waiters => w.ok (.ofNat (w.mailbox (w.context c).session).waiterCount)
  | .request slot ops => ((w.mention ops).requestInto c slot ops).silent
  | .requestOne slot ops => ((w.mention ops).requestInto c slot (ops.take 1)).silent
  | .registerWait slot => w.withWaitHandle slot fun h => (w.cancelIfKilled c h).silent
  | .cancelWait slot => w.withWaitHandle slot fun h =>
    let (hit, w) := w.cancelHandle h
    w.ok (.bool hit)
  | .waitState slot => w.withWaitHandle slot fun h => w.ok (w.handleState h)
  | .dropWait slot => w.withWait slot fun i => ((w.closeWait i).2.forgetWait slot).silent
  | .await slot => w.withWait slot fun i =>
    ((w.forgetWait slot).spawnTask (.awaiting slot i)).silent
  | .receiver tag ops => ((w.mention ops).spawnTask (.receiver c tag ops)).silent

def performAll (w : World) (c : ContextId) : List Action → Performed
  | [] => w.silent
  | a :: as => match perform w c a with
    | (w, .ok _) => performAll w c as
    | failed => failed

end

end SagaEngine.World
