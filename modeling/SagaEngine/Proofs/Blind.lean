import SagaEngine.Proofs.Propagation

/-! What operations know of the tasks. None of them looks at the loop that a task drives, so that all
operations, actions included, do the same whatever is put in its place. -/

namespace SagaEngine.World

variable {α β : Type} {w : World} {t : TaskId} {l : Loop} {c : ContextId}

/-- The operation `f` neither looks at the loop of task `t` nor changes it. -/
structure Blind (t : TaskId) (l : Loop) (f : World → World × α) (w : World) : Prop where
  lt : t < (f w).1.tasks.size
  eq : f (w.setLoop t l) = ((f w).1.setLoop t l, (f w).2)

/-! ## Operations -/

theorem setLoop_wake (w : World) (t : TaskId) (l : Loop) (u : TaskId) :
    (w.setLoop t l).wake u = (w.wake u).setLoop t l := by
  rw [wake_eq, wake_eq]
  rfl

theorem setLoop_wakeSleeper (w : World) (t : TaskId) (l : Loop) (h : HandleId) :
    (w.setLoop t l).wakeSleeper h = (w.wakeSleeper h).setLoop t l := by
  have he : (w.setLoop t l).sleeper? h = w.sleeper? h := rfl
  rw [wakeSleeper_eq, wakeSleeper_eq, he]
  cases w.sleeper? h with
  | none => rfl
  | some u => exact setLoop_wake w t l u

theorem setLoop_cancelHandle (w : World) (t : TaskId) (l : Loop) (h : HandleId) :
    (w.setLoop t l).cancelHandle h = ((w.cancelHandle h).1, (w.cancelHandle h).2.setLoop t l) := by
  refine Prod.ext rfl ?_
  have he : (w.setLoop t l).handles = w.handles := rfl
  rw [cancelHandle_eq, cancelHandle_eq, he]
  split
  · exact setLoop_wakeSleeper (w.withHandles (w.handles.cancel h).2) t l h
  · rfl

theorem setLoop_cancelHandles (w : World) (t : TaskId) (l : Loop) (hs : List HandleId) :
    (w.setLoop t l).cancelHandles hs = (w.cancelHandles hs).setLoop t l := by
  induction hs generalizing w with
  | nil => rfl
  | cons h hs ih =>
    change ((w.setLoop t l).cancelHandle h).2.cancelHandles hs = _
    rw [setLoop_cancelHandle]
    exact ih _

theorem setLoop_cancelRegistered (w : World) (t : TaskId) (l : Loop) (c : ContextId) :
    (w.setLoop t l).cancelRegistered c = (w.cancelRegistered c).setLoop t l := by
  rw [cancelRegistered_eq, cancelRegistered_eq]
  change ((w.setLoop t l).cancelHandles (w.context c).registry.entries).modifyContext c _ = _
  rw [setLoop_cancelHandles]
  rfl

theorem setLoop_notify (w : World) (t : TaskId) (l : Loop) (c : ContextId) :
    (w.setLoop t l).notify c = (w.notify c).setLoop t l := by
  have he : (w.setLoop t l).context c = w.context c := rfl
  unfold notify
  rw [he]
  cases (w.context c).idle with
  | nil => rfl
  | cons u idle => exact setLoop_wake (w.modifyContext c fun x => { x with idle }) t l u

theorem setLoop_kill (w : World) (t : TaskId) (l : Loop) (c : ContextId) (f : Fault) :
    (w.setLoop t l).kill c f = (w.kill c f).setLoop t l := by
  unfold kill
  rw [← setLoop_notify, ← setLoop_cancelRegistered]
  rfl

theorem setLoop_escalate (w : World) (t : TaskId) (l : Loop) (c : ContextId) (f : Fault) :
    (w.setLoop t l).escalate c f = (w.escalate c f).setLoop t l := by
  have he : (w.setLoop t l).context c = w.context c := rfl
  unfold escalate
  rw [he, ← setLoop_notify]
  split
  · exact congrArg (notify · c) (setLoop_kill w t l c f)
  · exact congrArg (notify · c) (setLoop_cancelRegistered
      (w.modifyContext c fun x => { x with escalated := x.escalated.or (some f) }) t l c)

theorem setLoop_childFinished (w : World) (t : TaskId) (l : Loop) (c : ContextId) :
    (w.setLoop t l).childFinished c = (w.childFinished c).setLoop t l :=
  setLoop_notify (w.modifyContext c fun x => { x with activeChildren := x.activeChildren - 1 }) t l c

theorem setLoop_cancelIfKilled (w : World) (t : TaskId) (l : Loop) (c : ContextId) (h : HandleId) :
    (w.setLoop t l).cancelIfKilled c h = (w.cancelIfKilled c h).setLoop t l := by
  unfold cancelIfKilled
  dsimp only
  have he : ∀ f, ((w.setLoop t l).modifyContext c f).context c = (w.modifyContext c f).context c :=
    fun _ => rfl
  have hh : (w.setLoop t l).handles = w.handles := rfl
  rw [he, hh]
  split
  · exact congrArg Prod.snd (setLoop_cancelHandle (w.modifyContext c fun x =>
      { x with registry := x.registry.prune w.handles }) t l h)
  · rfl

theorem setLoop_wakeServed (w : World) (t : TaskId) (l : Loop) (s : SessionId)
    (served : Option Nat) :
    (w.setLoop t l).wakeServed s served = (w.wakeServed s served).setLoop t l := by
  have he : (served.bind fun i => (w.setLoop t l).waitHandle? ⟨s, i⟩) =
      served.bind fun i => w.waitHandle? ⟨s, i⟩ := rfl
  unfold wakeServed
  rw [he]
  split
  · exact setLoop_wakeSleeper w t l _
  · rfl

theorem setLoop_deliver (w : World) (t : TaskId) (l : Loop) (s : SessionId) (m : Letter) :
    (w.setLoop t l).deliver s m = ((w.deliver s m).1, (w.deliver s m).2.setLoop t l) := by
  have he : (w.setLoop t l).mailbox s = w.mailbox s := rfl
  have hs : ∀ mb, (w.setLoop t l).setMailbox s mb = (w.setMailbox s mb).setLoop t l := fun _ => rfl
  unfold deliver
  dsimp only
  rw [he, hs, setLoop_wakeServed]
  rfl

theorem setLoop_requeue (w : World) (t : TaskId) (l : Loop) (s : SessionId) (m : Letter) :
    (w.setLoop t l).requeue s m = (w.requeue s m).setLoop t l :=
  setLoop_wakeServed (w.setMailbox s ((w.mailbox s).requeue m).2) t l s _

theorem setLoop_closeWait (w : World) (t : TaskId) (l : Loop) (i : WaitId) :
    (w.setLoop t l).closeWait i = ((w.closeWait i).1, (w.closeWait i).2.setLoop t l) := by
  have he : (w.setLoop t l).waitHandle? i = w.waitHandle? i := rfl
  unfold closeWait
  rw [he]
  cases w.waitHandle? i <;> rfl

theorem setLoop_beginReceive (w : World) (t : TaskId) (l : Loop) (c : ContextId)
    (ops : List String) :
    (w.setLoop t l).beginReceive c ops =
      (w.beginReceive c ops).map fun r => (r.1, r.2.setLoop t l) := by
  have he : (w.setLoop t l).context c = w.context c := rfl
  have hr : ∀ s, (w.setLoop t l).request s ops =
      ((w.request s ops).1, (w.request s ops).2.setLoop t l) := fun _ => rfl
  unfold beginReceive
  rw [he]
  cases (w.context c).interruption? with
  | some f => rfl
  | none =>
    dsimp only
    rw [hr]
    generalize w.request (w.context c).session ops = r
    have hw : (r.2.setLoop t l).waitHandle? r.1 = r.2.waitHandle? r.1 := rfl
    dsimp only
    rw [hw]
    cases r.2.waitHandle? r.1 with
    | none => rfl
    | some h => exact congrArg (fun v => Except.ok (r.1, v)) (setLoop_cancelIfKilled r.2 t l c h)

theorem setLoop_endReceive (w : World) (t : TaskId) (l : Loop) (c : ContextId) (i : WaitId)
    (r : Except (Option Letter) Letter) :
    (w.setLoop t l).endReceive c i r =
      ((w.endReceive c i r).1.setLoop t l, (w.endReceive c i r).2) := by
  unfold endReceive
  rw [setLoop_closeWait]
  generalize (w.closeWait i).2 = v
  cases r with
  | ok m => rfl
  | error unread =>
    cases unread with
    | none => rfl
    | some m =>
      dsimp only
      rw [setLoop_requeue]
      generalize v.requeue i.session m = u
      rfl

theorem setLoop_list (w : World) (t : TaskId) (l : Loop) (c : ContextId) :
    (w.setLoop t l).list c = (w.list c).setLoop t l := by
  have he : (w.setLoop t l).names = w.names := rfl
  unfold list
  rw [he]
  split <;> rfl

theorem setLoop_updateScope (w : World) (t : TaskId) (l : Loop) (c : ContextId)
    (f : Scope Installed → α × Scope Installed) :
    (w.setLoop t l).updateScope c f =
      ((w.updateScope c f).1.setLoop t l, (w.updateScope c f).2) := by
  have ho : (w.setLoop t l).scopeOwner? c = w.scopeOwner? c := rfl
  have hs : (w.setLoop t l).nearestScope? c = w.nearestScope? c := rfl
  unfold updateScope
  rw [ho, hs]
  cases w.scopeOwner? c with
  | none => rfl
  | some o => cases w.nearestScope? c <;> rfl

theorem setLoop_install (w : World) (t : TaskId) (l : Loop) (c : ContextId) (role : Role)
    (k : Continuation) (put : Installed → Scope Installed → Scope Installed) :
    (w.setLoop t l).install c role k put =
      ((w.install c role k put).1.setLoop t l, (w.install c role k put).2) := by
  have hh : (w.setLoop t l).history = w.history := rfl
  unfold install
  dsimp only
  rw [setLoop_updateScope, hh]
  rcases w.updateScope c _ with ⟨v, _ | _⟩ <;> rfl

theorem setLoop_mergeUpward (w : World) (t : TaskId) (l : Loop) (c : ContextId)
    (s : Scope Installed) :
    (w.setLoop t l).mergeUpward c s = (w.mergeUpward c s).setLoop t l := by
  have he : (w.setLoop t l).context c = w.context c := rfl
  unfold mergeUpward
  rw [he]
  cases (w.context c).parent? with
  | none => rfl
  | some p => exact congrArg Prod.fst (setLoop_updateScope w t l p _)

theorem setLoop_popScope (w : World) (t : TaskId) (l : Loop) (c : ContextId) (merge : Bool)
    (marker : Option String) :
    (w.setLoop t l).popScope c merge marker =
      ((w.popScope c merge marker).1.setLoop t l, (w.popScope c merge marker).2) := by
  have he : (w.setLoop t l).context c = w.context c := rfl
  unfold popScope
  rw [he]
  cases (w.context c).popScope? marker with
  | none => rfl
  | some r =>
    obtain ⟨s, x⟩ := r
    have hm := setLoop_mergeUpward (w.modifyContext c fun _ => x) t l c s
    dsimp only
    cases merge with
    | false => rfl
    | true =>
      cases x.scopes with
      | cons => rfl
      | nil => exact Prod.ext hm rfl

theorem setLoop_raise (w : World) (t : TaskId) (l : Loop) (c : ContextId) (f : Fault) :
    (w.setLoop t l).raise c f = ((w.raise c f).1.setLoop t l, (w.raise c f).2) := by
  have he : (w.setLoop t l).context c = w.context c := rfl
  unfold raise
  rw [he]
  rcases (w.context c).unwind f.name with ⟨_ | h, x⟩
  · have hm : (w.setLoop t l).modifyContext c (fun _ => x) =
        (w.modifyContext c fun _ => x).setLoop t l := rfl
    dsimp only
    rw [hm, setLoop_kill]
    generalize (w.modifyContext c fun _ => x).kill c f = v
    have hs : (v.setLoop t l).setRunState c .failed = (v.setRunState c .failed).setLoop t l := rfl
    rw [hs]
    generalize v.setRunState c .failed = u
    have hc : (u.setLoop t l).context c = u.context c := rfl
    have hh : (u.setLoop t l).hasScope c = u.hasScope c := rfl
    rw [hc, hh]
    cases (u.context c).parent? with
    | none => rfl
    | some p =>
      cases u.hasScope c with
      | true => rfl
      | false => exact Prod.ext (setLoop_escalate u t l p f) rfl
  · rfl

theorem setLoop_dropHandle (w : World) (t : TaskId) (l : Loop) (name : String) :
    (w.setLoop t l).dropHandle name = (w.dropHandle name).setLoop t l := by
  have he : (w.setLoop t l).names = w.names := rfl
  unfold dropHandle
  rw [he]
  cases w.names.handles.get? name <;> rfl

theorem setLoop_nameNewHandle (w : World) (t : TaskId) (l : Loop) (name : String) :
    (w.setLoop t l).nameNewHandle name = (w.nameNewHandle name).setLoop t l := by
  unfold nameNewHandle
  rw [setLoop_dropHandle]
  rfl

theorem setLoop_requestInto (w : World) (t : TaskId) (l : Loop) (c : ContextId) (slot : String)
    (ops : List String) :
    (w.setLoop t l).requestInto c slot ops = (w.requestInto c slot ops).setLoop t l := by
  have hr : (w.setLoop t l).request ((w.setLoop t l).context c).session ops =
      ((w.request (w.context c).session ops).1,
        (w.request (w.context c).session ops).2.setLoop t l) := rfl
  have hn : (w.setLoop t l).names = w.names := rfl
  unfold requestInto
  rw [hr, hn]
  generalize w.request (w.context c).session ops = r
  cases w.names.waits.get? slot with
  | none => rfl
  | some j =>
    dsimp only
    rw [setLoop_closeWait]
    rfl

theorem setLoop_sleepOn (w : World) (t : TaskId) (l : Loop) (i : WaitId) :
    (w.setLoop t l).sleepOn t i = (w.sleepOn t i).setLoop t l := by
  have he : (w.setLoop t l).waitHandle? i = w.waitHandle? i := rfl
  unfold sleepOn
  rw [he]
  cases w.waitHandle? i <;> rfl

theorem setLoop_spawnTask (ht : t < w.tasks.size) (l : Loop) (task : Task) :
    (w.setLoop t l).spawnTask task = (w.spawnTask task).setLoop t l := by
  have hs : (w.tasks.set! t (.loop l)).size = w.tasks.size := Array.size_setIfInBounds
  have hp : (w.tasks.set! t (.loop l)).push task = (w.tasks.push task).set! t (.loop l) := by
    refine Array.ext_getElem? fun i => ?_
    simp only [Array.set!_eq_setIfInBounds, Array.getElem?_push, Array.getElem?_setIfInBounds,
      Array.size_setIfInBounds, Array.size_push]
    grind
  unfold spawnTask setLoop setTask
  rw [hp, hs]

theorem lt_spawnTask (ht : t < w.tasks.size) (task : Task) : t < (w.spawnTask task).tasks.size := by
  change t < (w.tasks.push task).size
  rw [Array.size_push]
  exact Nat.lt_succ_of_lt ht

theorem setLoop_numberedLabel (w : World) (t : TaskId) (l : Loop) (label : String) (n fuel : Nat) :
    (w.setLoop t l).numberedLabel label n fuel = w.numberedLabel label n fuel := by
  induction fuel generalizing n with
  | zero => rfl
  | succ fuel ih =>
    unfold numberedLabel
    rw [ih]
    rfl

theorem setLoop_addChild (w : World) (t : TaskId) (l : Loop) (p : ContextId) (label : String)
    (k : Option Continuation) :
    (w.setLoop t l).addChild p label k =
      ((w.addChild p label k).1, (w.addChild p label k).2.1,
        (w.addChild p label k).2.2.setLoop t l) := by
  have hf : (w.setLoop t l).freshLabel label = w.freshLabel label := by
    unfold freshLabel
    rw [setLoop_numberedLabel]
    rfl
  unfold addChild
  rw [hf]
  rfl

theorem lt_start (ht : t < w.tasks.size) (c : ContextId) : t < (w.start c).tasks.size := by
  unfold World.start
  dsimp only
  split
  · exact lt_spawnTask (w := w.childStarted _) ht _
  · exact lt_spawnTask ht _

theorem setLoop_start (ht : t < w.tasks.size) (l : Loop) (c : ContextId) :
    (w.setLoop t l).start c = (w.start c).setLoop t l := by
  have he : (w.setLoop t l).context c = w.context c := rfl
  unfold World.start
  dsimp only
  rw [he]
  cases (w.context c).parent? with
  | none => exact setLoop_spawnTask ht l _
  | some p => exact setLoop_spawnTask (w := w.childStarted p) ht l _

/-! ## Actions -/

theorem Blind.of_tasks {f : World → World × α} (ht : t < w.tasks.size)
    (hs : (f w).1.tasks = w.tasks) (he : f (w.setLoop t l) = ((f w).1.setLoop t l, (f w).2)) :
    Blind t l f w := ⟨hs ▸ ht, he⟩

theorem blind_andThen {f : World → World × Except EngineError α} {g : World → α → Performed}
    (hf : Blind t l f w) (hg : ∀ a, Blind t l (fun v => g v a) (f w).1) :
    Blind t l (fun v => andThen (f v) g) w := by
  obtain ⟨hlt, he⟩ := hf
  cases hr : f w with
  | mk v r =>
    rw [hr] at hlt he hg
    cases r with
    | error e => exact ⟨by simpa only [andThen, hr] using hlt, by simp only [andThen, he, hr]⟩
    | ok a =>
      obtain ⟨hlt', he'⟩ := hg a
      exact ⟨by simpa only [andThen, hr] using hlt', by simpa only [andThen, he, hr] using he'⟩

theorem blind_silent {f : World → World} (ht : t < w.tasks.size) (hs : (f w).tasks = w.tasks)
    (he : f (w.setLoop t l) = (f w).setLoop t l) : Blind t l (fun v => (f v).silent) w :=
  .of_tasks ht hs (congrArg silent he)

theorem blind_iterate {f : World → Performed} (hf : ∀ v, t < v.tasks.size → Blind t l f v) (n : Nat)
    (ht : t < w.tasks.size) (reply : Json) : Blind t l (fun v => iterate f n v reply) w := by
  induction n generalizing w reply with
  | zero => exact ⟨ht, rfl⟩
  | succ n ih =>
    obtain ⟨hlt, he⟩ := hf w ht
    cases hr : f w with
    | mk v r =>
      rw [hr] at hlt he
      cases r with
      | error e => exact ⟨by simpa only [iterate, hr] using hlt, by simp only [iterate, he, hr]⟩
      | ok reply =>
        obtain ⟨hlt', he'⟩ := ih hlt reply
        exact ⟨by simpa only [iterate, hr] using hlt', by simpa only [iterate, he, hr] using he'⟩

theorem blind_withHandle {name : String} {f : World → HandleId → Performed}
    (ht : t < w.tasks.size) (hf : ∀ h, Blind t l (fun v => f v h) w) :
    Blind t l (fun v => v.withHandle name (f v)) w := by
  have he : (w.setLoop t l).names = w.names := rfl
  cases hn : w.names.handles.get? name with
  | none =>
    constructor
    · simp only [withHandle, hn]
      exact ht
    · simp only [withHandle, he, hn]
      rfl
  | some h =>
    obtain ⟨hlt, hh⟩ := hf h
    exact ⟨by simpa only [withHandle, hn] using hlt, by simpa only [withHandle, he, hn] using hh⟩

theorem blind_withWait {slot : String} {f : World → WaitId → Performed} (ht : t < w.tasks.size)
    (hf : ∀ i, Blind t l (fun v => f v i) w) : Blind t l (fun v => v.withWait slot (f v)) w := by
  have he : (w.setLoop t l).names = w.names := rfl
  cases hn : w.names.waits.get? slot with
  | none =>
    constructor
    · simp only [withWait, hn]
      exact ht
    · simp only [withWait, he, hn]
      rfl
  | some i =>
    obtain ⟨hlt, hi⟩ := hf i
    exact ⟨by simpa only [withWait, hn] using hlt, by simpa only [withWait, he, hn] using hi⟩

theorem blind_withWaitHandle {slot : String} {f : World → HandleId → Performed}
    (ht : t < w.tasks.size) (hf : ∀ h, Blind t l (fun v => f v h) w) :
    Blind t l (fun v => v.withWaitHandle slot (f v)) w := by
  unfold withWaitHandle
  refine blind_withWait ht fun i => ?_
  have he : (w.setLoop t l).waitHandle? i = w.waitHandle? i := rfl
  cases hi : w.waitHandle? i with
  | none =>
    constructor
    · simp only [hi]
      exact ht
    · simp only [he, hi]
      rfl
  | some h =>
    obtain ⟨hlt, hh⟩ := hf h
    exact ⟨by simpa only [hi] using hlt, by simpa only [he, hi] using hh⟩

theorem blind_arith (ht : t < w.tasks.size) (operation : Arithmetic.Operation)
    (left right dest : String) : Blind t l (fun v => v.arith c operation left right dest) w := by
  have hd : (w.setLoop t l).data c = w.data c := rfl
  cases hr : operation.apply (((w.data c).get? left).getD .null)
      (((w.data c).get? right).getD .null) with
  | ok v =>
    constructor
    · simp only [arith, hr]
      exact ht
    · simp only [arith, hd, hr]
      rfl
  | error e =>
    constructor
    · simp only [arith, hr]
      exact ht
    · simp only [arith, hd, hr]

theorem blind_cancelIfKilled (ht : t < w.tasks.size) (h : HandleId) :
    Blind t l (fun v => (v.cancelIfKilled c h).silent) w :=
  blind_silent ht (signals_cancelIfKilled w c h).tasks (setLoop_cancelIfKilled w t l c h)

theorem blind_cancelHandle (ht : t < w.tasks.size) (h : HandleId) :
    Blind t l (fun v => (v.cancelHandle h).2.ok (.bool (v.cancelHandle h).1)) w := by
  refine .of_tasks ht (signals_cancelHandle w h).tasks ?_
  rw [setLoop_cancelHandle]
  rfl

mutual

theorem blind_perform (w : World) (c : ContextId) (a : Action) (ht : t < w.tasks.size) :
    Blind t l (fun v => v.perform c a) w := by
  have hinstall : ∀ (role : Role) (k : Continuation) put,
      Blind t l (fun v => v.install c role k put) w := fun role k put =>
    .of_tasks ht (edits_install w c role k put).tasks (setLoop_install w t l c role k put)
  have hupdate : ∀ {α : Type} (f : Scope Installed → α × Scope Installed),
      Blind t l (fun v => v.updateScope c f) w := fun f =>
    .of_tasks ht (edits_updateScope w c f).tasks (setLoop_updateScope w t l c f)
  have hpop : ∀ merge marker, Blind t l (fun v => v.popScope c merge marker) w :=
    fun merge marker =>
      .of_tasks ht (edits_popScope w c merge marker).tasks (setLoop_popScope w t l c merge marker)
  have hlook : ∀ {α : Type} (f : World → Except EngineError α)
      (_ : f (w.setLoop t l) = f w), Blind t l (fun v => (v, f v)) w := fun f hf =>
    ⟨ht, Prod.ext rfl hf⟩
  cases a with
  | arith operation left right dest => exact blind_arith ht operation left right dest
  | popScope merge marker => exact blind_andThen (hpop merge marker) fun _ => ⟨(hpop _ _).lt, rfl⟩
  | leaveScope merge =>
    exact blind_andThen (hlook (fun v => v.currentScopeId c) rfl) fun _ =>
      blind_andThen (hpop merge none) fun _ => ⟨(hpop merge none).lt, rfl⟩
  | handle fault k => exact blind_andThen (hinstall _ k _) fun _ => ⟨(hinstall _ k _).lt, rfl⟩
  | compensation k => exact blind_andThen (hinstall _ k _) fun _ => ⟨(hinstall _ k _).lt, rfl⟩
  | lookup fault erase => exact blind_andThen (hupdate _) fun _ => ⟨(hupdate _).lt, rfl⟩
  | ownCompensation =>
    exact blind_andThen (hlook (fun v => v.ownCompensation c) rfl) fun _ => ⟨ht, rfl⟩
  | takeCompensation id => exact blind_andThen (hupdate _) fun _ => ⟨(hupdate _).lt, rfl⟩
  | compensate id after => exact blind_andThen (hupdate _) fun _ => ⟨(hupdate _).lt, rfl⟩
  | scopeId => exact blind_andThen (hlook (fun v => v.currentScopeId c) rfl) fun _ => ⟨ht, rfl⟩
  | scope ids =>
    exact blind_andThen (hlook (fun v => v.readScope c fun s => scopeSummary s ids) rfl) fun _ =>
      ⟨ht, rfl⟩
  | kill f => exact blind_silent ht (signals_kill w c f).tasks (setLoop_kill w t l c f)
  | ifNotKilled as =>
    have he : (w.setLoop t l).context c = w.context c := rfl
    obtain ⟨hlt, hv⟩ := blind_performAll w c as ht
    cases hk : (w.context c).isKilled with
    | true =>
      refine ⟨?_, ?_⟩
      · simp only [perform, hk, if_true]
        exact ht
      · simp only [perform, he, hk, if_true]
        rfl
    | false =>
      rcases hr : w.performAll c as with ⟨u, r⟩
      rw [hr] at hlt hv
      refine ⟨?_, ?_⟩
      · simp only [perform, hk, hr, Bool.false_eq_true, if_false]
        cases r <;> exact hlt
      · simp only [perform, he, hk, hv, hr, Bool.false_eq_true, if_false]
        cases r <;> rfl
  | child label k =>
    refine .of_tasks ht (list_kept (w.addChild c label k).2.2 _).2.1 ?_
    unfold perform
    rw [setLoop_addChild]
    exact congrArg (ok · _) (setLoop_list (w.addChild c label k).2.2 t l _)
  | spawn label k =>
    refine ⟨lt_start (w := (w.addChild c label (some k)).2.2) ht _, ?_⟩
    unfold perform
    rw [setLoop_addChild]
    exact congrArg (ok · _) (setLoop_start (w := (w.addChild c label (some k)).2.2) ht l _)
  | start => exact ⟨lt_start ht c, Prod.ext (setLoop_start ht l c) rfl⟩
  | drive budget => exact ⟨lt_spawnTask ht _, Prod.ext (setLoop_spawnTask ht l _) rfl⟩
  | on label a =>
    have he : (w.setLoop t l).findContext? label = w.findContext? label := rfl
    cases hd : w.findContext? label with
    | none =>
      refine ⟨?_, ?_⟩
      · simp only [perform, hd]
        exact ht
      · simp only [perform, he, hd]
        rfl
    | some d =>
      obtain ⟨hlt, hv⟩ := blind_perform w d a ht
      exact ⟨by simpa only [perform, hd] using hlt, by simpa only [perform, he, hd] using hv⟩
  | repeated n a =>
    exact blind_iterate (fun v hv => blind_perform v c a hv) n ht .null
  | newHandle name =>
    exact blind_silent ht (posts_nameNewHandle w name).tasks (setLoop_nameNewHandle w t l name)
  | registerHandle name => exact blind_withHandle ht fun h => blind_cancelIfKilled ht h
  | cancelHandle name => exact blind_withHandle ht fun h => blind_cancelHandle ht h
  | completeHandle name =>
    exact blind_silent ht (posts_dropHandle w name).tasks (setLoop_dropHandle w t l name)
  | dropHandle name =>
    exact blind_silent ht (posts_dropHandle w name).tasks (setLoop_dropHandle w t l name)
  | handleState name => exact blind_withHandle ht fun h => ⟨ht, rfl⟩
  | deliver op v =>
    refine .of_tasks ht (posts_deliver ((w.mention [op]).newLetter op v).2 _ _).tasks ?_
    exact congrArg (fun r : Bool × World => r.2.ok (.bool r.1))
      (setLoop_deliver ((w.mention [op]).newLetter op v).2 t l _ _)
  | requeue op v =>
    refine .of_tasks ht (posts_requeue ((w.mention [op]).newLetter op v).2 _ _).tasks ?_
    exact congrArg silent (setLoop_requeue ((w.mention [op]).newLetter op v).2 t l _ _)
  | request slot ops =>
    exact .of_tasks ht (posts_requestInto (w.mention ops) c slot ops).tasks
      (congrArg silent (setLoop_requestInto (w.mention ops) t l c slot ops))
  | requestOne slot ops =>
    exact .of_tasks ht (posts_requestInto (w.mention ops) c slot (ops.take 1)).tasks
      (congrArg silent (setLoop_requestInto (w.mention ops) t l c slot (ops.take 1)))
  | registerWait slot => exact blind_withWaitHandle ht fun h => blind_cancelIfKilled ht h
  | cancelWait slot => exact blind_withWaitHandle ht fun h => blind_cancelHandle ht h
  | waitState slot => exact blind_withWaitHandle ht fun h => ⟨ht, rfl⟩
  | dropWait slot =>
    refine blind_withWait ht fun i => .of_tasks ht (posts_closeWait w i).tasks ?_
    rw [setLoop_closeWait]
    rfl
  | await slot =>
    exact blind_withWait ht fun i =>
      ⟨lt_spawnTask (w := w.forgetWait slot) ht _,
        Prod.ext (setLoop_spawnTask (w := w.forgetWait slot) ht l _) rfl⟩
  | receiver tag ops =>
    exact ⟨lt_spawnTask (w := w.mention ops) ht _,
      Prod.ext (setLoop_spawnTask (w := w.mention ops) ht l _) rfl⟩
  -- all other actions look at contexts and session data only
  | _ => exact ⟨ht, rfl⟩

theorem blind_performAll (w : World) (c : ContextId) (as : List Action) (ht : t < w.tasks.size) :
    Blind t l (fun v => v.performAll c as) w := by
  cases as with
  | nil => exact ⟨ht, rfl⟩
  | cons a as =>
    obtain ⟨hlt, he⟩ := blind_perform w c a ht
    cases hr : w.perform c a with
    | mk u r =>
      rw [hr] at hlt he
      cases r with
      | error e =>
        exact ⟨by simpa only [performAll, hr] using hlt, by simp only [performAll, he, hr]⟩
      | ok reply =>
        obtain ⟨hlt', he'⟩ := blind_performAll u c as hlt
        exact ⟨by simpa only [performAll, hr] using hlt',
          by simpa only [performAll, he, hr] using he'⟩

end

end SagaEngine.World
