import Mathlib.Logic.Function.Iterate
import SagaEngine.Proofs.Blind
import SagaEngine.Proofs.Scripts

/-! Slices of a drive loop that is the only task. When it yields there is nothing else to run, so that
it goes on where it was; the budget only decides how often that happens. -/

namespace SagaEngine

def Loop.paced (l : Loop) (budget slice : Nat) : Loop := { l with budget, slice }

namespace World

variable {w w' v : World} {raw : Prop} {admits : World → Prop} {t : TaskId} {l : Loop}
  {b s : Nat} {c : ContextId} {f : Fault}

/-! ## Nobody to wake -/

structure Hushed (w : World) : Prop where
  idle : ∀ c, (w.context c).idle = []
  asleep : ∀ h, w.sleeper? h = none

structure Hush (w w' : World) : Prop extends Hushed w' where
  tasks : w'.tasks = w.tasks
  ready : w'.ready = w.ready
  current : w'.current = w.current

theorem Hush.trans (h : Hush w v) (h' : Hush v w') : Hush w w' where
  toHushed := h'.toHushed
  tasks := h'.tasks.trans h.tasks
  ready := h'.ready.trans h.ready
  current := h'.current.trans h.current

theorem hush_of_eq (h : Hushed w) (hc : ∀ c, (w'.context c).idle = (w.context c).idle)
    (hs : ∀ i, w'.sleeper? i = w.sleeper? i) (ht : w'.tasks = w.tasks) (hr : w'.ready = w.ready)
    (hcur : w'.current = w.current) : Hush w w' where
  idle c := (hc c).trans (h.idle c)
  asleep i := (hs i).trans (h.asleep i)
  tasks := ht
  ready := hr
  current := hcur

theorem Hushed.refl (h : Hushed w) : Hush w w := hush_of_eq h (fun _ => rfl) (fun _ => rfl) rfl rfl rfl

theorem Edits.hush (e : Edits w w') (h : Hushed w) : Hush w w' := by
  refine hush_of_eq h (fun c => ?_) (fun i => ?_) e.tasks e.ready e.current
  · change (w'.context c).bare.idle = (w.context c).bare.idle
    rw [e.bare]
  · unfold sleeper?
    rw [e.handles]

theorem Hushed.modifyContext (h : Hushed w) (c : ContextId) {g : Context → Context}
    (hg : ∀ x, (g x).idle = x.idle) : Hush w (w.modifyContext c g) :=
  hush_of_eq h (context_modifyContext_congr Context.idle hg w c) (fun _ => rfl) rfl rfl rfl

theorem Hushed.wakeSleeper (h : Hushed w) (i : HandleId) : w.wakeSleeper i = w := by
  rw [wakeSleeper_eq, h.asleep i]

theorem Hushed.cancelHandle (h : Hushed w) (i : HandleId) : Hush w (w.cancelHandle i).2 := by
  have hv : Hush w (w.withHandles (w.handles.cancel i).2) :=
    hush_of_eq h (fun _ => rfl) (fun k => Handles.sleeper_cancel ..) rfl rfl rfl
  rw [cancelHandle_eq]
  split
  · rw [hv.wakeSleeper]
    exact hv
  · exact h.refl

theorem Hushed.cancelHandles (ks : List HandleId) (h : Hushed w) : Hush w (w.cancelHandles ks) := by
  induction ks generalizing w with
  | nil => exact h.refl
  | cons k ks ih => exact (h.cancelHandle k).trans (ih (h.cancelHandle k).toHushed)

theorem Hushed.cancelRegistered (h : Hushed w) (c : ContextId) : Hush w (w.cancelRegistered c) := by
  rw [cancelRegistered_eq]
  have hv := h.cancelHandles (w.context c).registry.entries
  exact hv.trans (hv.modifyContext c fun _ => rfl)

theorem Hushed.notify (h : Hushed w) (c : ContextId) : Hush w (w.notify c) := by
  unfold World.notify
  rw [h.idle c]
  exact h.modifyContext c fun _ => rfl

theorem Hushed.kill (h : Hushed w) (c : ContextId) (f : Fault) : Hush w (w.kill c f) := by
  have hk : Hush w (w.modifyContext c fun x => { x with killer := x.killer.or (some f) }) :=
    h.modifyContext c fun _ => rfl
  have hr := hk.cancelRegistered c
  exact hk.trans (hr.trans (hr.notify c))

theorem Hushed.escalate (h : Hushed w) (c : ContextId) (f : Fault) : Hush w (w.escalate c f) := by
  unfold World.escalate
  dsimp only
  split
  · have hk := h.kill c f
    exact hk.trans (hk.notify c)
  · have he : Hush w (w.modifyContext c fun x => { x with escalated := x.escalated.or (some f) }) :=
      h.modifyContext c fun _ => rfl
    have hr := he.cancelRegistered c
    exact he.trans (hr.trans (hr.notify c))

theorem Hushed.childFinished (h : Hushed w) (c : ContextId) : Hush w (w.childFinished c) := by
  have hv : Hush w (w.modifyContext c fun x => { x with activeChildren := x.activeChildren - 1 }) :=
    h.modifyContext c fun _ => rfl
  exact hv.trans (hv.notify c)

theorem Hushed.cancelIfKilled (h : Hushed w) (c : ContextId) (i : HandleId) :
    Hush w (w.cancelIfKilled c i) := by
  have hp : Hush w (w.modifyContext c fun x => { x with registry := x.registry.prune w.handles }) :=
    h.modifyContext c fun _ => rfl
  unfold World.cancelIfKilled
  dsimp only
  split
  · exact hp.trans (hp.cancelHandle i)
  · exact hp.trans (hp.modifyContext c fun _ => rfl)

theorem Hushed.wakeServed (h : Hushed w) (s : SessionId) (served : Option Nat) :
    w.wakeServed s served = w := by
  unfold World.wakeServed
  split
  · exact h.wakeSleeper _
  · rfl

theorem Hushed.setMailbox (h : Hushed w) (s : SessionId) (mb : Mailbox) :
    Hush w (w.setMailbox s mb) := hush_of_eq h (fun _ => rfl) (fun _ => rfl) rfl rfl rfl

theorem Hushed.record (h : Hushed w) (e : Event) : Hush w (w.record e) :=
  hush_of_eq h (fun _ => rfl) (fun _ => rfl) rfl rfl rfl

theorem Hushed.deliver (h : Hushed w) (s : SessionId) (m : Letter) : Hush w (w.deliver s m).2 := by
  have hv := h.setMailbox s ((w.mailbox s).deliver m).2
  change Hush w (((w.setMailbox s ((w.mailbox s).deliver m).2).wakeServed s _).record _)
  rw [hv.wakeServed]
  exact hv.trans (hv.record _)

theorem Hushed.requeue (h : Hushed w) (s : SessionId) (m : Letter) : Hush w (w.requeue s m) := by
  have hv := h.setMailbox s ((w.mailbox s).requeue m).2
  change Hush w ((w.setMailbox s ((w.mailbox s).requeue m).2).wakeServed s _)
  rw [hv.wakeServed]
  exact hv

theorem Hushed.request (h : Hushed w) (s : SessionId) (ops : List String) :
    Hush w (w.request s ops).2 :=
  hush_of_eq h (fun _ => rfl) (fun i => Handles.sleeper_push w.handles i) rfl rfl rfl

theorem Hushed.finishHandle (h : Hushed w) (i : HandleId) : Hush w (w.finishHandle i) :=
  hush_of_eq h (fun _ => rfl) (fun k => Handles.sleeper_finish w.handles i k) rfl rfl rfl

theorem Hushed.closeWait (h : Hushed w) (i : WaitId) : Hush w (w.closeWait i).2 := by
  have hv := h.setMailbox i.session ((w.mailbox i.session).close i.index).2
  unfold World.closeWait
  dsimp only
  split
  · exact hv.trans (hv.finishHandle _)
  · exact hv

theorem Hushed.endReceive (h : Hushed w) (c : ContextId) (i : WaitId)
    (r : Except (Option Letter) Letter) : Hush w (w.endReceive c i r).1 := by
  have hc := h.closeWait i
  cases r with
  | ok m => exact hc.trans (hc.record _)
  | error unread =>
    cases unread with
    | none => exact hc.trans (hc.record _)
    | some m =>
      have hr := hc.requeue i.session m
      exact hc.trans (hr.trans (hr.record _))

theorem Hushed.beginReceive (h : Hushed w) {ops : List String} {i : WaitId}
    (hb : w.beginReceive c ops = .ok (i, w')) : Hush w w' := by
  have hr := h.request (w.context c).session ops
  unfold World.beginReceive at hb
  split at hb
  · cases hb
  · dsimp only at hb
    split at hb
    · cases hb
      exact hr.trans (hr.cancelIfKilled c _)
    · cases hb
      exact hr

theorem Hushed.raise (h : Hushed w) (c : ContextId) (f : Fault) : Hush w (w.raise c f).1 := by
  rcases hx : (w.context c).unwind f.name with ⟨_ | k, x⟩
  · have hfall : Hush w (w.fallen c f x) := by
      have hm : Hush w (w.modifyContext c fun _ => x) :=
        (edits_replaceContext w c (bare_unwind hx)).hush h
      have hk := hm.kill c f
      have hs : Hush _ (((w.modifyContext c fun _ => x).kill c f).setRunState c .failed) :=
        hk.modifyContext c (g := fun x => { x with runState := .failed }) fun _ => rfl
      exact hm.trans (hk.trans hs)
    rcases raise_uncaught hx with hr | ⟨p, -, hr⟩
    · rw [hr]
      exact hfall
    · have he := hfall.escalate p f
      rw [hr]
      dsimp only
      exact hfall.trans he
  · rw [raise_caught hx]
    have hm : Hush w (w.modifyContext c fun _ => x) :=
      (edits_replaceContext w c (bare_unwind hx)).hush h
    have hq := hm.modifyContext c (g := fun x => x.discardPending.executeNext [k.continuation])
      fun _ => rfl
    exact hm.trans (hq.trans (hq.record _))

/-! ### Calls -/

theorem Hushed.requestInto (h : Hushed w) (c : ContextId) (slot : String) (ops : List String) :
    Hush w (w.requestInto c slot ops) := by
  have hr := h.request (w.context c).session ops
  have hn : ∀ {u : World} names, Hushed u → Hush u { u with names } := fun _ hu =>
    hush_of_eq hu (fun _ => rfl) (fun _ => rfl) rfl rfl rfl
  unfold World.requestInto
  dsimp only
  split
  · rename_i j _
    have hc := hr.closeWait j
    exact hr.trans (hc.trans (hn _ hc.toHushed))
  · exact hr.trans (hn _ hr.toHushed)

theorem Hushed.dropHandle (h : Hushed w) (name : String) : Hush w (w.dropHandle name) := by
  unfold World.dropHandle
  split
  · have hf := h.finishHandle
    exact hush_of_eq h (fun _ => rfl) (fun i => Handles.sleeper_finish w.handles _ i) rfl rfl rfl
  · exact h.refl

theorem Hushed.nameNewHandle (h : Hushed w) (name : String) : Hush w (w.nameNewHandle name) := by
  have hd := h.dropHandle name
  exact hd.trans (hush_of_eq hd.toHushed (fun _ => rfl)
    (fun i => Handles.sleeper_push (w.dropHandle name).handles i) rfl rfl rfl)

theorem Hushed.addContext (h : Hushed w) {x : Context} (hx : x.idle = []) :
    Hush w (w.addContext x).2 where
  idle c := by
    rw [context_push]
    split
    · exact hx
    · exact h.idle c
  asleep := h.asleep
  tasks := rfl
  ready := rfl
  current := rfl

theorem Call.hush (k : Call raw w w') (h : Hushed w) (hs : w'.tasks.size ≤ w.tasks.size) :
    Hush w w' := by
  have hspawn : ∀ {u : World} {task : Task}, u.tasks.size = w.tasks.size →
      (u.spawnTask task).tasks.size ≤ w.tasks.size → Hush w (u.spawnTask task) := by
    intro u task hu hle
    change (u.tasks.push task).size ≤ _ at hle
    rw [Array.size_push, hu] at hle
    exact absurd hle (Nat.not_succ_le_self _)
  cases k with
  | edit e => exact e.edits.hush h
  | kill c f => exact h.kill c f
  | clearKill c => exact h.modifyContext c fun _ => rfl
  | root label session scope budget k =>
    obtain ⟨ss, hw⟩ := openSession_eq w session
    have hopen : Hush w (w.openSession session).2 :=
      hw ▸ hush_of_eq h (fun _ => rfl) (fun _ => rfl) rfl rfl rfl
    have hadd := hopen.addContext (x := {
      label := (w.openSession session).2.freshLabel label, session := (w.openSession session).1,
      sliceBudget := budget, scopes := [{ id := scope }], pending := k.toList }) rfl
    exact hopen.trans (hadd.trans ((edits_list _ (by simp [World.addContext])).hush hadd.toHushed))
  | child p label k hp => exact h.addContext rfl
  | start c hc =>
    unfold World.start at hs ⊢
    dsimp only at hs ⊢
    split at hs
    · exact hspawn (u := w.childStarted _) rfl hs
    · exact hspawn rfl hs
  | drive c budget hc => exact hspawn rfl hs
  | newHandle name => exact h.nameNewHandle name
  | dropHandle name => exact h.dropHandle name
  | register c i => exact h.cancelIfKilled c i
  | cancel i => exact h.cancelHandle i
  | deliver c op v hc =>
    have hn : Hush w (w.newLetter op v).2 := hush_of_eq h (fun _ => rfl) (fun _ => rfl) rfl rfl rfl
    exact hn.trans (hn.deliver _ _)
  | receiver c tag ops hc => exact hspawn rfl hs
  | requeue c op v hr hc =>
    have hn : Hush w (w.newLetter op v).2 := hush_of_eq h (fun _ => rfl) (fun _ => rfl) rfl rfl rfl
    exact hn.trans (hn.requeue _ _)
  | request c slot ops hr hc => exact h.requestInto c slot ops
  | dropWait slot i hr hi =>
    have hc := h.closeWait i
    exact hc.trans (hush_of_eq hc.toHushed (fun _ => rfl) (fun _ => rfl) rfl rfl rfl)
  | await slot i hr hi => exact hspawn rfl hs

theorem Grows.tasks_le (h : Grows w w') : w.tasks.size ≤ w'.tasks.size := by
  refine Nat.le_of_not_lt fun hlt => ?_
  have hold : w.tasks[w'.tasks.size]? = some w.tasks[w'.tasks.size] := Array.getElem?_eq_getElem hlt
  have hnew := (Array.getElem?_eq_some_iff.1 (h.task _ _ hold)).1
  exact Nat.lt_irrefl _ hnew

theorem Calls.hush (k : Calls raw w w') (h : Hushed w) (hs : w'.tasks.size ≤ w.tasks.size) :
    Hush w w' := by
  induction k with
  | refl => exact h.refl
  | tail ks k ih =>
    have hlast := k.grows.tasks_le
    have hv := ih (Nat.le_trans hlast hs)
    have hw := k.hush hv.toHushed (by rw [hv.tasks]; exact hs)
    exact hv.trans hw

/-! ## Two paces -/

/-- Task `t` runs, and no other task is ready or can be woken. -/
structure Alone (w : World) (t : TaskId) : Prop extends Hushed w where
  current : w.current = some t
  ready : w.ready = []
  lt : t < w.tasks.size

theorem Hush.alone (h : Hush w w') (ha : w.Alone t) : w'.Alone t where
  toHushed := h.toHushed
  current := h.current.trans ha.current
  ready := h.ready.trans ha.ready
  lt := by
    rw [h.tasks]
    exact ha.lt

theorem Alone.setLoop (h : w.Alone t) (l : Loop) : (w.setLoop t l).Alone t where
  toHushed := ⟨h.idle, h.asleep⟩
  current := h.current
  ready := h.ready
  lt := by
    rw [size_setLoop]
    exact h.lt

inductive Pauses (t : TaskId) (w : World) : World → Prop where
  | runs : Pauses t w w
  | yields : Pauses t w (w.yieldTask t)

/-- Two worlds that differ in the pace of the loop of task `t` only. -/
inductive Paced (t : TaskId) : World → World → Prop where
  | alone {x w v : World} {l : Loop} {b s : Nat} :
      x.Alone t → Pauses t (x.setLoop t l) w → Pauses t (x.setLoop t (l.paced b s)) v → Paced t w v
  | rest {x : World} {l : Loop} {b s : Nat} :
      x.current = none → x.ready = [] → t < x.tasks.size →
      Paced t (x.setLoop t l) (x.setLoop t (l.paced b s))

theorem setLoop_setLoop (w : World) (t : TaskId) (l m : Loop) :
    (w.setLoop t l).setLoop t m = w.setLoop t m := setTask_setTask w t _ _

theorem paced_setLoop (h : w.Alone t) {m : Loop} : Paced t (w.setLoop t l)
    ((w.setLoop t m).setLoop t (l.paced b s)) := by
  rw [setLoop_setLoop]
  exact .alone h .runs .runs

theorem paced_yield (h : w.Alone t) {m : Loop} : Paced t ((w.setLoop t l).yieldTask t)
    (((w.setLoop t m).setLoop t (l.paced b s)).yieldTask t) := by
  rw [setLoop_setLoop]
  exact .alone h .yields .yields

theorem paced_finishRound (h : w.Alone t) :
    Paced t (w.finishRound t l) ((w.setLoop t (l.paced b s)).finishRound t (l.paced b s)) := by
  have hw : ∃ m, Pauses t (w.setLoop t { l with slice := m, point := .head }) (w.finishRound t l) := by
    unfold finishRound
    split
    · exact ⟨0, .yields⟩
    · exact ⟨l.slice + 1, .runs⟩
  have hv : ∃ m, Pauses t (w.setLoop t (Loop.paced { l with point := .head } b m))
      ((w.setLoop t (l.paced b s)).finishRound t (l.paced b s)) := by
    unfold finishRound
    rw [setLoop_setLoop, setLoop_setLoop]
    split
    · exact ⟨0, .yields⟩
    · exact ⟨s + 1, .runs⟩
  obtain ⟨m, hw⟩ := hw
  obtain ⟨n, hv⟩ := hv
  exact .alone h hw hv

theorem paced_endLoop (h : w.Alone t) (o : Outcome) :
    Paced t (w.endLoop t l o) ((w.setLoop t (l.paced b s)).endLoop t (l.paced b s) o) := by
  have hs : Hushed w.suspend := ⟨h.idle, h.asleep⟩
  have hself : ∀ m, (w.setLoop t m).suspend.context l.context = w.context l.context := fun _ => rfl
  have hswap : ∀ m, (w.setLoop t m).suspend = w.suspend.setLoop t m := fun _ => rfl
  unfold endLoop
  dsimp only [Loop.paced]
  rw [setLoop_setLoop, hself, hself, hswap, hswap]
  split
  · rename_i p _ _
    have hp := hs.childFinished p
    rw [setLoop_childFinished, setLoop_childFinished]
    exact .rest hp.current (hp.ready.trans h.ready) (by rw [hp.tasks]; exact h.lt)
  · exact .rest rfl h.ready h.lt

theorem paced_raiseIn (h : w.Alone t) (f : Fault) (next next' : World → World)
    (hn : ∀ u : World, u.Alone t → Paced t (next u) (next' (u.setLoop t (l.paced b s)))) :
    Paced t (w.raiseIn t l f next)
      ((w.setLoop t (l.paced b s)).raiseIn t (l.paced b s) f next') := by
  have hr := (h.toHushed.raise l.context f).alone h
  have he : (w.setLoop t (l.paced b s)).raise (l.paced b s).context f =
      ((w.raise l.context f).1.setLoop t (l.paced b s), (w.raise l.context f).2) :=
    setLoop_raise w t _ l.context f
  unfold raiseIn
  rw [he]
  generalize w.raise l.context f = r at hr ⊢
  obtain ⟨u, _ | o⟩ := r
  · exact hn u hr
  · exact paced_endLoop hr o

theorem paced_endKilled (h : w.Alone t) (f : Fault) :
    Paced t (w.endKilled t l f) ((w.setLoop t (l.paced b s)).endKilled t (l.paced b s) f) :=
  have hk : (w.setRunState l.context .killed).Alone t :=
    Hush.alone (h.toHushed.modifyContext l.context fun _ => rfl) h
  paced_endLoop hk _

theorem paced_failContinuation (h : w.Alone t) (f : Fault) :
    Paced t (w.failContinuation t l f)
      ((w.setLoop t (l.paced b s)).failContinuation t (l.paced b s) f) := by
  have hk : ((w.setLoop t (l.paced b s)).context (l.paced b s).context) = w.context l.context := rfl
  unfold failContinuation
  dsimp only
  rw [hk]
  cases (w.context l.context).killer with
  | some g => exact paced_endKilled h g
  | none =>
    have htaken : (w.modifyContext l.context fun x => { x with escalated := none }).Alone t :=
      Hush.alone (h.toHushed.modifyContext l.context fun _ => rfl) h
    exact paced_raiseIn htaken _ _ _ fun u hu => paced_finishRound hu

theorem paced_failStep (h : w.Alone t) (frame : Frame) (f : Fault) :
    Paced t (w.failStep t l frame f)
      ((w.setLoop t (l.paced b s)).failStep t (l.paced b s) frame f) :=
  paced_failContinuation (w := w.record (.raised l.context frame f))
    ((h.toHushed.record _).alone h) f

theorem paced_passStep (h : w.Alone t) (frame : Frame) (rest : List Step) (name : String)
    (reply : Json) :
    Paced t (w.passStep t l frame rest name reply)
      ((w.setLoop t (l.paced b s)).passStep t (l.paced b s) frame rest name reply) :=
  paced_setLoop (w := w.record (.performed l.context frame name reply))
    (l := { l with point := .body frame rest }) ((h.toHushed.record _).alone h)

theorem paced_receiveStep (h : w.Alone t) (frame : Frame) (rest : List Step) (r : Receipt)
    (result : Except Fault Letter) :
    Paced t (w.receiveStep t l frame rest r result)
      ((w.setLoop t (l.paced b s)).receiveStep t (l.paced b s) frame rest r result) := by
  unfold receiveStep
  cases result with
  | ok m =>
    have hd : Hush w (w.modifyData l.context fun d => d.insert r.key m.payload) :=
      (edits_modifyData w l.context _).hush h.toHushed
    exact paced_passStep (hd.alone h) frame rest r.name _
  | error f =>
    dsimp only
    split
    · exact paced_passStep h frame rest r.name _
    · exact paced_failStep h frame f

theorem setLoop_self (ht : w.tasks[t]? = some (.loop l)) : w.setLoop t l = w := by
  have hs : w.tasks.set! t (.loop l) = w.tasks := by
    obtain ⟨hlt, he⟩ := Array.getElem?_eq_some_iff.1 ht
    rw [Array.set!_eq_setIfInBounds, Array.setIfInBounds, dif_pos hlt, ← he, Array.set_getElem_self]
  unfold setLoop setTask
  rw [hs]

theorem paced_kept (h : w.Alone t) (ht : w.tasks[t]? = some (.loop l)) :
    Paced t w (w.setLoop t (l.paced b s)) := by
  have hw := setLoop_self ht
  exact .alone h (hw.symm ▸ .runs) .runs

theorem Hushed.list (h : Hushed w) (c : ContextId) : Hush w (w.list c) := by
  unfold World.list
  split
  · exact h.refl
  · exact hush_of_eq h (fun _ => rfl) (fun _ => rfl) rfl rfl rfl

theorem paced_startContinuation (h : w.Alone t) (k : Continuation) :
    Paced t (w.startContinuation t l k)
      ((w.setLoop t (l.paced b s)).startContinuation t (l.paced b s) k) := by
  have hstart : ∀ u : World, u.Alone t → Paced t ((u.record (.started l.context k)).setLoop t
      { l with point := .body ⟨k.name, k.traced⟩ k.steps })
      (((u.setLoop t (l.paced b s)).record (.started l.context k)).setLoop t
        { l.paced b s with point := .body ⟨k.name, k.traced⟩ k.steps }) := fun u hu =>
    paced_setLoop (w := u.record (.started l.context k))
      (l := { l with point := .body ⟨k.name, k.traced⟩ k.steps }) ((hu.toHushed.record _).alone hu)
  unfold startContinuation
  dsimp only
  split
  · have hlist : (w.setLoop t (l.paced b s)).list (l.paced b s).context =
        (w.list l.context).setLoop t (l.paced b s) := setLoop_list w t _ l.context
    rw [hlist]
    exact hstart _ ((h.toHushed.list l.context).alone h)
  · exact hstart w h

theorem paced_round (h : w.Alone t) (ht : w.tasks[t]? = some (.loop l)) :
    Paced t (w.round t l) ((w.setLoop t (l.paced b s)).round t (l.paced b s)) := by
  have hk : (w.setLoop t (l.paced b s)).context (l.paced b s).context = w.context l.context := rfl
  have hmod : ∀ {g : Context → Context}, (∀ x, (g x).idle = x.idle) →
      (w.modifyContext l.context g).Alone t := fun hg =>
    (h.toHushed.modifyContext l.context hg).alone h
  unfold round
  dsimp only
  rw [hk]
  cases (w.context l.context).killer with
  | some f => exact paced_endKilled h f
  | none => cases he : (w.context l.context).escalated with
    | some f =>
      have htaken : (w.modifyContext l.context fun x => { x with escalated := none }).Alone t :=
        hmod fun _ => rfl
      exact paced_raiseIn (b := b) (s := s) htaken f (fun u => u.setLoop t { l with point := .head })
        (fun u => u.setLoop t { l.paced b s with point := .head })
        fun u hu => paced_setLoop (l := { l with point := .head }) hu
    | none =>
      dsimp only
      split
      · exact paced_yield (l := { l with point := .paused })
          (hmod (g := fun x => { x with pauseRequested := false, runState := .paused }) fun _ => rfl)
      · cases (w.context l.context).pending with
        | cons k rest =>
          exact paced_startContinuation (hmod (g := fun x => { x with pending := rest }) fun _ => rfl) k
        | nil =>
          have he' : ((w.setLoop t (l.paced b s)).context (l.paced b s).context).escalated = none := he
          dsimp only
          rw [runDry_eq he, runDry_eq he', hk]
          split
          · exact paced_endLoop (w := w.setRunState l.context .completed) (hmod fun _ => rfl) _
          · split
            · exact paced_kept (w := w.modifyContext l.context fun x => { x with permit := false })
                (hmod fun _ => rfl) ht
            · have hrest : Paced t
                  (((w.modifyContext l.context fun x =>
                    { x with idle := x.idle ++ [t] }).suspend).setLoop t { l with point := .idle })
                  (((w.modifyContext l.context fun x =>
                    { x with idle := x.idle ++ [t] }).suspend).setLoop t
                      (Loop.paced { l with point := .idle } b s)) :=
                .rest rfl h.ready h.lt
              rw [← setLoop_setLoop _ t (l.paced b s) (Loop.paced { l with point := .idle } b s)]
                at hrest
              exact hrest

/-! ### Steps of the running task -/

theorem size_endLoop (w : World) (t : TaskId) (l : Loop) (o : Outcome) :
    (w.endLoop t l o).tasks.size = w.tasks.size := by
  rw [endLoop_tasks]
  exact size_setLoop w t _

theorem size_finishRound (w : World) (t : TaskId) (l : Loop) :
    (w.finishRound t l).tasks.size = w.tasks.size := by
  unfold finishRound
  split
  · exact size_setLoop w t _
  · exact size_setLoop w t _

theorem size_failStep (w : World) (t : TaskId) (l : Loop) (frame : Frame) (f : Fault) :
    (w.failStep t l frame f).tasks.size = w.tasks.size := by
  unfold failStep failContinuation
  dsimp only
  split
  · exact size_endLoop _ t l _
  · have hr := fun g => (steady_raise ((w.record (.raised l.context frame f)).modifyContext l.context
      fun x => { x with escalated := none }) l.context g).tasks
    split
    · rename_i u o he
      rw [size_endLoop, ← congrArg (fun r => r.1.tasks.size) he, hr]
      rfl
    · rename_i u he
      rw [size_finishRound, ← congrArg (fun r => r.1.tasks.size) he, hr]
      rfl

theorem paced_bodyStep (h : w.Alone t) (hp : Placed w) (hc : l.context < w.contexts.size)
    (frame : Frame) (steps : List Step)
    (hs : (w.bodyStep t l frame steps).tasks.size ≤ w.tasks.size) :
    Paced t (w.bodyStep t l frame steps)
      ((w.setLoop t (l.paced b s)).bodyStep t (l.paced b s) frame steps) := by
  cases steps with
  | nil => exact paced_finishRound h
  | cons step rest => cases step with
    | yield => exact paced_yield (l := { l with point := .body frame rest }) h
    | act a =>
      have hk : Calls True w (w.perform l.context a).1 :=
        calls_perform w l.context a hp hc fun _ => trivial
      have hv : (w.setLoop t (l.paced b s)).perform (l.paced b s).context a =
          ((w.perform l.context a).1.setLoop t (l.paced b s), (w.perform l.context a).2) :=
        (blind_perform w l.context a h.lt).eq
      unfold bodyStep at hs ⊢
      dsimp only at hs ⊢
      rw [hv]
      generalize w.perform l.context a = r at hk hs ⊢
      obtain ⟨u, e | reply⟩ := r
      -- neither way to go on creates a task, so that the action has not done so
      · have hle : u.tasks.size ≤ w.tasks.size := by
          rwa [size_failStep] at hs
        exact paced_failStep ((hk.hush h.toHushed hle).alone h) frame e.toFault
      · have hle : u.tasks.size ≤ w.tasks.size := by
          change (World.setLoop _ t _).tasks.size ≤ _ at hs
          rwa [size_setLoop] at hs
        exact paced_passStep ((hk.hush h.toHushed hle).alone h) frame rest a.name reply
    | receive ops key name catches =>
      have hm : (w.mention ops).Alone t := ((edits_mention w ops).hush h.toHushed).alone h
      have hb : ((w.setLoop t (l.paced b s)).mention ops).beginReceive (l.paced b s).context ops =
          ((w.mention ops).beginReceive l.context ops).map
            fun r => (r.1, r.2.setLoop t (l.paced b s)) :=
        setLoop_beginReceive (w.mention ops) t _ l.context ops
      unfold bodyStep
      dsimp only
      rw [hb]
      cases hr : (w.mention ops).beginReceive l.context ops with
      | error f => exact paced_receiveStep hm frame rest ⟨key, name, catches⟩ (.error f)
      | ok r =>
        have hu := (hm.toHushed.beginReceive hr).alone hm
        exact paced_setLoop (l := { l with point := .receiving frame rest r.1 ⟨key, name, catches⟩ })
          hu

theorem sleepOn_kept (w : World) (t : TaskId) (i : WaitId) :
    (w.sleepOn t i).tasks = w.tasks ∧ (w.sleepOn t i).ready = w.ready ∧
      (w.sleepOn t i).current = none := by
  unfold sleepOn
  split
  · exact ⟨rfl, rfl, rfl⟩
  · exact ⟨rfl, rfl, rfl⟩

theorem paced_still (hc : w.current = none) (hr : w.ready = []) (ht : w.tasks[t]? = some (.loop l)) :
    Paced t w (w.setLoop t (l.paced b s)) := by
  have hlt : t < w.tasks.size := (Array.getElem?_eq_some_iff.1 ht).1
  have hrest : Paced t (w.setLoop t l) (w.setLoop t (l.paced b s)) := .rest hc hr hlt
  rwa [setLoop_self ht] at hrest

theorem paced_loopStep (h : w.Alone t) (hp : Placed w) (ht : w.tasks[t]? = some (.loop l))
    (hs : (w.loopStep t l).tasks.size ≤ w.tasks.size) :
    Paced t (w.loopStep t l) ((w.setLoop t (l.paced b s)).loopStep t (l.paced b s)) := by
  have hstate : (w.setRunState l.context .running).Alone t :=
    Hush.alone (h.toHushed.modifyContext l.context fun _ => rfl) h
  have hpoint : (l.paced b s).point = l.point := rfl
  unfold loopStep at hs ⊢
  rw [hpoint]
  cases hl : l.point with
  | fresh => exact paced_setLoop (l := { l with point := .head }) hstate
  | head => exact paced_round h ht
  | paused =>
    exact paced_setLoop (l := { l with slice := 0, point := .head }) hstate
  | idle => exact paced_setLoop (l := { l with point := .head }) h
  | body frame rest =>
    rw [hl] at hs
    exact paced_bodyStep h hp (hp.loop ht) frame rest hs
  | receiving frame rest i receipt =>
    have hres : (w.setLoop t (l.paced b s)).resolution? i = w.resolution? i := rfl
    dsimp only
    rw [hres]
    cases w.resolution? i with
    | none =>
      obtain ⟨htasks, hready, hcurrent⟩ := sleepOn_kept w t i
      have hstill : Paced t (w.sleepOn t i) ((w.sleepOn t i).setLoop t (l.paced b s)) :=
        paced_still hcurrent (hready.trans h.ready) (htasks ▸ ht)
      rwa [← setLoop_sleepOn] at hstill
    | some r =>
      let m : Loop := { l with point := .body frame rest }
      have hm := h.setLoop m
      have hv := (hm.toHushed.endReceive l.context i r).alone hm
      have he : (w.setLoop t (l.paced b s)).setLoop t
          { l.paced b s with point := .body frame rest } =
          (w.setLoop t m).setLoop t (m.paced b s) := by
        rw [setLoop_setLoop, setLoop_setLoop]
        rfl
      dsimp only
      rw [he, setLoop_endReceive (w.setLoop t m)]
      -- the point of the loop does not matter any more
      have hl : ∀ (u : World) result, u.receiveStep t l frame rest receipt result =
          u.receiveStep t m frame rest receipt result := fun _ _ => rfl
      have hl' : ∀ (u : World) result, u.receiveStep t (l.paced b s) frame rest receipt result =
          u.receiveStep t (m.paced b s) frame rest receipt result := fun _ _ => rfl
      rw [hl, hl']
      exact paced_receiveStep hv frame rest receipt _
  | ended o => exact paced_still (w := w.suspend) rfl h.ready ht

/-! ## Runs of a lone loop -/

/-- What continuations are made of: by what has happened so far, the steps to go on with. -/
abbrev Code := Array Event → List Step → List Step

def replan (code : Code) (w : World) : World :=
  match w.current with
  | none => w
  | some t => match w.tasks[t]? with
    | some (.loop l) => match l.point with
      | .body frame rest => w.setLoop t { l with point := .body frame (code w.history rest) }
      | _ => w
    | _ => w

def advance (code : Code) (w : World) : World := (w.replan code).step

def replanned (code : Code) (h : Array Event) (l : Loop) : Loop :=
  match l.point with
  | .body frame rest => { l with point := .body frame (code h rest) }
  | _ => l

theorem replan_setLoop (h : w.Alone t) (code : Code) (l : Loop) :
    (w.setLoop t l).replan code = w.setLoop t (replanned code w.history l) := by
  have hcurrent : (w.setLoop t l).current = some t := h.current
  unfold replan replanned
  rw [hcurrent]
  dsimp only
  rw [getElem?_setLoop h.lt l]
  dsimp only
  split
  · exact setLoop_setLoop w t l _
  · rfl

theorem paced_replanned (code : Code) (h : Array Event) (l : Loop) (b s : Nat) :
    replanned code h (l.paced b s) = (replanned code h l).paced b s := by
  unfold replanned
  change (match l.point with
    | .body frame rest => Loop.paced { l with point := .body frame (code h rest) } b s
    | _ => l.paced b s) = _
  split <;> rfl

theorem Placed.replan (h : Placed w) (code : Code) : Placed (w.replan code) := by
  unfold World.replan
  split
  · exact h
  · split
    · rename_i t _ _ l ht
      have hl : l.context < w.contexts.size := h.loop ht
      split
      · exact h.setLoop t hl
      · exact h
    · exact h

theorem Placed.advanced (h : Placed w) (code : Code) : Placed (w.advance code) := by
  have hk : Transitions True (w.replan code) (w.replan code).step :=
    transitions_step (h.replan code) fun _ _ _ _ _ _ _ => trivial
  unfold World.advance
  generalize (w.replan code).step = v at hk
  induction hk with
  | refl => exact h.replan code
  | tail _ k ih => exact ih.transition k

theorem advance_yieldTask (h : w.Alone t) (code : Code) :
    (w.yieldTask t).advance code = w := by
  have hr := h.ready
  have hc := h.current
  have hd : (w.yieldTask t).dispatch = { w with current := some t, ready := [] } := by
    unfold yieldTask dispatch
    rw [hr]
    rfl
  change (w.yieldTask t).dispatch = w
  rw [hd, ← hr, ← hc]

theorem advance_rest (hc : w.current = none) (hr : w.ready = []) (code : Code) :
    w.advance code = w := by
  have he : w.replan code = w := by
    unfold replan
    rw [hc]
  unfold advance step dispatch
  rw [he, hc, hr]

theorem advance_setLoop (h : w.Alone t) (code : Code) (l : Loop) :
    (w.setLoop t l).advance code =
      (w.setLoop t (replanned code w.history l)).loopStep t (replanned code w.history l) := by
  have hcurrent : (w.setLoop t (replanned code w.history l)).current = some t := h.current
  unfold advance step
  rw [replan_setLoop h, hcurrent]
  dsimp only
  unfold taskStep
  rw [getElem?_setLoop h.lt]

theorem paced_advance (h : w.Alone t) (code : Code) (hp : Placed (w.setLoop t l))
    (hs : ((w.setLoop t l).advance code).tasks.size = (w.setLoop t l).tasks.size) :
    Paced t ((w.setLoop t l).advance code) ((w.setLoop t (l.paced b s)).advance code) := by
  have hp' := hp.replan code
  rw [replan_setLoop h] at hp'
  rw [advance_setLoop h] at hs ⊢
  rw [advance_setLoop h, paced_replanned]
  generalize replanned code w.history l = m at hs hp' ⊢
  have hm := h.setLoop m
  have hle : ((w.setLoop t m).loopStep t m).tasks.size ≤ (w.setLoop t m).tasks.size := by
    rw [size_setLoop] at hs ⊢
    exact Nat.le_of_eq hs
  have hv := paced_loopStep (b := b) (s := s) hm hp' (getElem?_setLoop h.lt m) hle
  rwa [setLoop_setLoop] at hv

def Lone (code : Code) (w : World) : Prop :=
  ∀ n, ((advance code)^[n] w).tasks.size = w.tasks.size

theorem Lone.next {code : Code} (h : Lone code w) : Lone code (w.advance code) := fun n => by
  rw [← Function.iterate_succ_apply, h (n + 1)]
  exact (h 1).symm

theorem Paced.follow {code : Code} (h : Paced t w v) (hp : Placed w) (hl : Lone code w) :
    ∃ k, Paced t (w.advance code) ((advance code)^[k] v) := by
  cases h with
  | @alone x _ _ l b s ha hw hv => cases hw with
    -- coming back after a yield is a step of its own, that the other world need not take
    | yields =>
      refine ⟨0, ?_⟩
      rw [advance_yieldTask (ha.setLoop l)]
      exact .alone ha .runs hv
    | runs =>
      have hstep : Paced t ((x.setLoop t l).advance code) ((x.setLoop t (l.paced b s)).advance code) :=
        paced_advance ha code hp (hl 1)
      cases hv with
      | runs => exact ⟨1, hstep⟩
      | yields =>
        refine ⟨2, ?_⟩
        change Paced t _ ((((x.setLoop t (l.paced b s)).yieldTask t).advance code).advance code)
        rwa [advance_yieldTask (ha.setLoop _)]
  | @rest x l b s hc hr ht =>
    refine ⟨0, ?_⟩
    rw [advance_rest (w := x.setLoop t l) hc hr]
    exact .rest hc hr ht

theorem Paced.lead {code : Code} (h : Paced t w v) (hp : Placed w) (hl : Lone code w) :
    ∃ k, Paced t ((advance code)^[k] w) (v.advance code) := by
  cases h with
  | @alone x _ _ l b s ha hw hv => cases hv with
    | yields =>
      refine ⟨0, ?_⟩
      rw [advance_yieldTask (ha.setLoop (l.paced b s))]
      exact .alone ha hw .runs
    | runs => cases hw with
      | runs => exact ⟨1, paced_advance ha code hp (hl 1)⟩
      | yields =>
        -- only after its yield is `w` where `v` is, and there it creates no task
        have hp' := hp.advanced code
        have hl' := hl.next
        rw [advance_yieldTask (ha.setLoop l)] at hp' hl'
        refine ⟨2, ?_⟩
        change Paced t ((((x.setLoop t l).yieldTask t).advance code).advance code) _
        rw [advance_yieldTask (ha.setLoop l)]
        exact paced_advance ha code hp' (hl' 1)
  | @rest x l b s hc hr ht =>
    refine ⟨0, ?_⟩
    have hv : (x.setLoop t (l.paced b s)).advance code = x.setLoop t (l.paced b s) :=
      advance_rest (w := x.setLoop t (l.paced b s)) hc hr code
    rw [hv]
    exact .rest hc hr ht

section

variable {code : Code}

theorem Placed.iterate (h : Placed w) (n : Nat) : Placed ((advance code)^[n] w) := by
  induction n with
  | zero => exact h
  | succ n ih =>
    rw [Function.iterate_succ_apply']
    exact ih.advanced code

theorem Lone.iterate (h : Lone code w) (n : Nat) : Lone code ((advance code)^[n] w) := by
  induction n with
  | zero => exact h
  | succ n ih =>
    rw [Function.iterate_succ_apply']
    exact ih.next

theorem Paced.follows (h : Paced t w v) (hp : Placed w) (hl : Lone code w) (n : Nat) :
    ∃ m, Paced t ((advance code)^[n] w) ((advance code)^[m] v) := by
  induction n with
  | zero => exact ⟨0, h⟩
  | succ n ih =>
    obtain ⟨m, hm⟩ := ih
    obtain ⟨k, hk⟩ := hm.follow (hp.iterate n) (hl.iterate n)
    refine ⟨k + m, ?_⟩
    rw [Function.iterate_succ_apply', Function.iterate_add_apply]
    exact hk

theorem Paced.leads (h : Paced t w v) (hp : Placed w) (hl : Lone code w) (m : Nat) :
    ∃ n, Paced t ((advance code)^[n] w) ((advance code)^[m] v) := by
  induction m with
  | zero => exact ⟨0, h⟩
  | succ m ih =>
    obtain ⟨n, hn⟩ := ih
    obtain ⟨k, hk⟩ := hn.lead (hp.iterate n) (hl.iterate n)
    refine ⟨k + n, ?_⟩
    rw [Function.iterate_succ_apply', Function.iterate_add_apply]
    exact hk

end

/-! ## Two budgets -/

structure Deserted (w : World) : Prop extends Hushed w where
  current : w.current = none
  ready : w.ready = []

/-- All is the same but the pace of task `t`, and how often it has given up control. -/
structure Agree (t : TaskId) (w v : World) : Prop where
  contexts : v.contexts = w.contexts
  sessions : v.sessions = w.sessions
  handles : v.handles = w.handles
  arrivals : v.arrivals = w.arrivals
  names : v.names = w.names
  history : v.history = w.history
  others : ∀ u, u ≠ t → v.tasks[u]? = w.tasks[u]?
  loop : ∃ l b s, w.tasks[t]? = some (.loop l) ∧ v.tasks[t]? = some (.loop (l.paced b s))
  atRest : v.atRest = w.atRest

theorem agree_setLoop (x : World) (ht : t < x.tasks.size) (l : Loop) (b s : Nat) :
    Agree t (x.setLoop t l) (x.setLoop t (l.paced b s)) := by
  have hset : ∀ m u, (x.setLoop t m).tasks[u]? = if u = t ∧ t < x.tasks.size then some (.loop m)
      else x.tasks[u]? := fun m u => getElem?_setTask t u _
  refine ⟨rfl, rfl, rfl, rfl, rfl, rfl, fun u hu => ?_, ⟨l, b, s, ?_, ?_⟩, rfl⟩
  · rw [hset, hset, if_neg fun h => hu h.1, if_neg fun h => hu h.1]
  · exact getElem?_setLoop ht l
  · exact getElem?_setLoop ht _

theorem atRest_of_pauses (ha : w.Alone t) (h : Pauses t w v) : v.atRest = false := by
  unfold atRest
  cases h with
  | runs => rw [ha.current]; rfl
  | yields => simp [yieldTask]

theorem Paced.agree (h : Paced t w v) : Agree t w v := by
  cases h with
  | @alone x _ _ l b s ha hw hv =>
    have h := agree_setLoop x ha.lt l b s
    have hr := (atRest_of_pauses (ha.setLoop _) hv).trans (atRest_of_pauses (ha.setLoop l) hw).symm
    cases hw <;> cases hv <;> exact { h with atRest := hr }
  | @rest x l b s hc hr ht => exact agree_setLoop x ht l b s

theorem paced_addLoop (h : w.Deserted) (c : ContextId) (b₁ b₂ : Nat) (counted : Bool) :
    Paced w.tasks.size (w.addLoop c b₁ counted) (w.addLoop c b₂ counted) := by
  let l : Loop := { context := c, budget := max b₁ 1, counted }
  let x : World :=
    { w with tasks := w.tasks.push (.loop l), current := some w.tasks.size, ready := [] }
  have hx : x.Alone w.tasks.size := by
    refine ⟨⟨h.idle, h.asleep⟩, rfl, rfl, ?_⟩
    change _ < (w.tasks.push _).size
    rw [Array.size_push]
    exact Nat.lt_succ_self _
  have hpush : ∀ task, (w.tasks.push (.loop l)).set! w.tasks.size task = w.tasks.push task := by
    intro task
    rw [Array.set!_eq_setIfInBounds]
    grind
  have hloop : ∀ b, w.addLoop c b counted =
      (x.setLoop w.tasks.size (l.paced (max b 1) 0)).yieldTask w.tasks.size := by
    intro b
    unfold addLoop spawnTask yieldTask setLoop setTask
    rw [hpush, h.ready, h.current]
    rfl
  rw [hloop b₁, hloop b₂]
  exact .alone (l := l.paced (max b₁ 1) 0) hx .yields .yields

/-- Two runs of one loop alone, at two budgets, come to rest in the same state. -/
theorem Reachable.budget_invisible (h : Reachable raw admits w) (hd : w.Deserted)
    (hc : c < w.contexts.size) (code : Code) (counted : Bool) (b₁ b₂ : Nat)
    (hl : Lone code (w.addLoop c b₁ counted)) :
    (∀ n, ∃ m, Agree w.tasks.size ((advance code)^[n] (w.addLoop c b₁ counted))
      ((advance code)^[m] (w.addLoop c b₂ counted))) ∧
    (∀ m, ∃ n, Agree w.tasks.size ((advance code)^[n] (w.addLoop c b₁ counted))
      ((advance code)^[m] (w.addLoop c b₂ counted))) := by
  have hp : Placed (w.addLoop c b₁ counted) := h.placed.addLoop hc b₁ counted
  have hpaced := paced_addLoop hd c b₁ b₂ counted
  constructor
  · intro n
    obtain ⟨m, hm⟩ := hpaced.follows hp hl n
    exact ⟨m, hm.agree⟩
  · intro m
    obtain ⟨n, hn⟩ := hpaced.leads hp hl m
    exact ⟨n, hn.agree⟩

theorem iterate_of_atRest (h : w.atRest = true) (code : Code) (n : Nat) :
    (advance code)^[n] w = w := by
  obtain ⟨hc, hr⟩ := Bool.and_eq_true_iff.1 h
  exact Function.iterate_fixed
    (advance_rest (Option.isNone_iff_eq_none.1 hc) (List.isEmpty_iff.1 hr) code) n

theorem lone_of_atRest {code : Code} (n : Nat)
    (hs : ∀ k ≤ n, ((advance code)^[k] w).tasks.size = w.tasks.size)
    (hr : ((advance code)^[n] w).atRest = true) : Lone code w := fun k => by
  rcases Nat.le_total k n with hk | hk
  · exact hs k hk
  · obtain ⟨j, rfl⟩ := Nat.exists_eq_add_of_le' hk
    rw [Function.iterate_add_apply, iterate_of_atRest hr]
    exact hs n (Nat.le_refl n)

theorem deserted_rooted (label session scope : String) (budget : Nat) (k : Option Continuation) :
    Deserted (rooted label session scope budget k) where
  idle c := by
    cases c with
    | zero => rfl
    | succ c => exact congrArg Context.idle (context_of_size_le (Nat.le_add_left 1 c))
  asleep _ := rfl
  current := rfl
  ready := rfl

def placingOrder : World :=
  rooted "order" "shop" "main" 0 (some ⟨"pay", false, [.act (.next [.noop "receipt"]), .yield]⟩)

theorem order_settled :
    ((advance fun _ rest => rest)^[13] (placingOrder.addLoop 0 1 false)).atRest = true ∧
    ∃ m, Agree 0 ((advance fun _ rest => rest)^[13] (placingOrder.addLoop 0 1 false))
      ((advance fun _ rest => rest)^[m] (placingOrder.addLoop 0 7 false)) := by
  have hr : Reachable False (fun _ => True) placingOrder := .rooted _ _ _ _ _ trivial trivial
  have hrest : ((advance fun _ rest => rest)^[13] (placingOrder.addLoop 0 1 false)).atRest = true := rfl
  have hl : Lone (fun _ rest => rest) (placingOrder.addLoop 0 1 false) :=
    lone_of_atRest 13 (by decide) hrest
  have hd : placingOrder.Deserted := deserted_rooted ..
  exact ⟨hrest, (hr.budget_invisible hd (by decide) _ false 1 7 hl).1 13⟩

end World
end SagaEngine
