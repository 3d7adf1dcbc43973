import SagaEngine.Proofs.Loops
import SagaEngine.Proofs.Scheduling

/-! No drive loop is stuck. When no task is ready, a loop that is not over waits for a message that has
not come, or for a child that is not over; and nothing that should have stopped it was missed. -/

namespace SagaEngine

namespace World

variable {w w' w'' : World} {admits : World → Prop}

/-! ## Waits are guarded -/

def Registered (w : World) (c : ContextId) (h : HandleId) : Prop :=
  w.handles.isLive h = true ∧ h ∈ (w.context c).registry.entries ∧
    (w.context c).interruption? = none

def Guarded (w : World) : Prop :=
  ∀ (t : TaskId) (task : Task) c i h, w.tasks[t]? = some task → task.context? = some c →
    task.wait? = some i → w.waitHandle? i = some h →
    w.handles.isCancelled h = true ∨ w.Registered c h

structure Watch (w w' : World) : Prop where
  tasks : ∀ (t : TaskId) (task : Task) i,
    w'.tasks[t]? = some task → task.wait? = some i → w.tasks[t]? = some task
  handle : ∀ t i, w'.waitOf? t = some i → w'.waitHandle? i = w.waitHandle? i
  cancelled : ∀ h, w.handles.isCancelled h = true → w'.handles.isCancelled h = true
  registered : ∀ t i c h, w'.waitOf? t = some i → w'.waitHandle? i = some h → w.Registered c h →
    w'.handles.isCancelled h = true ∨ w'.Registered c h

theorem Watch.waitOf (q : Watch w w') {t : TaskId} {i : WaitId} (h : w'.waitOf? t = some i) :
    w.waitOf? t = some i := by
  obtain ⟨task, ht, hi⟩ := Option.bind_eq_some_iff.1 h
  exact (waitOf_eq (q.tasks t task i ht hi)).trans hi

theorem Watch.trans (q : Watch w w') (q' : Watch w' w'') : Watch w w'' where
  tasks t task i ht hi := q.tasks t task i (q'.tasks t task i ht hi) hi
  handle t i ht := (q'.handle t i ht).trans (q.handle t i (q'.waitOf ht))
  cancelled h hc := q'.cancelled h (q.cancelled h hc)
  registered t i c h ht hi hr := by
    have hi' : w'.waitHandle? i = some h := (q'.handle t i ht).symm.trans hi
    rcases q.registered t i c h (q'.waitOf ht) hi' hr with hc | hr
    · exact .inl (q'.cancelled h hc)
    · exact q'.registered t i c h ht hi hr

theorem Guarded.watch (h : Guarded w) (q : Watch w w') : Guarded w' := by
  intro t task c i k ht hc hi hk
  have hti : w'.waitOf? t = some i := (waitOf_eq ht).trans hi
  have hk' : w.waitHandle? i = some k := (q.handle t i hti).symm.trans hk
  rcases h t task c i k (q.tasks t task i ht hi) hc hi hk' with hcan | hreg
  · exact .inl (q.cancelled k hcan)
  · exact q.registered t i c k hti hk hreg

theorem watch_of_eq
    (ht : ∀ (t : TaskId) (task : Task) i,
      w'.tasks[t]? = some task → task.wait? = some i → w.tasks[t]? = some task)
    (hw : ∀ i, w'.waitRecord? i = w.waitRecord? i) (hh : w'.handles = w.handles)
    (hc : ∀ c, (w'.context c).registry = (w.context c).registry ∧
      ((w.context c).interruption? = none → (w'.context c).interruption? = none)) : Watch w w' where
  tasks := ht
  handle _ i _ := waitHandle_congr (hw i)
  cancelled _ hcan := hh ▸ hcan
  registered _ _ c _ _ _ hr :=
    .inr ⟨hh ▸ hr.1, (hc c).1 ▸ hr.2.1, (hc c).2 hr.2.2⟩

theorem watch_modifyContext (w : World) (c : ContextId) (f : Context → Context)
    (hr : ∀ x, (f x).registry = x.registry)
    (hi : ∀ x, x.interruption? = none → (f x).interruption? = none) :
    Watch w (w.modifyContext c f) := by
  refine watch_of_eq (fun _ _ _ h _ => h) (fun _ => rfl) rfl fun d => ?_
  rw [context_modifyContext]
  split
  · exact ⟨hr _, hi _⟩
  · exact ⟨rfl, id⟩

theorem Edits.watch (e : Edits w w') : Watch w w' := by
  refine watch_of_eq (fun _ _ _ h _ => e.tasks ▸ h) (fun i => waitRecord_congr (e.mailbox _))
    e.handles fun c => ?_
  have hr : (w'.context c).bare.registry = (w.context c).bare.registry := by rw [e.bare]
  have hi : (w'.context c).bare.interruption? = (w.context c).bare.interruption? := by rw [e.bare]
  exact ⟨hr, fun hn => hi.trans hn⟩

theorem watch_notify (w : World) (c : ContextId) : Watch w (w.notify c) := by
  have hs := signals_notify w c
  refine watch_of_eq (fun _ _ _ h _ => hs.tasks ▸ h) (fun i => waitRecord_congr (hs.mailbox _))
    (handles_notify w c) fun d => ?_
  rw [context_notify, seen]
  split
  · exact ⟨Context.notified_congr _ fun _ _ _ => rfl, fun hn => Context.interruption_notified.trans hn⟩
  · exact ⟨rfl, id⟩

theorem watch_drain {c : ContextId} (hs : Signals w w')
    (hh : w'.handles = (w.handles.cancelEach (w.context c).registry.entries).2)
    (hd : ∀ d, d ≠ c → w'.context d = w.context d) : Watch w w' where
  tasks _ _ _ h _ := hs.tasks ▸ h
  handle _ i _ := waitHandle_congr (waitRecord_congr (hs.mailbox _))
  cancelled := hs.cancelled
  registered t i d h _ _ hr := by
    obtain ⟨hl, hmem, hn⟩ := hr
    rw [hh]
    rcases cancelEach_live (w.context c).registry.entries hl with hc | ⟨hnot, hlive⟩
    · exact .inl hc
    · refine .inr ⟨hh ▸ hlive, ?_⟩
      have hdc : d ≠ c := by
        rintro rfl
        exact hnot hmem
      rw [hd d hdc]
      exact ⟨hmem, hn⟩

theorem watch_kill (w : World) (c : ContextId) (f : Fault) : Watch w (w.kill c f) :=
  watch_drain (signals_kill w c f) (handles_kill w c f) fun d hd => by
    rw [context_kill, seen_of_ne _ hd]

theorem watch_escalate (w : World) (c : ContextId) (f : Fault) : Watch w (w.escalate c f) :=
  watch_drain (signals_escalate w c f) (handles_escalate w c f) fun d hd => by
    rw [context_escalate, seen_of_ne _ hd]

theorem live_cancel {hs : Handles} {h : HandleId} (hl : hs.isLive h = true) (k : HandleId) :
    (hs.cancel k).2.isCancelled h = true ∨ (hs.cancel k).2.isLive h = true :=
  (cancelEach_live [k] hl).imp_right And.right

theorem watch_cancelHandle (w : World) (k : HandleId) : Watch w (w.cancelHandle k).2 := by
  have hs := signals_cancelHandle w k
  refine ⟨fun _ _ _ h _ => hs.tasks ▸ h, fun _ i _ => waitHandle_congr (waitRecord_congr
    (hs.mailbox _)), hs.cancelled, fun t i c h _ _ hr => ?_⟩
  unfold Registered
  rw [handles_cancelHandle, context_cancelHandle]
  exact (live_cancel hr.1 k).imp_right fun hl => ⟨hl, hr.2⟩

theorem mem_prune {r : Registry} {hs : Handles} {h : HandleId} (hm : h ∈ r.entries)
    (hl : hs.isLive h = true) : h ∈ (r.prune hs).entries :=
  mem_dropWhile hm (by rw [hl]; rfl)

theorem not_killed_of_interruption {x : Context} (h : x.interruption? = none) :
    x.isKilled = false := by
  cases hk : x.killer with
  | none => simp [Context.isKilled, hk]
  | some f => simp [Context.interruption?, hk] at h

theorem handles_cancelIfKilled (w : World) (c : ContextId) (k : HandleId) :
    (w.cancelIfKilled c k).handles =
      if (w.context c).isKilled then (w.handles.cancel k).2 else w.handles := by
  have hkilled : ((w.modifyContext c fun x =>
      { x with registry := x.registry.prune w.handles }).context c).isKilled =
      (w.context c).isKilled :=
    context_modifyContext_congr Context.isKilled
      (f := fun x => { x with registry := x.registry.prune w.handles }) (fun _ => rfl) w c c
  unfold cancelIfKilled
  dsimp only
  rw [hkilled]
  split
  · exact handles_cancelHandle _ k
  · rfl

theorem watch_cancelIfKilled (w : World) (c : ContextId) (k : HandleId) :
    Watch w (w.cancelIfKilled c k) := by
  have hs := signals_cancelIfKilled w c k
  refine ⟨fun _ _ _ h _ => hs.tasks ▸ h, fun _ i _ => waitHandle_congr (waitRecord_congr
    (hs.mailbox _)), hs.cancelled, fun t i d h _ _ hr => ?_⟩
  obtain ⟨hl, hm, hn⟩ := hr
  have hlive : (w.cancelIfKilled c k).handles.isCancelled h = true ∨
      (w.cancelIfKilled c k).handles.isLive h = true := by
    rw [handles_cancelIfKilled]
    split
    · exact live_cancel hl k
    · exact .inr hl
  refine hlive.imp_right fun hl' => ⟨hl', ?_⟩
  rw [context_cancelIfKilled, seen]
  split
  · have hkilled := not_killed_of_interruption hn
    refine ⟨?_, hn⟩
    simp only [hkilled, Bool.false_eq_true, if_false]
    exact List.mem_append_left _ (mem_prune hm hl)
  · exact ⟨hm, hn⟩

theorem watch_setTask (w : World) (t : TaskId) {task : Task} (hn : task.wait? = none) :
    Watch w (w.setTask t task) := by
  refine watch_of_eq (fun u task' i hu hi => ?_) (fun _ => rfl) rfl fun _ => ⟨rfl, id⟩
  rw [getElem?_setTask] at hu
  split at hu
  · cases hu
    rw [hn] at hi
    cases hi
  · exact hu

theorem watch_spawnTask (w : World) {task : Task} (hn : task.wait? = none) :
    Watch w (w.spawnTask task) := by
  refine watch_of_eq (fun u task' i hu hi => ?_) (fun _ => rfl) rfl fun _ => ⟨rfl, id⟩
  change (w.tasks.push task)[u]? = some task' at hu
  rw [Array.getElem?_push] at hu
  split at hu
  · cases hu
    rw [hn] at hi
    cases hi
  · exact hu

theorem watch_rfl (ht : w'.tasks = w.tasks) (hs : w'.sessions = w.sessions)
    (hh : w'.handles = w.handles) (hc : w'.contexts = w.contexts) : Watch w w' := by
  refine watch_of_eq (fun _ _ _ h _ => ht ▸ h) (fun i => waitRecord_congr ?_) hh fun c => ?_
  · simp only [mailbox, session, hs]
  · have he : w'.context c = w.context c := by simp only [context, hc]
    rw [he]
    exact ⟨rfl, id⟩

theorem watch_addContext (w : World) {x : Context} (hr : x.registry = {})
    (hi : x.interruption? = none) : Watch w (w.addContext x).2 := by
  refine watch_of_eq (fun _ _ _ h _ => h) (fun _ => rfl) rfl fun c => ?_
  rw [context_push]
  split
  · rename_i hc
    rw [hc, context_of_size_le (Nat.le_refl _), hr]
    exact ⟨rfl, fun _ => hi⟩
  · exact ⟨rfl, id⟩

theorem watch_openSession (w : World) (id : String) : Watch w (w.openSession id).2 := by
  have hbox := mailbox_openSession w id
  obtain ⟨ss, hw⟩ := openSession_eq w id
  rw [hw] at hbox ⊢
  exact watch_of_eq (fun _ _ _ h _ => h) (fun i => waitRecord_congr (hbox _)) rfl
    fun _ => ⟨rfl, fun h => h⟩

theorem watch_newHandle (w : World) : Watch w w.newHandle.2 where
  tasks _ _ _ h _ := h
  handle _ _ _ := rfl
  cancelled h hc := (Handles.isCancelled_push ..).trans hc
  registered _ _ c h _ _ hr := by
    refine .inr ⟨?_, hr.2⟩
    change Handles.isLive (w.handles.push {}) h = true
    rw [Handles.isLive_push, hr.1]
    rfl

theorem watch_dropHandle (hl : Linked w) (name : String) : Watch w (w.dropHandle name) := by
  unfold dropHandle
  split
  · rename_i k hk
    refine ⟨fun _ _ _ h _ => h, fun _ _ _ => rfl,
      fun h hc => (Handles.isCancelled_finish ..).trans hc, fun t i c h _ hi hr => ?_⟩
    obtain ⟨x, hx, rfl⟩ := waitHandle_eq hi
    refine .inr ⟨?_, hr.2⟩
    change (w.handles.finish k).isLive x.handle = true
    have hne := (hl.named name k hk).2 i x hx
    rw [Handles.isLive_finish, hr.1]
    simp [Ne.symm hne]
  · exact watch_rfl rfl rfl rfl rfl

theorem watch_sleepOn (w : World) (t : TaskId) (i : WaitId) : Watch w (w.sleepOn t i) := by
  unfold sleepOn
  split
  · rename_i k _
    have hlive := fun h => w.handles.isLive_modify k h
      (f := fun y => { y with sleeper := some t }) fun _ => rfl
    have hcan := fun h => w.handles.isCancelled_modify k h
      (f := fun y => { y with sleeper := some t }) fun _ => rfl
    exact ⟨fun _ _ _ h _ => h, fun _ _ _ => rfl, fun h hc => (hcan h).trans hc,
      fun _ _ _ h _ _ hr => .inr ⟨(hlive h).trans hr.1, hr.2⟩⟩
  · exact watch_rfl rfl rfl rfl rfl

theorem watch_endLoop (w : World) (t : TaskId) (l : Loop) (o : Outcome) :
    Watch w (w.endLoop t l o) := by
  have hs : Watch w (w.setLoop t { l with point := .ended o }).suspend :=
    (watch_setTask w t rfl).trans (watch_rfl rfl rfl rfl rfl)
  unfold endLoop
  dsimp only
  split
  · have hc := watch_modifyContext (w.setLoop t { l with point := .ended o }).suspend ‹_›
      (fun x => { x with activeChildren := x.activeChildren - 1 }) (fun _ => rfl) fun _ => id
    exact hs.trans (hc.trans (watch_notify _ _))
  · exact hs

theorem watch_deliver (w : World) (s : SessionId) (m : Letter) : Watch w (w.deliver s m).2 := by
  have ha := (w.mailbox s).deliver_accepts m
  have hs := signals_wakeServed (w.setMailbox s ((w.mailbox s).deliver m).2) s
    ((w.mailbox s).deliver m).1
  have hu := unwaiting_deliver w s m
  have hp := posts_deliver w s m
  have hh : (w.deliver s m).2.handles = w.handles := by
    change ((w.setMailbox s ((w.mailbox s).deliver m).2).wakeServed s
      ((w.mailbox s).deliver m).1).handles = w.handles
    unfold wakeServed
    split
    · exact wakeSleeper_handles _ _
    · rfl
  refine ⟨fun _ _ _ h _ => hp.tasks ▸ h, fun t i _ => ?_, fun h hc => by rwa [hh],
    fun _ _ c h _ _ hr => .inr ?_⟩
  · have := congrArg (Option.map Prod.fst) (hu.shape i)
    simpa [waitHandle?, Option.map_map, Function.comp_def, Wait.shape] using this
  · unfold Registered
    rw [hh, hp.context]
    exact hr

theorem Guarded.call (h : Guarded w) (hl : Linked w) (k : Call False w w') : Guarded w' := by
  cases k with
  | edit e => exact h.watch e.edits.watch
  | kill c f => exact h.watch (watch_kill w c f)
  | clearKill c =>
    refine h.watch (watch_modifyContext w c _ (fun _ => rfl) fun x hx => ?_)
    unfold Context.interruption? at hx ⊢
    exact (Option.or_eq_none_iff.1 hx).2
  | root label session scope budget k =>
    have hlist := edits_list ((w.openSession session).2.addContext
      { label := (w.openSession session).2.freshLabel label, session := (w.openSession session).1,
        sliceBudget := budget, scopes := [{ id := scope }], pending := k.toList }).2
      (c := (w.openSession session).2.contexts.size) (by simp [addContext])
    exact h.watch (((watch_openSession w session).trans (watch_addContext _ rfl rfl)).trans
      hlist.watch)
  | child p label k => exact h.watch (watch_addContext w rfl rfl)
  | start c =>
    unfold World.start
    dsimp only
    split
    · rename_i p _
      have hc := watch_modifyContext w p (fun x => { x with activeChildren := x.activeChildren + 1 })
        (fun _ => rfl) fun _ => id
      exact h.watch (hc.trans (watch_spawnTask _ rfl))
    · exact h.watch (watch_spawnTask w rfl)
  | drive c budget => exact h.watch (watch_spawnTask w rfl)
  | newHandle name =>
    exact h.watch (((watch_dropHandle hl name).trans (watch_newHandle _)).trans
      (watch_rfl rfl rfl rfl rfl))
  | dropHandle name => exact h.watch (watch_dropHandle hl name)
  | register c i => exact h.watch (watch_cancelIfKilled w c i)
  | cancel i => exact h.watch (watch_cancelHandle w i)
  | deliver c op v =>
    have hn : Watch w (w.newLetter op v).2 := watch_rfl rfl rfl rfl rfl
    exact h.watch (hn.trans (watch_deliver _ _ _))
  | receiver c tag ops => exact h.watch (watch_spawnTask w rfl)
  | requeue c op v hr => exact hr.elim
  | request c slot ops hr => exact hr.elim
  | dropWait slot i hr => exact hr.elim
  | await slot i hr => exact hr.elim

theorem watch_leaves (hl : Linked w) {t : TaskId} {i : WaitId} (e : Leaves w w' t i)
    (hh : w'.handles = (w.closeWait i).2.handles) (hc : w'.contexts = w.contexts)
    (ht : ∀ (u : TaskId) (task : Task) j,
      w'.tasks[u]? = some task → task.wait? = some j → w.tasks[u]? = some task) : Watch w w' := by
  obtain ⟨x, hx, -⟩ := hl.opened t i e.inside
  have hfinish : w'.handles = w.handles.finish x.handle := by
    rw [hh]
    unfold closeWait waitHandle?
    rw [hx]
    rfl
  have hne : ∀ {u : TaskId} {j : WaitId}, w'.waitOf? u = some j → j ≠ i := by
    rintro u j hu rfl
    rw [e.waitOf] at hu
    split at hu
    · cases hu
    · rename_i hut
      exact hut (hl.alone u t j hu e.inside)
  have hhandle : ∀ j, j ≠ i → w'.waitHandle? j = w.waitHandle? j := by
    intro j hj
    have := congrArg (Option.map Prod.fst) (e.others j hj)
    simpa [waitHandle?, Option.map_map, Function.comp_def, Wait.shape] using this
  refine ⟨ht, fun u j hu => hhandle j (hne hu), fun h hcan => ?_, fun u j c h hu hj hr => ?_⟩
  · rw [hfinish, Handles.isCancelled_finish]
    exact hcan
  · rw [hhandle j (hne hu)] at hj
    obtain ⟨y, hy, rfl⟩ := waitHandle_eq hj
    refine .inr ⟨?_, ?_⟩
    · rw [hfinish, Handles.isLive_finish, hr.1]
      have : x.handle ≠ y.handle := fun he => hne hu (hl.apart i j x y hx hy he).symm
      simp [this]
    · simp only [context, hc]
      exact hr.2

theorem Guarded.receive (h : Guarded w) (hl : Linked w) {t : TaskId} {old task : Task}
    {c : ContextId} {ops : List String} {i : WaitId} (hc : c < w.contexts.size)
    (hs : (w.context c).session < w.sessions.size) (ht : w.tasks[t]? = some old)
    (ho : old.wait? = none) (hb : w.beginReceive c ops = .ok (i, w')) (hi : task.wait? = some i)
    (ha : ∀ slot j, task ≠ .awaiting slot j) (hct : task.context? = some c) :
    Guarded (w'.setTask t task) := by
  have henter := enters_receive hs ht ho hb hi ha
  obtain ⟨hn, rfl, rfl⟩ := beginReceive_ok hs hb
  obtain ⟨x, hx, hxh, -⟩ := request_record hs ops
  have hpost := posts_request w (w.context c).session ops
  have hhandles : (w.request (w.context c).session ops).2.handles = w.handles.push {} := by
    rw [request_eq]
    rfl
  generalize w.request (w.context c).session ops = r at *
  obtain ⟨i, v⟩ := r
  have hsig := signals_cancelIfKilled v c w.handles.size
  have hsize : c < v.contexts.size := hpost.contexts ▸ hc
  have hcontext : v.context c = w.context c := hpost.context c
  have hkilled : (w.context c).isKilled = false := not_killed_of_interruption hn
  -- to all others the request changes nothing
  have hv : Guarded v := by
    refine h.watch ⟨fun _ _ _ hu _ => hpost.tasks ▸ hu, fun u j hu => waitHandle_congr ?_,
      fun k hk => ?_, fun _ _ d k _ _ hr => .inr ⟨?_, ?_⟩⟩
    · rw [waitOf_congr hpost.tasks] at hu
      obtain ⟨y, hy, -⟩ := hl.opened u j hu
      have hji : j ≠ i := by
        rintro rfl
        rw [henter.fresh] at hy
        cases hy
      exact (waitRecord_congr (hsig.mailbox _)).symm.trans (henter.others j hji)
    · rw [hhandles, Handles.isCancelled_push]
      exact hk
    · rw [hhandles, Handles.isLive_push, hr.1]
      rfl
    · rw [hpost.context]
      exact hr.2
  -- and the context, which nothing stops, takes the new handle into its registry
  have hw' := hv.watch (watch_cancelIfKilled v c w.handles.size)
  intro u task' d j k hu hd hj hk
  rw [getElem?_setTask] at hu
  split at hu
  · obtain rfl := Option.some.inj hu
    obtain rfl : c = d := Option.some.inj (hct.symm.trans hd)
    obtain rfl : i = j := Option.some.inj (hi.symm.trans hj)
    have hk' : v.waitHandle? i = some k :=
      (waitHandle_congr (waitRecord_congr (hsig.mailbox _))).symm.trans hk
    obtain rfl : w.handles.size = k := by
      simpa [waitHandle?, show v.waitRecord? i = some x from hx, hxh] using hk'
    refine .inr ⟨?_, ?_⟩
    · change (v.cancelIfKilled c w.handles.size).handles.isLive w.handles.size = true
      rw [handles_cancelIfKilled, hcontext, hkilled, if_neg (by simp), hhandles,
        Handles.isLive_push]
      simp
    · change w.handles.size ∈ ((v.cancelIfKilled c w.handles.size).context c).registry.entries ∧
        ((v.cancelIfKilled c w.handles.size).context c).interruption? = none
      rw [context_cancelIfKilled, seen_self _ hsize, hcontext]
      simp only [hkilled, Bool.false_eq_true, if_false]
      exact ⟨List.mem_append_right _ (.head _), hn⟩
  · exact hw' u task' d j k hu hd hj hk

theorem Guarded.effect (h : Guarded w) (hp : Placed w) (hl : Linked w) (e : Effect w w') :
    Guarded w' := by
  cases e with
  | work e => exact h.watch e.edits.watch
  | takeEscalated c =>
    refine h.watch (watch_modifyContext w c _ (fun _ => rfl) fun x hx => ?_)
    unfold Context.interruption? at hx ⊢
    rw [(Option.or_eq_none_iff.1 hx).1]
    rfl
  | takePermit c => exact h.watch (watch_modifyContext w c _ (fun _ => rfl) fun _ => id)
  | runState c s => exact h.watch (watch_modifyContext w c _ (fun _ => rfl) fun _ => id)
  | kill c f => exact h.watch (watch_kill w c f)
  | escalate c f => exact h.watch (watch_escalate w c f)
  | pick t => exact h.watch (watch_rfl rfl rfl rfl rfl)
  | goto hd _ hb => exact h.watch (watch_setTask w _ (wait_of_isBusy hb))
  | @yield t l l' hd _ hb =>
    have hv : Guarded (w.setLoop t l') := h.watch (watch_setTask w t (wait_of_isBusy hb))
    exact hv.watch (watch_rfl rfl rfl rfl rfl)
  | @park t l hd =>
    have hm := watch_modifyContext w l.context (fun x => { x with idle := x.idle ++ [t] })
      (fun _ => rfl) fun _ => id
    have hs : Watch _ ((w.modifyContext l.context fun x =>
        { x with idle := x.idle ++ [t] }).setLoop t { l with point := .idle }) :=
      hm.trans (watch_setTask _ t rfl)
    exact h.watch (hs.trans (watch_rfl rfl rfl rfl rfl))
  | finish o hd => exact h.watch (watch_endLoop w _ _ o)
  | halt => exact h.watch (watch_rfl rfl rfl rfl rfl)
  | receive rest' receipt ops hr hb =>
    have hc := hp.loop hr.2.1
    exact h.receive hl hc (hp.sessions _ hc) hr.2.1 hr.drives.awake hb rfl (by simp) rfl
  | @resume t l frame rest i receipt r rest' hc ht hpt =>
    have hi : (Task.loop l).wait? = some i := by simp [Task.wait?, hpt]
    have hleave := leaves_resume hl ht hi (.loop { l with point := .body frame rest' }) rfl
      l.context r
    refine h.watch (watch_leaves hl hleave ?_ (posts_endReceive _ l.context i r).contexts ?_)
    · rw [handles_endReceive]
      have he := congrArg World.handles
        (setTask_closeWait w t (.loop { l with point := .body frame rest' }) i)
      exact he
    · intro u task j hu hj
      rw [(posts_endReceive _ l.context i r).tasks] at hu
      exact (watch_setTask w t rfl).tasks u task j hu hj
  | sleep => exact h.watch (watch_sleepOn w _ _)
  | @beginReceipt t c tag ops i v hc ht hb =>
    have hlt := hp.tasks t _ c ht rfl
    exact h.receive hl hlt (hp.sessions c hlt) ht rfl hb rfl (by simp) rfl
  | @refuse t =>
    have hs : Watch w (w.setTask t .done) := watch_setTask w t rfl
    exact h.watch (hs.trans (watch_rfl rfl rfl rfl rfl))
  | @endReceipt t c tag i r hc ht =>
    have hleave := leaves_endReceipt hl ht rfl c r (.received tag (w.endReceive c i r).2)
    refine h.watch (watch_leaves hl hleave ?_ (posts_endReceive w c i r).contexts ?_)
    · exact handles_endReceive w c i r
    · intro u task j hu hj
      have hs : Watch (w.endReceive c i r).1 ((w.endReceive c i r).1.setTask t .done) :=
        watch_setTask _ t rfl
      exact (posts_endReceive w c i r).tasks ▸ hs.tasks u task j hu hj
  | endAwait hc ht => exact absurd ht (hl.received _ _ _)

/-! ## Waits for activity are attended to -/

/-- A loop that waits for activity has active children, and nothing else to do. -/
def Attended (w : World) : Prop :=
  ∀ c, (w.context c).idle ≠ [] →
    (w.context c).interruption? = none ∧ (w.context c).activeChildren ≠ 0

theorem idle_tail (h : Scheduled w) (hs : SoleDriven w) (c : ContextId) :
    (w.context c).idle.tail = [] := by
  rcases hi : (w.context c).idle with _ | ⟨t, _ | ⟨u, rest⟩⟩
  · rfl
  · rfl
  · obtain ⟨-, -, l, hl, hlc, hlp⟩ := h.idle_at c t (hi ▸ .head _)
    obtain ⟨-, -, l', hl', hlc', hlp'⟩ := h.idle_at c u (hi ▸ .tail _ (.head _))
    have hnd := h.idle_nodup c
    rw [hi, List.nodup_cons] at hnd
    have htu := hs t u l l' hl hl' (by simp [outcome?, hlp]) (by simp [outcome?, hlp'])
      (hlc.trans hlc'.symm)
    exact absurd (htu ▸ .head _) hnd.1

theorem Attended.of_contexts (h : Attended w)
    (hc : ∀ c, (w'.context c).idle ≠ [] → (w.context c).idle ≠ [] ∧
      ((w.context c).interruption? = none → (w'.context c).interruption? = none) ∧
      ((w.context c).activeChildren ≠ 0 → (w'.context c).activeChildren ≠ 0)) : Attended w' := by
  intro c hi
  obtain ⟨hi', hn, ha⟩ := hc c hi
  exact ⟨hn (h c hi').1, ha (h c hi').2⟩

theorem Attended.same (h : Attended w) (hc : ∀ c, w'.context c = w.context c) : Attended w' :=
  h.of_contexts fun c hi => by
    rw [hc] at hi ⊢
    exact ⟨hi, id, id⟩

theorem Attended.modifyContext (h : Attended w) (c : ContextId) {f : Context → Context}
    (hi : ∀ x, (f x).idle = x.idle)
    (hn : ∀ x, x.interruption? = none → (f x).interruption? = none)
    (ha : ∀ x, x.activeChildren ≠ 0 → (f x).activeChildren ≠ 0) :
    Attended (w.modifyContext c f) := by
  refine h.of_contexts fun d hd => ?_
  rw [context_modifyContext] at hd ⊢
  split at hd
  · rename_i hcd
    rw [if_pos hcd]
    rw [hi] at hd
    exact ⟨hd, hn _, ha _⟩
  · rename_i hcd
    rw [if_neg hcd]
    exact ⟨hd, id, id⟩

theorem Edits.attended (e : Edits w w') (h : Attended w) : Attended w' := by
  refine h.of_contexts fun c hi => ?_
  have hb := e.bare c
  have hidle : (w'.context c).bare.idle = (w.context c).bare.idle := by rw [hb]
  have hint : (w'.context c).bare.interruption? = (w.context c).bare.interruption? := by rw [hb]
  have hact : (w'.context c).bare.activeChildren = (w.context c).bare.activeChildren := by rw [hb]
  exact ⟨fun hn => hi (hidle.trans hn), fun hn => hint.trans hn, fun hn he => hn (hact.symm.trans he)⟩

theorem Attended.woken (h : Attended w) {c : ContextId} {f : Context → Context}
    (hc : ∀ d, w'.context d = w.seen c d f) (hf : (f (w.context c)).idle = []) : Attended w' := by
  refine h.of_contexts fun d hd => ?_
  rw [hc] at hd ⊢
  unfold seen at hd ⊢
  split at hd
  · rename_i hdc
    rw [hdc.1] at hd
    exact absurd hf hd
  · rename_i hdc
    rw [if_neg hdc]
    exact ⟨hd, id, id⟩

theorem Attended.kill (h : Attended w) (hi : ∀ c, (w.context c).idle.tail = []) (c : ContextId)
    (f : Fault) : Attended (w.kill c f) := by
  refine h.woken (fun d => context_kill w c d f) ?_
  rw [Context.idle_notified]
  exact hi c

theorem Attended.escalate (h : Attended w) (hi : ∀ c, (w.context c).idle.tail = []) (c : ContextId)
    (f : Fault) : Attended (w.escalate c f) := by
  refine h.woken (fun d => context_escalate w c d f) ?_
  unfold escalatedContext
  split
  -- a context that is over is killed, and so notified twice
  · rw [Context.idle_notified, Context.idle_notified]
    change (w.context c).idle.tail.tail = []
    rw [hi c]
    rfl
  · rw [Context.idle_notified]
    exact hi c

theorem Attended.childFinished (h : Attended w) (hi : ∀ c, (w.context c).idle.tail = [])
    (c : ContextId) : Attended (w.childFinished c) := by
  refine h.woken (fun d => context_childFinished w c d) ?_
  rw [Context.idle_notified]
  exact hi c

theorem Attended.cancelIfKilled (h : Attended w) (c : ContextId) (k : HandleId) :
    Attended (w.cancelIfKilled c k) := by
  refine h.of_contexts fun d hd => ?_
  rw [context_cancelIfKilled] at hd ⊢
  unfold seen at hd ⊢
  split at hd
  · rename_i hdc
    rw [if_pos hdc]
    exact ⟨hd, id, id⟩
  · rename_i hdc
    rw [if_neg hdc]
    exact ⟨hd, id, id⟩

theorem attended_addContext (h : Attended w) {x : Context} (hx : x.idle = []) :
    Attended (w.addContext x).2 := by
  refine h.of_contexts fun c hc => ?_
  rw [context_push] at hc ⊢
  split at hc
  · exact absurd hx hc
  · rename_i hne
    rw [if_neg hne]
    exact ⟨hc, id, id⟩

theorem Attended.call (h : Attended w) (hs : Scheduled w) (hd : SoleDriven w)
    (k : Call False w w') : Attended w' := by
  have hi := idle_tail hs hd
  cases k with
  | edit e => exact e.edits.attended h
  | kill c f => exact h.kill hi c f
  | clearKill c =>
    refine h.modifyContext c (fun _ => rfl) (fun x hx => ?_) fun _ => id
    unfold Context.interruption? at hx ⊢
    exact (Option.or_eq_none_iff.1 hx).2
  | root label session scope budget k =>
    have hlist := edits_list ((w.openSession session).2.addContext
      { label := (w.openSession session).2.freshLabel label, session := (w.openSession session).1,
        sliceBudget := budget, scopes := [{ id := scope }], pending := k.toList }).2
      (c := (w.openSession session).2.contexts.size) (by simp [addContext])
    have hopen : Attended (w.openSession session).2 := by
      obtain ⟨ss, hw⟩ := openSession_eq w session
      rw [hw]
      exact h
    exact hlist.attended (attended_addContext hopen rfl)
  | child p label k => exact attended_addContext h rfl
  | start c =>
    unfold World.start
    dsimp only
    split
    · rename_i p _
      have hm : Attended (w.childStarted p) :=
        h.modifyContext p (fun _ => rfl) (fun _ => id) fun _ _ => Nat.succ_ne_zero _
      exact hm.same fun _ => rfl
    · exact h.same fun _ => rfl
  | drive c budget => exact h.same fun _ => rfl
  | newHandle name => exact h.same fun c => (posts_nameNewHandle w name).context c
  | dropHandle name => exact h.same fun c => (posts_dropHandle w name).context c
  | register c i => exact h.cancelIfKilled c i
  | cancel i => exact h.same fun c => context_cancelHandle w i c
  | deliver c op v =>
    exact h.same fun d => ((posts_newLetter w op v).trans (posts_deliver _ _ _)).context d
  | receiver c tag ops => exact h.same fun _ => rfl
  | requeue c op v hr => exact hr.elim
  | request c slot ops hr => exact hr.elim
  | dropWait slot i hr => exact hr.elim
  | await slot i hr => exact hr.elim

theorem context_sleepOn (w : World) (t : TaskId) (i : WaitId) (c : ContextId) :
    (w.sleepOn t i).context c = w.context c := by
  unfold sleepOn
  split <;> rfl

theorem attended_beginReceive {c : ContextId} {ops : List String} {i : WaitId} (h : Attended w)
    (hs : (w.context c).session < w.sessions.size) (hb : w.beginReceive c ops = .ok (i, w')) :
    Attended w' := by
  obtain ⟨-, -, rfl⟩ := beginReceive_ok hs hb
  have hp := posts_request w (w.context c).session ops
  exact (h.same fun d => hp.context d).cancelIfKilled c _

theorem Attended.effect (h : Attended w) (hp : Placed w) (hs : Scheduled w) (hd : SoleDriven w)
    (e : Effect w w') : Attended w' := by
  have hi := idle_tail hs hd
  cases e with
  | work e => exact e.edits.attended h
  | takeEscalated c =>
    refine h.modifyContext c (fun _ => rfl) (fun x hx => ?_) fun _ => id
    unfold Context.interruption? at hx ⊢
    rw [(Option.or_eq_none_iff.1 hx).1]
    rfl
  | takePermit c => exact h.modifyContext c (fun _ => rfl) (fun _ => id) fun _ => id
  | runState c s => exact h.modifyContext c (fun _ => rfl) (fun _ => id) fun _ => id
  | kill c f => exact h.kill hi c f
  | escalate c f => exact h.escalate hi c f
  | pick t => exact h.same fun _ => rfl
  | goto => exact h.same fun _ => rfl
  | yield => exact h.same fun _ => rfl
  | @park t l hdr hk he ha =>
    intro c hc
    change ((w.modifyContext l.context fun x => { x with idle := x.idle ++ [t] }).context c).idle ≠ []
      at hc
    change ((w.modifyContext l.context fun x =>
        { x with idle := x.idle ++ [t] }).context c).interruption? = none ∧
      ((w.modifyContext l.context fun x =>
        { x with idle := x.idle ++ [t] }).context c).activeChildren ≠ 0
    rw [context_modifyContext] at hc ⊢
    split at hc
    · rename_i hcl
      rw [if_pos hcl]
      refine ⟨?_, hcl.1 ▸ ha⟩
      change (w.context c).interruption? = none
      unfold Context.interruption?
      rw [← hcl.1, hk, he]
      rfl
    · rename_i hcl
      rw [if_neg hcl]
      exact h c hc
  | @finish t l o hdr =>
    have hv : Attended (w.setLoop t { l with point := .ended o }).suspend := h.same fun _ => rfl
    unfold endLoop
    dsimp only
    split
    · exact hv.childFinished hi _
    · exact hv
  | halt => exact h.same fun _ => rfl
  | @receive t l frame rest i v rest' receipt ops hr hb =>
    have hv := attended_beginReceive h (hp.sessions _ (hp.loop hr.2.1)) hb
    exact hv.same fun _ => rfl
  | resume rest' hc ht => exact h.same fun c => (posts_endReceive _ _ _ _).context c
  | sleep => exact h.same fun c => context_sleepOn w _ _ c
  | @beginReceipt t c tag ops i v hc ht hb =>
    have hv := attended_beginReceive h (hp.sessions _ (hp.tasks t _ c ht rfl)) hb
    exact hv.same fun _ => rfl
  | refuse => exact h.same fun _ => rfl
  | endReceipt => exact h.same fun c => (posts_endReceive w _ _ _).context c
  | @endAwait t slot i =>
    have hv : Attended (w.closeWait i).2 := h.same (posts_closeWait w i).context
    generalize (w.closeWait i).2 = v at hv ⊢
    exact hv.same fun _ => rfl

/-! ## At rest -/

/-- All that is needed to know why a loop does not go on. -/
structure Vigilant (w : World) : Prop where
  linked : Linked w
  scheduled : Scheduled w
  sole : SoleDriven w
  guarded : Guarded w
  attended : Attended w
  counted : Counted w

theorem Vigilant.empty : Vigilant {} where
  linked := .empty
  scheduled := .empty
  sole t u l l' ht := by simp at ht
  guarded t task c i h ht := by simp at ht
  attended c hi := absurd rfl hi
  counted := .empty

theorem Vigilant.call (h : Vigilant w) (hp : Placed w) (hs : SoleDriven w') (ha : w.Awake)
    (k : Call False w w') : Vigilant w' where
  linked := h.linked.unwaiting k.unwaiting
  scheduled := h.scheduled.call hp h.linked ha k
  sole := hs
  guarded := h.guarded.call h.linked k
  attended := h.attended.call h.scheduled h.sole k
  counted := h.counted.call hp k

theorem Vigilant.effect (h : Vigilant w) (hp : Placed w) (e : Effect w w') : Vigilant w' where
  linked := h.linked.effect hp e
  scheduled := h.scheduled.effect hp h.linked e
  sole := h.sole.effect e
  guarded := h.guarded.effect hp h.linked e
  attended := h.attended.effect hp h.scheduled h.sole e
  counted := h.counted.effect hp e

theorem Reachable.vigilant (h : Reachable False SoleDriven w) : Vigilant w :=
  h.invariant .empty (fun hp hv hs ha k => hv.call hp hs ha k) fun hp hv e => hv.effect hp e

structure Unstopped (w : World) (c : ContextId) : Prop where
  killer : (w.context c).killer = none
  escalated : (w.context c).escalated = none

theorem unstopped_of_interruption {c : ContextId} (h : (w.context c).interruption? = none) :
    Unstopped w c where
  killer := (Option.or_eq_none_iff.1 h).1
  escalated := (Option.or_eq_none_iff.1 h).2

/-- Task `t`, a drive loop, is suspended in a receipt that nothing has resolved. -/
structure Blocked (w : World) (t : TaskId) (l : Loop) : Prop where
  waits : ∃ frame rest i receipt x, l.point = .receiving frame rest i receipt ∧
    w.waitRecord? i = some x ∧ x.channel = .awaiting ∧
    w.handles.isCancelled x.handle = false ∧ w.sleeper? x.handle = some t
  unstopped : w.Unstopped l.context

/-- Task `t` waits for activity of its context, which has a child whose loop is not over. -/
structure AwaitsChild (w : World) (t : TaskId) (l : Loop) : Prop where
  idle : l.point = .idle ∧ t ∈ (w.context l.context).idle
  unstopped : w.Unstopped l.context
  child : ∃ (u : TaskId) (m : Loop), w.tasks[u]? = some (.loop m) ∧ outcome? m = none ∧
    m.counted = true ∧ (w.context m.context).parent? = some l.context

theorem Counted.child (h : Counted w) {c : ContextId} (hc : (w.context c).activeChildren ≠ 0) :
    ∃ (u : TaskId) (m : Loop), w.tasks[u]? = some (.loop m) ∧ outcome? m = none ∧
      m.counted = true ∧ (w.context m.context).parent? = some c := by
  have hpos : 0 < w.tasks.countP (w.childOf c) := Nat.pos_of_ne_zero (h c ▸ hc)
  obtain ⟨task, hm, hchild⟩ := Array.countP_pos_iff.1 hpos
  obtain ⟨u, hu⟩ := Array.mem_iff_getElem?.1 hm
  cases task with
  | loop m =>
    simp only [childOf, Bool.and_eq_true, Option.isNone_iff_eq_none, decide_eq_true_eq] at hchild
    exact ⟨u, m, hu, hchild.1.2, hchild.1.1, hchild.2⟩
  | _ => cases hchild

theorem Vigilant.rests (h : Vigilant w) {t : TaskId} {l : Loop} (ht : w.tasks[t]? = some (.loop l))
    (hr : w.Rests t (.loop l)) : w.Blocked t l ∨ w.AwaitsChild t l := by
  cases hr with
  | idle hi =>
    obtain ⟨hn, ha⟩ := h.attended l.context (List.ne_nil_of_mem hi)
    obtain ⟨-, -, l', hl, -, hp⟩ := h.scheduled.idle_at l.context t hi
    rw [ht] at hl
    obtain rfl := Task.loop.inj (Option.some.inj hl)
    exact .inr ⟨⟨hp, hi⟩, unstopped_of_interruption hn, h.counted.child ha⟩
  | @asleep _ i k hi hk hs hn =>
    obtain ⟨x, hx, hch, hcan⟩ := resolution_none.1 hn
    have hxk : x.handle = k := by simpa [waitHandle?, hx] using hk
    subst hxk
    have hint : (w.context l.context).interruption? = none := by
      rcases h.guarded t _ l.context i _ ht rfl hi hk with hc | hg
      · rw [hcan] at hc
        cases hc
      · exact hg.2.2
    cases hp : l.point with
    | receiving frame rest j receipt =>
      obtain rfl : j = i := by simpa [Task.wait?, hp] using hi
      exact .inl ⟨⟨frame, rest, j, receipt, x, hp, hx, hch, hcan, hs⟩,
        unstopped_of_interruption hint⟩
    | _ => simp [Task.wait?, hp] at hi

theorem no_loop_of_awaits (hp : Placed w)
    (h : ∀ (t : TaskId) (l : Loop), w.tasks[t]? = some (.loop l) → outcome? l = none →
      w.AwaitsChild t l) :
    ∀ (t : TaskId) (l : Loop), w.tasks[t]? = some (.loop l) → outcome? l ≠ none := by
  -- on the number of contexts that are younger than that of the loop
  have hlt : ∀ n (t : TaskId) (l : Loop), w.contexts.size - l.context ≤ n →
      w.tasks[t]? = some (.loop l) → outcome? l ≠ none := by
    intro n
    induction n with
    | zero =>
      intro t l hn ht _
      have := hp.loop ht
      exact Nat.not_le_of_lt this (Nat.le_of_sub_eq_zero (Nat.le_zero.1 hn))
    | succ n ih =>
      intro t l hn ht ho
      obtain ⟨u, m, hu, hm, -, hpar⟩ := (h t l ht ho).child
      have hless := Nat.sub_lt_sub_left (hp.loop ht) (parent_lt hp hpar)
      exact ih u m (Nat.le_of_lt_succ (Nat.lt_of_lt_of_le hless hn)) hu hm
  exact fun t l => hlt _ t l (Nat.le_refl _)

/-- When no task is ready, a loop that is not over is blocked in a receipt, or awaits a child. -/
theorem Reachable.no_loop_stuck (h : Reachable False SoleDriven w) (hr : w.atRest = true) :
    (∀ (t : TaskId) (l : Loop), w.tasks[t]? = some (.loop l) → outcome? l = none →
      w.Blocked t l ∨ w.AwaitsChild t l) ∧
    (∀ (t : TaskId) (l : Loop), w.tasks[t]? = some (.loop l) →
      (w.context l.context).killer ≠ none ∨ (w.context l.context).escalated ≠ none →
      outcome? l ≠ none) ∧
    ((∀ (t : TaskId) (l : Loop), w.tasks[t]? = some (.loop l) → ¬w.Blocked t l) →
      ∀ (t : TaskId) (l : Loop), w.tasks[t]? = some (.loop l) → outcome? l ≠ none) := by
  have hv := h.vigilant
  simp only [atRest, Bool.and_eq_true, Option.isNone_iff_eq_none, List.isEmpty_iff] at hr
  have hstuck : ∀ (t : TaskId) (l : Loop), w.tasks[t]? = some (.loop l) → outcome? l = none →
      w.Blocked t l ∨ w.AwaitsChild t l := by
    intro t l ht ho
    rcases hv.scheduled.rests t _ ht (by simp [Task.over, ho]) with hc | hready | hrest
    · rw [hr.1] at hc
      cases hc
    · rw [hr.2] at hready
      cases hready
    · exact hv.rests ht hrest
  refine ⟨hstuck, fun t l ht hs ho => ?_, fun hb => ?_⟩
  · have hu : w.Unstopped l.context := (hstuck t l ht ho).elim Blocked.unstopped
      AwaitsChild.unstopped
    exact hs.elim (fun hk => hk hu.killer) fun he => he hu.escalated
  · exact no_loop_of_awaits h.placed fun t l ht ho => (hstuck t l ht ho).resolve_left (hb t l ht)

theorem payment_awaited : ∃ (w : World) (l : Loop), Reachable False SoleDriven w ∧
    w.atRest = true ∧ w.tasks[0]? = some (.loop l) ∧ w.Blocked 0 l := by
  have h1 : Reachable False SoleDriven (rooted "order" "shop" "main" 1
      (some ⟨"pay", false, [.receive ["paid"] "sum" "pay" false]⟩)) :=
    .rooted _ _ _ _ _ (soleDriven_of_size (by decide)) (soleDriven_of_size (by decide))
  have h2 := h1.next (.call (.inl rfl) (.start 0 (by decide))) (soleDriven_of_size (by decide))
  have h3 := h2.next (.pick 0 rfl (by decide)) (soleDriven_of_size (by decide))
  have h4 := h3.next (.drive (t := 0) rfl rfl rfl) (soleDriven_of_size (by decide))
  have h5 := h4.next (.drive (t := 0) rfl rfl rfl) (soleDriven_of_size (by decide))
  have h6 := h5.next (.receive (t := 0) [] ⟨"sum", "pay", false⟩ ["paid"] ⟨rfl, rfl, rfl⟩ rfl)
    (soleDriven_of_size (by decide))
  have h7 := h6.next (.sleep (t := 0) rfl rfl rfl rfl) (soleDriven_of_size (by decide))
  obtain ⟨hstuck, -, -⟩ := h7.no_loop_stuck rfl
  refine ⟨_, _, h7, rfl, rfl, (hstuck 0 _ rfl rfl).resolve_right fun ha => ?_⟩
  cases ha.idle.1

end World

end SagaEngine
