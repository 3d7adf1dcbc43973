import SagaEngine.Proofs.Propagation

/-! How drive loops go on, and how they end. A transition is a call, or it does one of a few things
in one context: it starts what is pending, gives a fault to a handler, or ends a loop. What has been
noted about the context decides which. -/

namespace SagaEngine

def Event.runner? : Event → Option ContextId
  | .started c _ | .caught c _ _ => some c
  | _ => none

theorem runner_of_isWork {e : Event} (h : e.isWork = false) : e.runner? = none := by
  cases e <;> first | rfl | cases h

namespace World

variable {w w' w'' v : World} {raw : Prop} {admits : World → Prop} {t : TaskId} {l : Loop}
  {c : ContextId} {f : Fault} {o : Outcome}

structure Ends (w w' : World) (t : TaskId) (l : Loop) (o : Outcome) : Prop where
  before : w.tasks[t]? = some (.loop l)
  unfinished : outcome? l = none
  after : w'.tasks[t]? = some (.loop { l with point := .ended o })

/-! ## Where nothing is decided -/

structure Lull (w w' : World) : Prop where
  ended : ∀ (t : TaskId) (l : Loop) (o : Outcome),
    w'.tasks[t]? = some (.loop l) → outcome? l = some o → w.tasks[t]? = some (.loop l)
  history : ∃ es, w'.history.toList = w.history.toList ++ es ∧ ∀ e ∈ es, e.runner? = none
  escalated : ∀ c, (w'.context c).escalated = (w.context c).escalated

structure Routine (w w' : World) : Prop extends Lull w w' where
  killer : ∀ c, (w'.context c).killer = (w.context c).killer
  still : ∀ c, (w'.context c).still = (w.context c).still

theorem Lull.trans (h : Lull w w') (h' : Lull w' w'') : Lull w w'' where
  ended t l o hl ho := h.ended t l o (h'.ended t l o hl ho) ho
  history := by
    obtain ⟨es, he, hes⟩ := h.history
    obtain ⟨es', he', hes'⟩ := h'.history
    refine ⟨es ++ es', by rw [he', he, List.append_assoc], ?_⟩
    intro e h
    exact (List.mem_append.1 h).elim (hes e) (hes' e)
  escalated c := (h'.escalated c).trans (h.escalated c)

theorem Lull.routine (h : Lull w w') (hc : w'.contexts = w.contexts) : Routine w w' :=
  { h with
    killer := fun c => by simp only [context, hc]
    still := fun c => by simp only [context, hc] }

theorem Routine.trans (h : Routine w w') (h' : Routine w' w'') : Routine w w'' :=
  { h.toLull.trans h'.toLull with
    killer := fun c => (h'.killer c).trans (h.killer c)
    still := fun c => (h'.still c).trans (h.still c) }

theorem lull_of_eq (ht : w'.tasks = w.tasks) (hc : w'.contexts = w.contexts)
    (hh : w'.history = w.history) : Lull w w' where
  ended _ _ _ hl _ := ht ▸ hl
  history := ⟨[], by simp [hh], by simp⟩
  escalated c := by simp only [context, hc]

theorem routine_of_eq (ht : w'.tasks = w.tasks) (hc : w'.contexts = w.contexts)
    (hh : w'.history = w.history) : Routine w w' := (lull_of_eq ht hc hh).routine hc

theorem Routine.refl (w : World) : Routine w w := routine_of_eq rfl rfl rfl

theorem lull_record (w : World) {e : Event} (h : e.runner? = none) : Lull w (w.record e) :=
  { (Routine.refl w).toLull with history := ⟨[e], by simp [record], by simpa using h⟩ }

theorem lull_setTask (w : World) (t : TaskId) {task : Task}
    (h : ∀ l, task = .loop l → outcome? l = none) : Lull w (w.setTask t task) := by
  refine { (Routine.refl w).toLull with ended := fun u l o hl ho => ?_ }
  rw [getElem?_setTask] at hl
  split at hl
  · rw [h l (Option.some.inj hl)] at ho
    cases ho
  · exact hl

theorem lull_spawnTask (w : World) {task : Task} (h : ∀ l, task = .loop l → outcome? l = none) :
    Lull w (w.spawnTask task) := by
  refine { (Routine.refl w).toLull with ended := fun u l o hl ho => ?_ }
  simp only [World.spawnTask, Array.getElem?_push] at hl
  split at hl
  · rw [h l (Option.some.inj hl)] at ho
    cases ho
  · exact hl

theorem routine_setLoop (w : World) (t : TaskId) (h : outcome? l = none) :
    Routine w (w.setLoop t l) :=
  (lull_setTask w t fun _ hl => Task.loop.inj hl ▸ h).routine rfl

theorem Posts.routine (h : Posts w w') : Routine w w' := by
  refine Lull.routine ⟨fun _ _ _ hl _ => h.tasks ▸ hl, ?_, fun c => by rw [h.context]⟩ h.contexts
  obtain ⟨es, he, hes⟩ := h.history
  exact ⟨es, he, fun e he => runner_of_isWork (hes e he)⟩

theorem Signals.routine (h : Signals w w')
    (hk : ∀ c, (w'.context c).killer = (w.context c).killer)
    (he : ∀ c, (w'.context c).escalated = (w.context c).escalated) : Routine w w' where
  ended _ _ _ hl _ := h.tasks ▸ hl
  history := ⟨[], by simp [h.history], by simp⟩
  escalated := he
  killer := hk
  still := h.still

theorem routine_modifyContext (w : World) (c : ContextId) (f : Context → Context)
    (hf : ∀ x, (f x).still = x.still ∧ (f x).killer = x.killer ∧ (f x).escalated = x.escalated) :
    Routine w (w.modifyContext c f) :=
  (signals_modifyContext w c f fun x => (hf x).1).routine
    (context_modifyContext_congr _ (fun x => (hf x).2.1) w c)
    (context_modifyContext_congr _ (fun x => (hf x).2.2) w c)

theorem routine_setRunState (w : World) (c : ContextId) (s : RunState) :
    Routine w (w.setRunState c s) := routine_modifyContext w c _ fun _ => ⟨rfl, rfl, rfl⟩

theorem routine_cancelIfKilled (w : World) (c : ContextId) (h : HandleId) :
    Routine w (w.cancelIfKilled c h) := by
  refine (signals_cancelIfKilled w c h).routine (fun d => ?_) fun d => ?_
  · rw [context_cancelIfKilled, seen]
    split <;> rfl
  · rw [context_cancelIfKilled, seen]
    split <;> rfl

theorem routine_beginReceive {ops : List String} {i : WaitId}
    (h : w.beginReceive c ops = .ok (i, w')) : Routine w w' := by
  have hr := (posts_request w (w.context c).session ops).routine
  unfold beginReceive at h
  split at h
  · cases h
  · dsimp only at h
    split at h
    · cases h
      exact hr.trans (routine_cancelIfKilled _ c _)
    · cases h
      exact hr

theorem routine_suspend (w : World) : Routine w w.suspend := routine_of_eq rfl rfl rfl

theorem routine_yieldTask (w : World) (t : TaskId) : Routine w (w.yieldTask t) :=
  routine_of_eq rfl rfl rfl

theorem routine_finishRound (w : World) (t : TaskId) (l : Loop) :
    Routine w (w.finishRound t l) := by
  unfold finishRound
  split
  · exact (routine_setLoop w t rfl).trans (routine_yieldTask _ t)
  · exact routine_setLoop w t rfl

theorem routine_sleepOn (w : World) (t : TaskId) (i : WaitId) : Routine w (w.sleepOn t i) := by
  unfold sleepOn
  split <;> exact routine_of_eq rfl rfl rfl

theorem routine_done (w : World) (t : TaskId) : Routine w (w.setTask t .done).suspend :=
  ((lull_setTask w t fun _ hl => by cases hl).routine rfl).trans (routine_suspend _)

theorem routine_list (w : World) (c : ContextId) : Routine w (w.list c) := by
  obtain ⟨hh, ht, -, hc⟩ := list_kept w c
  exact routine_of_eq ht hc hh

/-! ## Calls -/

theorem history_install (w : World) (c : ContextId) (role : Role) (k : Continuation)
    (put : Installed → Scope Installed → Scope Installed) :
    (w.install c role k put).1.history = w.history ∨
      ∃ x, (w.install c role k put).1.history = w.history.push (.installed role x) := by
  have hu := history_updateScope w c fun s => ((), put ⟨w.history.size, k⟩ s)
  unfold install
  dsimp only
  split
  · rename_i v hv
    rw [hv] at hu
    exact .inr ⟨_, congrArg (Array.push · _) hu⟩
  · exact .inl hu

theorem Edit.history (e : Edit w w') :
    w'.history = w.history ∨ ∃ r x, w'.history = w.history.push (.installed r x) := by
  cases e with
  | data | mention | pushScope | executeNext | popNext | discard | pause => exact .inl rfl
  | list c hc => exact .inl (list_kept w c).1
  | popScope c merge marker => exact .inl (history_popScope w c merge marker)
  | installHandler c fault k => exact (history_install w c _ k _).imp_right fun h => ⟨_, h⟩
  | installCompensation c k => exact (history_install w c _ k _).imp_right fun h => ⟨_, h⟩
  | lookupHandler c fault erase => exact .inl (history_updateScope w c _)
  | takeCompensation c id => exact .inl (history_updateScope w c _)

theorem Edit.lull (e : Edit w w') : Lull w w' where
  ended _ _ _ hl _ := e.edits.tasks ▸ hl
  history := by
    rcases e.history with h | ⟨r, x, h⟩
    · exact ⟨[], by simp [h], by simp⟩
    · exact ⟨[.installed r x], by simp [h], by simp [Event.runner?]⟩
  escalated c := by
    change (w'.context c).bare.escalated = (w.context c).bare.escalated
    rw [e.edits.bare]

theorem Signals.lull (h : Signals w w')
    (he : ∀ c, (w'.context c).escalated = (w.context c).escalated) : Lull w w' where
  ended _ _ _ hl _ := h.tasks ▸ hl
  history := ⟨[], by simp [h.history], by simp⟩
  escalated := he

theorem lull_addContext (w : World) {x : Context} (hx : x.escalated = none) :
    Lull w (w.addContext x).2 := by
  refine { (Routine.refl w).toLull with escalated := fun c => ?_ }
  rw [context_push]
  split
  · rename_i hc
    rw [hx, hc, context_of_size_le (Nat.le_refl _)]
    rfl
  · rfl

theorem lull_addLoop (w : World) (c : ContextId) (budget : Nat) (counted : Bool) :
    Lull w (w.addLoop c budget counted) :=
  lull_spawnTask w fun l hl => by
    cases hl
    rfl

theorem Call.lull (k : Call raw w w') : Lull w w' := by
  cases k with
  | edit e => exact e.lull
  | kill c f =>
    refine (signals_kill w c f).lull fun d => ?_
    rw [context_kill]
    refine seen_field Context.escalated (fun x => ?_) c d
    exact Context.notified_congr Context.escalated fun _ _ _ => rfl
  | clearKill c =>
    exact (signals_clearKill w c).lull (context_modifyContext_congr Context.escalated
      (f := fun x => { x with killer := none }) (fun _ => rfl) w c)
  | root label session scope budget k =>
    obtain ⟨ss, hw⟩ := openSession_eq w session
    have hopen : Routine w (w.openSession session).2 := hw ▸ routine_of_eq rfl rfl rfl
    exact (hopen.toLull.trans (lull_addContext _ rfl)).trans (routine_list _ _).toLull
  | child p label k hp => exact lull_addContext w rfl
  | start c hc =>
    unfold World.start
    dsimp only
    split
    · rename_i p _
      have hp := routine_modifyContext w p (fun x =>
        { x with activeChildren := x.activeChildren + 1 }) fun _ => ⟨rfl, rfl, rfl⟩
      exact hp.toLull.trans (lull_addLoop _ c _ _)
    · exact lull_addLoop w c _ _
  | drive c budget hc => exact lull_addLoop w c budget false
  | newHandle name => exact (posts_nameNewHandle w name).routine.toLull
  | dropHandle name => exact (posts_dropHandle w name).routine.toLull
  | register c i => exact (routine_cancelIfKilled w c i).toLull
  | cancel i => exact (signals_cancelHandle w i).lull fun d => by rw [context_cancelHandle]
  | deliver c op v hc => exact ((posts_newLetter w op v).trans (posts_deliver _ _ _)).routine.toLull
  | receiver c tag ops hc => exact lull_spawnTask w fun l hl => by cases hl
  | requeue c op v hr hc =>
    exact ((posts_newLetter w op v).trans (posts_requeue _ _ _)).routine.toLull
  | request c slot ops hr hc => exact (posts_requestInto w c slot ops).routine.toLull
  | dropWait slot i hr hi =>
    exact ((posts_closeWait w i).trans (posts_forgetWait _ slot)).routine.toLull
  | await slot i hr hi =>
    exact (posts_forgetWait w slot).routine.toLull.trans
      (lull_spawnTask _ fun l hl => by cases hl)

theorem Call.not_ends (k : Call raw w w') : ¬Ends w w' t l o := fun h => by
  have hold := k.lull.ended t _ o h.after rfl
  rw [h.before] at hold
  have hn := h.unfinished
  rw [Task.loop.inj (Option.some.inj hold)] at hn
  cases hn

/-! ## What the engine decides -/

/-- The fault that the context is about to raise; one that a child handed up comes first. -/
structure Due (w : World) (c : ContextId) (f : Fault) : Prop where
  alive : (w.context c).killer = none
  first : ∀ g, (w.context c).escalated = some g → f = g

def taken (w : World) (c : ContextId) : World :=
  w.modifyContext c fun x => { x with escalated := none }

theorem size_taken (w : World) (c : ContextId) :
    (w.taken c).contexts.size = w.contexts.size := contexts_size_modifyContext ..

theorem context_taken (hc : c < w.contexts.size) :
    (w.taken c).context c = { w.context c with escalated := none } :=
  context_modifyContext_self _ hc

theorem context_taken_of_ne (w : World) {d : ContextId} (hd : d ≠ c) :
    (w.taken c).context d = w.context d := context_modifyContext_of_ne w _ hd

/-- How a drive loop ends, and what is left then. -/
inductive Exit (w : World) (t : TaskId) (l : Loop) : Outcome → World → Prop where
  | killed {f : Fault} :
      (w.context l.context).killer = some f → Exit w t l (.killed f) (w.endKilled t l f)
  | completed :
      w.Unstopped l.context → (w.context l.context).pauseRequested = false →
      (w.context l.context).pending = [] → (w.context l.context).activeChildren = 0 →
      Exit w t l .completed ((w.setRunState l.context .completed).endLoop t l .completed)
  | failed {f : Fault} {x : Context} :
      w.Due l.context f →
      ((w.taken l.context).context l.context).unwind f.name = (none, x) →
      (w.context l.context).parent? = none →
      Exit w t l (.failed f) (((w.taken l.context).fallen l.context f x).endLoop t l (.failed f))
  | escalated {f : Fault} {x : Context} {p : ContextId} :
      w.Due l.context f →
      ((w.taken l.context).context l.context).unwind f.name = (none, x) →
      (w.context l.context).parent? = some p →
      Exit w t l (.escalated f)
        ((((w.taken l.context).fallen l.context f x).escalate p f).endLoop t l (.escalated f))

/-- What the engine does in one transition. -/
inductive Act (w : World) : World → Prop where
  | routine {w' : World} : Routine w w' → Act w w'
  | pause {t : TaskId} {l : Loop} {w' : World} :
      w.Drives t l → w.Unstopped l.context →
      Routine (w.modifyContext l.context fun x => { x with pauseRequested := false }) w' → Act w w'
  | start {t : TaskId} {l : Loop} {k : Continuation} {rest : List Continuation} {v : World} :
      w.Drives t l → w.Unstopped l.context →
      Routine (w.modifyContext l.context fun x => { x with pending := rest }) v →
      (w.context l.context).pending = k :: rest → Act w (v.record (.started l.context k))
  | caught {t : TaskId} {l : Loop} {f : Fault} {h : Installed} {x : Context} {w' : World} :
      w.Drives t l → w.Due l.context f →
      ((w.taken l.context).context l.context).unwind f.name = (some h, x) →
      Routine ((w.taken l.context).handled l.context f h x) w' → Act w w'
  | exit {t : TaskId} {l : Loop} {o : Outcome} {w' : World} :
      w.Drives t l → w.Exit t l o w' → Act w w'

inductive Noted (w : World) : World → Prop where
  | same : Noted w w
  | raised (c : ContextId) (frame : Frame) (f : Fault) : Noted w (w.record (.raised c frame f))

theorem act_endKilled (hd : w.Drives t l) (hk : (w.context l.context).killer = some f) :
    Act w (w.endKilled t l f) := .exit hd (.killed hk)

theorem act_raiseIn (hd : w.Drives t l) (hc : l.context < w.contexts.size)
    (hf : w.Due l.context f) {next : World → World} (hn : ∀ v, Routine v (next v)) :
    Act w ((w.taken l.context).raiseIn t l f next) := by
  have hlt : l.context < (w.taken l.context).contexts.size := size_taken w l.context ▸ hc
  have hk : ((w.taken l.context).context l.context).killer = none := by
    rw [context_taken hc]
    exact hf.alive
  have hpar : ((w.taken l.context).context l.context).parent? = (w.context l.context).parent? := by
    rw [context_taken hc]
    rfl
  unfold raiseIn
  rcases hx : ((w.taken l.context).context l.context).unwind f.name with ⟨_ | h, x⟩
  · rw [raise_fallen hlt hk hx, hpar]
    rcases hp : (w.context l.context).parent? with _ | p
    · exact .exit hd (.failed hf hx hp)
    · exact .exit hd (.escalated hf hx hp)
  · rw [raise_caught hx]
    exact .caught hd hf hx (hn _)

theorem act_failContinuation (hd : w.Drives t l) (hc : l.context < w.contexts.size) (f : Fault) :
    Act w (w.failContinuation t l f) := by
  unfold failContinuation
  dsimp only
  split
  · rename_i g hk
    exact act_endKilled hd hk
  · rename_i hk
    have hf : w.Due l.context ((w.context l.context).escalated.getD f) :=
      ⟨hk, fun g hg => by rw [hg]; rfl⟩
    exact act_raiseIn hd hc hf fun v => routine_finishRound v t l

theorem act_startContinuation (hd : w.Drives t l) (hu : w.Unstopped l.context) {k : Continuation}
    {rest : List Continuation} (hk : (w.context l.context).pending = k :: rest) :
    Act w ((w.modifyContext l.context fun x => { x with pending := rest }).startContinuation t l
      k) := by
  have hstart : ∀ v : World,
      Routine (w.modifyContext l.context fun x => { x with pending := rest }) v →
      Act w ((v.record (.started l.context k)).setLoop t
        { l with point := .body ⟨k.name, k.traced⟩ k.steps }) := fun v hv =>
    .start (k := k) hd hu (hv.trans (routine_setLoop v t
      (l := { l with point := .body ⟨k.name, k.traced⟩ k.steps }) rfl)) hk
  unfold startContinuation
  dsimp only
  split
  · exact hstart _ (routine_list _ l.context)
  · exact hstart _ (.refl _)

theorem act_round (hd : w.Drives t l) (hc : l.context < w.contexts.size) :
    Act w (w.round t l) := by
  unfold round
  dsimp only
  split
  · rename_i g _ hk
    exact act_endKilled hd hk
  · rename_i g hk he
    have hf : w.Due l.context g := ⟨hk, fun g' hg => Option.some.inj (he.symm.trans hg)⟩
    exact act_raiseIn hd hc hf fun v => routine_setLoop v t rfl
  · rename_i hk he
    split
    · refine .pause hd ⟨hk, he⟩
        (.trans ?_ ((routine_setLoop _ t rfl).trans (routine_yieldTask _ t)))
      rw [← modifyContext_modifyContext w l.context (fun x => { x with pauseRequested := false })
        fun x => { x with runState := .paused }]
      exact routine_setRunState _ l.context .paused
    · rename_i hpause
      split
      · rename_i k rest hpend
        exact act_startContinuation hd ⟨hk, he⟩ hpend
      · rename_i hpend
        rw [runDry_eq he]
        split
        · rename_i hz
          exact .exit hd (.completed ⟨hk, he⟩ (by simpa using hpause) hpend hz)
        · split
          · exact .routine (routine_modifyContext w l.context _ fun _ => ⟨rfl, rfl, rfl⟩)
          · have hidle := routine_modifyContext w l.context (fun x => { x with idle := x.idle ++ [t] })
              fun _ => ⟨rfl, rfl, rfl⟩
            exact .routine (hidle.trans ((routine_setLoop _ t rfl).trans (routine_suspend _)))

theorem act_loopStep (hc : w.current = some t) (ht : w.tasks[t]? = some (.loop l))
    (hl : l.context < w.contexts.size) (hp : l.point.inEngine = true) : Act w (w.loopStep t l) := by
  have hrun : ∀ {m : Loop}, outcome? m = none →
      Act w ((w.setRunState l.context .running).setLoop t m) := fun h =>
    .routine ((routine_setRunState w l.context .running).trans (routine_setLoop _ t h))
  unfold loopStep
  cases h : l.point with
  | fresh => exact hrun rfl
  | head =>
    have hd : w.Drives t l := ⟨hc, ht, by simp [Task.wait?, h], by simp [outcome?, h]⟩
    exact act_round hd hl
  | paused => exact hrun rfl
  | idle => exact .routine (routine_setLoop w t rfl)
  | body frame rest => simp [h, Point.inEngine] at hp
  | receiving frame rest i receipt => simp [h, Point.inEngine] at hp
  | ended o => exact .routine (routine_suspend w)

theorem Transition.acts (hp : Placed w) (k : Transition raw w w') :
    w.AtLiberty ∧ Call raw w w' ∨ ∃ v, Noted w v ∧ Act v w' := by
  have hroutine : Routine w w' → w.AtLiberty ∧ Call raw w w' ∨ ∃ v, Noted w v ∧ Act v w' :=
    fun h => .inr ⟨w, .same, .routine h⟩
  cases k with
  | call ha k => exact .inl ⟨ha, k⟩
  | pick t hc ht => exact hroutine (routine_of_eq rfl rfl rfl)
  | @pass t l frame rest rest' name reply hr =>
    have hrec := (lull_record w (e := .performed l.context frame name reply) rfl).routine rfl
    exact hroutine (hrec.trans (routine_setLoop _ t rfl))
  | finish hr => exact hroutine (routine_finishRound w _ _)
  | @fail t l frame rest f hr =>
    have hd := hr.drives.steady (edits_record w (e := .raised l.context frame f) rfl).steady
    exact .inr ⟨_, .raised l.context frame f, act_failContinuation hd (hp.loop hr.2.1) f⟩
  | @pauseBody t l frame rest rest' hr =>
    exact hroutine ((routine_setLoop w t rfl).trans (routine_yieldTask _ t))
  | @receive t l frame rest i v rest' receipt ops hr hb =>
    exact hroutine ((routine_beginReceive hb).trans (routine_setLoop v t rfl))
  | @resume t l frame rest i receipt r rest' hc ht hpt hr =>
    have hset := routine_setLoop w t (l := { l with point := .body frame rest' }) rfl
    exact hroutine (hset.trans (posts_endReceive _ l.context i r).routine)
  | drive hc ht hpt => exact .inr ⟨w, .same, act_loopStep hc ht (hp.loop ht) hpt⟩
  | @sleep t task i => exact hroutine (routine_sleepOn w t i)
  | @beginReceipt t c tag ops hc ht =>
    refine hroutine ?_
    unfold receiverStep
    split
    · rename_i f _
      have hrec := (lull_record w (e := .received tag (.error f)) rfl).routine rfl
      exact hrec.trans (routine_done _ t)
    · rename_i i v hb
      have hset : Routine v (v.setTask t (.receiving c tag i)) :=
        (lull_setTask v t fun _ hl => by cases hl).routine rfl
      exact (routine_beginReceive hb).trans hset
  | @endReceipt t c tag i r hc ht hr =>
    have hrec := posts_record (w.endReceive c i r).1 (e := .received tag (w.endReceive c i r).2) rfl
    exact hroutine (((posts_endReceive w c i r).trans hrec).routine.trans (routine_done _ t))
  | @endAwait t slot i r hc ht hr =>
    have hrec := posts_record (w.closeWait i).2 (e := .awaited slot r) rfl
    exact hroutine (((posts_closeWait w i).trans hrec).routine.trans (routine_done _ t))
  | halt hc ht => exact hroutine (routine_suspend w)

/-! ## What is left by the end of a loop -/

/-- What a context has of a fault that a child handed up. -/
structure Hears (w w' : World) (p : ContextId) (f : Fault) : Prop where
  runState : (w'.context p).runState = (w.context p).runState
  killer : (w'.context p).killer =
    if (w.context p).runState.isTerminal then (w.context p).killer.or (some f)
    else (w.context p).killer
  escalated : (w'.context p).escalated =
    if (w.context p).runState.isTerminal then (w.context p).escalated
    else (w.context p).escalated.or (some f)

theorem hears_escalate (w : World) {p : ContextId} (hp : p < w.contexts.size) (f : Fault) :
    Hears w (w.escalate p f) p f := by
  have hself : (w.escalate p f).context p = escalatedContext (w.context p) f := by
    rw [context_escalate, seen_self _ hp]
  have hfield : ∀ {α : Type} (g : Context → α),
      (∀ (y : Context) idle permit, g { y with idle, permit } = g y) →
      g (escalatedContext (w.context p) f) =
        if (w.context p).runState.isTerminal then g ((w.context p).killed f).drained
        else g ((w.context p).escalatedTo f).drained := by
    intro α g hg
    unfold escalatedContext
    split
    · exact (Context.notified_congr g hg).trans (Context.notified_congr g hg)
    · exact Context.notified_congr g hg
  refine ⟨?_, ?_, ?_⟩
  · rw [hself, hfield Context.runState fun _ _ _ => rfl]
    exact ite_self _
  · rw [hself, hfield Context.killer fun _ _ _ => rfl]
    rfl
  · rw [hself, hfield Context.escalated fun _ _ _ => rfl]
    rfl

theorem endLoop_of_kept (ht : v.tasks = w.tasks) (hh : v.history = w.history) (t : TaskId)
    (l : Loop) (o : Outcome) :
    (v.endLoop t l o).tasks = (w.setLoop t { l with point := .ended o }).tasks ∧
      (v.endLoop t l o).history = w.history := by
  refine ⟨(endLoop_tasks v t l o).trans ?_, (endLoop_kept v t l o).2.trans hh⟩
  change v.tasks.set! t _ = w.tasks.set! t _
  rw [ht]

theorem Exit.kept (x : w.Exit t l o w') :
    w'.tasks = (w.setLoop t { l with point := .ended o }).tasks ∧ w'.history = w.history := by
  cases x with
  | killed => exact endLoop_of_kept rfl rfl t l _
  | completed => exact endLoop_of_kept rfl rfl t l _
  | @failed f x =>
    obtain ⟨ht, hh⟩ := fallen_kept (w.taken l.context) l.context f x
    exact endLoop_of_kept ht hh t l _
  | @escalated f x p =>
    obtain ⟨ht, hh⟩ := fallen_kept (w.taken l.context) l.context f x
    have hs := signals_escalate ((w.taken l.context).fallen l.context f x) p f
    exact endLoop_of_kept (hs.tasks.trans ht) (hs.history.trans hh) t l _

theorem Exit.ends (hd : w.Drives t l) (x : w.Exit t l o w') : Ends w w' t l o where
  before := hd.task
  unfinished := hd.unfinished
  after := by
    rw [x.kept.1]
    exact (getElem?_setTask t t _).trans (if_pos ⟨rfl, (Array.getElem?_eq_some_iff.1 hd.task).1⟩)

theorem Exit.ended (x : w.Exit t l o w') {u : TaskId} {m : Loop} {o' : Outcome}
    (ht : w'.tasks[u]? = some (.loop m)) (ho : outcome? m = some o') :
    w.tasks[u]? = some (.loop m) ∨ u = t ∧ m = { l with point := .ended o } ∧ o' = o := by
  rw [x.kept.1] at ht
  have h := (getElem?_setTask t u _).symm.trans ht
  split at h
  · rename_i hu
    obtain rfl := Task.loop.inj (Option.some.inj h)
    exact .inr ⟨hu.1, rfl, (Option.some.inj ho).symm⟩
  · exact .inl h

theorem Act.ended (a : Act w w') {m : Loop} (ht : w'.tasks[t]? = some (.loop m))
    (ho : outcome? m = some o) :
    w.tasks[t]? = some (.loop m) ∨
      ∃ l, m = { l with point := .ended o } ∧ w.Drives t l ∧ w.Exit t l o w' := by
  cases a with
  | routine r => exact .inl (r.ended t m o ht ho)
  | pause _ _ r => exact .inl (r.ended t m o ht ho)
  | start _ _ r => exact .inl (r.ended t m o ht ho)
  | caught _ _ _ r => exact .inl (r.ended t m o ht ho)
  | @exit u l o' _ hd x =>
    rcases x.ended ht ho with hold | ⟨rfl, rfl, rfl⟩
    · exact .inl hold
    · exact .inr ⟨l, rfl, hd, x⟩

theorem Act.ends (a : Act w w') (h : Ends w w' t l o) : w.Drives t l ∧ w.Exit t l o w' := by
  rcases a.ended h.after rfl with hold | ⟨m, hm, hd, x⟩
  · rw [h.before] at hold
    have hl := Task.loop.inj (Option.some.inj hold)
    have hn := h.unfinished
    rw [hl] at hn
    cases hn
  · obtain rfl := Task.loop.inj (Option.some.inj (h.before.symm.trans hd.task))
    exact ⟨hd, x⟩

theorem size_fallen (w : World) (c : ContextId) (f : Fault) (x : Context) :
    ((w.taken c).fallen c f x).contexts.size = w.contexts.size := by
  have hs := (signals_kill ((w.taken c).modifyContext c fun _ => x) c f).trans
    (signals_setRunState _ c .failed)
  exact hs.size.trans ((contexts_size_modifyContext ..).trans (size_taken w c))

theorem context_fallen_of_ne (w : World) (f : Fault) (x : Context) {d : ContextId} (hd : d ≠ c) :
    ((w.taken c).fallen c f x).context d = w.context d := by
  rw [context_fallen, seen_of_ne _ hd, context_taken_of_ne w hd]

def HandsUp (w : World) (l : Loop) (o : Outcome) (p : ContextId) (f : Fault) : Prop :=
  o = .escalated f ∧ (w.context l.context).parent? = some p

theorem Exit.heard (hp : Placed w) (hd : w.Drives t l) (x : w.Exit t l o w') {p : ContextId}
    (h : w.HandsUp l o p f) :
    ∃ v, Effects w v ∧ Hears w v p f ∧ v.tasks = w.tasks ∧
      (v.context p).activeChildren = (w.context p).activeChildren ∧ w' = v.endLoop t l o := by
  obtain ⟨rfl, hpar⟩ := h
  cases x with
  | @escalated _ x q _ hx hq =>
    obtain rfl := Option.some.inj (hq.symm.trans hpar)
    have hpc := parent_lt hp hpar
    have hlt : q < ((w.taken l.context).fallen l.context f x).contexts.size := by
      rw [size_fallen]
      exact Nat.lt_trans hpc (hp.loop hd.task)
    have hsame := context_fallen_of_ne w f x (Nat.ne_of_lt hpc)
    have htake : Effects w (w.taken l.context) ∧ Drives (w.taken l.context) t l :=
      effects_takeEscalated hd
    obtain ⟨htaken, hd⟩ := htake
    obtain ⟨hfallen, hd⟩ := effects_fallen hd f hx
    have hsig := signals_escalate ((w.taken l.context).fallen l.context f x) q f
    obtain ⟨hr, hk, he⟩ := hears_escalate _ hlt f
    rw [hsame] at hr hk he
    refine ⟨_, (htaken.trans hfallen).tail (.escalate q f hd.isAwake), ⟨hr, hk, he⟩, ?_, ?_, rfl⟩
    · exact hsig.tasks.trans (fallen_kept (w.taken l.context) l.context f x).1
    · exact (active_escalate _ q q f).trans (congrArg Context.activeChildren hsame)

theorem Exit.hears (hp : Placed w) (hd : w.Drives t l) (x : w.Exit t l o w') {p : ContextId}
    (h : w.HandsUp l o p f) : Hears w w' p f := by
  obtain ⟨v, -, hh, -, -, rfl⟩ := x.heard hp hd h
  exact ⟨(endLoop_field Context.runState v t l o (fun _ _ _ _ => rfl) p).trans hh.runState,
    (endLoop_field Context.killer v t l o (fun _ _ _ _ => rfl) p).trans hh.killer,
    (endLoop_field Context.escalated v t l o (fun _ _ _ _ => rfl) p).trans hh.escalated⟩

theorem Exit.spares {α : Type} (g : Context → α)
    (hg : ∀ (x : Context) n permit idle, g { x with activeChildren := n, permit, idle } = g x)
    (x : w.Exit t l o w') {d : ContextId} (hd : d ≠ l.context) (hn : ∀ f, ¬w.HandsUp l o d f) :
    g (w'.context d) = g (w.context d) := by
  have hstate : ∀ s, (w.setRunState l.context s).context d = w.context d := fun s =>
    context_modifyContext_of_ne w _ hd
  cases x with
  | killed => exact (endLoop_field g _ t l _ hg d).trans (congrArg g (hstate _))
  | completed => exact (endLoop_field g _ t l _ hg d).trans (congrArg g (hstate _))
  | @failed f x =>
    exact (endLoop_field g _ t l _ hg d).trans (congrArg g (context_fallen_of_ne w f x hd))
  | @escalated f x p _ _ hpar =>
    refine (endLoop_field g _ t l _ hg d).trans (congrArg g ?_)
    have hdp : d ≠ p := fun he => hn f ⟨rfl, he ▸ hpar⟩
    rw [context_escalate, seen_of_ne _ hdp, context_fallen_of_ne w f x hd]

theorem Exit.still_of_ne (x : w.Exit t l o w') {d : ContextId} (hd : d ≠ l.context) :
    (w'.context d).still = (w.context d).still := by
  have hrest : ∀ (x : Context) n permit idle,
      { x with activeChildren := n, permit, idle }.still = x.still := fun _ _ _ _ => rfl
  by_cases hn : ∃ f, w.HandsUp l o d f
  · obtain ⟨f, rfl, hpar⟩ := hn
    cases x with
    | @escalated _ x p =>
      refine (endLoop_field Context.still _ t l _ hrest d).trans ?_
      refine ((signals_escalate ((w.taken l.context).fallen l.context f x) p f).still d).trans ?_
      rw [context_fallen_of_ne w f x hd]
  · exact x.spares Context.still hrest hd (not_exists.1 hn)

/-! ## What is put on record about a failure -/

theorem Noted.context (n : Noted w v) (d : ContextId) : v.context d = w.context d := by
  cases n <;> rfl

theorem Noted.tasks (n : Noted w v) : v.tasks = w.tasks := by
  cases n <;> rfl

theorem Noted.effects (n : Noted w v) : Effects w v := by
  cases n with
  | same => exact .refl
  | raised c frame f => exact .single (.work (.note _ rfl))

theorem Noted.lull (n : Noted w v) : Lull w v := by
  cases n with
  | same => exact (Routine.refl w).toLull
  | raised c frame f => exact lull_record w rfl

theorem Noted.counted (n : Noted w v) (h : Counted w) : Counted v := by
  cases n with
  | same => exact h
  | raised => exact h

theorem Ends.noted (h : Ends w w' t l o) (n : Noted w v) : Ends v w' t l o where
  before := n.tasks ▸ h.before
  unfinished := h.unfinished
  after := h.after

theorem Hears.noted {p : ContextId} (h : Hears v w' p f) (n : Noted w v) : Hears w w' p f where
  runState := n.context p ▸ h.runState
  killer := n.context p ▸ h.killer
  escalated := n.context p ▸ h.escalated

theorem Transition.exit (hp : Placed w) (k : Transition raw w w') (h : Ends w w' t l o) :
    ∃ v, Noted w v ∧ Placed v ∧ v.Drives t l ∧ v.Exit t l o w' := by
  rcases k.acts hp with ⟨-, k⟩ | ⟨v, n, a⟩
  · exact absurd h k.not_ends
  · exact ⟨v, n, hp.effects n.effects, a.ends (h.noted n)⟩

end World

end SagaEngine
