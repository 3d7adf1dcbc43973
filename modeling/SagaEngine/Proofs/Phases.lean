import SagaEngine.Proofs.Outcomes

/-! The run state of a context goes with its drive loop. It is a small machine, which signals and calls
do not move, and its terminal states are final. -/

namespace SagaEngine

/-- The steps from one run state to the next. -/
inductive RunState.Becomes : RunState → RunState → Prop where
  | run : Becomes .created .running
  | pause : Becomes .running .paused
  | resume : Becomes .paused .running
  | stop {s : RunState} : s.isTerminal = true → Becomes .running s

theorem RunState.Becomes.not_terminal {s s' : RunState} (h : s.Becomes s') :
    s.isTerminal = false := by
  cases h <;> rfl

def Outcome.runState : Outcome → RunState
  | .completed => .completed
  | .killed _ => .killed
  | .escalated _ | .failed _ => .failed

def Point.phase : Point → RunState
  | .fresh => .created
  | .paused => .paused
  | .ended o => o.runState
  | .head | .idle | .body _ _ | .receiving _ _ _ _ => .running

theorem Outcome.isTerminal_runState (o : Outcome) : o.runState.isTerminal = true := by
  cases o <;> rfl

theorem Point.phase_created {p : Point} : p.phase = .created ↔ p = .fresh := by
  cases p with
  | ended o => cases o <;> simp [phase, Outcome.runState]
  | _ => simp [phase]

theorem Point.phase_paused {p : Point} : p.phase = .paused ↔ p = .paused := by
  cases p with
  | ended o => cases o <;> simp [phase, Outcome.runState]
  | _ => simp [phase]

theorem Point.phase_terminal {p : Point} : p.phase.isTerminal = true ↔ ∃ o, p = .ended o := by
  cases p with
  | ended o => simp [phase, Outcome.isTerminal_runState]
  | _ => simp [phase, RunState.isTerminal]

namespace World

variable {w w' w'' v : World} {raw : Prop} {admits : World → Prop} {t : TaskId} {l m : Loop}
  {c : ContextId} {f : Fault} {o : Outcome}

/-- No context has two drive loops, be they over or not. -/
def SingleDriven (w : World) : Prop :=
  ∀ (t u : TaskId) (l m : Loop), w.tasks[t]? = some (.loop l) → w.tasks[u]? = some (.loop m) →
    l.context = m.context → t = u

theorem singleDriven_of_size (h : w.tasks.size ≤ 1) : SingleDriven w := by
  intro t u l m ht hu _
  have ht := Nat.lt_of_lt_of_le (Array.getElem?_eq_some_iff.1 ht).1 h
  have hu := Nat.lt_of_lt_of_le (Array.getElem?_eq_some_iff.1 hu).1 h
  exact (Nat.lt_one_iff.1 ht).trans (Nat.lt_one_iff.1 hu).symm

/-- Run states go with the loops, and a context without a loop has not been run. -/
structure Staged (w : World) : Prop where
  phase : ∀ (t : TaskId) (l : Loop), w.tasks[t]? = some (.loop l) →
    (w.context l.context).runState = l.point.phase
  unstarted : ∀ c, (∀ (t : TaskId) (l : Loop), w.tasks[t]? = some (.loop l) → l.context ≠ c) →
    (w.context c).runState = .created

/-! ## Where run states stay -/

structure Unturned (w w' : World) : Prop where
  loops : ∀ (t : TaskId) (l' : Loop), w'.tasks[t]? = some (.loop l') →
    (∃ l, w.tasks[t]? = some (.loop l) ∧ l'.context = l.context ∧ l'.point.phase = l.point.phase) ∨
      l'.point.phase = .created ∧ ∀ l, w.tasks[t]? ≠ some (.loop l)
  kept : ∀ (t : TaskId) (l : Loop), w.tasks[t]? = some (.loop l) →
    ∃ l', w'.tasks[t]? = some (.loop l') ∧ l'.context = l.context
  runState : ∀ c, (w'.context c).runState = (w.context c).runState

theorem Unturned.trans (h : Unturned w w') (h' : Unturned w' w'') : Unturned w w'' where
  loops t l'' ht := by
    rcases h'.loops t l'' ht with ⟨l', hl', hc', hp'⟩ | ⟨hp', hn⟩
    · rcases h.loops t l' hl' with ⟨l, hl, hc, hp⟩ | ⟨hp, hn⟩
      · exact .inl ⟨l, hl, hc'.trans hc, hp'.trans hp⟩
      · exact .inr ⟨hp'.trans hp, hn⟩
    · refine .inr ⟨hp', fun l hl => ?_⟩
      obtain ⟨l', hl', -⟩ := h.kept t l hl
      exact hn l' hl'
  kept t l hl := by
    obtain ⟨l', hl', hc⟩ := h.kept t l hl
    obtain ⟨l'', hl'', hc'⟩ := h'.kept t l' hl'
    exact ⟨l'', hl'', hc'.trans hc⟩
  runState c := (h'.runState c).trans (h.runState c)

theorem unturned_of_tasks (ht : w'.tasks = w.tasks)
    (hr : ∀ c, (w'.context c).runState = (w.context c).runState) : Unturned w w' where
  loops _ l hl := .inl ⟨l, ht ▸ hl, rfl, rfl⟩
  kept _ l hl := ⟨l, ht ▸ hl, rfl⟩
  runState := hr

theorem unturned_of_eq (ht : w'.tasks = w.tasks) (hc : w'.contexts = w.contexts) :
    Unturned w w' := unturned_of_tasks ht fun c => by simp only [context, hc]

theorem unturned_modifyContext (w : World) (c : ContextId) (f : Context → Context)
    (h : ∀ x, (f x).runState = x.runState) : Unturned w (w.modifyContext c f) :=
  unturned_of_tasks rfl (context_modifyContext_congr Context.runState h w c)

theorem Edits.unturned (e : Edits w w') : Unturned w w' :=
  unturned_of_tasks e.tasks fun c => by
    change (w'.context c).bare.runState = (w.context c).bare.runState
    rw [e.bare]

theorem Posts.unturned (p : Posts w w') : Unturned w w' := unturned_of_eq p.tasks p.contexts

theorem Signals.unturned (s : Signals w w') {g : Context → Context}
    (hc : ∀ d, w'.context d = w.seen c d g) (hg : ∀ x, (g x).runState = x.runState) :
    Unturned w w' :=
  unturned_of_tasks s.tasks fun d => by
    rw [hc]
    exact seen_field Context.runState hg c d

theorem runState_notified (x : Context) : x.notified.runState = x.runState :=
  Context.notified_congr Context.runState fun _ _ _ => rfl

theorem unturned_kill (w : World) (c : ContextId) (f : Fault) : Unturned w (w.kill c f) :=
  (signals_kill w c f).unturned (fun d => context_kill w c d f) fun _ => runState_notified _

theorem unturned_cancelIfKilled (w : World) (c : ContextId) (h : HandleId) :
    Unturned w (w.cancelIfKilled c h) :=
  (signals_cancelIfKilled w c h).unturned (fun d => context_cancelIfKilled w c d h) fun _ => rfl

theorem unturned_beginReceive {ops : List String} {i : WaitId}
    (h : w.beginReceive c ops = .ok (i, w')) : Unturned w w' := by
  have hr := (posts_request w (w.context c).session ops).unturned
  unfold beginReceive at h
  split at h
  · cases h
  · dsimp only at h
    split at h
    · cases h
      exact hr.trans (unturned_cancelIfKilled _ c _)
    · cases h
      exact hr

theorem unturned_addContext (w : World) {x : Context} (hx : x.runState = .created) :
    Unturned w (w.addContext x).2 := by
  refine unturned_of_tasks rfl fun c => ?_
  rw [context_push]
  split
  · rename_i hc
    rw [hx, hc, context_of_size_le (Nat.le_refl _)]
    rfl
  · rfl

theorem unturned_list (w : World) (c : ContextId) : Unturned w (w.list c) := by
  obtain ⟨-, ht, -, hc⟩ := list_kept w c
  exact unturned_of_eq ht hc

theorem unturned_spawnTask (w : World) {task : Task}
    (h : ∀ l, task = .loop l → l.point = .fresh) : Unturned w (w.spawnTask task) where
  loops t l ht := by
    simp only [World.spawnTask, Array.getElem?_push] at ht
    split at ht
    · rename_i hsize
      refine .inr ⟨?_, fun m hm => ?_⟩
      · rw [h l (Option.some.inj ht)]
        rfl
      · rw [hsize, Array.getElem?_eq_none (Nat.le_refl _)] at hm
        cases hm
    · exact .inl ⟨l, ht, rfl, rfl⟩
  kept t l ht := by
    refine ⟨l, ?_, rfl⟩
    have hlt := (Array.getElem?_eq_some_iff.1 ht).1
    simp only [World.spawnTask, Array.getElem?_push, if_neg (Nat.ne_of_lt hlt), ht]
  runState _ := rfl

theorem unturned_setLoop (ht : w.tasks[t]? = some (.loop l)) (hc : m.context = l.context)
    (hp : m.point.phase = l.point.phase) : Unturned w (w.setLoop t m) where
  loops u l' hu := by
    rw [setLoop, getElem?_setTask] at hu
    split at hu
    · rename_i he
      obtain rfl := Task.loop.inj (Option.some.inj hu)
      exact .inl ⟨l, he.1 ▸ ht, hc, hp⟩
    · exact .inl ⟨l', hu, rfl, rfl⟩
  kept u l' hu := by
    rw [setLoop, getElem?_setTask]
    split
    · rename_i he
      rw [he.1, ht] at hu
      obtain rfl := Task.loop.inj (Option.some.inj hu)
      exact ⟨m, rfl, hc⟩
    · exact ⟨l', hu, rfl⟩
  runState _ := rfl

theorem unturned_setTask {old task : Task} (ht : w.tasks[t]? = some old) (ho : ∀ l, old ≠ .loop l)
    (hn : ∀ l, task ≠ .loop l) : Unturned w (w.setTask t task) where
  loops u m hm := by
    rw [getElem?_setTask] at hm
    split at hm
    · exact absurd (Option.some.inj hm) (hn m)
    · exact .inl ⟨m, hm, rfl, rfl⟩
  kept u m hm := by
    rw [getElem?_setTask]
    split
    · rename_i hu
      rw [hu.1, ht] at hm
      exact absurd (Option.some.inj hm) (ho m)
    · exact ⟨m, hm, rfl⟩
  runState _ := rfl

theorem unturned_finishRound (ht : w.tasks[t]? = some (.loop l)) (hp : l.point.phase = .running) :
    Unturned w (w.finishRound t l) := by
  have hset : ∀ n, Unturned w (w.setLoop t { l with slice := n, point := .head }) := fun n =>
    unturned_setLoop (m := { l with slice := n, point := .head }) ht rfl hp.symm
  unfold finishRound
  split
  · exact (hset 0).trans (unturned_of_eq rfl rfl)
  · exact hset _

theorem Call.unturned (k : Call raw w w') : Unturned w w' := by
  have hloop : ∀ (v : World) (c : ContextId) (budget : Nat) (counted : Bool),
      Unturned v (v.addLoop c budget counted) := fun v c budget counted =>
    unturned_spawnTask v fun l hl => by
      cases hl
      rfl
  cases k with
  | edit e => exact e.edits.unturned
  | kill c f => exact unturned_kill w c f
  | clearKill c => exact unturned_modifyContext w c _ fun _ => rfl
  | root label session scope budget k =>
    obtain ⟨ss, hw⟩ := openSession_eq w session
    have hopen : Unturned w (w.openSession session).2 := hw ▸ unturned_of_eq rfl rfl
    exact (hopen.trans (unturned_addContext _ rfl)).trans (unturned_list _ _)
  | child p label k hp => exact unturned_addContext w rfl
  | start c hc =>
    unfold World.start
    dsimp only
    split
    · rename_i p _
      exact (unturned_modifyContext w p (fun x =>
        { x with activeChildren := x.activeChildren + 1 }) fun _ => rfl).trans (hloop _ c _ _)
    · exact hloop w c _ _
  | drive c budget hc => exact hloop w c budget false
  | newHandle name => exact (posts_nameNewHandle w name).unturned
  | dropHandle name => exact (posts_dropHandle w name).unturned
  | register c i => exact unturned_cancelIfKilled w c i
  | cancel i =>
    exact unturned_of_tasks (signals_cancelHandle w i).tasks fun d => by rw [context_cancelHandle]
  | deliver c op v hc => exact ((posts_newLetter w op v).trans (posts_deliver _ _ _)).unturned
  | receiver c tag ops hc => exact unturned_spawnTask w fun l hl => by cases hl
  | requeue c op v hr hc => exact ((posts_newLetter w op v).trans (posts_requeue _ _ _)).unturned
  | request c slot ops hr hc => exact (posts_requestInto w c slot ops).unturned
  | dropWait slot i hr hi =>
    exact ((posts_closeWait w i).trans (posts_forgetWait _ slot)).unturned
  | await slot i hr hi =>
    exact (posts_forgetWait w slot).unturned.trans (unturned_spawnTask _ fun l hl => by cases hl)

/-! ## Turns of the machine -/

inductive Turned (w w' : World) : Prop where
  | none : Unturned w w' → Turned w w'
  | one {t : TaskId} {l m : Loop} :
      w.tasks[t]? = some (.loop l) → m.context = l.context →
      l.point.phase.Becomes m.point.phase → w'.tasks = (w.setLoop t m).tasks →
      (w'.context l.context).runState = m.point.phase →
      (∀ d, d ≠ l.context → (w'.context d).runState = (w.context d).runState) → Turned w w'

theorem Turned.congr (h : Turned w v) (ht : w'.tasks = v.tasks) (hc : w'.contexts = v.contexts) :
    Turned w w' := by
  have hx : ∀ d, w'.context d = v.context d := fun d => by simp only [context, hc]
  cases h with
  | none h => exact .none (h.trans (unturned_of_eq ht hc))
  | one hl hcl hb htasks hr ho =>
    exact .one hl hcl hb (ht.trans htasks) (hx _ ▸ hr) fun d hd => hx d ▸ ho d hd

theorem turned_setLoop (ht : w.tasks[t]? = some (.loop l)) (hl : l.context < w.contexts.size)
    (hc : m.context = l.context) (hb : l.point.phase.Becomes m.point.phase)
    {g : Context → Context} (hg : ∀ x, (g x).runState = m.point.phase) :
    Turned w ((w.modifyContext l.context g).setLoop t m) := by
  refine .one ht hc hb rfl ?_ fun d hd => ?_
  · exact (congrArg Context.runState (context_modifyContext_self g hl)).trans (hg _)
  · exact congrArg Context.runState (context_modifyContext_of_ne w g hd)

theorem Truthful.runState (h : Truthful w w' c o) : (w'.context c).runState = o.runState := by
  cases o with
  | completed => exact h.1
  | killed f => exact h.1
  | escalated f => exact h.2.1
  | failed f => exact h.2.1

theorem Exit.turned (hp : Placed w) (hd : w.Drives t l) (hl : l.point.phase = .running)
    (x : w.Exit t l o w') : Turned w w' := by
  refine .one hd.task (m := { l with point := .ended o }) rfl ?_ x.kept.1
    (x.truthful hp hd).runState fun d hne => ?_
  · rw [hl]
    exact .stop o.isTerminal_runState
  · by_cases hn : ∃ f, w.HandsUp l o d f
    · obtain ⟨f, hf⟩ := hn
      exact (x.hears hp hd hf).runState
    · exact x.spares Context.runState (fun _ _ _ _ => rfl) hne (not_exists.1 hn)

theorem turned_raiseIn (hp : Placed w) (hd : w.Drives t l) (hl : l.point.phase = .running)
    (hf : w.Due l.context f) {next : World → World}
    (hn : ∀ v : World, v.tasks[t]? = some (.loop l) → Unturned v (next v)) :
    Turned w ((w.taken l.context).raiseIn t l f next) := by
  have hc := hp.loop hd.task
  have hlt : l.context < (w.taken l.context).contexts.size := size_taken w l.context ▸ hc
  have hk : ((w.taken l.context).context l.context).killer = none := by
    rw [context_taken hc]
    exact hf.alive
  have hpar : ((w.taken l.context).context l.context).parent? = (w.context l.context).parent? := by
    rw [context_taken hc]
    rfl
  have htake : Unturned w (w.taken l.context) := unturned_modifyContext w l.context _ fun _ => rfl
  unfold raiseIn
  rcases hx : ((w.taken l.context).context l.context).unwind f.name with ⟨_ | h, x⟩
  · rw [raise_fallen hlt hk hx, hpar]
    rcases hparent : (w.context l.context).parent? with _ | p
    · exact Exit.turned hp hd hl (.failed hf hx hparent)
    · exact Exit.turned hp hd hl (.escalated hf hx hparent)
  · rw [raise_caught hx]
    have he := (Work.caught l.context f hx).edits
    exact .none ((htake.trans he.unturned).trans (hn _ (he.tasks ▸ hd.task)))

theorem turned_failContinuation (hp : Placed w) (hd : w.Drives t l)
    (hl : l.point.phase = .running) (f : Fault) : Turned w (w.failContinuation t l f) := by
  unfold failContinuation
  dsimp only
  split
  · rename_i g hk
    exact Exit.turned hp hd hl (.killed hk)
  · rename_i hk
    have hf : w.Due l.context ((w.context l.context).escalated.getD f) :=
      ⟨hk, fun g hg => by rw [hg]; rfl⟩
    exact turned_raiseIn hp hd hl hf fun v hv => unturned_finishRound hv hl

theorem unturned_startContinuation (ht : w.tasks[t]? = some (.loop l))
    (hl : l.point.phase = .running) (k : Continuation) :
    Unturned w (w.startContinuation t l k) := by
  have hstart : ∀ v : World, v.tasks[t]? = some (.loop l) →
      Unturned v ((v.record (.started l.context k)).setLoop t
        { l with point := .body ⟨k.name, k.traced⟩ k.steps }) := fun v hv => by
    have hrec : Unturned v (v.record (.started l.context k)) := unturned_of_eq rfl rfl
    exact hrec.trans (unturned_setLoop
      (m := { l with point := .body ⟨k.name, k.traced⟩ k.steps }) hv rfl hl.symm)
  unfold startContinuation
  dsimp only
  split
  · exact (unturned_list w l.context).trans (hstart _ ((list_kept w l.context).2.1 ▸ ht))
  · exact hstart w ht

theorem turned_round (hp : Placed w) (hd : w.Drives t l) (hl : l.point.phase = .running) :
    Turned w (w.round t l) := by
  unfold round
  dsimp only
  split
  · rename_i g _ hk
    exact Exit.turned hp hd hl (.killed hk)
  · rename_i g hk he
    have hf : w.Due l.context g := ⟨hk, fun g' hg => Option.some.inj (he.symm.trans hg)⟩
    exact turned_raiseIn hp hd hl hf fun v hv =>
      unturned_setLoop (m := { l with point := .head }) hv rfl hl.symm
  · rename_i hk he
    split
    · have hpause : Turned w ((w.modifyContext l.context fun x =>
          { x with pauseRequested := false, runState := .paused }).setLoop t
            { l with point := .paused }) := by
        refine turned_setLoop (m := { l with point := .paused }) hd.task (hp.loop hd.task) rfl ?_
          fun _ => rfl
        rw [hl]
        exact .pause
      exact hpause.congr rfl rfl
    · rename_i hpause
      split
      · rename_i k rest _
        have hnext : Unturned w (w.modifyContext l.context fun x => { x with pending := rest }) :=
          unturned_modifyContext w l.context _ fun _ => rfl
        generalize hv : w.modifyContext l.context (fun x => { x with pending := rest }) = v at hnext ⊢
        have ht : v.tasks[t]? = some (.loop l) := hv ▸ hd.task
        exact .none (hnext.trans (unturned_startContinuation ht hl k))
      · rename_i hpend
        rw [runDry_eq he]
        split
        · rename_i hz
          exact Exit.turned hp hd hl (.completed ⟨hk, he⟩ (by simpa using hpause) hpend hz)
        · split
          · exact .none (unturned_modifyContext w l.context _ fun _ => rfl)
          · have hidle := unturned_modifyContext w l.context
              (fun x => { x with idle := x.idle ++ [t] }) fun _ => rfl
            have hset : Unturned _ (World.setLoop _ t { l with point := .idle }) :=
              hidle.trans (unturned_setLoop (m := { l with point := .idle }) hd.task rfl hl.symm)
            exact .none (hset.trans (unturned_of_eq rfl rfl))

theorem turned_loopStep (hp : Placed w) (hc : w.current = some t)
    (ht : w.tasks[t]? = some (.loop l)) (hin : l.point.inEngine = true) :
    Turned w (w.loopStep t l) := by
  have hl := hp.loop ht
  unfold loopStep
  cases h : l.point with
  | fresh =>
    refine turned_setLoop (m := { l with point := .head }) ht hl rfl ?_ fun _ => rfl
    rw [h]
    exact .run
  | head =>
    have hd : w.Drives t l := ⟨hc, ht, by simp [Task.wait?, h], by simp [outcome?, h]⟩
    exact turned_round hp hd (by rw [h]; rfl)
  | paused =>
    refine turned_setLoop (m := { l with slice := 0, point := .head }) ht hl rfl ?_ fun _ => rfl
    rw [h]
    exact .resume
  | idle =>
    exact .none (unturned_setLoop (m := { l with point := .head }) ht rfl (by rw [h]; rfl))
  | body frame rest => simp [h, Point.inEngine] at hin
  | receiving frame rest i receipt => simp [h, Point.inEngine] at hin
  | ended o => exact .none (unturned_of_eq rfl rfl)

theorem Runs.phase {frame : Frame} {rest : List Step} (h : w.Runs t l frame rest) :
    l.point.phase = .running := by
  rw [h.2.2]
  rfl

theorem Turned.noted (n : Noted w v) (h : Turned v w') : Turned w w' := by
  cases h with
  | none h => exact .none ((unturned_of_tasks n.tasks fun c => by rw [n.context]).trans h)
  | one hl hc hb ht hr ho =>
    refine .one (n.tasks ▸ hl) hc hb (ht.trans ?_) hr fun d hd => n.context d ▸ ho d hd
    simp only [setLoop, setTask, n.tasks]

theorem Transition.turned (hp : Placed w) (k : Transition raw w w') : Turned w w' := by
  have hdone : ∀ {v : World} {u : TaskId} {old : Task}, v.tasks[u]? = some old →
      (∀ l, old ≠ .loop l) → Unturned v (v.setTask u .done).suspend := fun {v u _} ht ho =>
    (unturned_setTask ht ho (by simp)).trans (unturned_of_eq rfl rfl)
  cases k with
  | call _ k => exact .none k.unturned
  | pick => exact .none (unturned_of_eq rfl rfl)
  | @pass t l frame rest rest' name reply hr =>
    have hrec : Unturned w (w.record (.performed l.context frame name reply)) :=
      unturned_of_eq rfl rfl
    exact .none (hrec.trans
      (unturned_setLoop (m := { l with point := .body frame rest' }) hr.2.1 rfl hr.phase.symm))
  | finish hr => exact .none (unturned_finishRound hr.2.1 hr.phase)
  | @fail t l frame rest f hr =>
    have he := edits_record w (e := .raised l.context frame f) rfl
    have hfail := turned_failContinuation (hp.steady he.steady) (hr.drives.steady he.steady)
      hr.phase f
    exact hfail.noted (.raised l.context frame f)
  | @pauseBody t l frame rest rest' hr =>
    have hset : Unturned w (w.setLoop t { l with point := .body frame rest' }) :=
      unturned_setLoop hr.2.1 rfl hr.phase.symm
    exact .none (hset.trans (unturned_of_eq rfl rfl))
  | @receive t l frame rest i v rest' receipt ops hr hb =>
    have hv : v.tasks[t]? = some (.loop l) := (steady_beginReceive hb).tasks ▸ hr.2.1
    exact .none ((unturned_beginReceive hb).trans (unturned_setLoop
      (m := { l with point := .receiving frame rest' i receipt }) hv rfl hr.phase.symm))
  | @resume t l frame rest i receipt r rest' _ ht hpt =>
    have hset : Unturned w (w.setLoop t { l with point := .body frame rest' }) :=
      unturned_setLoop ht rfl (by rw [hpt]; rfl)
    exact .none (hset.trans (posts_endReceive _ l.context i r).unturned)
  | drive hc ht hin => exact turned_loopStep hp hc ht hin
  | @sleep t task i =>
    refine .none ?_
    unfold sleepOn
    split <;> exact unturned_of_eq rfl rfl
  | @beginReceipt t c tag ops hc ht =>
    refine .none ?_
    unfold receiverStep
    split
    · rename_i f _
      have hrec : Unturned w (w.record (.received tag (.error f))) := unturned_of_eq rfl rfl
      exact hrec.trans (hdone ht (by simp))
    · rename_i i v hb
      have hv := (steady_beginReceive hb).tasks ▸ ht
      exact (unturned_beginReceive hb).trans (unturned_setTask hv (by simp) (by simp))
  | @endReceipt t c tag i r hc ht hr =>
    have hrec := (posts_endReceive w c i r).trans
      (posts_record _ (e := .received tag (w.endReceive c i r).2) rfl)
    exact .none (hrec.unturned.trans (hdone (hrec.tasks ▸ ht) (by simp)))
  | @endAwait t slot i r hc ht hr =>
    have hrec := (posts_closeWait w i).trans (posts_record _ (e := .awaited slot r) rfl)
    exact .none (hrec.unturned.trans (hdone (hrec.tasks ▸ ht) (by simp)))
  | halt => exact .none (unturned_of_eq rfl rfl)

/-! ## Every run -/

theorem Staged.unturned (h : Staged w) (hs : SingleDriven w') (u : Unturned w w') : Staged w' where
  phase t l' ht := by
    rw [u.runState]
    rcases u.loops t l' ht with ⟨l, hl, hc, hp⟩ | ⟨hp, hn⟩
    · rw [hc, hp]
      exact h.phase t l hl
    · -- the loop is new, and so the first of its context
      rw [hp]
      refine h.unstarted _ fun a l hl hc => ?_
      obtain ⟨m, hm, hmc⟩ := u.kept a l hl
      obtain rfl := hs a t m l' hm ht (hmc.trans hc)
      exact hn l hl
  unstarted c hc := by
    rw [u.runState]
    refine h.unstarted c fun t l hl hlc => ?_
    obtain ⟨m, hm, hmc⟩ := u.kept t l hl
    exact hc t m hm (hmc.trans hlc)

theorem Staged.turned (h : Staged w) (hs : SingleDriven w) (hs' : SingleDriven w')
    (k : Turned w w') : Staged w' := by
  cases k with
  | none u => exact h.unturned hs' u
  | @one t l m hl hc hb htasks hr ho =>
    have ht := (Array.getElem?_eq_some_iff.1 hl).1
    have hself : w'.tasks[t]? = some (.loop m) := by
      rw [htasks, setLoop, getElem?_setTask, if_pos ⟨rfl, ht⟩]
    have hother : ∀ a, a ≠ t → w'.tasks[a]? = w.tasks[a]? := fun a ha => by
      rw [htasks, setLoop, getElem?_setTask, if_neg fun he => ha he.1]
    refine ⟨fun a l' ha => ?_, fun c hn => ?_⟩
    · by_cases hat : a = t
      · subst hat
        obtain rfl := Task.loop.inj (Option.some.inj (hself.symm.trans ha))
        rw [hc]
        exact hr
      · rw [hother a hat] at ha
        rw [ho _ fun he => hat (hs a t l' l ha hl he)]
        exact h.phase a l' ha
    · have hlc : c ≠ l.context := fun he => hn t m hself (hc.trans he.symm)
      rw [ho c hlc]
      refine h.unstarted c fun a l' ha hac => ?_
      by_cases hat : a = t
      · subst hat
        rw [hl] at ha
        obtain rfl := Task.loop.inj (Option.some.inj ha)
        exact hlc hac.symm
      · exact hn a l' (hother a hat ▸ ha) hac

theorem Staged.becomes (h : Staged w) (k : Turned w w') (c : ContextId) :
    (w'.context c).runState = (w.context c).runState ∨
      (w.context c).runState.Becomes (w'.context c).runState := by
  cases k with
  | none u => exact .inl (u.runState c)
  | @one t l m hl hc hb _ hr ho =>
    by_cases he : c = l.context
    · subst he
      rw [h.phase t l hl, hr]
      exact .inr hb
    · exact .inl (ho c he)

theorem Reachable.staged (h : Reachable raw SingleDriven w) : SingleDriven w ∧ Staged w := by
  induction h with
  | start hs =>
    refine ⟨hs, fun t l hl => by simp at hl, fun c _ => ?_⟩
    rw [context_of_size_le (Nat.zero_le c)]
    rfl
  | next h k hs ih => exact ⟨hs, ih.2.turned ih.1 hs (k.turned h.placed)⟩

def Driven (w : World) (c : ContextId) : Prop :=
  ∃ (t : TaskId) (l : Loop), w.tasks[t]? = some (.loop l) ∧ l.context = c ∧ outcome? l = none

theorem Drives.driven (h : w.Drives t l) : Driven w l.context := ⟨t, l, h.task, rfl, h.unfinished⟩

theorem Staged.not_driven (h : Staged w) (ht : (w.context c).runState.isTerminal = true) :
    ¬Driven w c := by
  rintro ⟨t, l, hl, rfl, ho⟩
  rw [h.phase t l hl] at ht
  obtain ⟨o, hp⟩ := Point.phase_terminal.1 ht
  simp [outcome?, hp] at ho

theorem Act.runner (a : Act w w') :
    ∃ es, w'.history.toList = w.history.toList ++ es ∧
      ∀ e ∈ es, ∀ c, e.runner? = some c → Driven w c := by
  have hquiet : ∀ {es : List Event}, (∀ e ∈ es, e.runner? = none) →
      ∀ e ∈ es, ∀ c, e.runner? = some c → Driven w c := fun hes e he c hc => by
    rw [hes e he] at hc
    cases hc
  cases a with
  | routine r | pause _ _ r =>
    obtain ⟨es, he, hes⟩ := r.history
    exact ⟨es, he, hquiet hes⟩
  | @start t l k rest v hd _ r =>
    obtain ⟨es, he, hes⟩ := r.history
    refine ⟨es ++ [.started l.context k], ?_, fun e hm c hc => ?_⟩
    · rw [← List.append_assoc]
      exact (Array.toList_push ..).trans (congrArg (· ++ [_]) he)
    · rcases List.mem_append.1 hm with hm | hm
      · exact hquiet hes e hm c hc
      · obtain rfl := List.mem_singleton.1 hm
        exact Option.some.inj hc ▸ hd.driven
  | @caught t l f h x _ hd _ _ r =>
    obtain ⟨es, he, hes⟩ := r.history
    refine ⟨.caught l.context f h :: es, ?_, fun e hm c hc => ?_⟩
    · rw [List.append_cons, he]
      exact congrArg (· ++ es) (Array.toList_push ..)
    · rcases List.mem_cons.1 hm with rfl | hm
      · exact Option.some.inj hc ▸ hd.driven
      · exact hquiet hes e hm c hc
  | exit _ x => exact ⟨[], by simp [x.kept.2], by simp⟩

theorem Transition.runner (hp : Placed w) (k : Transition raw w w') (hc : ¬Driven w c) :
    ∃ es, w'.history.toList = w.history.toList ++ es ∧ ∀ e ∈ es, e.runner? ≠ some c := by
  rcases k.acts hp with ⟨-, k⟩ | ⟨v, n, a⟩
  · obtain ⟨es, he, hes⟩ := k.lull.history
    exact ⟨es, he, fun e hm hr => by simp [hes e hm] at hr⟩
  · obtain ⟨es, he, hes⟩ := n.lull.history
    obtain ⟨es', he', hes'⟩ := a.runner
    refine ⟨es ++ es', by rw [he', he, List.append_assoc], fun e hm hr => ?_⟩
    rcases List.mem_append.1 hm with hm | hm
    · simp [hes e hm] at hr
    · obtain ⟨t, l, hl, hlc, ho⟩ := hes' e hm c hr
      exact hc ⟨t, l, n.tasks ▸ hl, hlc, ho⟩

theorem Reachable.final (h : Reachable raw SingleDriven w)
    (ht : (w.context c).runState.isTerminal = true)
    (hr : Relation.ReflTransGen (fun w w' => Transition raw w w' ∧ SingleDriven w') w v) :
    Reachable raw SingleDriven v ∧ (v.context c).runState = (w.context c).runState ∧
      ∃ es, v.history.toList = w.history.toList ++ es ∧ ∀ e ∈ es, e.runner? ≠ some c := by
  induction hr with
  | refl => exact ⟨h, rfl, [], by simp, by simp⟩
  | tail _ k ih =>
    obtain ⟨hv, hs, es, he, hes⟩ := ih
    rw [← hs] at ht
    obtain ⟨es', he', hes'⟩ := k.1.runner hv.placed (hv.staged.2.not_driven ht)
    refine ⟨hv.next k.1 k.2, ?_, es ++ es', by rw [he', he, List.append_assoc], fun e hm => ?_⟩
    · rcases hv.staged.2.becomes (k.1.turned hv.placed) c with hsame | hb
      · exact hsame.trans hs
      · rw [hb.not_terminal] at ht
        cases ht
    · exact (List.mem_append.1 hm).elim (hes e) (hes' e)

/-- With at most one drive loop for each context, run states take the steps of the machine only. -/
theorem Reachable.run_state_machine (h : Reachable raw SingleDriven w) :
    (∀ c, (∀ (t : TaskId) (l : Loop), w.tasks[t]? = some (.loop l) → l.context ≠ c) →
      (w.context c).runState = .created) ∧
    (∀ (t : TaskId) (l : Loop), w.tasks[t]? = some (.loop l) →
      ((w.context l.context).runState = .created ↔ l.point = .fresh) ∧
      ((w.context l.context).runState = .paused ↔ l.point = .paused) ∧
      ((w.context l.context).runState.isTerminal = true ↔ ∃ o, l.point = .ended o)) ∧
    (∀ w' c, Transition raw w w' → (w'.context c).runState = (w.context c).runState ∨
      (w.context c).runState.Becomes (w'.context c).runState) ∧
    ∀ c v, (w.context c).runState.isTerminal = true →
      Relation.ReflTransGen (fun w w' => Transition raw w w' ∧ SingleDriven w') w v →
      (v.context c).runState = (w.context c).runState ∧
      ∃ es, v.history.toList = w.history.toList ++ es ∧ ∀ e ∈ es, e.runner? ≠ some c := by
  have hs := h.staged.2
  refine ⟨hs.unstarted, fun t l hl => ?_, fun w' c k => hs.becomes (k.turned h.placed) c,
    fun c v ht hr => (h.final ht hr).2⟩
  rw [hs.phase t l hl]
  exact ⟨Point.phase_created, Point.phase_paused, Point.phase_terminal⟩

theorem order_completed : ∃ w v : World, Reachable False SingleDriven w ∧
    (w.context 0).runState = .completed ∧ Transition False w v ∧
    (v.context 0).isKilled = true ∧ (v.context 0).runState = .completed := by
  have h1 : Reachable False SingleDriven (rooted "order" "shop" "main" 1 none) :=
    .rooted _ _ _ _ _ (singleDriven_of_size (by decide)) (singleDriven_of_size (by decide))
  have h2 := h1.next (.call (.inl rfl) (.start 0 (by decide))) (singleDriven_of_size (by decide))
  have h3 := h2.next (.pick 0 rfl (by decide)) (singleDriven_of_size (by decide))
  have h4 := h3.next (.drive (t := 0) rfl rfl rfl) (singleDriven_of_size (by decide))
  have h5 := h4.next (.drive (t := 0) rfl rfl rfl) (singleDriven_of_size (by decide))
  refine ⟨_, _, h5, rfl, .call (.inl rfl) (.kill 0 ⟨"stop", none, .null⟩), rfl, ?_⟩
  exact (h5.run_state_machine.2.2.2 0 _ rfl
    (.single ⟨.call (.inl rfl) (.kill 0 _), singleDriven_of_size (by decide)⟩)).1

end World

end SagaEngine
