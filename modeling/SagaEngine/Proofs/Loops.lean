import SagaEngine.Proofs.Signals
import SagaEngine.Proofs.Waits

/-! Drive loops that are not over. An effect changes one task at most, and makes no loop of another
task; a context counts the loops of its children. -/

namespace SagaEngine

inductive Task.Follows : Task → Task → Prop where
  | goes {l l' : Loop} :
      l.Continues l' → World.outcome? l = none → World.outcome? l' = none →
      Follows (.loop l) (.loop l')
  | ends {l : Loop} (o : Outcome) :
      World.outcome? l = none → Follows (.loop l) (.loop { l with point := .ended o })
  | receives {old task : Task} :
      (∀ l, old ≠ .loop l) → (∀ l, task ≠ .loop l) → Follows old task

namespace World

variable {w w' : World} {raw : Prop} {admits : World → Prop}

theorem outcome_of_isBusy {l : Loop} (h : l.point.isBusy = true) : outcome? l = none := by
  unfold outcome?
  cases hp : l.point <;> simp_all [Point.isBusy]

theorem endLoop_tasks (w : World) (t : TaskId) (l : Loop) (o : Outcome) :
    (w.endLoop t l o).tasks = (w.setLoop t { l with point := .ended o }).tasks := by
  unfold endLoop
  dsimp only
  split
  · exact (signals_childFinished _ _).tasks
  · rfl

theorem sleepOn_tasks (w : World) (t : TaskId) (i : WaitId) : (w.sleepOn t i).tasks = w.tasks := by
  unfold sleepOn
  split <;> rfl

theorem Effect.tasks (e : Effect w w') :
    w'.tasks = w.tasks ∨ ∃ (t : TaskId) (old task : Task),
      w.tasks[t]? = some old ∧ old.Follows task ∧ w'.tasks = (w.setTask t task).tasks := by
  cases e with
  | work e => exact .inl e.edits.tasks
  | takeEscalated c => exact .inl rfl
  | takePermit c => exact .inl rfl
  | runState c s => exact .inl rfl
  | kill c f => exact .inl (signals_kill w c f).tasks
  | escalate c f => exact .inl (signals_escalate w c f).tasks
  | pick t => exact .inl rfl
  | goto hd hl hb =>
    exact .inr ⟨_, _, _, hd.task, .goes hl hd.unfinished (outcome_of_isBusy hb), rfl⟩
  | yield hd hl hb =>
    exact .inr ⟨_, _, _, hd.task, .goes hl hd.unfinished (outcome_of_isBusy hb), rfl⟩
  | @park t l hd =>
    exact .inr ⟨t, .loop l, .loop { l with point := .idle }, hd.task,
      .goes ⟨rfl, rfl, rfl⟩ hd.unfinished rfl, rfl⟩
  | finish o hd => exact .inr ⟨_, _, _, hd.task, .ends o hd.unfinished, endLoop_tasks w _ _ o⟩
  | halt => exact .inl rfl
  | @receive t l frame rest i v rest' receipt ops hr hb =>
    refine .inr ⟨t, .loop l, .loop { l with point := .receiving frame rest' i receipt }, hr.2.1,
      .goes ⟨rfl, rfl, rfl⟩ hr.drives.unfinished rfl, ?_⟩
    unfold setLoop setTask
    rw [(steady_beginReceive hb).tasks]
  | @resume t l frame rest i receipt r rest' hc ht hp =>
    refine .inr ⟨t, .loop l, .loop { l with point := .body frame rest' }, ht,
      .goes ⟨rfl, rfl, rfl⟩ (by simp [outcome?, hp]) rfl, ?_⟩
    exact (posts_endReceive _ l.context i r).tasks
  | sleep => exact .inl (sleepOn_tasks w _ _)
  | @beginReceipt t c tag ops i v hc ht hb =>
    refine .inr ⟨t, _, .receiving c tag i, ht, .receives (by simp) (by simp), ?_⟩
    unfold setTask
    rw [(steady_beginReceive hb).tasks]
  | refuse hc ht => exact .inr ⟨_, _, .done, ht, .receives (by simp) (by simp), rfl⟩
  | @endReceipt t c tag i r hc ht =>
    refine .inr ⟨t, _, .done, ht, .receives (by simp) (by simp), ?_⟩
    change ((w.endReceive c i r).1.setTask t .done).tasks = (w.setTask t .done).tasks
    unfold setTask
    rw [(posts_endReceive w c i r).tasks]
  | @endAwait t slot i r hc ht =>
    refine .inr ⟨t, _, .done, ht, .receives (by simp) (by simp), ?_⟩
    change ((w.closeWait i).2.setTask t .done).tasks = (w.setTask t .done).tasks
    unfold setTask
    rw [(posts_closeWait w i).tasks]

/-! ## One loop for each context -/

/-- No context has two drive loops that are not over. -/
def SoleDriven (w : World) : Prop :=
  ∀ (t u : TaskId) (l l' : Loop), w.tasks[t]? = some (.loop l) → w.tasks[u]? = some (.loop l') →
    outcome? l = none → outcome? l' = none → l.context = l'.context → t = u

theorem Effect.loop_of (e : Effect w w') {t : TaskId} {l' : Loop}
    (ht : w'.tasks[t]? = some (.loop l')) (hn : outcome? l' = none) :
    ∃ l, w.tasks[t]? = some (.loop l) ∧ outcome? l = none ∧ l'.context = l.context := by
  rcases e.tasks with he | ⟨u, old, task, hu, hf, he⟩
  · exact ⟨l', he ▸ ht, hn, rfl⟩
  · rw [he, getElem?_setTask] at ht
    split at ht
    · rename_i htu
      obtain rfl := Option.some.inj ht
      obtain ⟨rfl, -⟩ := htu
      cases hf with
      | goes hl ho => exact ⟨_, hu, ho, hl.1⟩
      | ends o => cases hn
      | receives _ hnot => exact absurd rfl (hnot l')
    · exact ⟨l', ht, hn, rfl⟩

theorem SoleDriven.effect (h : SoleDriven w) (e : Effect w w') : SoleDriven w' := by
  intro t u l l' ht hu hl hl' hc
  obtain ⟨k, hk, hkn, hkc⟩ := e.loop_of ht hl
  obtain ⟨k', hk', hkn', hkc'⟩ := e.loop_of hu hl'
  exact h t u k k' hk hk' hkn hkn' (hkc.symm.trans (hc.trans hkc'))

theorem soleDriven_of_size (h : w.tasks.size ≤ 1) : SoleDriven w := by
  intro t u l l' ht hu _ _ _
  have ht := Nat.lt_of_lt_of_le (Array.getElem?_eq_some_iff.1 ht).1 h
  have hu := Nat.lt_of_lt_of_le (Array.getElem?_eq_some_iff.1 hu).1 h
  exact (Nat.lt_one_iff.1 ht).trans (Nat.lt_one_iff.1 hu).symm

/-! ## Children are counted -/

def childOf (w : World) (p : ContextId) : Task → Bool
  | .loop l =>
    l.counted && (outcome? l).isNone && decide ((w.context l.context).parent? = some p)
  | _ => false

/-- A context counts the loops of its children until they are over. -/
def Counted (w : World) : Prop :=
  ∀ p, (w.context p).activeChildren = w.tasks.countP (w.childOf p)

theorem childOf_congr (h : ∀ c, (w'.context c).ancestors = (w.context c).ancestors)
    (p : ContextId) : w'.childOf p = w.childOf p := by
  funext task
  cases task with
  | loop l =>
    have hp : (w'.context l.context).parent? = (w.context l.context).parent? :=
      congrArg List.head? (h l.context)
    simp only [childOf, hp]
  | _ => rfl

theorem Counted.steady (h : Counted w) (s : Steady w w')
    (ha : ∀ c, (w'.context c).activeChildren = (w.context c).activeChildren) : Counted w' := by
  intro p
  rw [ha, s.tasks, childOf_congr s.ancestors]
  exact h p

theorem Counted.modifyContext (h : Counted w) (c : ContextId) (f : Context → Context)
    (hf : ∀ x, (f x).activeChildren = x.activeChildren ∧ (f x).ancestors = x.ancestors) :
    Counted (w.modifyContext c f) := by
  intro p
  rw [context_modifyContext_congr Context.activeChildren fun x => (hf x).1,
    childOf_congr (context_modifyContext_congr Context.ancestors (fun x => (hf x).2) w c)]
  exact h p

theorem countP_setTask {t : TaskId} {old : Task} (ht : w.tasks[t]? = some old) (task : Task)
    (p : Task → Bool) :
    (w.setTask t task).tasks.countP p =
      w.tasks.countP p - (if p old then 1 else 0) + (if p task then 1 else 0) := by
  obtain ⟨hlt, hold⟩ := Array.getElem?_eq_some_iff.1 ht
  unfold setTask
  dsimp only
  rw [Array.set!_eq_setIfInBounds, Array.setIfInBounds_def, dif_pos hlt, Array.countP_set, hold]

theorem countP_setTask_same {t : TaskId} {old task : Task} (ht : w.tasks[t]? = some old)
    {p : Task → Bool} (hp : p task = p old) :
    (w.setTask t task).tasks.countP p = w.tasks.countP p := by
  rw [countP_setTask ht, hp]
  split
  · rename_i hpos
    have : 0 < w.tasks.countP p :=
      Array.countP_pos_iff.2 ⟨old, Array.mem_of_getElem? ht, hpos⟩
    omega
  · rfl

theorem Counted.setTask (h : Counted w) {t : TaskId} {old task : Task}
    (ht : w.tasks[t]? = some old) (hp : ∀ p, w.childOf p task = w.childOf p old) :
    Counted (w.setTask t task) := by
  intro p
  have hc : (w.setTask t task).childOf p = w.childOf p := childOf_congr (fun _ => rfl) p
  rw [hc, countP_setTask_same ht (hp p)]
  exact h p

theorem Counted.spawnTask (h : Counted w) {task : Task} (hp : ∀ p, w.childOf p task = false) :
    Counted (w.spawnTask task) := by
  intro p
  have hc : (w.spawnTask task).childOf p = w.childOf p := childOf_congr (fun _ => rfl) p
  rw [hc]
  refine (h p).trans ?_
  unfold World.spawnTask
  rw [Array.countP_push, hp p]
  rfl

theorem childOf_follows {l l' : Loop} (hl : l.Continues l') (ho : outcome? l = none)
    (ho' : outcome? l' = none) (p : ContextId) :
    w.childOf p (.loop l') = w.childOf p (.loop l) := by
  simp only [childOf, ho, ho', hl.1, hl.2.2]

theorem seen_field {α : Type} (g : Context → α) {f : Context → Context} (h : ∀ x, g (f x) = g x)
    (c d : ContextId) : g (w.seen c d f) = g (w.context d) := by
  unfold seen
  split
  · exact h _
  · rfl

theorem active_notified (x : Context) : x.notified.activeChildren = x.activeChildren :=
  Context.notified_congr _ fun _ _ _ => rfl

theorem active_kill (w : World) (c d : ContextId) (f : Fault) :
    ((w.kill c f).context d).activeChildren = (w.context d).activeChildren := by
  rw [context_kill]
  exact seen_field _ (fun x => active_notified (x.killed f).drained) c d

theorem active_escalate (w : World) (c d : ContextId) (f : Fault) :
    ((w.escalate c f).context d).activeChildren = (w.context d).activeChildren := by
  rw [context_escalate]
  refine seen_field _ (fun x => ?_) c d
  unfold escalatedContext
  split
  · exact (active_notified _).trans (active_notified _)
  · exact active_notified _

theorem active_cancelIfKilled (w : World) (c d : ContextId) (k : HandleId) :
    ((w.cancelIfKilled c k).context d).activeChildren = (w.context d).activeChildren := by
  rw [context_cancelIfKilled, seen]
  split
  · rfl
  · rfl

theorem Edits.active (e : Edits w w') (c : ContextId) :
    (w'.context c).activeChildren = (w.context c).activeChildren := by
  change (w'.context c).bare.activeChildren = (w.context c).bare.activeChildren
  rw [e.bare]

theorem parent_lt (hp : Placed w) {c p : ContextId} (h : (w.context c).parent? = some p) : p < c := by
  cases ha : (w.context c).ancestors with
  | nil => simp [Context.parent?, ha] at h
  | cons q rest =>
    obtain rfl : q = p := by simpa [Context.parent?, ha] using h
    exact (hp.lineage c q rest ha).1

theorem Counted.addContext (h : Counted w) (hp : Placed w) {x : Context}
    (hx : x.activeChildren = 0) : Counted (w.addContext x).2 := by
  -- a loop's context is there already, and so is the parent of that
  have hold : ∀ p, ∀ task ∈ w.tasks,
      (w.addContext x).2.childOf p task = true ↔ w.childOf p task = true := by
    intro p task hm
    cases task with
    | loop l =>
      obtain ⟨t, ht⟩ := Array.mem_iff_getElem?.1 hm
      simp only [childOf, context_push, if_neg (Nat.ne_of_lt (hp.loop ht))]
    | _ => rfl
  intro p
  have hsame : (w.addContext x).2.tasks.countP ((w.addContext x).2.childOf p) =
      w.tasks.countP (w.childOf p) := Array.countP_congr (hold p)
  rw [hsame, context_push]
  split
  · rename_i hps
    rw [hx]
    refine (Array.countP_eq_zero.2 fun task hm hc => ?_).symm
    cases task with
    | loop l =>
      obtain ⟨t, ht⟩ := Array.mem_iff_getElem?.1 hm
      simp only [childOf, Bool.and_eq_true, decide_eq_true_eq] at hc
      have hlt := Nat.lt_trans (parent_lt hp hc.2) (hp.loop ht)
      exact Nat.lt_irrefl _ (hps ▸ hlt)
    | _ => cases hc
  · exact h p

theorem Counted.start (h : Counted w) (hp : Placed w) {c : ContextId}
    (hc : c < w.contexts.size) : Counted (w.start c) := by
  unfold World.start
  dsimp only
  split
  · rename_i p hpar
    have hlt : p < w.contexts.size := Nat.lt_trans (parent_lt hp hpar) hc
    have hanc : ∀ d, ((w.childStarted p).context d).ancestors = (w.context d).ancestors :=
      context_modifyContext_congr Context.ancestors
        (f := fun x => { x with activeChildren := x.activeChildren + 1 }) (fun _ => rfl) w p
    intro q
    have hchild : ((w.childStarted p).addLoop c (w.context c).sliceBudget true).childOf q =
        w.childOf q := childOf_congr hanc q
    rw [hchild]
    change ((w.childStarted p).context q).activeChildren = _
    unfold childStarted addLoop World.spawnTask
    rw [context_modifyContext', seen, Array.countP_push]
    change _ = w.tasks.countP (w.childOf q) + _
    have hnew : w.childOf q (.loop
        { context := c, budget := max (w.context c).sliceBudget 1, counted := true }) =
        decide (p = q) := by
      simp [childOf, outcome?, hpar]
    rw [hnew]
    by_cases hq : q = p
    · rw [if_pos ⟨hq, hlt⟩, if_pos (by simp [hq])]
      exact congrArg (· + 1) (h q)
    · rw [if_neg fun hc => hq hc.1, if_neg (by simpa using Ne.symm hq)]
      exact h q
  · exact h.spawnTask fun p => by simp [childOf]

theorem Counted.posts (h : Counted w) (p : Posts w w') : Counted w' :=
  h.steady p.steady fun c => by rw [p.context]

theorem Counted.call (h : Counted w) (hp : Placed w) (k : Call raw w w') : Counted w' := by
  cases k with
  | edit e => exact h.steady e.edits.steady e.edits.active
  | kill c f => exact h.steady (signals_kill w c f).steady (active_kill w c · f)
  | clearKill c => exact h.modifyContext c _ fun _ => ⟨rfl, rfl⟩
  | root label session scope budget k =>
    have hlist := edits_list ((w.openSession session).2.addContext
      { label := (w.openSession session).2.freshLabel label, session := (w.openSession session).1,
        sliceBudget := budget, scopes := [{ id := scope }], pending := k.toList }).2
      (c := (w.openSession session).2.contexts.size) (by simp [World.addContext])
    have hplaced := (hp.openSession session).1
    have hopen : Counted (w.openSession session).2 := by
      obtain ⟨ss, hw⟩ := openSession_eq w session
      rw [hw]
      exact h
    exact (hopen.addContext hplaced rfl).steady hlist.steady hlist.active
  | child p label k => exact h.addContext hp rfl
  | start c hc => exact h.start hp hc
  | drive c budget => exact h.spawnTask fun p => by simp [childOf]
  | newHandle name => exact h.posts (posts_nameNewHandle w name)
  | dropHandle name => exact h.posts (posts_dropHandle w name)
  | register c i =>
    exact h.steady (signals_cancelIfKilled w c i).steady (active_cancelIfKilled w c · i)
  | cancel i =>
    exact h.steady (signals_cancelHandle w i).steady fun c => by rw [context_cancelHandle]
  | deliver c op v => exact h.posts ((posts_newLetter w op v).trans (posts_deliver _ _ _))
  | receiver c tag ops => exact h.spawnTask fun p => rfl
  | requeue c op v => exact h.posts ((posts_newLetter w op v).trans (posts_requeue _ _ _))
  | request c slot ops => exact h.posts (posts_requestInto w c slot ops)
  | dropWait slot i => exact h.posts ((posts_closeWait w i).trans (posts_forgetWait _ slot))
  | await slot i => exact (h.posts (posts_forgetWait w slot)).spawnTask fun p => rfl

theorem Counted.beginReceive {c : ContextId} {ops : List String} {i : WaitId} (h : Counted w)
    (hs : (w.context c).session < w.sessions.size) (hb : w.beginReceive c ops = .ok (i, w')) :
    Counted w' := by
  have hsteady := steady_beginReceive hb
  obtain ⟨-, -, rfl⟩ := beginReceive_ok hs hb
  refine h.steady hsteady fun d => ?_
  rw [active_cancelIfKilled, (posts_request w (w.context c).session ops).context]

theorem Counted.endLoop (h : Counted w) (hp : Placed w) {t : TaskId} {l : Loop}
    (hd : w.Drives t l) (o : Outcome) : Counted (w.endLoop t l o) := by
  have hlt := hp.loop hd.task
  have hdone : ∀ p, w.childOf p (.loop { l with point := .ended o }) = false := fun p => by
    simp [childOf, outcome?]
  have hchild : ∀ p, w.childOf p (.loop l) =
      (l.counted && decide ((w.context l.context).parent? = some p)) := fun p => by
    simp [childOf, hd.unfinished]
  unfold World.endLoop
  dsimp only
  split
  · rename_i p hcount hpar
    change (w.context l.context).parent? = some p at hpar
    have hplt : p < w.contexts.size := Nat.lt_trans (parent_lt hp hpar) hlt
    intro q
    rw [context_childFinished, (signals_childFinished _ p).tasks,
      childOf_congr (signals_childFinished _ p).ancestors]
    change _ = (w.setTask t _).tasks.countP (w.childOf q)
    rw [countP_setTask hd.task, hdone q, hchild q, hcount, hpar]
    unfold seen
    by_cases hq : q = p
    · rw [if_pos ⟨hq, hplt⟩, active_notified]
      subst hq
      change (w.context q).activeChildren - 1 = _
      rw [h q]
      simp
    · have hpq : ¬p = q := fun he => hq he.symm
      rw [if_neg fun hc => hq hc.1]
      change (w.context q).activeChildren = _
      rw [h q]
      simp [hpq]
  · rename_i hnot
    have hnone : ∀ p, w.childOf p (.loop l) = false := fun p => by
      rw [hchild]
      cases hcount : l.counted with
      | false => rfl
      | true =>
        refine decide_eq_false fun hpar => hnot p hcount ?_
        exact hpar
    exact h.setTask hd.task fun p => (hdone p).trans (hnone p).symm

theorem Counted.effect (h : Counted w) (hp : Placed w) (e : Effect w w') : Counted w' := by
  cases e with
  | work e => exact h.steady e.edits.steady e.edits.active
  | takeEscalated c => exact h.modifyContext c _ fun _ => ⟨rfl, rfl⟩
  | takePermit c => exact h.modifyContext c _ fun _ => ⟨rfl, rfl⟩
  | runState c s => exact h.modifyContext c _ fun _ => ⟨rfl, rfl⟩
  | kill c f => exact h.steady (signals_kill w c f).steady (active_kill w c · f)
  | escalate c f => exact h.steady (signals_escalate w c f).steady (active_escalate w c · f)
  | pick t => exact h
  | goto hd hl hb =>
    exact h.setTask hd.task (childOf_follows hl hd.unfinished (outcome_of_isBusy hb))
  | yield hd hl hb =>
    exact h.setTask hd.task (childOf_follows hl hd.unfinished (outcome_of_isBusy hb))
  | @park t l hd =>
    have hm := h.modifyContext l.context (fun x => { x with idle := x.idle ++ [t] })
      fun _ => ⟨rfl, rfl⟩
    have hs : Counted ((w.modifyContext l.context fun x =>
        { x with idle := x.idle ++ [t] }).setLoop t { l with point := .idle }) :=
      hm.setTask hd.task (childOf_follows ⟨rfl, rfl, rfl⟩ hd.unfinished rfl)
    exact hs
  | finish o hd => exact h.endLoop hp hd o
  | halt => exact h
  | receive rest' receipt ops hr hb =>
    have hv := h.beginReceive (hp.sessions _ (hp.loop hr.2.1)) hb
    have ht := (steady_beginReceive hb).tasks ▸ hr.2.1
    exact hv.setTask ht (childOf_follows ⟨rfl, rfl, rfl⟩ hr.drives.unfinished rfl)
  | @resume t l frame rest i receipt r rest' hc ht hpt =>
    have hv : Counted (w.setLoop t { l with point := .body frame rest' }) :=
      h.setTask ht (childOf_follows ⟨rfl, rfl, rfl⟩ (by simp [outcome?, hpt]) rfl)
    exact hv.posts (posts_endReceive _ l.context i r)
  | @sleep t task i =>
    unfold sleepOn
    split
    · exact h
    · exact h
  | @beginReceipt t c tag ops i v hc ht hb =>
    have hv := h.beginReceive (hp.sessions _ (hp.tasks t _ c ht rfl)) hb
    have ht' : v.tasks[t]? = some (.receiver c tag ops) := (steady_beginReceive hb).tasks ▸ ht
    exact hv.setTask ht' fun p => rfl
  | refuse hc ht => exact h.setTask ht fun p => rfl
  | @endReceipt t c tag i r hc ht =>
    have hr := posts_endReceive w c i r
    have hv := h.posts hr
    have ht' : (w.endReceive c i r).1.tasks[t]? = some (.receiving c tag i) := hr.tasks ▸ ht
    have hdone : Counted ((w.endReceive c i r).1.setTask t .done) := hv.setTask ht' fun p => rfl
    exact hdone
  | @endAwait t slot i r hc ht =>
    have hr := posts_closeWait w i
    have hv := h.posts hr
    have ht' : (w.closeWait i).2.tasks[t]? = some (.awaiting slot i) := hr.tasks ▸ ht
    generalize (w.closeWait i).2 = v at hv ht'
    have hdone : Counted (v.setTask t .done) := hv.setTask ht' fun p => rfl
    exact hdone

theorem Counted.empty : Counted {} := fun _ => rfl

theorem Counted.transition (h : Counted w) (hp : Placed w) (k : Transition raw w w') : Counted w' := by
  rcases k.effects fun _ _ => hp.loop with ⟨-, call⟩ | es
  · exact h.call hp call
  · clear k
    have hw : Placed w' ∧ Counted w' := by
      induction es with
      | refl => exact ⟨hp, h⟩
      | tail _ e ih => exact ⟨ih.1.effect e, ih.2.effect ih.1 e⟩
    exact hw.2

theorem Reachable.counted (h : Reachable raw admits w) : Counted w :=
  h.invariant .empty (fun hp hw _ _ k => hw.call hp k) fun hp hw e => hw.effect hp e

end World

end SagaEngine
