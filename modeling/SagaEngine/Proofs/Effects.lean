import SagaEngine.Proofs.Runs

/-! What the engine does by itself is a chain of effects, of which each is small enough to be looked at
alone. What the calls and the effects keep, every run keeps. -/

namespace SagaEngine

def Point.isBusy : Point → Bool
  | .fresh | .head | .paused | .body _ _ => true
  | .idle | .receiving _ _ _ _ | .ended _ => false

def Task.over : Task → Bool
  | .loop l => (World.outcome? l).isSome
  | .done => true
  | _ => false

def Event.isNote : Event → Bool
  | .started _ _ | .performed _ _ _ _ | .raised _ _ _ | .received _ _ | .awaited _ _ => true
  | .installed _ _ | .caught _ _ _ | .delivered _ _ | .returned _ _ _ => false

def Loop.Continues (l l' : Loop) : Prop :=
  l'.context = l.context ∧ l'.budget = l.budget ∧ l'.counted = l.counted

namespace World

variable {w w' w'' : World} {raw : Prop} {admits : World → Prop}

structure Steady (w w' : World) : Prop where
  tasks : w'.tasks = w.tasks
  current : w'.current = w.current
  sessions : w'.sessions.size = w.sessions.size
  size : w'.contexts.size = w.contexts.size
  session : ∀ c, (w'.context c).session = (w.context c).session
  ancestors : ∀ c, (w'.context c).ancestors = (w.context c).ancestors
  listed : ∀ c ∈ w'.names.listed, c ∈ w.names.listed ∨ c < w.contexts.size

theorem Steady.trans (h : Steady w w') (h' : Steady w' w'') : Steady w w'' where
  tasks := h'.tasks.trans h.tasks
  current := h'.current.trans h.current
  sessions := h'.sessions.trans h.sessions
  size := h'.size.trans h.size
  session c := (h'.session c).trans (h.session c)
  ancestors c := (h'.ancestors c).trans (h.ancestors c)
  listed c hc := (h'.listed c hc).elim (h.listed c) fun hc => .inr (h.size ▸ hc)

theorem Edits.steady (h : Edits w w') : Steady w w' where
  tasks := h.tasks
  current := h.current
  sessions := h.sessions
  size := h.size
  session c := by
    change (w'.context c).bare.session = (w.context c).bare.session
    rw [h.bare]
  ancestors c := by
    change (w'.context c).bare.ancestors = (w.context c).bare.ancestors
    rw [h.bare]
  listed := h.listed

theorem Signals.steady (h : Signals w w') : Steady w w' where
  tasks := h.tasks
  current := h.current
  sessions := by rw [h.sessions]
  size := h.size
  session := h.session
  ancestors := h.ancestors
  listed c hc := .inl (h.names ▸ hc)

theorem Posts.steady (h : Posts w w') : Steady w w' where
  tasks := h.tasks
  current := h.current
  sessions := h.sessions
  size := by rw [h.contexts]
  session c := by rw [h.context]
  ancestors c := by rw [h.context]
  listed c hc := .inl (h.listed ▸ hc)

def Awake (w : World) : Prop :=
  ∀ t task, w.current = some t → w.tasks[t]? = some task → task.wait? = none

/-- Task `t` is running, and it is the drive loop `l`, not in a wait. -/
structure Drives (w : World) (t : TaskId) (l : Loop) : Prop where
  current : w.current = some t
  task : w.tasks[t]? = some (.loop l)
  awake : (Task.loop l).wait? = none
  unfinished : outcome? l = none

theorem Drives.steady {t : TaskId} {l : Loop} (h : Drives w t l) (s : Steady w w') :
    Drives w' t l where
  current := s.current ▸ h.current
  task := s.tasks ▸ h.task
  awake := h.awake
  unfinished := h.unfinished

theorem Drives.isAwake {t : TaskId} {l : Loop} (h : Drives w t l) : Awake w := by
  intro u task hu ht
  obtain rfl : t = u := Option.some.inj (h.current.symm.trans hu)
  rw [h.task] at ht
  cases ht
  exact h.awake

theorem Runs.drives {t : TaskId} {l : Loop} {frame : Frame} {rest : List Step}
    (h : w.Runs t l frame rest) : Drives w t l where
  current := h.1
  task := h.2.1
  awake := by simp [Task.wait?, h.2.2]
  unfinished := by simp [outcome?, h.2.2]

theorem AtLiberty.isAwake (h : w.AtLiberty) : Awake w := by
  rcases h with h | ⟨t, l, frame, rest, h⟩
  · intro t task ht
    rw [h] at ht
    cases ht
  · exact h.drives.isAwake

inductive Work (w : World) : World → Prop where
  | note (e : Event) : e.isNote = true → Work w (w.record e)
  | list (c : ContextId) : c < w.contexts.size → Work w (w.list c)
  | popNext (c : ContextId) {k : Continuation} {rest : List Continuation} :
      (w.context c).pending = k :: rest →
      Work w (w.modifyContext c fun x => { x with pending := rest })
  | unpause (c : ContextId) : Work w (w.modifyContext c fun x => { x with pauseRequested := false })
  | abandon (c : ContextId) (fault : String) {x : Context} :
      (w.context c).unwind fault = (none, x) → Work w (w.modifyContext c fun _ => x)
  | caught (c : ContextId) (f : Fault) {h : Installed} {x : Context} :
      (w.context c).unwind f.name = (some h, x) →
      Work w (((w.modifyContext c fun _ => x).modifyContext c fun x =>
        x.discardPending.executeNext [h.continuation]).record (.caught c f h))

theorem Work.edits (e : Work w w') : Edits w w' := by
  have hu : ∀ (c : ContextId) (fault : String) {h : Option Installed} {x : Context},
      (w.context c).unwind fault = (h, x) → Edits w (w.modifyContext c fun _ => x) :=
    fun c _ _ _ hx => edits_replaceContext w c (bare_unwind hx)
  cases e with
  | note e he => exact edits_record w (by cases e <;> first | rfl | cases he)
  | list c hc => exact edits_list w hc
  | popNext c hp => exact edits_modifyContext w c _ fun _ => rfl
  | unpause c => exact edits_modifyContext w c _ fun _ => rfl
  | abandon c fault hx => exact hu c fault hx
  | @caught c f h x hx =>
    have hq := edits_modifyContext (w.modifyContext c fun _ => x) c
      (fun x => x.discardPending.executeNext [h.continuation]) fun _ => rfl
    exact (hu c f.name hx).trans (hq.trans (edits_record _ rfl))

/-- What the engine does, cut into changes that are looked at as a whole. -/
inductive Effect (w : World) : World → Prop where
  | work {w' : World} : Work w w' → Effect w w'
  | takeEscalated (c : ContextId) :
      Effect w (w.modifyContext c fun x => { x with escalated := none })
  | takePermit (c : ContextId) : Effect w (w.modifyContext c fun x => { x with permit := false })
  | runState (c : ContextId) (s : RunState) : Effect w (w.setRunState c s)
  | kill (c : ContextId) (f : Fault) : w.Awake → Effect w (w.kill c f)
  | escalate (c : ContextId) (f : Fault) : w.Awake → Effect w (w.escalate c f)
  -- the choice of a task, and its turn
  | pick (t : TaskId) :
      w.current = none → t ∈ w.ready →
      Effect w { w with current := some t, ready := w.ready.erase t }
  | goto {t : TaskId} {l l' : Loop} :
      w.Drives t l → l.Continues l' → l'.point.isBusy = true → Effect w (w.setLoop t l')
  | yield {t : TaskId} {l l' : Loop} :
      w.Drives t l → l.Continues l' → l'.point.isBusy = true →
      Effect w ((w.setLoop t l').yieldTask t)
  | park {t : TaskId} {l : Loop} :
      w.Drives t l → (w.context l.context).killer = none →
      (w.context l.context).escalated = none → (w.context l.context).activeChildren ≠ 0 →
      Effect w
        (((w.modifyContext l.context fun x => { x with idle := x.idle ++ [t] }).setLoop t
          { l with point := .idle }).suspend)
  | finish {t : TaskId} {l : Loop} (o : Outcome) : w.Drives t l → Effect w (w.endLoop t l o)
  | halt {t : TaskId} :
      w.current = some t → (∀ task, w.tasks[t]? = some task → task.over = true) →
      Effect w w.suspend
  -- waits
  | receive {t : TaskId} {l : Loop} {frame : Frame} {rest : List Step} {i : WaitId} {w' : World}
      (rest' : List Step) (receipt : Receipt) (ops : List String) :
      w.Runs t l frame rest → w.beginReceive l.context ops = .ok (i, w') →
      Effect w (w'.setLoop t { l with point := .receiving frame rest' i receipt })
  | resume {t : TaskId} {l : Loop} {frame : Frame} {rest : List Step} {i : WaitId}
      {receipt : Receipt} {r : Except (Option Letter) Letter} (rest' : List Step) :
      w.current = some t → w.tasks[t]? = some (.loop l) →
      l.point = .receiving frame rest i receipt → w.resolution? i = some r →
      Effect w ((w.setLoop t { l with point := .body frame rest' }).endReceive l.context i r).1
  | sleep {t : TaskId} {task : Task} {i : WaitId} :
      w.current = some t → w.tasks[t]? = some task → task.wait? = some i →
      w.resolution? i = none → Effect w (w.sleepOn t i)
  | beginReceipt {t : TaskId} {c : ContextId} {tag : String} {ops : List String} {i : WaitId}
      {w' : World} :
      w.current = some t → w.tasks[t]? = some (.receiver c tag ops) →
      w.beginReceive c ops = .ok (i, w') → Effect w (w'.setTask t (.receiving c tag i))
  | refuse {t : TaskId} {c : ContextId} {tag : String} {ops : List String} :
      w.current = some t → w.tasks[t]? = some (.receiver c tag ops) →
      Effect w ((w.setTask t .done).suspend)
  | endReceipt {t : TaskId} {c : ContextId} {tag : String} {i : WaitId}
      {r : Except (Option Letter) Letter} :
      w.current = some t → w.tasks[t]? = some (.receiving c tag i) → w.resolution? i = some r →
      Effect w ((((w.endReceive c i r).1.record (.received tag (w.endReceive c i r).2)).setTask t
        .done).suspend)
  | endAwait {t : TaskId} {slot : String} {i : WaitId} {r : Except (Option Letter) Letter} :
      w.current = some t → w.tasks[t]? = some (.awaiting slot i) → w.resolution? i = some r →
      Effect w ((((w.closeWait i).2.record (.awaited slot r)).setTask t .done).suspend)

/-! ## Chains of effects -/

abbrev Effects (w w' : World) : Prop := Relation.ReflTransGen Effect w w'

theorem Work.effects (e : Work w w') : Effects w w' := .single (.work e)

theorem effects_goto {t : TaskId} {l l' : Loop} (h : Drives w t l) (hl : l.Continues l')
    (hp : l'.point.isBusy = true) : Effects w (w.setLoop t l') := .single (.goto h hl hp)

theorem effects_finishRound {t : TaskId} {l : Loop} (h : Drives w t l) :
    Effects w (w.finishRound t l) := by
  unfold finishRound
  split
  · exact .single (.yield h ⟨rfl, rfl, rfl⟩ rfl)
  · exact .single (.goto h ⟨rfl, rfl, rfl⟩ rfl)

theorem effects_endKilled {t : TaskId} {l : Loop} (h : Drives w t l) (f : Fault) :
    Effects w (w.endKilled t l f) := by
  have hs := signals_setRunState w l.context .killed
  exact .head (.runState l.context .killed) (.single (.finish _ (h.steady hs.steady)))

def fallen (w : World) (c : ContextId) (f : Fault) (x : Context) : World :=
  ((w.modifyContext c fun _ => x).kill c f).setRunState c .failed

theorem raise_caught {c : ContextId} {f : Fault} {h : Installed} {x : Context}
    (hx : (w.context c).unwind f.name = (some h, x)) :
    w.raise c f = (((w.modifyContext c fun _ => x).modifyContext c fun x =>
      x.discardPending.executeNext [h.continuation]).record (.caught c f h), none) := by
  simp only [raise, hx]

theorem raise_uncaught {c : ContextId} {f : Fault} {x : Context}
    (hx : (w.context c).unwind f.name = (none, x)) :
    w.raise c f = (w.fallen c f x, some (.failed f)) ∨
      ∃ p, ((w.fallen c f x).context c).parent? = some p ∧
        w.raise c f = ((w.fallen c f x).escalate p f, some (.escalated f)) := by
  have hv : ((w.modifyContext c fun _ => x).kill c f).setRunState c .failed = w.fallen c f x := rfl
  simp only [raise, hx, hv]
  generalize w.fallen c f x = v
  split
  · rename_i p hp _
    exact .inr ⟨p, hp, rfl⟩
  · exact .inl rfl

theorem steady_fallen {c : ContextId} {f : Fault} {x : Context}
    (hx : (w.context c).unwind f.name = (none, x)) : Steady w (w.fallen c f x) := by
  have hu := (edits_replaceContext w c (bare_unwind hx)).steady
  have hk := (signals_kill (w.modifyContext c fun _ => x) c f).trans (signals_setRunState _ c .failed)
  exact hu.trans hk.steady

theorem steady_raise (w : World) (c : ContextId) (f : Fault) : Steady w (w.raise c f).1 := by
  rcases hx : (w.context c).unwind f.name with ⟨_ | k, x⟩
  · have hf := steady_fallen hx
    rcases raise_uncaught hx with hr | ⟨p, -, hr⟩
    · rw [hr]
      exact hf
    · rw [hr]
      generalize w.fallen c f x = u at hf
      exact hf.trans (signals_escalate u p f).steady
  · have hc : Work w (w.raise c f).1 := by
      rw [raise_caught hx]
      exact .caught c f hx
    exact hc.edits.steady

theorem effects_fallen {t : TaskId} {l : Loop} (h : Drives w t l) (f : Fault) {x : Context}
    (hx : (w.context l.context).unwind f.name = (none, x)) :
    Effects w (w.fallen l.context f x) ∧ Drives (w.fallen l.context f x) t l := by
  have ha : Work w (w.modifyContext l.context fun _ => x) := .abandon l.context f.name hx
  unfold fallen
  generalize w.modifyContext l.context (fun _ => x) = v at ha ⊢
  have hv : Drives v t l := h.steady ha.edits.steady
  have hk : Effect v (v.kill l.context f) := .kill l.context f hv.isAwake
  have hs : Effect (v.kill l.context f) ((v.kill l.context f).setRunState l.context .failed) :=
    .runState l.context .failed
  refine ⟨(ha.effects.tail hk).tail hs, ?_⟩
  exact hv.steady ((signals_kill v l.context f).trans (signals_setRunState _ _ _)).steady

theorem effects_raise {t : TaskId} {l : Loop} (h : Drives w t l) (f : Fault) :
    Effects w (w.raise l.context f).1 ∧ Drives (w.raise l.context f).1 t l := by
  rcases hx : (w.context l.context).unwind f.name with ⟨_ | k, x⟩
  · obtain ⟨he, hd⟩ := effects_fallen h f hx
    rcases raise_uncaught hx with hr | ⟨p, -, hr⟩
    · rw [hr]
      exact ⟨he, hd⟩
    · rw [hr]
      generalize w.fallen l.context f x = v at he hd
      have hp : Effect v (v.escalate p f) := .escalate p f hd.isAwake
      exact ⟨he.tail hp, hd.steady (signals_escalate v p f).steady⟩
  · have hc : Work w (w.raise l.context f).1 := by
      rw [raise_caught hx]
      exact .caught l.context f hx
    exact ⟨hc.effects, h.steady hc.edits.steady⟩

theorem effects_afterRaise {t : TaskId} {l : Loop} (h : Drives w t l) (f : Fault)
    {next : World → World} (hn : ∀ v, Drives v t l → Effects v (next v)) :
    Effects w (match w.raise l.context f with
      | (w, some o) => w.endLoop t l o
      | (w, none) => next w) := by
  obtain ⟨he, hd⟩ := effects_raise h f
  generalize w.raise l.context f = r at he hd
  obtain ⟨v, _ | o⟩ := r
  · exact he.trans (hn v hd)
  · exact he.tail (.finish o hd)

theorem effects_takeEscalated {t : TaskId} {l : Loop} (h : Drives w t l) :
    Effects w (w.modifyContext l.context fun x => { x with escalated := none }) ∧
      Drives (w.modifyContext l.context fun x => { x with escalated := none }) t l :=
  ⟨.single (.takeEscalated l.context), h.steady (signals_takeEscalated w l.context).steady⟩

theorem effects_failStep {t : TaskId} {l : Loop} (h : Drives w t l) (frame : Frame) (f : Fault) :
    Effects w (w.failStep t l frame f) := by
  have hr : Work w (w.record (.raised l.context frame f)) := .note _ rfl
  have hd := h.steady hr.edits.steady
  refine hr.effects.trans ?_
  unfold failStep failContinuation
  generalize w.record (.raised l.context frame f) = v at hd
  dsimp only
  split
  · exact effects_endKilled hd _
  · obtain ⟨he, hd⟩ := effects_takeEscalated hd
    exact he.trans (effects_afterRaise hd _ fun u hu => effects_finishRound hu)

theorem effects_passStep {t : TaskId} {l : Loop} (h : Drives w t l) (frame : Frame)
    (rest : List Step) (name : String) (reply : Json) :
    Effects w (w.passStep t l frame rest name reply) := by
  have hr : Work w (w.record (.performed l.context frame name reply)) := .note _ rfl
  exact hr.effects.trans (effects_goto (h.steady hr.edits.steady) ⟨rfl, rfl, rfl⟩ rfl)

theorem effects_startContinuation {t : TaskId} {l : Loop} (h : Drives w t l)
    (hc : l.context < w.contexts.size) (k : Continuation) :
    Effects w (w.startContinuation t l k) := by
  have hs : ∀ v : World, Drives v t l → Effects v ((v.record (.started l.context k)).setLoop t
      { l with point := .body ⟨k.name, k.traced⟩ k.steps }) := by
    intro v hv
    have hr : Work v (v.record (.started l.context k)) := .note _ rfl
    exact hr.effects.trans (effects_goto (hv.steady hr.edits.steady) ⟨rfl, rfl, rfl⟩ rfl)
  unfold startContinuation
  dsimp only
  split
  · have hl : Work w (w.list l.context) := .list l.context hc
    exact hl.effects.trans (hs _ (h.steady hl.edits.steady))
  · exact hs w h

/-- A turn is atomic: no fault is handed up between the two looks of a round. -/
theorem runDry_eq {t : TaskId} {l : Loop} (he : (w.context l.context).escalated = none) :
    w.runDry t l =
      if (w.context l.context).activeChildren = 0 then
        (w.setRunState l.context .completed).endLoop t l .completed
      else if (w.context l.context).permit then
        w.modifyContext l.context fun x => { x with permit := false }
      else
        ((w.modifyContext l.context fun x => { x with idle := x.idle ++ [t] }).setLoop t
          { l with point := .idle }).suspend := by
  unfold runDry
  dsimp only
  rw [he]
  by_cases hz : (w.context l.context).activeChildren = 0
  · rw [if_neg (Nat.not_lt.2 (Nat.le_of_eq hz)), if_pos hz]
    rfl
  · rw [if_pos (Nat.pos_of_ne_zero hz), if_neg hz]

theorem effects_round {t : TaskId} {l : Loop} (h : Drives w t l)
    (hc : l.context < w.contexts.size) : Effects w (w.round t l) := by
  have hg : ∀ v : World, Drives v t l → Effects v (v.setLoop t { l with point := .head }) :=
    fun v hv => effects_goto hv ⟨rfl, rfl, rfl⟩ rfl
  unfold round
  dsimp only
  split
  · exact effects_endKilled h _
  · obtain ⟨he, hd⟩ := effects_takeEscalated h
    exact he.trans (effects_afterRaise hd _ hg)
  · rename_i hk he
    split
    · have hu : Work w (w.modifyContext l.context fun x => { x with pauseRequested := false }) :=
        .unpause l.context
      have hs := signals_setRunState (w.modifyContext l.context fun x =>
        { x with pauseRequested := false }) l.context .paused
      have hd := (h.steady hu.edits.steady).steady hs.steady
      have hw : w.modifyContext l.context (fun x =>
            { x with pauseRequested := false, runState := .paused }) =
          (w.modifyContext l.context fun x => { x with pauseRequested := false }).setRunState
            l.context .paused := by
        rw [setRunState, modifyContext_modifyContext]
      rw [hw]
      exact (hu.effects.tail (.runState l.context .paused)).tail (.yield hd ⟨rfl, rfl, rfl⟩ rfl)
    · split
      · rename_i k rest hp
        have hu : Work w (w.modifyContext l.context fun x => { x with pending := rest }) :=
          .popNext l.context hp
        exact hu.effects.trans (effects_startContinuation (h.steady hu.edits.steady)
          (by simpa using hc) k)
      · rw [runDry_eq he]
        split
        · have hs := signals_setRunState w l.context .completed
          exact .head (.runState l.context .completed) (.single (.finish _ (h.steady hs.steady)))
        · rename_i hn
          split
          · exact .single (.takePermit l.context)
          · exact .single (.park h hk he hn)

theorem effects_loopStep {t : TaskId} {l : Loop} (hc : w.current = some t)
    (ht : w.tasks[t]? = some (.loop l)) (hl : l.context < w.contexts.size)
    (hp : l.point.inEngine = true) : Effects w (w.loopStep t l) := by
  have hd : (Task.loop l).wait? = none → outcome? l = none → Drives w t l :=
    fun ha hu => { current := hc, task := ht, awake := ha, unfinished := hu }
  unfold loopStep Task.wait? outcome? at *
  cases h : l.point with
  | fresh =>
    have hs := signals_setRunState w l.context .running
    have hd := (hd (by simp [h]) (by simp [h])).steady hs.steady
    exact .head (.runState l.context .running) (effects_goto hd ⟨rfl, rfl, rfl⟩ rfl)
  | head => exact effects_round (hd (by simp [h]) (by simp [h])) hl
  | paused =>
    have hs := signals_setRunState w l.context .running
    have hd := (hd (by simp [h]) (by simp [h])).steady hs.steady
    exact .head (.runState l.context .running) (effects_goto hd ⟨rfl, rfl, rfl⟩ rfl)
  | idle => exact effects_goto (hd (by simp [h]) (by simp [h])) ⟨rfl, rfl, rfl⟩ rfl
  | body frame rest => simp [h, Point.inEngine] at hp
  | receiving frame rest i receipt => simp [h, Point.inEngine] at hp
  | ended o =>
    refine .single (.halt hc fun task hx => ?_)
    rw [ht] at hx
    cases hx
    simp [Task.over, outcome?, h]

theorem Transition.effects (k : Transition raw w w')
    (hl : ∀ (t : TaskId) (l : Loop), w.tasks[t]? = some (.loop l) →
      l.context < w.contexts.size) :
    w.Awake ∧ Call raw w w' ∨ Effects w w' := by
  cases k with
  | call ha k => exact .inl ⟨ha.isAwake, k⟩
  | pick t hc ht => exact .inr (.single (.pick t hc ht))
  | pass rest' name reply hr => exact .inr (effects_passStep hr.drives _ rest' name reply)
  | finish hr => exact .inr (effects_finishRound hr.drives)
  | fail f hr => exact .inr (effects_failStep hr.drives _ f)
  | pauseBody rest' hr => exact .inr (.single (.yield hr.drives ⟨rfl, rfl, rfl⟩ rfl))
  | receive rest' receipt ops hr hb => exact .inr (.single (.receive rest' receipt ops hr hb))
  | resume rest' hc ht hp hr => exact .inr (.single (.resume rest' hc ht hp hr))
  | drive hc ht hp => exact .inr (effects_loopStep hc ht (hl _ _ ht) hp)
  | sleep hc ht hi hr => exact .inr (.single (.sleep hc ht hi hr))
  | @beginReceipt t c tag ops hc ht =>
    refine .inr ?_
    unfold receiverStep
    split
    · rename_i f _
      have hr : Work w (w.record (.received tag (.error f))) := .note _ rfl
      exact hr.effects.tail (.refuse hc ht)
    · rename_i i v hb
      exact .single (.beginReceipt hc ht hb)
  | endReceipt hc ht hr => exact .inr (.single (.endReceipt hc ht hr))
  | endAwait hc ht hr => exact .inr (.single (.endAwait hc ht hr))
  | halt hc ht =>
    refine .inr (.single (.halt hc fun task h => ?_))
    rw [ht task h]
    rfl

end World

end SagaEngine
