import SagaEngine.Proofs.Failures
import SagaEngine.Proofs.Isolation
import SagaEngine.Proofs.Slices

/-! The budget of a drive loop. Between two yields the loop starts no more continuations than its
budget allows. In one turn the engine takes no more than a few steps for each of them, whatever else
there is for it to do in between: what is left for it to do can be measured, and each of its steps does
some of it. -/

namespace SagaEngine

def Loop.started (l : Loop) : Nat :=
  match l.point with
  | .fresh | .head | .idle => l.slice
  | .paused => 0
  | .body _ _ | .receiving _ _ _ _ => l.slice + 1
  | .ended _ => l.budget

namespace World

variable {w w' v v' : World} {raw : Prop} {admits : World → Prop} {t u : TaskId} {l m : Loop}
  {c : ContextId} {f : Fault} {n b : Nat}

/-! ## What one transition makes of a loop -/

structure GivesWay (w w' : World) (t : TaskId) : Prop where
  before : w.current = some t
  after : w'.current = none
  ready : w'.ready = w.ready ++ [t]

inductive Advances (w w' : World) (t : TaskId) (l : Loop) : Loop → Prop where
  | stays : Advances w w' t l l
  | enters : l.point = .fresh ∨ l.point = .idle → Advances w w' t l { l with point := .head }
  | resumes : l.point = .paused → Advances w w' t l { l with slice := 0, point := .head }
  | pauses : l.point = .head → w.GivesWay w' t → Advances w w' t l { l with point := .paused }
  | parks : l.point = .head → Advances w w' t l { l with point := .idle }
  | starts (frame : Frame) (rest : List Step) :
      l.point = .head → (w.context l.context).pauseRequested = false →
      Advances w w' t l { l with point := .body frame rest }
  | inside {p : Point} :
      l.point.inEngine = false → p.inEngine = false → Advances w w' t l { l with point := p }
  | counts :
      l.point.inEngine = false → l.slice + 1 < l.budget →
      Advances w w' t l { l with slice := l.slice + 1, point := .head }
  | yields :
      l.point.inEngine = false → w.GivesWay w' t →
      Advances w w' t l { l with slice := 0, point := .head }
  | ends (o : Outcome) : w'.current = none → Advances w w' t l { l with point := .ended o }

def Advanced (w w' : World) (t : TaskId) (l : Loop) : Prop :=
  ∃ m, w'.tasks = (w.setLoop t m).tasks ∧ w.Advances w' t l m

theorem setLoop_tasks (h : v.tasks = w.tasks) (t : TaskId) (l : Loop) :
    (v.setLoop t l).tasks = (w.setLoop t l).tasks := by
  unfold setLoop setTask
  rw [h]

theorem startContinuation_tasks (w : World) (t : TaskId) (l : Loop) (k : Continuation) :
    (w.startContinuation t l k).tasks =
      (w.setLoop t { l with point := .body ⟨k.name, k.traced⟩ k.steps }).tasks := by
  unfold startContinuation
  dsimp only
  split
  · exact setLoop_tasks (list_kept _ _).2.1 t _
  · rfl

theorem loop_at (h : l.point = .head) : { l with point := .head } = l := by
  rw [← h]

theorem Advanced.of_task (h : w.Advanced w' u m) (hu : w.tasks[u]? = some (.loop m))
    (ht : w.tasks[t]? = some (.loop l)) :
    ∃ l', w'.tasks[t]? = some (.loop l') ∧ w.Advances w' t l l' := by
  obtain ⟨m', htasks, ha⟩ := h
  rw [htasks, setLoop, getElem?_setTask]
  split
  · rename_i h
    obtain ⟨rfl, -⟩ := h
    rw [hu] at ht
    cases ht
    exact ⟨m', rfl, ha⟩
  · exact ⟨l, ht, .stays⟩

theorem advanced_finishRound (hc : w.current = some t) (hl : l.point.inEngine = false)
    (hv : v.tasks = w.tasks) (hr : v.ready = w.ready) : w.Advanced (v.finishRound t l) t l := by
  unfold finishRound
  split
  · exact ⟨_, setLoop_tasks hv t _, .yields hl ⟨hc, rfl, congrArg (· ++ [t]) hr⟩⟩
  · exact ⟨_, setLoop_tasks hv t _, .counts hl (by omega)⟩

theorem advanced_endLoop (hv : v.tasks = w.tasks) (o : Outcome) : w.Advanced (v.endLoop t l o) t l :=
  ⟨_, (endLoop_tasks v t l o).trans (setLoop_tasks hv t _), .ends o (endLoop_kept v t l o).1⟩

theorem ready_caught (h : (w.raise c f).2 = none) : (w.raise c f).1.ready = w.ready := by
  rcases hx : (w.context c).unwind f.name with ⟨_ | k, x⟩
  · rcases raise_uncaught hx with hr | ⟨p, -, hr⟩
    · rw [hr] at h
      cases h
    · rw [hr] at h
      cases h
  · rw [raise_caught hx]
    rfl

theorem advanced_raiseIn (hv : v.tasks = w.tasks) (f : Fault) {next : World → World}
    (hn : ∀ u : World, u.tasks = v.tasks → u.ready = v.ready → w.Advanced (next u) t l) :
    w.Advanced (v.raiseIn t l f next) t l := by
  have hs := (steady_raise v l.context f).tasks
  have hr := @ready_caught v l.context f
  unfold raiseIn
  generalize v.raise l.context f = r at hs hr
  obtain ⟨u, _ | o⟩ := r
  · exact hn u hs (hr rfl)
  · exact advanced_endLoop (hs.trans hv) o

theorem advanced_failContinuation (hc : w.current = some t) (hl : l.point.inEngine = false)
    (hv : v.tasks = w.tasks) (hr : v.ready = w.ready) (f : Fault) :
    w.Advanced (v.failContinuation t l f) t l := by
  cases hk : (v.context l.context).killer with
  | some g =>
    unfold failContinuation
    dsimp only
    rw [hk]
    exact advanced_endLoop (v := v.setRunState l.context .killed) hv _
  | none =>
    rw [failContinuation_eq hk]
    exact advanced_raiseIn (v := v.taken l.context) hv _ fun u hu hur =>
      advanced_finishRound hc hl (hu.trans hv) (hur.trans hr)

theorem advanced_round (hc : w.current = some t) (ht : w.tasks[t]? = some (.loop l))
    (hl : l.point = .head) : w.Advanced (w.round t l) t l := by
  unfold round
  dsimp only
  split
  · exact advanced_endLoop (w := w) (v := w.setRunState l.context .killed) rfl _
  · rename_i f _ _
    have hraise : w.Advanced ((w.taken l.context).raiseIn t l f fun u =>
        u.setLoop t { l with point := .head }) t l := by
      refine advanced_raiseIn (w := w) (v := w.taken l.context) rfl f fun u hu _ =>
        ⟨_, setLoop_tasks hu t _, ?_⟩
      rw [loop_at hl]
      exact .stays
    exact hraise
  · rename_i he
    split
    · exact ⟨_, rfl, .pauses hl ⟨hc, rfl, rfl⟩⟩
    · rename_i hpause
      split
      · exact ⟨_, startContinuation_tasks _ t l _, .starts _ _ hl (by simpa using hpause)⟩
      · rw [runDry_eq he]
        split
        · exact advanced_endLoop (w := w) (v := w.setRunState l.context .completed) rfl _
        · split
          · exact ⟨l, (congrArg tasks (setLoop_self ht)).symm, .stays⟩
          · exact ⟨_, rfl, .parks hl⟩

theorem advanced_loopStep (hc : w.current = some t) (ht : w.tasks[t]? = some (.loop l))
    (hl : l.point.inEngine = true) : w.Advanced (w.loopStep t l) t l := by
  unfold loopStep
  cases hp : l.point with
  | fresh => exact ⟨_, rfl, .enters (.inl hp)⟩
  | head => exact advanced_round hc ht hp
  | paused => exact ⟨_, rfl, .resumes hp⟩
  | idle => exact ⟨_, rfl, .enters (.inr hp)⟩
  | ended o => exact ⟨l, (congrArg tasks (setLoop_self ht)).symm, .stays⟩
  | body frame rest => simp [hp, Point.inEngine] at hl
  | receiving frame rest i receipt => simp [hp, Point.inEngine] at hl

theorem Transition.advances (k : Transition raw w w') (ht : w.tasks[t]? = some (.loop l)) :
    ∃ l', w'.tasks[t]? = some (.loop l') ∧ w.Advances w' t l l' := by
  -- a task that is no loop is not this one
  have hother : ∀ {u task old}, w.tasks[u]? = some old → (∀ m, old ≠ .loop m) →
      w'.tasks = (w.setTask u task).tasks →
      ∃ l', w'.tasks[t]? = some (.loop l') ∧ w.Advances w' t l l' := by
    intro u task old hu hold hw
    rw [hw, getElem?_setTask]
    split
    · rename_i h
      obtain ⟨rfl, -⟩ := h
      rw [hu] at ht
      exact absurd (Option.some.inj ht) (hold l)
    · exact ⟨l, ht, .stays⟩
  have hsame : w'.tasks = w.tasks → ∃ l', w'.tasks[t]? = some (.loop l') ∧ w.Advances w' t l l' :=
    fun h => ⟨l, h ▸ ht, .stays⟩
  cases k with
  | call _ k => exact ⟨l, k.grows.task t _ ht, .stays⟩
  | pick u hc hu => exact ⟨l, ht, .stays⟩
  | @pass u m frame rest rest' name reply hr =>
    have ha : w.Advanced (w.passStep u m frame rest' name reply) u m :=
      ⟨_, rfl, .inside (by rw [hr.2.2]; rfl) rfl⟩
    exact ha.of_task hr.2.1 ht
  | @finish u m frame rest hr =>
    have ha := advanced_finishRound (v := w) hr.1 (by rw [hr.2.2]; rfl) rfl rfl
    exact ha.of_task hr.2.1 ht
  | @fail u m frame rest f hr =>
    have ha := advanced_failContinuation (v := w.record (.raised m.context frame f)) hr.1
      (by rw [hr.2.2]; rfl) rfl rfl f
    exact ha.of_task hr.2.1 ht
  | @pauseBody u m frame rest rest' hr =>
    have ha : w.Advanced ((w.setLoop u { m with point := .body frame rest' }).yieldTask u) u m :=
      ⟨_, rfl, .inside (by rw [hr.2.2]; rfl) rfl⟩
    exact ha.of_task hr.2.1 ht
  | @receive u m frame rest i x rest' receipt ops hr hb =>
    have ha : w.Advanced (x.setLoop u { m with point := .receiving frame rest' i receipt }) u m :=
      ⟨_, setLoop_tasks (steady_beginReceive hb).tasks u _, .inside (by rw [hr.2.2]; rfl) rfl⟩
    exact ha.of_task hr.2.1 ht
  | @resume u m frame rest i receipt r rest' hc hu hp hr =>
    have ha : w.Advanced ((w.setLoop u { m with point := .body frame rest' }).endReceive
        m.context i r).1 u m :=
      ⟨_, (posts_endReceive _ m.context i r).tasks, .inside (by rw [hp]; rfl) rfl⟩
    exact ha.of_task hu ht
  | drive hc hu hp => exact (advanced_loopStep hc hu hp).of_task hu ht
  | sleep => exact hsame (sleepOn_tasks w _ _)
  | @beginReceipt u c tag ops hc hu =>
    have htasks : ∃ task, (w.receiverStep u c tag ops).tasks = (w.setTask u task).tasks := by
      unfold receiverStep
      split
      · exact ⟨.done, rfl⟩
      · rename_i i x hb
        refine ⟨.receiving c tag i, ?_⟩
        unfold setTask
        rw [(steady_beginReceive hb).tasks]
    exact hother hu (fun _ h => by cases h) htasks.choose_spec
  | @endReceipt u c tag i r hc hu =>
    have htasks : (((w.endReceive c i r).1.record (.received tag (w.endReceive c i r).2)).setTask u
        .done).suspend.tasks = (w.setTask u .done).tasks := by
      unfold suspend setTask record
      dsimp only
      rw [(posts_endReceive w c i r).tasks]
    exact hother hu (fun _ h => by cases h) htasks
  | @endAwait u slot i r hc hu =>
    have htasks : ((((w.closeWait i).2.record (.awaited slot r)).setTask u .done).suspend).tasks =
        (w.setTask u .done).tasks := by
      unfold suspend setTask record
      dsimp only
      rw [(posts_closeWait w i).tasks]
    exact hother hu (fun _ h => by cases h) htasks
  | halt => exact hsame rfl

theorem Transition.advances_to (k : Transition raw w w') (ht : w.tasks[t]? = some (.loop l))
    (ht' : w'.tasks[t]? = some (.loop m)) : w.Advances w' t l m := by
  obtain ⟨m', hm', ha⟩ := k.advances ht
  obtain rfl := Task.loop.inj (Option.some.inj (ht'.symm.trans hm'))
  exact ha

/-! ## Between yields -/

def Inside (w : World) (t : TaskId) : Prop :=
  ∃ l, w.tasks[t]? = some (.loop l) ∧ l.point.inEngine = false

def Starts (w w' : World) (t : TaskId) : Prop := ¬w.Inside t ∧ w'.Inside t

def Yields (w w' : World) (t : TaskId) : Prop := w.GivesWay w' t ∧ ¬w'.Inside t

/-- Transitions without a yield of the loop of task `t`, in which it starts `n` continuations. -/
inductive Unyielding (raw : Prop) (t : TaskId) (w : World) : Nat → World → Prop where
  | refl : Unyielding raw t w 0 w
  | start {n : Nat} {v v' : World} :
      Unyielding raw t w n v → Transition raw v v' → v.Starts v' t → Unyielding raw t w (n + 1) v'
  | other {n : Nat} {v v' : World} :
      Unyielding raw t w n v → Transition raw v v' → ¬v.Starts v' t → ¬v.Yields v' t →
      Unyielding raw t w n v'

theorem inside_iff (ht : w.tasks[t]? = some (.loop l)) : w.Inside t ↔ l.point.inEngine = false := by
  constructor
  · rintro ⟨m, hm, hp⟩
    rw [ht] at hm
    cases hm
    exact hp
  · exact fun hp => ⟨l, ht, hp⟩

theorem Advances.slice (h : w.Advances w' t l m) (hl : l.slice < l.budget) :
    m.context = l.context ∧ m.budget = l.budget ∧ m.slice < m.budget := by
  cases h with
  | counts _ hlt => exact ⟨rfl, rfl, hlt⟩
  | resumes | yields => exact ⟨rfl, rfl, Nat.zero_lt_of_lt hl⟩
  | _ => exact ⟨rfl, rfl, hl⟩

theorem started_le (hl : l.slice < l.budget) : l.started ≤ l.budget := by
  unfold Loop.started
  split <;> omega

theorem started_inside (h : l.point.inEngine = false) : l.started = l.slice + 1 := by
  unfold Loop.started
  cases hp : l.point <;> simp_all [Point.inEngine]

theorem Advances.started (h : w.Advances w' t l m) (ht : w.tasks[t]? = some (.loop l))
    (ht' : w'.tasks[t]? = some (.loop m)) (hl : l.slice < l.budget) (hy : ¬w.Yields w' t) :
    l.started ≤ m.started ∧ (w.Starts w' t → l.started + 1 ≤ m.started) := by
  have hin : w'.Inside t ↔ m.point.inEngine = false := inside_iff ht'
  have hyield : m.point.inEngine = true → ¬w.GivesWay w' t := fun hm hw =>
    hy ⟨hw, fun h => by rw [hin.1 h] at hm; cases hm⟩
  -- a loop that is outside afterwards has not started anything
  have hout : m.point.inEngine = true → l.started ≤ m.started →
      l.started ≤ m.started ∧ (w.Starts w' t → l.started + 1 ≤ m.started) := fun hm hle =>
    ⟨hle, fun hs => by rw [hin.1 hs.2] at hm; cases hm⟩
  cases h with
  | stays => exact ⟨Nat.le_refl _, fun hs => absurd ((inside_iff ht).2 (hin.1 hs.2)) hs.1⟩
  | enters hp =>
    refine hout rfl ?_
    rcases hp with hp | hp <;> simp [Loop.started, hp]
  | resumes hp => exact hout rfl (by simp [Loop.started, hp])
  | pauses hp hw => exact absurd hw (hyield rfl)
  | parks hp => exact hout rfl (by simp [Loop.started, hp])
  | starts frame rest hp => simp [Loop.started, hp]
  | @inside p hp hp' =>
    rw [started_inside hp, started_inside (l := { l with point := p }) hp']
    exact ⟨Nat.le_refl _, fun hs => absurd ((inside_iff ht).2 hp) hs.1⟩
  | counts hp hlt => exact hout rfl (Nat.le_of_eq (started_inside hp))
  | yields hp hw => exact absurd hw (hyield rfl)
  | ends o => exact hout rfl (started_le hl)

def Budgeted (w : World) (t : TaskId) (c : ContextId) (b : Nat) : Prop :=
  ∃ l, w.tasks[t]? = some (.loop l) ∧ l.context = c ∧ l.budget = max b 1 ∧ l.slice < l.budget

theorem Budgeted.transition (h : w.Budgeted t c b) (k : Transition raw w w') :
    w'.Budgeted t c b := by
  obtain ⟨l, ht, hc, hb, hl⟩ := h
  obtain ⟨m, ht', ha⟩ := k.advances ht
  obtain ⟨hc', hb', hm⟩ := ha.slice hl
  exact ⟨m, ht', hc'.trans hc, hb'.trans hb, hm⟩

theorem Budgeted.transitions (h : w.Budgeted t c b) (hr : Transitions raw w v) :
    v.Budgeted t c b := by
  induction hr with
  | refl => exact h
  | tail _ k ih => exact ih.transition k

theorem Unyielding.budgeted (h : w.Unyielding raw t n v) (hb : w.Budgeted t c b) :
    v.Budgeted t c b := by
  induction h with
  | refl => exact hb
  | start _ k _ ih => exact ih.transition k
  | other _ k _ _ ih => exact ih.transition k

theorem Unyielding.bounded (h : Unyielding raw t w n v) (hb : w.Budgeted t c b) : n ≤ max b 1 := by
  have hcount : ∀ l, v.tasks[t]? = some (.loop l) → n ≤ l.started := by
    induction h with
    | refl => exact fun l _ => Nat.zero_le _
    | @start n v v' hu k hs ih =>
      intro m ht'
      obtain ⟨l, ht, -, -, hl⟩ := Unyielding.budgeted hu hb
      have hy : ¬v.Yields v' t := fun hy => hy.2 hs.2
      have hstarted := (k.advances_to ht ht').started ht ht' hl hy
      exact Nat.le_trans (Nat.succ_le_succ (ih l ht)) (hstarted.2 hs)
    | @other n v v' hu k hs hy ih =>
      intro m ht'
      obtain ⟨l, ht, -, -, hl⟩ := Unyielding.budgeted hu hb
      have hstarted := (k.advances_to ht ht').started ht ht' hl hy
      exact Nat.le_trans (ih l ht) hstarted.1
  obtain ⟨l, ht, -, hbudget, hl⟩ := h.budgeted hb
  exact hbudget ▸ Nat.le_trans (hcount l ht) (started_le hl)

theorem Transition.unpaused (k : Transition raw w w') (hb : w.Budgeted t c b)
    (hs : w.Starts w' t) : (w.context c).pauseRequested = false := by
  obtain ⟨l, ht, rfl, -, -⟩ := hb
  obtain ⟨m, ht', ha⟩ := k.advances ht
  have hm := (inside_iff ht').1 hs.2
  have hl := (inside_iff ht).not.1 hs.1
  cases ha with
  | starts _ _ _ hpause => exact hpause
  | stays => exact absurd hm hl
  | inside hp => exact absurd hp hl
  | _ => cases hm

/-! ## Within a turn -/

/-- A bound on what is left for the engine to do in this turn. -/
def effort (w : World) (l : Loop) : Nat :=
  match l.point with
  | .fresh | .idle => 3 * (l.budget - l.slice) + 1
  | .paused => 3 * l.budget + 1
  | .head => 3 * (l.budget - l.slice - 1) + 1 +
      (w.context l.context).escalated.isSome.toNat + (w.context l.context).permit.toNat
  | .body _ _ | .receiving _ _ _ _ => 3 * (l.budget - l.slice - 1)
  | .ended _ => 1

theorem effort_head (w : World) (h : l.point = .head) :
    w.effort l ≤ 3 * (l.budget - l.slice - 1) + 3 := by
  have he := Bool.toNat_le (w.context l.context).escalated.isSome
  have hp := Bool.toNat_le (w.context l.context).permit
  unfold effort
  rw [h]
  dsimp only
  omega

theorem effort_inside (w : World) (h : l.point.inEngine = false) :
    w.effort l = 3 * (l.budget - l.slice - 1) := by
  unfold effort
  cases hp : l.point <;> simp_all [Point.inEngine]

theorem effort_le (w : World) (hl : l.slice < l.budget) : w.effort l ≤ 3 * l.budget + 1 := by
  cases hp : l.point with
  | head =>
    have hhead := w.effort_head hp
    omega
  | _ =>
    unfold effort
    simp only [hp]
    omega

theorem Advances.effort (h : w.Advances w' t l m) (hl : l.point.inEngine = false)
    (hc : w'.current = some t) : w'.effort m ≤ w.effort l := by
  rw [effort_inside w hl]
  cases h with
  | stays => exact Nat.le_of_eq (effort_inside w' hl)
  | @inside p _ hp => exact Nat.le_of_eq (effort_inside w' (l := { l with point := p }) hp)
  | counts _ hlt =>
    have hhead := w'.effort_head (l := { l with slice := l.slice + 1, point := .head }) rfl
    dsimp only at hhead
    omega
  | yields _ hw =>
    rw [hw.after] at hc
    cases hc
  | ends o hn =>
    rw [hn] at hc
    cases hc
  | enters hp => rcases hp with hp | hp <;> simp [hp, Point.inEngine] at hl
  | resumes hp | pauses hp | parks hp | starts _ _ hp => simp [hp, Point.inEngine] at hl

theorem raiseIn_goes {next : World → World} (hc : (w.raiseIn t l f next).current = some t) :
    ∃ k x, (w.context l.context).unwind f.name = (some k, x) ∧
      w.raiseIn t l f next = next (w.handled l.context f k x) := by
  rcases hx : (w.context l.context).unwind f.name with ⟨_ | k, x⟩
  · unfold raiseIn at hc
    rcases raise_uncaught hx with hr | ⟨p, -, hr⟩
    · rw [hr, (endLoop_kept _ t l _).1] at hc
      cases hc
    · rw [hr, (endLoop_kept _ t l _).1] at hc
      cases hc
  · exact ⟨k, x, rfl, raiseIn_caught hx next⟩

theorem round_goes (hc : (w.round t l).current = some t) :
    (∃ f k x, (w.context l.context).escalated = some f ∧
      ((w.taken l.context).context l.context).unwind f.name = (some k, x) ∧
      w.round t l = ((w.taken l.context).handled l.context f k x).setLoop t
        { l with point := .head }) ∨
    ((w.context l.context).escalated = none ∧ (w.context l.context).permit = true ∧
      w.round t l = w.modifyContext l.context fun x => { x with permit := false }) ∨
    ∃ frame rest, (w.round t l).tasks = (w.setLoop t { l with point := .body frame rest }).tasks := by
  have hend : ∀ {v : World} {o : Outcome}, (v.endLoop t l o).current ≠ some t := fun {v o} h => by
    rw [(endLoop_kept v t l o).1] at h
    cases h
  revert hc
  unfold round
  dsimp only
  split
  · exact fun hc => absurd hc hend
  · rename_i f hk he
    intro hc
    have hraise : ((w.taken l.context).raiseIn t l f fun u =>
        u.setLoop t { l with point := .head }).current = some t := hc
    obtain ⟨k, x, hx, hr⟩ := raiseIn_goes hraise
    exact .inl ⟨f, k, x, he, hx, hr⟩
  · rename_i hk he
    split
    · exact fun hc => by cases hc
    · split
      · exact fun _ => .inr (.inr ⟨_, _, startContinuation_tasks _ t l _⟩)
      · rw [runDry_eq he]
        split
        · exact fun hc => absurd hc hend
        · split
          · rename_i hpermit
            exact fun _ => .inr (.inl ⟨he, hpermit, rfl⟩)
          · exact fun hc => by cases hc

theorem loop_of_tasks (h : w'.tasks = (w.setLoop t l).tasks) (ht : t < w.tasks.size)
    (hm : w'.tasks[t]? = some (.loop m)) : m = l := by
  rw [h, getElem?_setLoop ht] at hm
  exact (Task.loop.inj (Option.some.inj hm)).symm

theorem permit_unwind (hc : c < w.contexts.size) {fault : String} {h : Option Installed}
    {x : Context} (hx : ((w.taken c).context c).unwind fault = (h, x)) :
    x.permit = (w.context c).permit := by
  change x.bare.permit = (w.context c).bare.permit
  rw [bare_unwind hx, context_taken hc]
  rfl

theorem effort_round (hp : Placed w) (ht : w.tasks[t]? = some (.loop l)) (hl : l.point = .head)
    (hc : (w.round t l).current = some t) (hm : (w.round t l).tasks[t]? = some (.loop m)) :
    (w.round t l).effort m < w.effort l := by
  have hlt : t < w.tasks.size := (Array.getElem?_eq_some_iff.1 ht).1
  have hctx := hp.loop ht
  have heffort : ∀ v : World, v.effort l = 3 * (l.budget - l.slice - 1) + 1 +
      (v.context l.context).escalated.isSome.toNat + (v.context l.context).permit.toNat := by
    intro v
    unfold effort
    rw [hl]
  rcases round_goes hc with ⟨f, k, x, he, hx, hr⟩ | ⟨he, hpermit, hr⟩ | ⟨frame, rest, hr⟩
  · have hloop : m = { l with point := .head } :=
      loop_of_tasks (hr ▸ setLoop_tasks rfl t _) hlt hm
    have htaken : l.context < (w.taken l.context).contexts.size := size_taken w l.context ▸ hctx
    have hself : (w.round t l).context l.context = x.discardPending.executeNext [k.continuation] := by
      rw [hr, ← context_handled htaken f k x]
      rfl
    have hescalated : ((w.round t l).context l.context).escalated = none := by
      have hx' := escalated_unwind hctx hx
      rw [hself]
      exact hx'
    have hpermit : ((w.round t l).context l.context).permit = (w.context l.context).permit := by
      have hx' := permit_unwind hctx hx
      rw [hself]
      exact hx'
    rw [hloop, loop_at hl, heffort, heffort, hescalated, hpermit, he]
    simp
  · have hloop : m = l := by
      rw [hr] at hm
      exact (Task.loop.inj (Option.some.inj (ht.symm.trans hm))).symm
    have hself : (w.round t l).context l.context = { w.context l.context with permit := false } := by
      rw [hr]
      exact context_modifyContext_self _ hctx
    rw [hloop, heffort, heffort, hself, hpermit]
    simp
  · rw [loop_of_tasks hr hlt hm, heffort, effort_inside _ rfl]
    dsimp only
    omega

theorem effort_loopStep (hp : Placed w) (ht : w.tasks[t]? = some (.loop l))
    (hl : l.point.inEngine = true) (hb : l.slice < l.budget)
    (hc : (w.loopStep t l).current = some t) (hm : (w.loopStep t l).tasks[t]? = some (.loop m)) :
    (w.loopStep t l).effort m < w.effort l := by
  have hlt : t < w.tasks.size := (Array.getElem?_eq_some_iff.1 ht).1
  -- the steps that lead to the head of a round
  have henters : ∀ s,
      (w.loopStep t l).tasks = (w.setLoop t { l with slice := s, point := .head }).tasks →
      3 * (l.budget - s) + 1 ≤ w.effort l → s < l.budget →
      (w.loopStep t l).effort m < w.effort l := by
    intro s htasks hle hs
    have hhead := (w.loopStep t l).effort_head (l := { l with slice := s, point := .head }) rfl
    rw [loop_of_tasks htasks hlt hm]
    dsimp only at hhead
    omega
  cases hpt : l.point with
  | fresh =>
    refine henters l.slice ?_ ?_ hb
    · unfold loopStep
      rw [hpt]
      rfl
    · simp [effort, hpt]
  | head =>
    have hstep : w.loopStep t l = w.round t l := by
      unfold loopStep
      rw [hpt]
    rw [hstep] at hc hm ⊢
    exact effort_round hp ht hpt hc hm
  | paused =>
    refine henters 0 ?_ ?_ (Nat.zero_lt_of_lt hb)
    · unfold loopStep
      rw [hpt]
      rfl
    · simp [effort, hpt]
  | idle =>
    refine henters l.slice ?_ ?_ hb
    · unfold loopStep
      rw [hpt]
    · simp [effort, hpt]
  | ended o =>
    unfold loopStep at hc
    rw [hpt] at hc
    cases hc
  | body frame rest => simp [hpt, Point.inEngine] at hl
  | receiving frame rest i receipt => simp [hpt, Point.inEngine] at hl

theorem Transition.engine (k : Transition raw w w') (hc : w.current = some t)
    (ht : w.tasks[t]? = some (.loop l)) (hl : l.point.inEngine = true) : w' = w.loopStep t l := by
  have hruns : ∀ {u m frame rest}, ¬w.Runs u m frame rest := by
    rintro u m frame rest ⟨hu, hm, hp⟩
    obtain rfl := Option.some.inj (hc.symm.trans hu)
    obtain rfl := Task.loop.inj (Option.some.inj (ht.symm.trans hm))
    rw [hp] at hl
    cases hl
  have htask : ∀ {u task}, w.current = some u → w.tasks[u]? = some task → u = t ∧ task = .loop l := by
    intro u task hu htask
    obtain rfl := Option.some.inj (hu.symm.trans hc)
    exact ⟨rfl, Option.some.inj (htask.symm.trans ht)⟩
  cases k with
  | call ha k =>
    rcases ha with ha | ⟨u, m, frame, rest, hr⟩
    · rw [hc] at ha
      cases ha
    · exact absurd hr hruns
  | pick u hu =>
    rw [hc] at hu
    cases hu
  | pass _ _ _ hr => exact absurd hr hruns
  | finish hr => exact absurd hr hruns
  | fail _ hr => exact absurd hr hruns
  | pauseBody _ hr => exact absurd hr hruns
  | receive _ _ _ hr => exact absurd hr hruns
  | resume _ hu hm hp =>
    obtain ⟨-, h⟩ := htask hu hm
    cases h
    rw [hp] at hl
    cases hl
  | drive hu hm =>
    obtain ⟨rfl, h⟩ := htask hu hm
    cases h
    rfl
  | sleep hu hm hi =>
    obtain ⟨-, rfl⟩ := htask hu hm
    cases hp : l.point <;> simp [Task.wait?, hp] at hi
    simp [hp, Point.inEngine] at hl
  | beginReceipt hu hm => cases (htask hu hm).2
  | endReceipt hu hm => cases (htask hu hm).2
  | endAwait hu hm => cases (htask hu hm).2
  | halt hu hall =>
    obtain rfl := Option.some.inj (hu.symm.trans hc)
    cases hall _ ht

theorem Transition.effort (k : Transition raw w w') (hp : Placed w) (hc : w.current = some t)
    (hc' : w'.current = some t) (ht : w.tasks[t]? = some (.loop l))
    (ht' : w'.tasks[t]? = some (.loop m)) (hb : l.slice < l.budget) :
    w'.effort m ≤ w.effort l ∧ (¬w.Inside t → w'.effort m < w.effort l) := by
  rw [inside_iff ht]
  cases hl : l.point.inEngine with
  | true =>
    obtain rfl := k.engine hc ht hl
    have hlt := effort_loopStep hp ht hl hb hc' ht'
    exact ⟨Nat.le_of_lt hlt, fun _ => hlt⟩
  | false =>
    exact ⟨(k.advances_to ht ht').effort hl hc', fun h => absurd rfl h⟩

/-- Transitions in one turn of task `t`, of which `n` are steps of the engine. -/
inductive Turn (raw : Prop) (t : TaskId) (w : World) : Nat → World → Prop where
  | refl : Turn raw t w 0 w
  | engine {n : Nat} {v v' : World} :
      Turn raw t w n v → v.current = some t → ¬v.Inside t → Transition raw v v' →
      Turn raw t w (n + 1) v'
  | code {n : Nat} {v v' : World} :
      Turn raw t w n v → v.current = some t → v.Inside t → Transition raw v v' → Turn raw t w n v'

theorem effort_pos (w : World) (h : l.point.inEngine = true) : 0 < w.effort l := by
  unfold effort
  cases hp : l.point with
  | body | receiving => simp [hp, Point.inEngine] at h
  | _ => dsimp only; omega

theorem Turn.kept (h : w.Turn raw t n v) (hp : Placed w) (hb : w.Budgeted t c b) :
    Placed v ∧ v.Budgeted t c b := by
  induction h with
  | refl => exact ⟨hp, hb⟩
  | engine _ _ _ k ih => exact ⟨ih.1.transition k, ih.2.transition k⟩
  | code _ _ _ k ih => exact ⟨ih.1.transition k, ih.2.transition k⟩

theorem Turn.paid (h : w.Turn raw t n v) (hp : Placed w) (hb : w.Budgeted t c b)
    (ht : w.tasks[t]? = some (.loop l)) :
    n ≤ w.effort l ∧ ∀ m, v.current = some t → v.tasks[t]? = some (.loop m) →
      n + v.effort m ≤ w.effort l := by
  induction h with
  | refl =>
    refine ⟨Nat.zero_le _, fun m _ hm => ?_⟩
    rw [Task.loop.inj (Option.some.inj (hm.symm.trans ht)), Nat.zero_add]
  | @engine n v v' h hc hin k ih =>
    obtain ⟨hpv, l', ht', -, -, hl'⟩ := Turn.kept h hp hb
    have hn := ih.2 l' hc ht'
    have hpos := v.effort_pos (l := l') (by simpa using (inside_iff ht').not.1 hin)
    refine ⟨by omega, fun m hc' hm => ?_⟩
    have hlt := (k.effort hpv hc hc' ht' hm hl').2 hin
    omega
  | @code n v v' h hc hin k ih =>
    obtain ⟨hpv, l', ht', -, -, hl'⟩ := Turn.kept h hp hb
    have hn := ih.2 l' hc ht'
    refine ⟨ih.1, fun m hc' hm => ?_⟩
    have hle := (k.effort hpv hc hc' ht' hm hl').1
    omega

theorem Turn.bounded (h : w.Turn raw t n v) (hp : Placed w) (hb : w.Budgeted t c b) :
    n ≤ 3 * max b 1 + 1 := by
  obtain ⟨l, ht, hc, hbudget, hl⟩ := hb
  have hpaid := (h.paid hp ⟨l, ht, hc, hbudget, hl⟩ ht).1
  exact hbudget ▸ Nat.le_trans hpaid (effort_le w hl)

theorem endless_inside {ws : Nat → World} (hp : Placed (ws 0)) (hb : (ws 0).Budgeted t c b)
    (hs : ∀ n, (ws n).current = some t ∧ Transition raw (ws n) (ws (n + 1))) :
    ∃ N, ∀ n, N ≤ n → (ws n).Inside t := by
  have hkept : ∀ n, Placed (ws n) ∧ (ws n).Budgeted t c b := by
    intro n
    induction n with
    | zero => exact ⟨hp, hb⟩
    | succ n ih => exact ⟨ih.1.transition (hs n).2, ih.2.transition (hs n).2⟩
  choose l ht _ _ hl using fun n => (hkept n).2
  have hstep : ∀ n, (ws (n + 1)).effort (l (n + 1)) ≤ (ws n).effort (l n) ∧
      (¬(ws n).Inside t → (ws (n + 1)).effort (l (n + 1)) < (ws n).effort (l n)) := fun n =>
    (hs n).2.effort (hkept n).1 (hs n).1 (hs (n + 1)).1 (ht n) (ht (n + 1)) (hl n)
  have hanti : Antitone fun n => (ws n).effort (l n) := antitone_nat_of_succ_le fun n => (hstep n).1
  -- by induction on what is left at time `n`
  have hleft : ∀ k n, (ws n).effort (l n) < k → ∃ N, ∀ m, N ≤ m → (ws m).Inside t := by
    intro k
    induction k with
    | zero => exact fun n hn => absurd hn (Nat.not_lt_zero _)
    | succ k ih =>
      intro n hn
      by_cases hall : ∀ m, n ≤ m → (ws m).Inside t
      · exact ⟨n, hall⟩
      · obtain ⟨m, hm⟩ := not_forall.1 hall
        obtain ⟨hnm, hout⟩ := Classical.not_imp.1 hm
        have hlt := (hstep m).2 hout
        have hle : (ws m).effort (l m) ≤ (ws n).effort (l n) := hanti hnm
        exact ih (m + 1) (by omega)
  exact hleft _ 0 (Nat.lt_succ_self _)

theorem Budgeted.goes (h : w.Budgeted t c b) (hc : w.current = some t) (raw : Prop) :
    ∃ w', Transition raw w w' := by
  obtain ⟨l, ht, -⟩ := h
  cases hp : l.point with
  | body frame rest => exact ⟨_, .finish ⟨hc, ht, hp⟩⟩
  | receiving frame rest i receipt =>
    cases hr : w.resolution? i with
    | none => exact ⟨_, .sleep hc ht (by simp [Task.wait?, hp]) hr⟩
    | some r => exact ⟨_, .resume rest hc ht hp hr⟩
  | _ => exact ⟨_, .drive hc ht (by rw [hp]; rfl)⟩

/-! ## Every loop -/

/-- A loop comes about from the scheduler, or from a host with a budget of its own. -/
inductive Launches (w : World) (c : ContextId) : Nat → World → Prop where
  | start : Launches w c (w.context c).sliceBudget (w.start c)
  | drive (b : Nat) : Launches w c b (w.addLoop c b false)

theorem Launches.budgeted (h : w.Launches c b w') : w'.Budgeted w.tasks.size c b := by
  have hpos : ∀ n, 0 < max n 1 := fun n => Nat.lt_of_lt_of_le Nat.one_pos (Nat.le_max_right n 1)
  cases h with
  | start => exact ⟨_, start_task w c, rfl, rfl, hpos _⟩
  | drive => exact ⟨_, Array.getElem?_push_size, rfl, rfl, hpos b⟩

/-- Between two yields a loop starts no more than its budget, and the engine ends its turns. -/
theorem Reachable.turns_bounded (h : Reachable raw admits w) (hl : w.Launches c b w')
    (hk : Transition raw w w') (hr : Transitions raw w' v) :
    (∀ n v', v.Unyielding raw w.tasks.size n v' → n ≤ max b 1) ∧
    (∀ v', Transition raw v v' → v.Starts v' w.tasks.size →
      (v.context c).pauseRequested = false) ∧
    (∀ n v', v.Turn raw w.tasks.size n v' → n ≤ 3 * max b 1 + 1) ∧
    (v.current = some w.tasks.size → ∃ v', Transition raw v v') ∧
    ∀ ws : Nat → World, ws 0 = v →
      (∀ n, (ws n).current = some w.tasks.size ∧ Transition raw (ws n) (ws (n + 1))) →
      ∃ N, ∀ n, N ≤ n → (ws n).Inside w.tasks.size := by
  have hb := hl.budgeted.transitions hr
  have hp : Placed v := by
    clear hb
    induction hr with
    | refl => exact h.placed.transition hk
    | tail _ k ih => exact ih.transition k
  refine ⟨fun n v' hu => hu.bounded hb, fun v' k hs => k.unpaused hb hs,
    fun n v' ht => ht.bounded hp hb, fun hc => hb.goes hc raw, ?_⟩
  rintro ws rfl hs
  exact endless_inside hp hb hs

def pacedOrder : World := rooted "order" "shop" "main" 2 (some ⟨"buy", false, []⟩)

theorem order_paced : ∃ v v' : World, v.Unyielding False 0 2 v' ∧
    (∀ n v'', v.Unyielding False 0 n v'' → n ≤ 2) ∧ ∀ n v'', v.Turn False 0 n v'' → n ≤ 7 := by
  have hr : Reachable False (fun _ => True) pacedOrder := .rooted _ _ _ _ _ trivial trivial
  have hk : Transition False pacedOrder (pacedOrder.start 0) :=
    .call (.inl rfl) (.start 0 (by decide))
  have hpick : Transition False (pacedOrder.start 0) _ := .pick 0 rfl (by decide)
  obtain ⟨hslice, -, hturn, -⟩ := hr.turns_bounded .start hk (.tail .refl hpick)
  have hin : ∀ {w : World} {l : Loop}, w.tasks[0]? = some (.loop l) → l.point.inEngine = false →
      w.Inside 0 := fun ht hp => ⟨_, ht, hp⟩
  have hout : ∀ {w : World} {l : Loop}, w.tasks[0]? = some (.loop l) → l.point.inEngine = true →
      ¬w.Inside 0 := fun ht hp h => by rw [(inside_iff ht).1 h] at hp; cases hp
  have hgoes : ∀ {w w' : World}, w'.current = some 0 → ¬w.Yields w' 0 := fun hc h => by
    rw [h.1.after] at hc
    cases hc
  have picked : Unyielding False 0 { pacedOrder.start 0 with current := some 0, ready := [] } 0 _ :=
    .refl
  have entered := picked.other (.drive (t := 0) rfl rfl rfl) (fun h => hout rfl rfl h.2) (hgoes rfl)
  have buying := entered.start (.drive (t := 0) rfl rfl rfl) ⟨hout rfl rfl, hin rfl rfl⟩
  have queued := buying.other (.call (.inr ⟨0, _, _, _, rfl, rfl, rfl⟩)
    (.edit (.executeNext 0 [.noop "ship"]))) (fun h => h.1 (hin rfl rfl)) (hgoes rfl)
  have bought := queued.other (.finish (t := 0) ⟨rfl, rfl, rfl⟩) (fun h => hout rfl rfl h.2)
    (hgoes rfl)
  have shipping := bought.start (.drive (t := 0) rfl rfl rfl) ⟨hout rfl rfl, hin rfl rfl⟩
  exact ⟨_, _, shipping, hslice, hturn⟩

end World

end SagaEngine
