import SagaEngine.Proofs.Rest
import SagaEngine.Proofs.Turns
import SagaEngine.Proofs.Unwinding

/-! A fault goes up a chain of contexts that wait for each other, as an exception goes up a stack of
calls: it ends every context that cannot handle it, and the first one that can runs its handler. -/

namespace SagaEngine.World

variable {w w' v : World} {ts : List TaskId} {t u : TaskId} {l : Loop} {c p : ContextId} {f : Fault}

structure Dormant (w : World) (t : TaskId) : Prop extends Undisturbed w t where
  idle : ∀ c, t ∉ (w.context c).idle

structure Suspended (w : World) (t : TaskId) (c : ContextId) : Prop extends Undisturbed w t where
  loop : ∃ l, w.tasks[t]? = some (.loop l) ∧ l.context = c ∧ l.point = .idle
  alone : (w.context c).idle = [t]
  there : ∀ d, t ∈ (w.context d).idle → d = c
  unstopped : w.Unstopped c
  running : (w.context c).runState.isTerminal = false

/-- Above context `c`, parents are suspended, nearest first, up to the root. -/
inductive Chain (w : World) : ContextId → List (TaskId × ContextId) → Prop where
  | root {c : ContextId} : (w.context c).parent? = none → Chain w c []
  | child {c p : ContextId} {t : TaskId} {above : List (TaskId × ContextId)} :
      (w.context c).parent? = some p → w.Suspended t p → Chain w p above → Chain w c ((t, p) :: above)

structure Fell (w : World) (f : Fault) (o : Outcome) (t : TaskId) (c : ContextId) : Prop where
  ended : ∃ l, w.tasks[t]? = some (.loop l) ∧ l.context = c ∧ outcome? l = some o
  runState : (w.context c).runState = .failed
  killer : (w.context c).killer = some f

structure Poised (w : World) (t : TaskId) (l : Loop) : Prop where
  drives : w.Drives t l
  dormant : w.Dormant t
  unstopped : w.Unstopped l.context

def raiseIn (w : World) (t : TaskId) (l : Loop) (f : Fault) (next : World → World) : World :=
  match w.raise l.context f with
  | (w, some o) => w.endLoop t l o
  | (w, none) => next w

theorem Scheduled.suspended (h : Scheduled w) (ht : w.tasks[t]? = some (.loop l))
    (hi : (w.context l.context).idle = [t]) (hu : w.Unstopped l.context)
    (hr : (w.context l.context).runState.isTerminal = false) : w.Suspended t l.context := by
  obtain ⟨hready, -, l', hl, -, hp⟩ := h.idle_at l.context t (hi ▸ .head _)
  rw [ht] at hl
  obtain rfl := Task.loop.inj (Option.some.inj hl)
  refine ⟨⟨hready, fun k hk hs => ?_⟩, ⟨l, ht, rfl, hp⟩, hi, fun d hd => ?_, hu, hr⟩
  · obtain ⟨i, hw, -⟩ := h.sleeper_in k t hs hk
    exact h.not_idle hw l.context (hi ▸ .head _)
  · obtain ⟨-, -, l', hl, hd, -⟩ := h.idle_at d t hd
    rw [ht] at hl
    obtain rfl := Task.loop.inj (Option.some.inj hl)
    exact hd.symm

theorem Scheduled.dormant (h : Scheduled w) {frame : Frame} {rest : List Step}
    (hr : w.Runs t l frame rest) : w.Dormant t := by
  refine ⟨⟨h.current_out t hr.1, fun k hk hs => ?_⟩, fun c hc => ?_⟩
  · obtain ⟨i, hw, -⟩ := h.sleeper_in k t hs hk
    rw [waitOf_eq hr.2.1, hr.drives.awake] at hw
    cases hw
  · exact (h.idle_at c t hc).2.1 hr.1

/-! ## The end of a context -/

theorem context_fallen (w : World) (c d : ContextId) (f : Fault) (x : Context) :
    (w.fallen c f x).context d =
      w.seen c d fun _ => { (x.killed f).drained.notified with runState := .failed } := by
  have hm := fun d => context_modifyContext' w c d fun _ => x
  have hk : ∀ d, ((w.modifyContext c fun _ => x).kill c f).context d =
      w.seen c d fun _ => (x.killed f).drained.notified := fun d => by
    rw [context_kill]
    exact seen_trans hm (contexts_size_modifyContext ..)
  unfold fallen setRunState
  rw [context_modifyContext', seen_trans hk]
  exact (signals_kill _ c f).size.trans (contexts_size_modifyContext ..)

theorem Undisturbed.fallen (h : Undisturbed w t) {x : Context} (hx : x.bare = (w.context c).bare)
    (hi : t ∉ (w.context c).idle) (f : Fault) : Undisturbed (w.fallen c f x) t := by
  have hm : Undisturbed (w.modifyContext c fun _ => x) t := h.congr rfl rfl
  have hidle : ((w.modifyContext c fun _ => x).context c).idle = (w.context c).idle := by
    rw [context_modifyContext]
    split
    · change x.bare.idle = (w.context c).bare.idle
      rw [hx]
    · rfl
  have hk := hm.kill (hidle ▸ hi) f
  unfold World.fallen setRunState
  generalize (w.modifyContext c fun _ => x).kill c f = v at hk ⊢
  exact hk.congr rfl rfl

theorem fallen_kept (w : World) (c : ContextId) (f : Fault) (x : Context) :
    (w.fallen c f x).tasks = w.tasks ∧ (w.fallen c f x).history = w.history := by
  have hs := (signals_kill (w.modifyContext c fun _ => x) c f).trans
    (signals_setRunState _ c .failed)
  exact ⟨hs.tasks, hs.history⟩

theorem escalate_suspended (h : w.Suspended t p) (f : Fault) :
    ∃ rest, (w.escalate p f).ready = rest ++ [t] ∧
      ∀ u, w.Undisturbed u → Undisturbed { w.escalate p f with ready := rest } u := by
  have hund : ∀ u, w.Undisturbed u → Undisturbed ((w.modifyContext p fun x =>
      { x with escalated := x.escalated.or (some f) }).cancelRegistered p) u := by
    intro u hu
    have hv : Undisturbed (w.modifyContext p fun x =>
      { x with escalated := x.escalated.or (some f) }) u := hu.congr rfl rfl
    exact hv.cancelRegistered p
  have hidle : (((w.modifyContext p fun x =>
      { x with escalated := x.escalated.or (some f) }).cancelRegistered p).context p).idle = [t] := by
    have hm := context_modifyContext_congr Context.idle
      (f := fun x => { x with escalated := x.escalated.or (some f) }) (fun _ => rfl) w p p
    rw [context_cancelRegistered, ← h.alone, ← hm]
    exact seen_field Context.idle (f := Context.drained) (fun _ => rfl) p p
  unfold escalate
  rw [if_neg (by simp [h.running])]
  dsimp only
  generalize (w.modifyContext p fun x =>
    { x with escalated := x.escalated.or (some f) }).cancelRegistered p = v at hund hidle
  rw [notify_alone hidle (hund t h.toUndisturbed).ready]
  exact ⟨v.ready, rfl, fun u hu => (hund u hu).congr rfl rfl⟩

theorem endLoop_field {α : Type} (g : Context → α) (w : World) (t : TaskId) (l : Loop) (o : Outcome)
    (hg : ∀ (x : Context) n permit idle, g { x with activeChildren := n, permit, idle } = g x)
    (d : ContextId) : g ((w.endLoop t l o).context d) = g (w.context d) := by
  unfold endLoop
  dsimp only
  split
  · rw [context_childFinished]
    refine seen_field g (fun x => ?_) _ d
    exact (Context.notified_congr g fun y idle permit => hg y y.activeChildren permit idle).trans
      (hg x (x.activeChildren - 1) x.permit x.idle)
  · rfl

theorem endLoop_context (w : World) (t : TaskId) (l : Loop) (o : Outcome) {d : ContextId}
    (hd : (w.context l.context).parent? ≠ some d) :
    (w.endLoop t l o).context d = w.context d := by
  unfold endLoop
  dsimp only
  split
  · rename_i p _ hp
    change (w.context l.context).parent? = some p at hp
    rw [context_childFinished, seen_of_ne]
    · rfl
    · rintro rfl
      exact hd hp
  · rfl

theorem endLoop_idle (w : World) (t : TaskId) (l : Loop) (o : Outcome) (d : ContextId)
    {u : TaskId} (hu : u ∈ ((w.endLoop t l o).context d).idle) : u ∈ (w.context d).idle := by
  unfold endLoop at hu
  dsimp only at hu
  split at hu
  · rw [context_childFinished, seen] at hu
    split at hu
    · rw [Context.idle_notified] at hu
      exact List.mem_of_mem_tail hu
    · exact hu
  · exact hu

theorem endLoop_ready (w : World) (t : TaskId) (l : Loop) (o : Outcome)
    (hi : ∀ p, (w.context l.context).parent? = some p → (w.context p).idle = []) :
    (w.endLoop t l o).ready = w.ready ∧ (w.endLoop t l o).handles = w.handles := by
  unfold endLoop
  dsimp only
  split
  · rename_i p _ hp
    have hidle : (((w.setLoop t { l with point := .ended o }).suspend.modifyContext p fun x =>
        { x with activeChildren := x.activeChildren - 1 }).context p).idle = [] := by
      have hm := context_modifyContext_congr Context.idle
        (f := fun x => { x with activeChildren := x.activeChildren - 1 }) (fun _ => rfl)
        (w.setLoop t { l with point := .ended o }).suspend p p
      exact hm.trans (hi p hp)
    exact ⟨ready_notify_empty hidle, handles_notify _ p⟩
  · exact ⟨rfl, rfl⟩

theorem endLoop_kept (w : World) (t : TaskId) (l : Loop) (o : Outcome) :
    (w.endLoop t l o).current = none ∧ (w.endLoop t l o).history = w.history := by
  unfold endLoop
  dsimp only
  split
  · have hs := signals_childFinished (w.setLoop t { l with point := .ended o }).suspend
    exact ⟨(hs _).current, (hs _).history⟩
  · exact ⟨rfl, rfl⟩

structure Felled (w v : World) (f : Fault) (c : ContextId) : Prop where
  tasks : v.tasks = w.tasks
  history : v.history = w.history
  runState : (v.context c).runState = .failed
  killer : (v.context c).killer = some f
  scopes : (w.context c).ancestors ≠ [] → (v.context c).scopes = []
  idle : ∀ d, (v.context d).idle.Sublist (w.context d).idle
  ancestors : ∀ d, (v.context d).ancestors = (w.context d).ancestors
  others : ∀ d, d ≠ c → v.context d = w.context d
  undisturbed : ∀ u, w.Undisturbed u → u ∉ (w.context c).idle → v.Undisturbed u

theorem felled (hc : c < w.contexts.size) (hk : (w.context c).killer = none) {x : Context}
    (hx : (w.context c).unwind f.name = (none, x)) : Felled w (w.fallen c f x) f c := by
  have hbare := bare_unwind hx
  have hself : (w.fallen c f x).context c =
      { (x.killed f).drained.notified with runState := .failed } := by
    rw [context_fallen, seen_self _ hc]
  have hother : ∀ d, d ≠ c → (w.fallen c f x).context d = w.context d := fun d hd => by
    rw [context_fallen, seen_of_ne _ hd]
  have hidle : x.idle = (w.context c).idle := by
    change x.bare.idle = (w.context c).bare.idle
    rw [hbare]
  have hanc : x.ancestors = (w.context c).ancestors := by
    change x.bare.ancestors = (w.context c).bare.ancestors
    rw [hbare]
  have hkx : x.killer = none := by
    change x.bare.killer = none
    rw [hbare]
    exact hk
  obtain ⟨ht, hh⟩ := fallen_kept w c f x
  refine ⟨ht, hh, ?_, ?_, fun ha => ?_, fun d => ?_, fun d => ?_, hother,
    fun u hu hi => hu.fallen hbare hi f⟩
  · rw [hself]
  · rw [hself]
    refine (Context.notified_congr Context.killer fun _ _ _ => rfl).trans ?_
    exact congrArg (Option.or · (some f)) hkx
  · rw [hself]
    refine (Context.notified_congr Context.scopes fun _ _ _ => rfl).trans ?_
    exact (Context.unwindFrom_none (Nat.le_refl _) hx).2.1 ha
  · by_cases hd : d = c
    · subst hd
      rw [hself]
      have hi : (x.killed f).drained.notified.idle = (w.context d).idle.tail :=
        Context.idle_notified.trans (congrArg List.tail hidle)
      exact hi ▸ List.tail_sublist _
    · simp only [hother d hd, List.Sublist.refl]
  · by_cases hd : d = c
    · subst hd
      rw [hself]
      exact (Context.notified_congr Context.ancestors fun _ _ _ => rfl).trans hanc
    · rw [hother d hd]

structure Handed (w v : World) (f : Fault) (t : TaskId) (c : ContextId) (u : TaskId)
    (p : ContextId) : Prop where
  current : v.current = none
  history : v.history = w.history
  fell : v.Fell f (.escalated f) t c
  scopes : (v.context c).scopes = []
  killer : (v.context p).killer = none
  escalated : (v.context p).escalated = some f
  stack : (v.context p).scopes = (w.context p).scopes
  others : ∀ d, d ≠ c → d ≠ p → v.context d = w.context d
  ancestors : ∀ d, (v.context d).ancestors = (w.context d).ancestors
  idle : ∀ d a, a ∈ (v.context d).idle → a ∈ (w.context d).idle ∧ d ≠ p
  tasks : ∀ a, a ≠ t → v.tasks[a]? = w.tasks[a]?
  ready : ∃ rest, v.ready = rest ++ [u] ∧ ∀ a, w.Undisturbed a → a ∉ (w.context c).idle →
    Undisturbed { v with ready := rest } a

theorem Suspended.felled (h : w.Suspended u p) (hv : Felled w v f c) (hpc : p ≠ c) :
    v.Suspended u p where
  toUndisturbed := hv.undisturbed u h.toUndisturbed fun hi => hpc (h.there c hi).symm
  loop := hv.tasks ▸ h.loop
  alone := by
    rw [hv.others p hpc]
    exact h.alone
  there d hd := h.there d ((hv.idle d).subset hd)
  unstopped := by
    refine ⟨?_, ?_⟩
    · rw [hv.others p hpc]
      exact h.unstopped.killer
    · rw [hv.others p hpc]
      exact h.unstopped.escalated
  running := by
    rw [hv.others p hpc]
    exact h.running

theorem escalated_suspended (h : w.Suspended u p) (f : Fault) :
    (w.escalate p f).context p = ((w.context p).escalatedTo f).drained.notified := by
  have hlt : p < w.contexts.size := idle_lt h.alone
  rw [context_escalate, seen_self _ hlt]
  exact if_neg (by simp [h.running])

theorem handed (hp : Placed w) (ht : w.tasks[t]? = some (.loop l)) (hv : Felled w v f l.context)
    (hpar : (w.context l.context).parent? = some p) (hs : w.Suspended u p) :
    Handed w ((v.escalate p f).endLoop t l (.escalated f)) f t l.context u p := by
  have hpc : p ≠ l.context := Nat.ne_of_lt (parent_lt hp hpar)
  have hsv := hs.felled hv hpc
  have hparent := escalated_suspended hsv f
  have hother : ∀ d, d ≠ p → (v.escalate p f).context d = v.context d := fun d hd => by
    rw [context_escalate, seen_of_ne _ hd]
  have hsig := signals_escalate v p f
  obtain ⟨rest, hready, hund⟩ := escalate_suspended hsv f
  have hparv : ((v.escalate p f).context l.context).parent? = some p := by
    rw [Context.parent?, hsig.ancestors, hv.ancestors]
    exact hpar
  have hidle : ((v.escalate p f).context p).idle = [] := by
    rw [hparent, Context.idle_notified]
    exact congrArg List.tail hsv.alone
  have hsame : v.context p = w.context p := hv.others p hpc
  have htasks : (v.escalate p f).tasks = w.tasks := hsig.tasks.trans hv.tasks
  have hhistory : (v.escalate p f).history = w.history := hsig.history.trans hv.history
  have hanc : ∀ d, ((v.escalate p f).context d).ancestors = (w.context d).ancestors :=
    fun d => (hsig.ancestors d).trans (hv.ancestors d)
  -- the parent has heard of the fault by now, and the loop is still to end
  generalize v.escalate p f = b at *
  have hend : ∀ d, d ≠ p → (b.endLoop t l (.escalated f)).context d = b.context d := fun d hd =>
    endLoop_context b t l _ fun he => hd (Option.some.inj (hparv.symm.trans he)).symm
  have hself : (b.endLoop t l (.escalated f)).context l.context = v.context l.context :=
    (hend _ hpc.symm).trans (hother _ hpc.symm)
  obtain ⟨hcur, hhist⟩ := endLoop_kept b t l (.escalated f)
  obtain ⟨hr, hh⟩ := endLoop_ready b t l (.escalated f) fun q hq => by
    obtain rfl := Option.some.inj (hparv.symm.trans hq)
    exact hidle
  have hset := endLoop_tasks b t l (.escalated f)
  have hlt : t < b.tasks.size := by
    rw [htasks]
    exact (Array.getElem?_eq_some_iff.1 ht).1
  refine ⟨hcur, hhist.trans hhistory, ⟨?_, ?_, ?_⟩, ?_, ?_, ?_, ?_, fun d hdc hdp => ?_, fun d => ?_,
    fun d a ha => ?_, fun a ha => ?_, rest, hr.trans hready, fun a ha hi => ?_⟩
  · refine ⟨{ l with point := .ended (.escalated f) }, ?_, rfl, rfl⟩
    rw [hset]
    exact (getElem?_setTask (w := b) t t _).trans (if_pos ⟨rfl, hlt⟩)
  · rw [hself]
    exact hv.runState
  · rw [hself]
    exact hv.killer
  · rw [hself]
    exact hv.scopes fun he => by simp [Context.parent?, he] at hpar
  · refine (endLoop_field Context.killer b t l _ (fun _ _ _ _ => rfl) p).trans ?_
    rw [hparent]
    exact (Context.notified_congr Context.killer fun _ _ _ => rfl).trans hsv.unstopped.killer
  · refine (endLoop_field Context.escalated b t l _ (fun _ _ _ _ => rfl) p).trans ?_
    rw [hparent]
    refine (Context.notified_congr Context.escalated fun _ _ _ => rfl).trans ?_
    exact congrArg (Option.or · (some f)) hsv.unstopped.escalated
  · refine (endLoop_field Context.scopes b t l _ (fun _ _ _ _ => rfl) p).trans ?_
    rw [hparent]
    refine (Context.notified_congr Context.scopes fun _ _ _ => rfl).trans ?_
    change (v.context p).scopes = (w.context p).scopes
    rw [hsame]
  · rw [hend d hdp, hother d hdp, hv.others d hdc]
  · exact (endLoop_field Context.ancestors b t l _ (fun _ _ _ _ => rfl) d).trans (hanc d)
  · have hb := endLoop_idle b t l _ d ha
    by_cases hd : d = p
    · rw [hd, hidle] at hb
      cases hb
    · rw [hother d hd] at hb
      exact ⟨(hv.idle d).subset hb, hd⟩
  · rw [hset]
    refine (getElem?_setTask (w := b) t a _).trans ?_
    rw [if_neg fun he => ha he.1, htasks]
  · exact (hund a (hv.undisturbed a ha hi)).congr rfl hh

/-! ## From a context to its parent -/

theorem scopes_of_hasScope (h : w.hasScope c = true) : ∃ s below, (w.context c).scopes = s :: below := by
  unfold hasScope at h
  rcases hs : (w.context c).scopes with _ | ⟨s, below⟩
  · rw [hs] at h
    cases h
  · exact ⟨s, below, rfl⟩

theorem hasScope_of_nil (h : (w.context c).scopes = []) : w.hasScope c = false := by
  simp [hasScope, h]

theorem raise_fallen (hc : c < w.contexts.size) (hk : (w.context c).killer = none) {x : Context}
    (hx : (w.context c).unwind f.name = (none, x)) :
    w.raise c f = match (w.context c).parent? with
      | some p => ((w.fallen c f x).escalate p f, some (.escalated f))
      | none => (w.fallen c f x, some (.failed f)) := by
  have hv := felled hc hk hx
  have hpar : ((w.fallen c f x).context c).parent? = (w.context c).parent? :=
    congrArg List.head? (hv.ancestors c)
  have hdef : ((w.modifyContext c fun _ => x).kill c f).setRunState c .failed = w.fallen c f x := rfl
  simp only [raise, hx, hdef, hpar]
  rcases hp : (w.context c).parent? with _ | p
  · rfl
  · have hnil := hv.scopes fun he => by simp [Context.parent?, he] at hp
    simp only [hasScope_of_nil hnil]

theorem raiseIn_child (hp : Placed w) (h : w.Poised t l) (next : World → World)
    (hn : handlerOn? f.name (w.context l.context).scopes = none)
    (hpar : (w.context l.context).parent? = some p) (hs : w.Suspended u p) :
    Placed (w.raiseIn t l f next) ∧ Handed w (w.raiseIn t l f next) f t l.context u p := by
  rcases hx : (w.context l.context).unwind f.name with ⟨_ | k, x⟩
  · have hv := felled (hp.loop h.drives.task) h.unstopped.killer hx
    have hraise := raise_fallen (hp.loop h.drives.task) h.unstopped.killer hx
    rw [hpar] at hraise
    have hdone := handed hp h.drives.task hv hpar hs
    have hfallen : Placed (w.fallen l.context f x) := hp.effects (effects_fallen h.drives f hx).1
    have htask : (w.fallen l.context f x).tasks[t]? = some (.loop l) := by
      rw [hv.tasks]
      exact h.drives.task
    unfold raiseIn
    rw [hraise]
    generalize w.fallen l.context f x = a at *
    have hsig := (signals_escalate a p f).steady
    exact ⟨(hfallen.steady hsig).endLoop t (hsig.size ▸ hfallen.loop htask) _, hdone⟩
  · rw [← Context.unwind_fst, hx] at hn
    cases hn

def resumed (v : World) (rest : List TaskId) (u : TaskId) (m : Loop) : World :=
  ({ v with current := some u, ready := rest }.setLoop u m).modifyContext m.context
    fun x => { x with escalated := none }

theorem leads_resumed {rest : List TaskId} {m : Loop} (hc : v.current = none) (hu : u ∈ ts)
    (hr : v.ready = rest ++ [u]) (hn : ∀ a ∈ ts, a ∉ rest) (ht : v.tasks[u]? = some (.loop m))
    (hm : m.point = .idle) (hk : (v.context m.context).killer = none)
    (he : (v.context m.context).escalated = some f) :
    Leads ts v ((v.resumed rest u { m with point := .head }).raiseIn u { m with point := .head } f
      fun x => x.setLoop u { m with point := .head }) := by
  refine (leads_pick hc hu hr hn).trans ?_
  have hidle : { v with current := some u, ready := rest }.taskStep u =
      { v with current := some u, ready := rest }.setLoop u { m with point := .head } := by
    unfold taskStep
    rw [ht]
    simp only [loopStep, hm]
  have hlt := (Array.getElem?_eq_some_iff.1 ht).1
  have hround : ({ v with current := some u, ready := rest }.setLoop u
      { m with point := .head }).taskStep u =
        (v.resumed rest u { m with point := .head }).raiseIn u { m with point := .head } f
          fun x => x.setLoop u { m with point := .head } := by
    have htask : ({ v with current := some u, ready := rest }.setLoop u
        { m with point := .head }).tasks[u]? = some (.loop { m with point := .head }) :=
      (getElem?_setTask u u _).trans (if_pos ⟨rfl, hlt⟩)
    unfold taskStep
    rw [htask]
    change round _ u { m with point := .head } = _
    unfold round
    dsimp only
    have hk' : (({ v with current := some u, ready := rest }.setLoop u
        { m with point := .head }).context m.context).killer = none := hk
    have he' : (({ v with current := some u, ready := rest }.setLoop u
        { m with point := .head }).context m.context).escalated = some f := he
    rw [hk', he']
    rfl
  have h1 : Leads ts _ ({ v with current := some u, ready := rest }.taskStep u) := leads_step rfl hu
  rw [hidle] at h1
  have h2 : Leads ts _ (({ v with current := some u, ready := rest }.setLoop u
      { m with point := .head }).taskStep u) := leads_step rfl hu
  rw [hround] at h2
  exact h1.trans h2

/-! ## The handler starts -/

structure Began (w v : World) (t : TaskId) (c : ContextId) (k : Continuation) : Prop where
  history : v.history = w.history.push (.started c k)
  runs : ∃ m, v.Runs t m ⟨k.name, k.traced⟩ k.steps ∧ m.context = c
  others : ∀ d, d ≠ c → v.context d = w.context d
  tasks : ∀ a, a ≠ t → v.tasks[a]? = w.tasks[a]?

theorem list_kept (w : World) (c : ContextId) :
    (w.list c).history = w.history ∧ (w.list c).tasks = w.tasks ∧ (w.list c).current = w.current ∧
      (w.list c).contexts = w.contexts := by
  unfold list
  split
  · exact ⟨rfl, rfl, rfl, rfl⟩
  · exact ⟨rfl, rfl, rfl, rfl⟩

theorem began_startContinuation (hc : w.current = some t) (ht : w.tasks[t]? = some (.loop l))
    (k : Continuation) : Began w (w.startContinuation t l k) t l.context k := by
  have hlt := (Array.getElem?_eq_some_iff.1 ht).1
  have hbegan : ∀ v : World, v.history = w.history → v.tasks = w.tasks → v.current = w.current →
      v.contexts = w.contexts → Began w ((v.record (.started l.context k)).setLoop t
        { l with point := .body ⟨k.name, k.traced⟩ k.steps }) t l.context k := by
    intro v hh htasks hcur hctx
    have hget := fun a => getElem?_setTask (w := v.record (.started l.context k)) t a
      (.loop { l with point := .body ⟨k.name, k.traced⟩ k.steps })
    have hlt' : t < (v.record (.started l.context k)).tasks.size := by
      change t < v.tasks.size
      rw [htasks]
      exact hlt
    refine ⟨congrArg (Array.push · _) hh, ⟨{ l with point := .body ⟨k.name, k.traced⟩ k.steps },
      ⟨hcur.trans hc, (hget t).trans (if_pos ⟨rfl, hlt'⟩), rfl⟩, rfl⟩, fun d _ => ?_, fun a ha => ?_⟩
    · change v.contexts.getD d default = w.contexts.getD d default
      rw [hctx]
    · refine (hget a).trans ((if_neg fun he => ha he.1).trans ?_)
      change v.tasks[a]? = w.tasks[a]?
      rw [htasks]
  unfold startContinuation
  dsimp only
  split
  · obtain ⟨hh, htasks, hcur, hctx⟩ := list_kept w l.context
    exact hbegan _ hh htasks hcur hctx
  · exact hbegan w rfl rfl rfl rfl

theorem Began.after {w₁ : World} {k : Continuation} (h : Began w₁ v t c k)
    (hh : w₁.history = w.history) (hc : ∀ d, d ≠ c → w₁.context d = w.context d)
    (ht : ∀ a, a ≠ t → w₁.tasks[a]? = w.tasks[a]?) : Began w v t c k where
  history := hh ▸ h.history
  runs := h.runs
  others d hd := (h.others d hd).trans (hc d hd)
  tasks a ha := (h.tasks a ha).trans (ht a ha)

theorem taskStep_head (ht : w.tasks[t]? = some (.loop l)) (hp : l.point = .head) :
    w.taskStep t = w.round t l := by
  unfold taskStep
  rw [ht]
  simp only [loopStep, hp]

theorem round_start {k : Continuation} {pend : List Continuation} (hu : w.Unstopped l.context)
    (hpause : (w.context l.context).pauseRequested = false)
    (hpend : (w.context l.context).pending = k :: pend) :
    w.round t l =
      (w.modifyContext l.context fun x => { x with pending := pend }).startContinuation t l k := by
  unfold round
  dsimp only
  rw [hu.killer, hu.escalated]
  dsimp only
  rw [hpause, hpend]
  rfl

theorem leads_start {k : Continuation} {pend : List Continuation} (hc : w.current = some t)
    (ht : w.tasks[t]? = some (.loop l)) (hpt : l.point = .head) (hu : w.Unstopped l.context)
    (hpause : (w.context l.context).pauseRequested = false)
    (hpend : (w.context l.context).pending = k :: pend) (hm : t ∈ ts) :
    ∃ v, Leads ts w v ∧ Began w v t l.context k := by
  have hstep : Leads ts w (w.taskStep t) := leads_step hc hm
  rw [taskStep_head ht hpt, round_start hu hpause hpend] at hstep
  have hbegan := began_startContinuation
    (w := w.modifyContext l.context fun x => { x with pending := pend }) hc ht k
  exact ⟨_, hstep, hbegan.after rfl (fun d hd => context_modifyContext_of_ne w _ hd) fun _ _ => rfl⟩

theorem setTask_setTask (w : World) (t : TaskId) (a b : Task) :
    (w.setTask t a).setTask t b = w.setTask t b := by
  unfold setTask
  simp only [Array.set!_eq_setIfInBounds, Array.setIfInBounds_setIfInBounds]

theorem leads_pause (hc : w.current = some t) (ht : w.tasks[t]? = some (.loop l))
    (hpt : l.point = .head) (hu : w.Unstopped l.context)
    (hpause : (w.context l.context).pauseRequested = true) (hm : t ∈ ts)
    (hn : ∀ a ∈ ts, a ∉ w.ready) :
    Leads ts w ((w.modifyContext l.context fun x =>
      { x with pauseRequested := false, runState := .running }).setLoop t
        { l with slice := 0, point := .head }) := by
  have hround : w.round t l = ((w.modifyContext l.context fun x =>
      { x with pauseRequested := false, runState := .paused }).setLoop t
        { l with point := .paused }).yieldTask t := by
    unfold round
    dsimp only
    rw [hu.killer, hu.escalated]
    dsimp only
    rw [hpause]
    rfl
  have hstep : Leads ts w (w.taskStep t) := leads_step hc hm
  rw [taskStep_head ht hpt, hround] at hstep
  have hback : Leads ts (((w.modifyContext l.context fun x =>
      { x with pauseRequested := false, runState := .paused }).setLoop t
        { l with point := .paused }).yieldTask t) _ := leads_yield hc hm hn
  have hagain : Leads ts ((w.modifyContext l.context fun x =>
      { x with pauseRequested := false, runState := .paused }).setLoop t
        { l with point := .paused }) _ := leads_step hc hm
  have hresume : ((w.modifyContext l.context fun x =>
      { x with pauseRequested := false, runState := .paused }).setLoop t
        { l with point := .paused }).taskStep t =
      (w.modifyContext l.context fun x =>
        { x with pauseRequested := false, runState := .running }).setLoop t
          { l with slice := 0, point := .head } := by
    have hlt := (Array.getElem?_eq_some_iff.1 ht).1
    have htask : ((w.modifyContext l.context fun x =>
        { x with pauseRequested := false, runState := .paused }).setLoop t
          { l with point := .paused }).tasks[t]? = some (.loop { l with point := .paused }) :=
      (getElem?_setTask t t _).trans (if_pos ⟨rfl, hlt⟩)
    have hmodify := modifyContext_modifyContext w l.context
      (fun x => { x with pauseRequested := false, runState := .paused })
      (fun x => { x with runState := .running })
    unfold taskStep
    rw [htask]
    refine (setTask_setTask ((w.modifyContext l.context _).modifyContext l.context
      fun x => { x with runState := .running }) t _ _).trans ?_
    rw [hmodify]
    rfl
  rw [hresume] at hagain
  exact (hstep.trans hback).trans hagain

theorem leads_next {k : Continuation} {pend : List Continuation} (hlt : l.context < w.contexts.size)
    (hc : w.current = some t) (ht : w.tasks[t]? = some (.loop l)) (hpt : l.point = .head)
    (hu : w.Unstopped l.context) (hpend : (w.context l.context).pending = k :: pend) (hm : t ∈ ts)
    (hn : ∀ a ∈ ts, a ∉ w.ready) : ∃ v, Leads ts w v ∧ Began w v t l.context k := by
  rcases hpause : (w.context l.context).pauseRequested with _ | _
  · exact leads_start hc ht hpt hu hpause hpend hm
  · have hself := context_modifyContext_self (w := w)
      (fun x => { x with pauseRequested := false, runState := .running }) hlt
    have hget := fun a => getElem?_setTask (w := w.modifyContext l.context fun x =>
      { x with pauseRequested := false, runState := .running }) t a
      (.loop { l with slice := 0, point := .head })
    have htask := (hget t).trans (if_pos ⟨rfl, (Array.getElem?_eq_some_iff.1 ht).1⟩)
    have hstart : ∃ v, Leads ts ((w.modifyContext l.context fun x =>
        { x with pauseRequested := false, runState := .running }).setLoop t
          { l with slice := 0, point := .head }) v ∧ Began _ v t l.context k :=
      leads_start (l := { l with slice := 0, point := .head }) hc htask rfl
        ⟨(congrArg Context.killer hself).trans hu.killer,
          (congrArg Context.escalated hself).trans hu.escalated⟩
        (congrArg Context.pauseRequested hself) ((congrArg Context.pending hself).trans hpend) hm
    obtain ⟨v, hv, hbegan⟩ := hstart
    refine ⟨v, (leads_pause hc ht hpt hu hpause hm hn).trans hv, hbegan.after rfl ?_ ?_⟩
    · exact fun d hd => context_modifyContext_of_ne w _ hd
    · exact fun a ha => (hget a).trans (if_neg fun he => ha he.1)

def GoesOn (ts : List TaskId) (t : TaskId) (l : Loop) (next : World → World) : Prop :=
  ∀ v : World, v.current = some t → v.tasks[t]? = some (.loop l) → (∀ a ∈ ts, a ∉ v.ready) →
    ∃ m : Loop, m.context = l.context ∧ m.point = .head ∧ Leads ts (next v) (v.setLoop t m)

theorem goesOn_finishRound (hm : t ∈ ts) (l : Loop) :
    GoesOn ts t l fun v => v.finishRound t l := by
  intro v hc _ hn
  dsimp only
  unfold finishRound
  split
  · exact ⟨{ l with slice := 0, point := .head }, rfl, rfl, leads_yield hc hm hn⟩
  · exact ⟨{ l with slice := l.slice + 1, point := .head }, rfl, rfl, .refl _⟩

theorem goesOn_head (hl : l.point = .head) : GoesOn ts t l fun v => v.setLoop t l :=
  fun _ _ _ _ => ⟨l, rfl, hl, .refl _⟩

def handled (w : World) (c : ContextId) (f : Fault) (k : Installed) (x : Context) : World :=
  ((w.modifyContext c fun _ => x).modifyContext c fun x =>
    x.discardPending.executeNext [k.continuation]).record (.caught c f k)

theorem context_handled (hc : c < w.contexts.size) (f : Fault) (k : Installed) (x : Context) :
    (w.handled c f k x).context c = x.discardPending.executeNext [k.continuation] := by
  refine (context_modifyContext_self _ (by simpa using hc)).trans ?_
  rw [context_modifyContext_self _ hc]

theorem context_handled_of_ne (w : World) (f : Fault) (k : Installed) (x : Context) {d : ContextId}
    (hd : d ≠ c) : (w.handled c f k x).context d = w.context d :=
  (context_modifyContext_of_ne _ _ hd).trans (context_modifyContext_of_ne _ _ hd)

theorem raiseIn_caught {k : Installed} {x : Context}
    (hx : (w.context l.context).unwind f.name = (some k, x)) (next : World → World) :
    w.raiseIn t l f next = next (w.handled l.context f k x) := by
  unfold raiseIn
  rw [raise_caught hx]
  rfl

theorem leads_caught (hp : Placed w) (h : w.Poised t l) (hm : t ∈ ts) (hn : ∀ a ∈ ts, a ∉ w.ready)
    {next : World → World} (hnext : GoesOn ts t l next) {k : Installed}
    (hk : handlerOn? f.name (w.context l.context).scopes = some k) :
    ∃ v, Leads ts (w.raiseIn t l f next) v ∧
      Began (w.record (.caught l.context f k)) v t l.context k.continuation := by
  have hlt := hp.loop h.drives.task
  rw [← Context.unwind_fst] at hk
  rcases hx : (w.context l.context).unwind f.name with ⟨j, x⟩
  rw [hx] at hk
  obtain rfl : j = some k := hk
  have hbare := bare_unwind hx
  have hraise := raiseIn_caught (t := t) hx next
  have hself := context_handled hlt f k x
  obtain ⟨m, hmc, hmp, hgoes⟩ := hnext (w.handled l.context f k x) h.drives.current h.drives.task hn
  have hunstopped : (w.handled l.context f k x).Unstopped m.context := by
    rw [hmc]
    refine ⟨?_, ?_⟩
    · rw [hself]
      change x.bare.killer = none
      rw [hbare]
      exact h.unstopped.killer
    · rw [hself]
      change x.bare.escalated = none
      rw [hbare]
      exact h.unstopped.escalated
  have hpend : ((w.handled l.context f k x).context m.context).pending = [k.continuation] := by
    rw [hmc, hself]
    rfl
  have hsize : (w.handled l.context f k x).contexts.size = w.contexts.size := by
    simp [handled, record]
  have hget := fun a => getElem?_setTask (w := w.handled l.context f k x) t a (.loop m)
  have htask := (hget t).trans (if_pos ⟨rfl, (Array.getElem?_eq_some_iff.1 h.drives.task).1⟩)
  have hstart : ∃ v, Leads ts ((w.handled l.context f k x).setLoop t m) v ∧
      Began ((w.handled l.context f k x).setLoop t m) v t m.context k.continuation :=
    leads_next (by rw [hmc]; exact hsize ▸ hlt) h.drives.current htask hmp
      ⟨hunstopped.killer, hunstopped.escalated⟩ hpend hm hn
  obtain ⟨v, hv, hbegan⟩ := hstart
  rw [hmc] at hbegan
  rw [hraise]
  refine ⟨v, hgoes.trans hv, hbegan.after rfl (fun d hd => ?_) fun a ha => ?_⟩
  · exact context_handled_of_ne w f k x hd
  · exact (hget a).trans (if_neg fun he => ha he.1)

/-! ## Up the chain -/

/-- A fault has gone from context `c`, whose loop `t` is over, to the loop `m` of its parent. -/
structure Risen (w v : World) (f : Fault) (t : TaskId) (c : ContextId) (u : TaskId) (m : Loop) :
    Prop where
  placed : Placed v
  poised : v.Poised u m
  history : v.history = w.history
  fell : v.Fell f (.escalated f) t c
  scopes : (v.context c).scopes = []
  stack : (v.context m.context).scopes = (w.context m.context).scopes
  others : ∀ d, d ≠ c → d ≠ m.context → v.context d = w.context d
  ancestors : ∀ d, (v.context d).ancestors = (w.context d).ancestors
  idle : ∀ d a, a ∈ (v.context d).idle → a ∈ (w.context d).idle
  tasks : ∀ a, a ≠ t → a ≠ u → v.tasks[a]? = w.tasks[a]?
  undisturbed : ∀ a, w.Undisturbed a → a ∉ (w.context c).idle → v.Undisturbed a

theorem context_resumed (v : World) (rest : List TaskId) (u : TaskId) (m : Loop) (d : ContextId) :
    (v.resumed rest u m).context d =
      v.seen m.context d fun x => { x with escalated := none } := by
  unfold resumed
  rw [context_modifyContext']
  rfl

theorem resumed_field {α : Type} (g : Context → α) (hg : ∀ x, g { x with escalated := none } = g x)
    (v : World) (rest : List TaskId) (u : TaskId) (m : Loop) (d : ContextId) :
    g ((v.resumed rest u m).context d) = g (v.context d) := by
  rw [context_resumed]
  exact seen_field g hg _ d

theorem Handed.risen {m : Loop} {rest : List TaskId} (hp : Placed v)
    (h : Handed w v f t c u m.context) (hs : w.Suspended u m.context) (hmp : m.point = .head)
    (hut : u ≠ t) (hmc : m.context ≠ c) (hu : u < v.tasks.size) (hm : m.context < v.contexts.size)
    (hrest : ∀ a, w.Undisturbed a → a ∉ (w.context c).idle → Undisturbed { v with ready := rest } a) :
    Risen w (v.resumed rest u m) f t c u m := by
  have hget := fun a => getElem?_setTask (w := { v with current := some u, ready := rest }) u a
    (.loop m)
  have hplaced : Placed { v with current := some u, ready := rest } :=
    hp.withTasks v.tasks rest (some u) hp.tasks
  have hidle : ∀ d, ((v.resumed rest u m).context d).idle = (v.context d).idle :=
    resumed_field Context.idle (fun _ => rfl) v rest u m
  have hself : (v.resumed rest u m).context c = v.context c := by
    rw [context_resumed, seen_of_ne _ hmc.symm]
  have hund : ∀ a, w.Undisturbed a → a ∉ (w.context c).idle → (v.resumed rest u m).Undisturbed a :=
    fun a ha hi => (hrest a ha hi).congr rfl rfl
  refine {
    placed := (hplaced.setLoop u hm).steady (steady_modifyContext _ m.context _ fun _ => ⟨rfl, rfl⟩)
    poised := ⟨⟨rfl, (hget u).trans (if_pos ⟨rfl, hu⟩), by simp [Task.wait?, hmp],
      by simp [outcome?, hmp]⟩, ⟨?_, fun d hd => ?_⟩, ?_, ?_⟩
    history := h.history
    fell := ⟨?_, ?_, ?_⟩
    scopes := ?_
    stack := ?_
    others := fun d hdc hdm => ?_
    ancestors := fun d => ?_
    idle := fun d a ha => (h.idle d a (hidle d ▸ ha)).1
    tasks := fun a hat hau => ?_
    undisturbed := hund }
  · exact hund u hs.toUndisturbed fun hi => hmc (hs.there c hi).symm
  · rw [hidle] at hd
    obtain ⟨hw, hne⟩ := h.idle d u hd
    exact hne (hs.there d hw)
  · exact (resumed_field Context.killer (fun _ => rfl) v rest u m m.context).trans h.killer
  · rw [context_resumed, seen_self _ hm]
  · obtain ⟨l, hl, hlc, hlo⟩ := h.fell.ended
    refine ⟨l, (hget t).trans ?_, hlc, hlo⟩
    rw [if_neg fun he => hut he.1.symm]
    exact hl
  · rw [hself]
    exact h.fell.runState
  · rw [hself]
    exact h.fell.killer
  · rw [hself]
    exact h.scopes
  · exact (resumed_field Context.scopes (fun _ => rfl) v rest u m m.context).trans h.stack
  · rw [context_resumed, seen_of_ne _ hdm]
    exact h.others d hdc hdm
  · exact (resumed_field Context.ancestors (fun _ => rfl) v rest u m d).trans (h.ancestors d)
  · refine (hget a).trans ?_
    rw [if_neg fun he => hau he.1]
    exact h.tasks a hat

theorem leads_parent (hp : Placed w) (h : w.Poised t l) (next : World → World)
    (hn : handlerOn? f.name (w.context l.context).scopes = none)
    (hpar : (w.context l.context).parent? = some p) (hs : w.Suspended u p) (hu : u ∈ ts)
    (hts : ∀ a ∈ ts, w.Undisturbed a ∧ a ∉ (w.context l.context).idle) :
    ∃ v m, m.context = p ∧ m.point = .head ∧ Risen w v f t l.context u m ∧
      Leads ts (w.raiseIn t l f next) (v.raiseIn u m f fun x => x.setLoop u m) := by
  obtain ⟨hplaced, hv⟩ := raiseIn_child hp h next hn hpar hs
  obtain ⟨rest, hready, hund⟩ := hv.ready
  obtain ⟨m, hmt, hmc, hmi⟩ := hs.loop
  -- the loop at work is in no wait, and that of the parent is
  have hut : u ≠ t := by
    rintro rfl
    refine h.dormant.idle p ?_
    rw [hs.alone]
    exact .head _
  have hmt' := (hv.tasks u hut).trans hmt
  have hmlt : m.context < (w.raiseIn t l f next).contexts.size := hplaced.loop hmt'
  have hpc : m.context ≠ l.context := by
    rw [hmc]
    exact Nat.ne_of_lt (parent_lt hp hpar)
  subst hmc
  refine ⟨_, { m with point := .head }, rfl, rfl, ?_,
    leads_resumed hv.current hu hready
      (fun a ha => (hund a (hts a ha).1 (hts a ha).2).ready) hmt' hmi hv.killer hv.escalated⟩
  exact Handed.risen (m := { m with point := .head }) hplaced hv hs rfl hut hpc
    (Array.getElem?_eq_some_iff.1 hmt').1 hmlt hund

theorem Chain.suspended (hp : Placed w) {above : List (TaskId × ContextId)} (h : w.Chain c above) :
    ∀ q ∈ above, w.Suspended q.1 q.2 ∧ q.2 < c := by
  induction h with
  | root => exact fun q hq => by cases hq
  | child hpar hs _ ih =>
    intro q hq
    rcases List.mem_cons.1 hq with rfl | hq
    · exact ⟨hs, parent_lt hp hpar⟩
    · exact ⟨(ih q hq).1, Nat.lt_trans (ih q hq).2 (parent_lt hp hpar)⟩

theorem Suspended.ne_of_dormant (h : w.Suspended u c) (ht : w.Dormant t) : u ≠ t := by
  rintro rfl
  refine ht.idle c ?_
  rw [h.alone]
  exact .head _

theorem Suspended.congr {d : ContextId} (h : w.Suspended u d) (hv : v.Undisturbed u)
    (ht : v.tasks[u]? = w.tasks[u]?) (hc : v.context d = w.context d)
    (hi : ∀ e, u ∈ (v.context e).idle → u ∈ (w.context e).idle) : v.Suspended u d where
  toUndisturbed := hv
  loop := ht ▸ h.loop
  alone := hc ▸ h.alone
  there e he := h.there e (hi e he)
  unstopped := ⟨hc ▸ h.unstopped.killer, hc ▸ h.unstopped.escalated⟩
  running := hc ▸ h.running

namespace Risen

variable {m : Loop} {above : List (TaskId × ContextId)}

theorem dormant {a : TaskId} (h : Risen w v f t c u m) (ha : w.Dormant a) : v.Dormant a where
  toUndisturbed := h.undisturbed a ha.toUndisturbed (ha.idle c)
  idle d hd := ha.idle d (h.idle d a hd)

theorem chain (h : Risen w v f t c u m) (hp : Placed w) (ht : w.Dormant t)
    (hu : w.Suspended u m.context) (hlt : m.context < c) {e : ContextId}
    (he : e ≤ m.context) (hc : w.Chain e above) : v.Chain e above := by
  induction hc with
  | @root e hpar => exact .root ((congrArg List.head? (h.ancestors e)).trans hpar)
  | @child e q a above hpar hs _ ih =>
    have hq : q < m.context := Nat.lt_of_lt_of_le (parent_lt hp hpar) he
    have hqc : q ≠ c := Nat.ne_of_lt (Nat.lt_trans hq hlt)
    have hqm : q ≠ m.context := Nat.ne_of_lt hq
    have hau : a ≠ u := by
      rintro rfl
      refine hqm (hu.there q ?_)
      rw [hs.alone]
      exact .head _
    have hv := h.undisturbed a hs.toUndisturbed fun hi => hqc (hs.there c hi).symm
    refine .child ((congrArg List.head? (h.ancestors e)).trans hpar) ?_ (ih (Nat.le_of_lt hq))
    exact hs.congr hv (h.tasks a (hs.ne_of_dormant ht) hau) (h.others q hqc hqm) fun d => h.idle d a

theorem stack_of_ne (h : Risen w v f t c u m) {d : ContextId} (hd : d ≠ c) :
    (v.context d).scopes = (w.context d).scopes := by
  by_cases hm : d = m.context
  · rw [hm]
    exact h.stack
  · rw [h.others d hd hm]

end Risen

/-- Context `c` runs its handler, those it `passed` are over, and those further out are as before. -/
structure Landed (w v : World) (f : Fault) (u : TaskId) (c : ContextId) (k : Installed)
    (passed outer : List (TaskId × ContextId)) : Prop where
  history : v.history = (w.history.push (.caught c f k)).push (.started c k.continuation)
  runs : ∃ m, v.Runs u m ⟨k.continuation.name, k.continuation.traced⟩ k.continuation.steps ∧
    m.context = c
  passed : ∀ q ∈ passed, v.Fell f (.escalated f) q.1 q.2 ∧ (v.context q.2).scopes = []
  outer : ∀ q ∈ outer, v.context q.2 = w.context q.2 ∧ v.tasks[q.1]? = w.tasks[q.1]?

theorem Fell.congr {o : Outcome} (h : w.Fell f o t c) (ht : v.tasks[t]? = w.tasks[t]?)
    (hc : v.context c = w.context c) : v.Fell f o t c where
  ended := ht ▸ h.ended
  runState := hc ▸ h.runState
  killer := hc ▸ h.killer

def Sleeps (w : World) (ts : List TaskId) (above : List (TaskId × ContextId)) : Prop :=
  ∀ a ∈ ts, w.Dormant a ∨ ∃ d, (a, d) ∈ above

theorem Sleeps.undisturbed {above : List (TaskId × ContextId)} (h : w.Sleeps ts above)
    (hp : Placed w) (hc : w.Chain c above) :
    ∀ a ∈ ts, w.Undisturbed a ∧ a ∉ (w.context c).idle := by
  intro a ha
  rcases h a ha with hd | ⟨d, hd⟩
  · exact ⟨hd.toUndisturbed, hd.idle c⟩
  · obtain ⟨hs, hlt⟩ := hc.suspended hp _ hd
    exact ⟨hs.toUndisturbed, fun hi => Nat.ne_of_lt hlt (hs.there c hi).symm⟩

theorem Risen.sleeps {m : Loop} {above : List (TaskId × ContextId)} (h : Risen w v f t c u m)
    (hs : w.Sleeps ts ((u, m.context) :: above)) : v.Sleeps ts above := by
  intro a ha
  rcases hs a ha with hd | ⟨d, hd⟩
  · exact .inl (h.dormant hd)
  · rcases List.mem_cons.1 hd with he | hd
    · obtain ⟨rfl, -⟩ := Prod.mk.inj he
      exact .inl h.poised.dormant
    · exact .inr ⟨d, hd⟩

theorem mem_of_split {α : Type} {a b : α} {xs ys zs : List α} (h : a :: xs = ys ++ b :: zs) :
    ∀ q ∈ zs, q ∈ xs := by
  intro q hq
  rcases ys with _ | ⟨y, ys⟩
  · obtain ⟨-, rfl⟩ := List.cons.inj h
    exact hq
  · obtain ⟨-, rfl⟩ := List.cons.inj h
    exact List.mem_append_right _ (.tail _ hq)

theorem leads_handler {passed outer : List (TaskId × ContextId)} {k : Installed} :
    ∀ {w : World} {t : TaskId} {l : Loop} {next : World → World} {above : List (TaskId × ContextId)},
      Placed w → w.Poised t l → w.Chain l.context above → t ∈ ts → (∀ q ∈ above, q.1 ∈ ts) →
      w.Sleeps ts above → GoesOn ts t l next → (t, l.context) :: above = passed ++ (u, c) :: outer →
      (∀ q ∈ passed, handlerOn? f.name (w.context q.2).scopes = none) →
      handlerOn? f.name (w.context c).scopes = some k →
      ∃ v, Leads ts (w.raiseIn t l f next) v ∧ Landed w v f u c k passed outer ∧
        (∀ d, l.context < d → v.context d = w.context d) ∧
        ∀ a, w.Dormant a → a ≠ t → v.tasks[a]? = w.tasks[a]? := by
  -- on the contexts that cannot handle it: when one falls, the loop of its parent is poised instead
  induction passed with
  | nil =>
    intro w t l next above hp h hc ht _ hs hnext hsplit _ hk
    obtain ⟨he, rfl⟩ := List.cons.inj hsplit
    obtain ⟨rfl, rfl⟩ := Prod.mk.inj he
    have hn : ∀ a ∈ ts, a ∉ w.ready := fun a ha => (hs.undisturbed hp hc a ha).1.ready
    obtain ⟨v, hv, hb⟩ := leads_caught hp h ht hn hnext hk
    refine ⟨v, hv, ⟨hb.history, hb.runs, fun q hq => absurd hq List.not_mem_nil, fun q hq => ?_⟩,
      fun d hd => ?_, fun a _ ha => hb.tasks a ha⟩
    · obtain ⟨hq, hlt⟩ := hc.suspended hp q hq
      exact ⟨hb.others q.2 (Nat.ne_of_lt hlt), hb.tasks q.1 (hq.ne_of_dormant h.dormant)⟩
    · exact hb.others d (Nat.ne_of_gt hd)
  | cons q passed ih =>
    intro w t l next above hp h hc ht habove hs hnext hsplit hnone hk
    obtain ⟨rfl, hrest⟩ := List.cons.inj hsplit
    cases hc with
    | root => simp at hrest
    | @child _ p a above hpar hsa hc =>
      have hts := hs.undisturbed hp (.child hpar hsa hc)
      obtain ⟨v, m, rfl, hmp, hr, hlead⟩ :=
        leads_parent hp h next (hnone _ (.head _)) hpar hsa (habove _ (.head _)) hts
      have hlt := parent_lt hp hpar
      have hmem : ∀ q ∈ passed ++ (u, c) :: outer, w.Suspended q.1 q.2 ∧ q.2 < l.context :=
        fun q hq => Chain.suspended hp (.child hpar hsa hc) q (hrest ▸ hq)
      have hstack : ∀ q ∈ passed ++ (u, c) :: outer,
          (v.context q.2).scopes = (w.context q.2).scopes := fun q hq =>
        hr.stack_of_ne (Nat.ne_of_lt (hmem q hq).2)
      obtain ⟨v', hv', hland, hyoung, hdormant⟩ := ih hr.placed hr.poised
        (hr.chain hp h.dormant hsa hlt (Nat.le_refl _) hc) (habove _ (.head _))
        (fun q hq => habove q (.tail _ hq)) (hr.sleeps hs) (goesOn_head hmp) hrest
        (fun q hq => by rw [hstack q (List.mem_append_left _ hq)]; exact hnone q (.tail _ hq))
        (by rw [hstack (u, c) (List.mem_append_right _ (.head _))]; exact hk)
      refine ⟨v', hlead.trans hv', ⟨?_, hland.runs, fun q hq => ?_, fun q hq => ?_⟩, fun d hd => ?_,
        fun b hb hbt => ?_⟩
      · rw [hland.history, hr.history]
      · rcases List.mem_cons.1 hq with rfl | hq
        · have hself := hyoung _ hlt
          have htask := hdormant t (hr.dormant h.dormant) (hsa.ne_of_dormant h.dormant).symm
          exact ⟨hr.fell.congr htask hself, (congrArg Context.scopes hself).trans hr.scopes⟩
        · exact hland.passed q hq
      · obtain ⟨hq', hlt'⟩ := hc.suspended hp q (mem_of_split hrest q hq)
        obtain ⟨hctx, htask⟩ := hland.outer q hq
        have hqm := Nat.ne_of_lt hlt'
        have hqa : q.1 ≠ a := by
          intro he
          refine hqm (hsa.there q.2 ?_)
          rw [hq'.alone, he]
          exact .head _
        exact ⟨hctx.trans (hr.others q.2 (Nat.ne_of_lt (Nat.lt_trans hlt' hlt)) hqm),
          htask.trans (hr.tasks q.1 (hq'.ne_of_dormant h.dormant) hqa)⟩
      · have hmd := Nat.lt_trans hlt hd
        exact (hyoung d hmd).trans (hr.others d (Nat.ne_of_gt hd) (Nat.ne_of_gt hmd))
      · have hba : b ≠ a := (hsa.ne_of_dormant hb).symm
        exact (hdormant b (hr.dormant hb) hba).trans (hr.tasks b hbt hba)

def fate (w : World) (f : Fault) (c : ContextId) : Outcome :=
  if (w.context c).parent?.isNone then .failed f else .escalated f

theorem raiseIn_root (hp : Placed w) (h : w.Poised t l) (next : World → World)
    (hn : handlerOn? f.name (w.context l.context).scopes = none)
    (hroot : (w.context l.context).parent? = none) :
    (w.raiseIn t l f next).current = none ∧ (w.raiseIn t l f next).history = w.history ∧
      (w.raiseIn t l f next).Fell f (.failed f) t l.context ∧
      (∀ d, d ≠ l.context → (w.raiseIn t l f next).context d = w.context d) ∧
      (∀ a, a ≠ t → (w.raiseIn t l f next).tasks[a]? = w.tasks[a]?) ∧
      ∀ a, w.Undisturbed a → a ∉ (w.context l.context).idle →
        a ∉ (w.raiseIn t l f next).ready := by
  rcases hx : (w.context l.context).unwind f.name with ⟨_ | k, x⟩
  · have hv := felled (hp.loop h.drives.task) h.unstopped.killer hx
    have hrootv : ((w.fallen l.context f x).context l.context).parent? = none := by
      rw [Context.parent?, hv.ancestors]
      exact hroot
    have hraise := raise_fallen (hp.loop h.drives.task) h.unstopped.killer hx
    rw [hroot] at hraise
    have hend : w.raiseIn t l f next = (w.fallen l.context f x).endLoop t l (.failed f) := by
      unfold raiseIn
      rw [hraise]
    rw [hend]
    generalize w.fallen l.context f x = a at *
    have hctx : ∀ d, (a.endLoop t l (.failed f)).context d = a.context d := fun d =>
      endLoop_context a t l _ (by rw [hrootv]; exact Option.some_ne_none d |>.symm)
    obtain ⟨hcur, hhist⟩ := endLoop_kept a t l (.failed f)
    obtain ⟨hready, -⟩ := endLoop_ready a t l (.failed f) fun q hq => by
      rw [hrootv] at hq
      cases hq
    have hset := endLoop_tasks a t l (.failed f)
    have hlt : t < a.tasks.size := by
      rw [hv.tasks]
      exact (Array.getElem?_eq_some_iff.1 h.drives.task).1
    refine ⟨hcur, hhist.trans hv.history, ⟨⟨{ l with point := .ended (.failed f) }, ?_, rfl, rfl⟩,
      ?_, ?_⟩, fun d hd => (hctx d).trans (hv.others d hd), fun b hb => ?_, fun b hb hi => ?_⟩
    · rw [hset]
      exact (getElem?_setTask (w := a) t t _).trans (if_pos ⟨rfl, hlt⟩)
    · rw [hctx]
      exact hv.runState
    · rw [hctx]
      exact hv.killer
    · rw [hset]
      refine (getElem?_setTask (w := a) t b _).trans ?_
      rw [if_neg fun he => hb he.1, hv.tasks]
    · rw [hready]
      exact (hv.undisturbed b hb hi).ready
  · rw [← Context.unwind_fst, hx] at hn
    cases hn

theorem leads_end {above : List (TaskId × ContextId)} :
    ∀ {w : World} {t : TaskId} {l : Loop} (next : World → World),
      Placed w → w.Poised t l → w.Chain l.context above → t ∈ ts → (∀ q ∈ above, q.1 ∈ ts) →
      w.Sleeps ts above →
      (∀ q ∈ (t, l.context) :: above, handlerOn? f.name (w.context q.2).scopes = none) →
      ∃ v, Leads ts (w.raiseIn t l f next) v ∧ v.current = none ∧ (∀ a ∈ ts, a ∉ v.ready) ∧
        v.history = w.history ∧ (∀ q ∈ (t, l.context) :: above, v.Fell f (w.fate f q.2) q.1 q.2) ∧
        (∀ d, l.context < d → v.context d = w.context d) ∧
        ∀ a, w.Dormant a → a ≠ t → v.tasks[a]? = w.tasks[a]? := by
  -- the same way up, now to the end of the chain
  induction above with
  | nil =>
    intro w t l next hp h hc ht _ hs hnone
    cases hc with
    | root hroot =>
      obtain ⟨hcur, hhist, hfell, hctx, htasks, hready⟩ :=
        raiseIn_root hp h next (hnone _ (.head _)) hroot
      refine ⟨_, .refl _, hcur, fun a ha => ?_, hhist, fun q hq => ?_,
        fun d hd => hctx d (Nat.ne_of_gt hd), fun a _ => htasks a⟩
      · obtain ⟨hu, hi⟩ := hs.undisturbed hp (.root hroot) a ha
        exact hready a hu hi
      · obtain rfl := List.mem_singleton.1 hq
        simpa [fate, hroot] using hfell
  | cons q above ih =>
    intro w t l next hp h hc ht habove hs hnone
    cases hc with
    | @child _ p a _ hpar hsa hc =>
      have hts := hs.undisturbed hp (.child hpar hsa hc)
      obtain ⟨v, m, rfl, hmp, hr, hlead⟩ :=
        leads_parent hp h next (hnone _ (.head _)) hpar hsa (habove _ (.head _)) hts
      have hlt := parent_lt hp hpar
      have hmem : ∀ q ∈ (a, m.context) :: above, w.Suspended q.1 q.2 ∧ q.2 < l.context :=
        Chain.suspended hp (.child hpar hsa hc)
      have hfate : ∀ d, v.fate f d = w.fate f d := fun d => by
        unfold fate Context.parent?
        rw [hr.ancestors]
      obtain ⟨v', hv', hcur, hready, hhist, hfell, hyoung, hdormant⟩ := ih _ hr.placed hr.poised
        (hr.chain hp h.dormant hsa hlt (Nat.le_refl _) hc) (habove _ (.head _))
        (fun q hq => habove q (.tail _ hq)) (hr.sleeps hs) fun q hq => by
          rw [hr.stack_of_ne (Nat.ne_of_lt (hmem q hq).2)]
          exact hnone q (.tail _ hq)
      refine ⟨v', hlead.trans hv', hcur, hready, hhist.trans hr.history, fun q hq => ?_,
        fun d hd => ?_, fun b hb hbt => ?_⟩
      · rcases List.mem_cons.1 hq with rfl | hq
        · have hself := hyoung _ hlt
          have htask := hdormant t (hr.dormant h.dormant) (hsa.ne_of_dormant h.dormant).symm
          simpa [fate, hpar] using hr.fell.congr htask hself
        · exact hfate q.2 ▸ hfell q hq
      · have hmd := Nat.lt_trans hlt hd
        exact (hyoung d hmd).trans (hr.others d (Nat.ne_of_gt hd) (Nat.ne_of_gt hmd))
      · have hba : b ≠ a := (hsa.ne_of_dormant hb).symm
        exact (hdormant b (hr.dormant hb) hba).trans (hr.tasks b hbt hba)

theorem Chain.congr {above : List (TaskId × ContextId)} (h : w.Chain c above)
    (ht : v.tasks = w.tasks) (hr : v.ready = w.ready) (hh : v.handles = w.handles)
    (hc : ∀ d, v.context d = w.context d) : v.Chain c above := by
  induction h with
  | root hpar => exact .root (hc _ ▸ hpar)
  | @child c p a above hpar hs _ ih =>
    refine .child (hc _ ▸ hpar) (hs.congr (hs.toUndisturbed.congr hr hh) ?_ (hc p) ?_) ih
    · rw [ht]
    · intro d hd
      rw [hc] at hd
      exact hd

theorem failStep_eq (hu : w.Unstopped l.context) (t : TaskId) (frame : Frame) (f : Fault) :
    w.failStep t l frame f =
      ((w.record (.raised l.context frame f)).modifyContext l.context fun x =>
        { x with escalated := none }).raiseIn t l f fun v => v.finishRound t l := by
  have hk : ((w.record (.raised l.context frame f)).context l.context).killer = none := hu.killer
  have he : ((w.record (.raised l.context frame f)).context l.context).escalated = none :=
    hu.escalated
  unfold failStep failContinuation
  dsimp only
  rw [hk, he]
  rfl

theorem context_unescalated (hu : w.Unstopped c) (d : ContextId) :
    (w.modifyContext c fun x => { x with escalated := none }).context d = w.context d := by
  have hsame : ∀ x : Context, x.escalated = none → { x with escalated := none } = x := by
    rintro ⟨⟩ rfl
    rfl
  rw [context_modifyContext]
  split
  · rename_i hd
    exact hsame _ (hd.1 ▸ hu.escalated)
  · rfl

/-- A fault goes up the chain of waiting parents to the first handler, which starts next. -/
theorem fault_propagates (hp : Placed w) {frame : Frame} {rest : List Step}
    {above : List (TaskId × ContextId)} (hr : w.Runs t l frame rest) (hd : w.Dormant t)
    (hu : w.Unstopped l.context) (hc : w.Chain l.context above) (f : Fault) :
    (∀ passed u c outer k, (t, l.context) :: above = passed ++ (u, c) :: outer →
      (∀ q ∈ passed, handlerOn? f.name (w.context q.2).scopes = none) →
      handlerOn? f.name (w.context c).scopes = some k →
      ∃ v, Leads (t :: above.map Prod.fst) (w.failStep t l frame f) v ∧
        Landed (w.record (.raised l.context frame f)) v f u c k passed outer) ∧
    ((∀ q ∈ (t, l.context) :: above, handlerOn? f.name (w.context q.2).scopes = none) →
      ∃ v, Leads (t :: above.map Prod.fst) (w.failStep t l frame f) v ∧
        (∀ v', ¬v.StepAmong (t :: above.map Prod.fst) v') ∧
        v.history = w.history.push (.raised l.context frame f) ∧
        ∀ q ∈ (t, l.context) :: above, v.Fell f (w.fate f q.2) q.1 q.2) := by
  have hctx := context_unescalated (w := w.record (.raised l.context frame f)) (c := l.context)
    ⟨hu.killer, hu.escalated⟩
  have hplaced := (hp.steady (edits_record w (e := .raised l.context frame f) rfl).steady).steady
    (signals_takeEscalated (w.record (.raised l.context frame f)) l.context).steady
  have hdrives : Drives ((w.record (.raised l.context frame f)).modifyContext l.context fun x =>
      { x with escalated := none }) t l :=
    ⟨hr.1, hr.2.1, hr.drives.awake, hr.drives.unfinished⟩
  have hdormant : Dormant ((w.record (.raised l.context frame f)).modifyContext l.context fun x =>
      { x with escalated := none }) t :=
    ⟨hd.toUndisturbed.congr rfl rfl, fun d => by rw [hctx]; exact hd.idle d⟩
  have hchain : Chain ((w.record (.raised l.context frame f)).modifyContext l.context fun x =>
      { x with escalated := none }) l.context above := hc.congr rfl rfl rfl hctx
  have hhist : ((w.record (.raised l.context frame f)).modifyContext l.context fun x =>
      { x with escalated := none }).history = w.history.push (.raised l.context frame f) := rfl
  have htasks : ((w.record (.raised l.context frame f)).modifyContext l.context fun x =>
      { x with escalated := none }).tasks = w.tasks := rfl
  -- nothing was escalated, so the world in which the fault is raised has the same contexts
  rw [failStep_eq hu]
  generalize (w.record (.raised l.context frame f)).modifyContext l.context (fun x =>
    { x with escalated := none }) = w₁ at *
  have hpoised : Poised w₁ t l :=
    ⟨hdrives, hdormant, ⟨by rw [hctx]; exact hu.killer, by rw [hctx]; exact hu.escalated⟩⟩
  have hsleeps : Sleeps w₁ (t :: above.map Prod.fst) above := by
    intro a ha
    rcases List.mem_cons.1 ha with rfl | ha
    · exact .inl hdormant
    · obtain ⟨q, hq, rfl⟩ := List.mem_map.1 ha
      exact .inr ⟨q.2, hq⟩
  have habove : ∀ q ∈ above, q.1 ∈ t :: above.map Prod.fst := fun q hq =>
    .tail _ (List.mem_map_of_mem hq)
  refine ⟨fun passed u c outer k hsplit hnone hk => ?_, fun hnone => ?_⟩
  · obtain ⟨v, hv, hland, -⟩ := leads_handler hplaced hpoised hchain (.head _) habove hsleeps
      (goesOn_finishRound (.head _) l) hsplit (fun q hq => by rw [hctx]; exact hnone q hq)
      (by rw [hctx]; exact hk)
    refine ⟨v, hv, ⟨?_, hland.runs, hland.passed, fun q hq => ?_⟩⟩
    · rw [hland.history, hhist]
      rfl
    · obtain ⟨hc', ht'⟩ := hland.outer q hq
      exact ⟨hc'.trans (hctx q.2), by rw [ht', htasks]; rfl⟩
  · obtain ⟨v, hv, hcur, hready, hh, hfell, -⟩ := leads_end (fun v => v.finishRound t l)
      hplaced hpoised hchain (.head _) habove hsleeps fun q hq => by
        rw [hctx]
        exact hnone q hq
    refine ⟨v, hv, fun v' hs => ?_, hh.trans hhist, fun q hq => ?_⟩
    · unfold StepAmong at hs
      rw [hcur] at hs
      obtain ⟨a, ha, har, -⟩ := hs
      exact hready a ha har
    · have hfate : w₁.fate f q.2 = w.fate f q.2 := by
        unfold fate
        rw [hctx]
        rfl
      exact hfate ▸ hfell q hq

theorem refund_started : ∃ (w v : World) (l : Loop) (k : Installed),
    Reachable False (fun _ => True) w ∧ w.Runs 1 l ⟨"charge", false⟩ [] ∧
    Leads [1, 0] (w.failStep 1 l ⟨"charge", false⟩ ⟨"declined", none, .null⟩) v ∧
    Landed (w.record (.raised l.context ⟨"charge", false⟩ ⟨"declined", none, .null⟩)) v
      ⟨"declined", none, .null⟩ 0 0 k [(1, 1)] [] := by
  have h1 : Reachable False (fun _ => True) (rooted "order" "shop" "main" 1 none) :=
    .rooted _ _ _ _ _ trivial trivial
  have h2 := h1.next (.call (.inl rfl)
    (.edit (.installHandler 0 "declined" ⟨"refund", false, []⟩))) trivial
  have h3 := h2.next (.call (.inl rfl)
    (.child 0 "pay" (some ⟨"charge", false, []⟩) (by decide))) trivial
  have h4 := h3.next (.call (.inl rfl) (.start 0 (by decide))) trivial
  have h5 := h4.next (.call (.inl rfl) (.start 1 (by decide))) trivial
  have h6 := h5.next (.pick 0 rfl (by decide)) trivial
  have h7 := h6.next (.drive (t := 0) rfl rfl rfl) trivial
  have h8 := h7.next (.drive (t := 0) rfl rfl rfl) trivial
  have h9 := h8.next (.pick 1 rfl (by decide)) trivial
  have h10 := h9.next (.drive (t := 1) rfl rfl rfl) trivial
  have h11 := h10.next (.drive (t := 1) rfl rfl rfl) trivial
  have hs := h11.scheduled
  obtain ⟨hcaught, -⟩ := fault_propagates (t := 1) h11.placed ⟨rfl, rfl, rfl⟩
    (hs.dormant ⟨rfl, rfl, rfl⟩) ⟨rfl, rfl⟩
    (.child rfl (hs.suspended (t := 0) rfl rfl ⟨rfl, rfl⟩ rfl) (.root rfl)) ⟨"declined", none, .null⟩
  obtain ⟨v, hv, hland⟩ := hcaught [(1, 1)] 0 0 [] _ rfl
    (fun q hq => by obtain rfl := List.mem_singleton.1 hq; rfl) rfl
  exact ⟨_, v, _, _, h11, ⟨rfl, rfl, rfl⟩, hv, hland⟩

end SagaEngine.World
