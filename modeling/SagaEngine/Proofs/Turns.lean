import SagaEngine.Proofs.Signals

/-! Steps of some of the tasks, while nothing else happens, and what wakes a task or lets it sleep. -/

namespace SagaEngine.World

variable {w w' w'' : World} {ts : List TaskId} {t u : TaskId}

def StepAmong (ts : List TaskId) (w w' : World) : Prop :=
  match w.current with
  | some t => t ∈ ts ∧ w' = w.taskStep t
  | none => ∃ t ∈ ts, t ∈ w.ready ∧ w' = { w with current := some t, ready := w.ready.erase t }

/-- The tasks `ts` take `w` to `w'`: each of their steps is the only one that they can take. -/
inductive Leads (ts : List TaskId) : World → World → Prop where
  | refl (w : World) : Leads ts w w
  | head {w w' w'' : World} :
      (∀ v, w.StepAmong ts v ↔ v = w') → Leads ts w' w'' → Leads ts w w''

theorem Leads.trans (h : Leads ts w w') (h' : Leads ts w' w'') : Leads ts w w'' := by
  induction h with
  | refl w => exact h'
  | head hs _ ih => exact .head hs (ih h')

theorem leads_step (hc : w.current = some t) (ht : t ∈ ts) : Leads ts w (w.taskStep t) := by
  refine .head (fun v => ?_) (.refl _)
  unfold StepAmong
  rw [hc]
  exact ⟨And.right, fun hv => ⟨ht, hv⟩⟩

theorem leads_pick {rest : List TaskId} (hc : w.current = none) (ht : t ∈ ts)
    (hr : w.ready = rest ++ [t]) (hn : ∀ u ∈ ts, u ∉ rest) :
    Leads ts w { w with current := some t, ready := rest } := by
  have herase : w.ready.erase t = rest := by
    rw [hr, List.erase_append_right [t] (hn t ht)]
    simp
  have honly : ∀ u ∈ ts, u ∈ w.ready → u = t := by
    intro u hu hur
    rw [hr] at hur
    rcases List.mem_append.1 hur with hur | hur
    · exact absurd hur (hn u hu)
    · exact List.mem_singleton.1 hur
  refine .head (fun v => ?_) (.refl _)
  unfold StepAmong
  rw [hc]
  constructor
  · rintro ⟨u, hu, hur, rfl⟩
    obtain rfl := honly u hu hur
    rw [herase]
  · rintro rfl
    refine ⟨t, ht, ?_, by rw [herase]⟩
    rw [hr]
    exact List.mem_append_right _ (.head _)

theorem leads_yield {task : Task} (hc : w.current = some t) (ht : t ∈ ts)
    (hn : ∀ u ∈ ts, u ∉ w.ready) :
    Leads ts ((w.setTask t task).yieldTask t) (w.setTask t task) := by
  have hpick : Leads ts ((w.setTask t task).yieldTask t)
      { (w.setTask t task).yieldTask t with current := some t, ready := w.ready } :=
    leads_pick rfl ht rfl hn
  have hback : { (w.setTask t task).yieldTask t with current := some t, ready := w.ready } =
      w.setTask t task := by
    rw [← hc]
    rfl
  rw [hback] at hpick
  exact hpick

/-! ## Undisturbed tasks -/

structure Undisturbed (w : World) (t : TaskId) : Prop where
  ready : t ∉ w.ready
  asleep : ∀ h, w.handles.isLive h = true → w.sleeper? h ≠ some t

namespace Undisturbed

theorem congr (h : Undisturbed w t) (hr : w'.ready = w.ready) (hh : w'.handles = w.handles) :
    Undisturbed w' t where
  ready := hr ▸ h.ready
  asleep i hi := by
    unfold sleeper?
    rw [hh] at hi ⊢
    exact h.asleep i hi

theorem wake (h : Undisturbed w t) (hu : t ≠ u) : Undisturbed (w.wake u) t where
  ready hr := ((ready_wake w u).1 hr).elim h.ready hu
  asleep i hi := by
    unfold sleeper?
    rw [handles_wake] at hi ⊢
    exact h.asleep i hi

theorem cancelHandle (h : Undisturbed w t) (k : HandleId) : Undisturbed (w.cancelHandle k).2 t where
  ready := by
    rw [cancelHandle_eq]
    split
    · rename_i hl
      have hsleep : (w.withHandles (w.handles.cancel k).2).sleeper? k = w.sleeper? k :=
        Handles.sleeper_cancel ..
      rw [wakeSleeper_eq, hsleep]
      rcases hs : w.sleeper? k with _ | u
      · exact h.ready
      · intro hr
        rcases (ready_wake _ u).1 hr with hr | rfl
        · exact h.ready hr
        · exact h.asleep k hl hs
    · exact h.ready
  asleep i hi := by
    rw [handles_cancelHandle, Handles.isLive_cancel, Bool.and_eq_true] at hi
    rw [(signals_cancelHandle w k).sleeper]
    exact h.asleep i hi.1

theorem cancelHandles (ks : List HandleId) (h : Undisturbed w t) :
    Undisturbed (w.cancelHandles ks) t := by
  induction ks generalizing w with
  | nil => exact h
  | cons k ks ih => exact ih (h.cancelHandle k)

theorem cancelRegistered (h : Undisturbed w t) (c : ContextId) :
    Undisturbed (w.cancelRegistered c) t := by
  rw [cancelRegistered_eq]
  exact (h.cancelHandles _).congr rfl rfl

theorem notify (h : Undisturbed w t) {c : ContextId} (hi : t ∉ (w.context c).idle) :
    Undisturbed (w.notify c) t := by
  unfold World.notify
  split
  · rename_i u idle hidle
    have hv : Undisturbed (w.modifyContext c fun x => { x with idle }) t := h.congr rfl rfl
    refine hv.wake ?_
    rintro rfl
    exact hi (hidle ▸ .head _)
  · exact h.congr rfl rfl

theorem kill (h : Undisturbed w t) {c : ContextId} (hi : t ∉ (w.context c).idle) (f : Fault) :
    Undisturbed (w.kill c f) t := by
  have hv : Undisturbed (w.modifyContext c fun x => { x with killer := x.killer.or (some f) }) t :=
    h.congr rfl rfl
  refine (hv.cancelRegistered c).notify ?_
  rw [context_cancelRegistered, seen]
  have hidle := context_modifyContext_congr Context.idle
    (f := fun x => { x with killer := x.killer.or (some f) }) (fun _ => rfl) w c c
  split
  · exact hidle ▸ hi
  · exact hidle ▸ hi

end Undisturbed

theorem notify_alone {c : ContextId} (hi : (w.context c).idle = [t]) (hr : t ∉ w.ready) :
    w.notify c = { w.modifyContext c fun x => { x with idle := [] } with
      ready := w.ready ++ [t] } := by
  unfold notify
  rw [hi]
  dsimp only
  rw [wake_eq]
  have hn : (w.modifyContext c fun x => { x with idle := [] }).ready.contains t = false := by
    simpa [modifyContext] using hr
  rw [hn]
  rfl

theorem ready_notify_empty {c : ContextId} (hi : (w.context c).idle = []) :
    (w.notify c).ready = w.ready := by
  unfold notify
  rw [hi]
  rfl

end SagaEngine.World
