import SagaEngine.Proofs.Waits

/-! Tasks are woken by what they wait for. A task that is not over runs, is ready, is entered in the
wait for activity of its context, or sleeps on a wait that has not resolved and whose handle wakes it. -/

namespace SagaEngine.World

variable {w w' w'' : World} {admits : World → Prop}

/-- Where a task that is neither running nor ready is suspended. -/
inductive Rests (w : World) (t : TaskId) : Task → Prop where
  | idle {l : Loop} : t ∈ (w.context l.context).idle → Rests w t (.loop l)
  | asleep {task : Task} {i : WaitId} {h : HandleId} :
      task.wait? = some i → w.waitHandle? i = some h → w.sleeper? h = some t →
      w.resolution? i = none → Rests w t task

structure Scheduled (w : World) : Prop where
  ready_lt : ∀ t ∈ w.ready, t < w.tasks.size
  ready_nodup : w.ready.Nodup
  current_lt : ∀ t, w.current = some t → t < w.tasks.size
  current_out : ∀ t, w.current = some t → t ∉ w.ready
  idle_at : ∀ c, ∀ t ∈ (w.context c).idle, t ∉ w.ready ∧ w.current ≠ some t ∧
    ∃ l, w.tasks[t]? = some (.loop l) ∧ l.context = c ∧ l.point = .idle
  idle_nodup : ∀ c, (w.context c).idle.Nodup
  sleeper_in : ∀ h t, w.sleeper? h = some t → w.handles.isLive h = true →
    ∃ i, w.waitOf? t = some i ∧ w.waitHandle? i = some h
  sleeper_of : ∀ t u i h, w.waitOf? t = some i → w.waitHandle? i = some h →
    w.sleeper? h = some u → u = t
  rests : ∀ (t : TaskId) (task : Task), w.tasks[t]? = some task → task.over = false →
    w.current = some t ∨ t ∈ w.ready ∨ w.Rests t task

theorem lt_of_waitOf {t : TaskId} {i : WaitId} (h : w.waitOf? t = some i) : t < w.tasks.size := by
  obtain ⟨task, ht, -⟩ := Option.bind_eq_some_iff.1 h
  exact (Array.getElem?_eq_some_iff.1 ht).1

theorem Scheduled.not_idle (h : Scheduled w) {t : TaskId} {i : WaitId} (ht : w.waitOf? t = some i)
    (c : ContextId) : t ∉ (w.context c).idle := by
  intro hi
  obtain ⟨-, -, l, hl, -, hp⟩ := h.idle_at c t hi
  rw [waitOf_eq hl] at ht
  simp [Task.wait?, hp] at ht

theorem resolution_none {i : WaitId} :
    w.resolution? i = none ↔
      ∃ x, w.waitRecord? i = some x ∧ x.channel = .awaiting ∧
        w.handles.isCancelled x.handle = false := by
  unfold resolution?
  rcases w.waitRecord? i with _ | ⟨k, ch, ops⟩
  · simp
  · cases hk : w.handles.isCancelled k <;> cases ch <;> simp [hk]

theorem Scheduled.sleeper_of_rest (h : Scheduled w) {t : TaskId} {i : WaitId}
    (ht : w.waitOf? t = some i) (hc : w.current ≠ some t) (hr : t ∉ w.ready) :
    ∃ k, w.waitHandle? i = some k ∧ w.sleeper? k = some t := by
  obtain ⟨task, htask, hw⟩ := Option.bind_eq_some_iff.1 ht
  have hover : task.over = false := by
    cases task with
    | loop l => cases hp : l.point <;> simp_all [Task.wait?, Task.over, outcome?]
    | done => cases hw
    | _ => rfl
  rcases h.rests t task htask hover with hc' | hr' | hw'
  · exact absurd hc' hc
  · exact absurd hr' hr
  · cases hw' with
    | idle hi => exact absurd hi (h.not_idle ht _)
    | @asleep _ j k hj hk hs =>
      obtain rfl : i = j := Option.some.inj (hw.symm.trans hj)
      exact ⟨k, hk, hs⟩

/-! ## Changes that wake nobody -/

/-- The tasks and what wakes them stay, and no wait resolves that a task rests in. -/
structure Calm (w w' : World) : Prop where
  tasks : w'.tasks = w.tasks
  ready : w'.ready = w.ready
  current : w'.current = w.current
  idle : ∀ c, (w'.context c).idle = (w.context c).idle
  sleeper : ∀ h, w'.sleeper? h = w.sleeper? h
  live : ∀ h t, w.sleeper? h = some t → w'.handles.isLive h = true → w.handles.isLive h = true
  handle : ∀ t i, w.waitOf? t = some i → w'.waitHandle? i = w.waitHandle? i
  resolution : ∀ t i, w.waitOf? t = some i → w.current ≠ some t → t ∉ w.ready →
    w.resolution? i = none → w'.resolution? i = none

theorem Calm.waitOf (q : Calm w w') (t : TaskId) : w'.waitOf? t = w.waitOf? t :=
  waitOf_congr q.tasks t

theorem Calm.trans (q : Calm w w') (q' : Calm w' w'') : Calm w w'' where
  tasks := q'.tasks.trans q.tasks
  ready := q'.ready.trans q.ready
  current := q'.current.trans q.current
  idle c := (q'.idle c).trans (q.idle c)
  sleeper h := (q'.sleeper h).trans (q.sleeper h)
  live h t ht hl := q.live h t ht (q'.live h t ((q.sleeper h).trans ht) hl)
  handle t i ht := (q'.handle t i ((q.waitOf t).trans ht)).trans (q.handle t i ht)
  resolution t i ht hc hr hn :=
    q'.resolution t i ((q.waitOf t).trans ht) (q.current ▸ hc) (q.ready ▸ hr)
      (q.resolution t i ht hc hr hn)

theorem Scheduled.calm (h : Scheduled w) (q : Calm w w') : Scheduled w' where
  ready_lt := by
    rw [q.ready, q.tasks]
    exact h.ready_lt
  ready_nodup := by
    rw [q.ready]
    exact h.ready_nodup
  current_lt := by
    rw [q.current, q.tasks]
    exact h.current_lt
  current_out := by
    rw [q.current, q.ready]
    exact h.current_out
  idle_at c := by
    rw [q.idle, q.ready, q.current, q.tasks]
    exact h.idle_at c
  idle_nodup c := by
    rw [q.idle]
    exact h.idle_nodup c
  sleeper_in i t ht hl := by
    rw [q.sleeper] at ht
    obtain ⟨j, hj, hi⟩ := h.sleeper_in i t ht (q.live i t ht hl)
    exact ⟨j, (q.waitOf t).trans hj, (q.handle t j hj).trans hi⟩
  sleeper_of t u i k ht hk hu := by
    rw [q.waitOf] at ht
    rw [q.handle t i ht] at hk
    rw [q.sleeper] at hu
    exact h.sleeper_of t u i k ht hk hu
  rests t task ht hn := by
    rw [q.tasks] at ht
    rw [q.current, q.ready]
    by_cases hc : w.current = some t
    · exact .inl hc
    · by_cases hr : t ∈ w.ready
      · exact .inr (.inl hr)
      · rcases h.rests t task ht hn with hc' | hr' | hw
        · exact absurd hc' hc
        · exact absurd hr' hr
        · refine .inr (.inr ?_)
          cases hw with
          | idle hi => exact .idle (q.idle _ ▸ hi)
          | @asleep _ i k hi hk hs hn =>
            have hti := (waitOf_eq ht).trans hi
            exact .asleep hi ((q.handle t i hti).trans hk) ((q.sleeper k).trans hs)
              (q.resolution t i hti hc hr hn)

theorem waitHandle_congr {i : WaitId} (h : w'.waitRecord? i = w.waitRecord? i) :
    w'.waitHandle? i = w.waitHandle? i := by
  unfold waitHandle?
  rw [h]

theorem resolution_congr {i : WaitId} (h : w'.waitRecord? i = w.waitRecord? i)
    (hh : w'.handles = w.handles) : w'.resolution? i = w.resolution? i := by
  unfold resolution?
  rw [h, hh]

theorem sleeper_congr (h : w'.handles = w.handles) (i : HandleId) :
    w'.sleeper? i = w.sleeper? i := by
  unfold sleeper?
  rw [h]

theorem calm_of_eq (ht : w'.tasks = w.tasks) (hr : w'.ready = w.ready)
    (hc : w'.current = w.current) (hi : ∀ c, (w'.context c).idle = (w.context c).idle)
    (hh : w'.handles = w.handles) (hw : ∀ i, w'.waitRecord? i = w.waitRecord? i) : Calm w w' where
  tasks := ht
  ready := hr
  current := hc
  idle := hi
  sleeper := sleeper_congr hh
  live _ _ _ hl := hh ▸ hl
  handle _ i _ := waitHandle_congr (hw i)
  resolution _ i _ _ _ hn := (resolution_congr (hw i) hh).trans hn

theorem Edits.calm (e : Edits w w') : Calm w w' := by
  refine calm_of_eq e.tasks e.ready e.current (fun c => ?_) e.handles fun i =>
    waitRecord_congr (e.mailbox _)
  change (w'.context c).bare.idle = (w.context c).bare.idle
  rw [e.bare]

theorem calm_modifyContext (w : World) (c : ContextId) (f : Context → Context)
    (h : ∀ x, (f x).idle = x.idle) : Calm w (w.modifyContext c f) :=
  calm_of_eq rfl rfl rfl (context_modifyContext_congr Context.idle h w c) rfl fun _ => rfl

theorem calm_record (w : World) (e : Event) : Calm w (w.record e) :=
  calm_of_eq rfl rfl rfl (fun _ => rfl) rfl fun _ => rfl

theorem calm_addContext (w : World) {x : Context} (hx : x.idle = []) :
    Calm w (w.addContext x).2 := by
  refine calm_of_eq rfl rfl rfl (fun c => ?_) rfl fun _ => rfl
  rw [context_push]
  split
  · rename_i hc
    rw [hx, hc, context_of_size_le (Nat.le_refl _)]
    rfl
  · rfl

theorem calm_openSession (w : World) (id : String) : Calm w (w.openSession id).2 := by
  have hbox := mailbox_openSession w id
  obtain ⟨ss, hw⟩ := openSession_eq w id
  rw [hw] at hbox ⊢
  exact calm_of_eq rfl rfl rfl (fun _ => rfl) rfl fun i => waitRecord_congr (hbox _)

/-! ## Waking -/

theorem Scheduled.wake (h : Scheduled w) {t : TaskId} (ht : t < w.tasks.size)
    (hc : w.current ≠ some t) (hi : ∀ c, t ∉ (w.context c).idle) : Scheduled (w.wake t) := by
  have hr : ∀ u, u ∈ (w.wake t).ready ↔ u ∈ w.ready ∨ u = t := fun u => ready_wake w t
  rw [wake_eq] at hr ⊢
  refine ⟨fun u hu => ?_, ?_, h.current_lt, fun u hu hur => ?_, fun c u hu => ?_, h.idle_nodup,
    h.sleeper_in, h.sleeper_of, fun u task hu hn => ?_⟩
  · exact ((hr u).1 hu).elim (h.ready_lt u) fun he => he ▸ ht
  · dsimp only
    split
    · exact h.ready_nodup
    · rename_i hnot
      refine List.nodup_append.2 ⟨h.ready_nodup, by simp, fun a ha b hb hab => ?_⟩
      rw [List.mem_singleton.1 hb] at hab
      exact hnot (by simpa [hab] using ha)
  · rcases (hr u).1 hur with hur | rfl
    · exact h.current_out u hu hur
    · exact hc hu
  · obtain ⟨hnr, hnc, hl⟩ := h.idle_at c u hu
    refine ⟨fun hur => ?_, hnc, hl⟩
    rcases (hr u).1 hur with hur | rfl
    · exact hnr hur
    · exact hi c hu
  · rcases h.rests u task hu hn with hcu | hru | hw
    · exact .inl hcu
    · exact .inr (.inl ((hr u).2 (.inl hru)))
    · refine .inr (.inr ?_)
      cases hw with
      | idle hi => exact .idle hi
      | asleep hi hk hs hn => exact .asleep hi hk hs hn

theorem Scheduled.wakeSleeper (h : Scheduled w) (k : HandleId)
    (hk : ∀ t, w.sleeper? k = some t → (∃ i, w.waitOf? t = some i) ∧ w.current ≠ some t) :
    Scheduled (w.wakeSleeper k) := by
  rw [wakeSleeper_eq]
  cases hs : w.sleeper? k with
  | none => exact h
  | some t =>
    obtain ⟨⟨i, hi⟩, hc⟩ := hk t hs
    exact h.wake (lt_of_waitOf hi) hc (h.not_idle hi)

theorem sleeper_ready {k : HandleId} {t : TaskId} (h : w.sleeper? k = some t) :
    t ∈ (w.wakeSleeper k).ready := by
  rw [wakeSleeper_eq, h]
  exact (ready_wake w t).2 (.inr rfl)

theorem Scheduled.cancelHandle (h : Scheduled w) (ha : w.Awake) (k : HandleId) :
    Scheduled (w.cancelHandle k).2 := by
  rw [cancelHandle_eq]
  split
  · rename_i hl
    have hk : ∀ t, w.sleeper? k = some t → (∃ i, w.waitOf? t = some i) ∧ w.current ≠ some t := by
      intro t ht
      obtain ⟨i, hi, -⟩ := h.sleeper_in k t ht hl
      refine ⟨⟨i, hi⟩, fun hc => ?_⟩
      obtain ⟨task, htask, hw⟩ := Option.bind_eq_some_iff.1 hi
      rw [ha t task hc htask] at hw
      cases hw
    rw [withHandles_wakeSleeper _ _ _ (Handles.sleeper_cancel ..)]
    have hv := h.wakeSleeper k hk
    have hhandles := wakeSleeper_handles w k
    have hready : ∀ t, w.sleeper? k = some t → t ∈ (w.wakeSleeper k).ready :=
      fun t => sleeper_ready
    have hsig := signals_wakeSleeper w k
    generalize w.wakeSleeper k = v at hv hhandles hready hsig
    rw [← hhandles]
    refine hv.calm ⟨rfl, rfl, rfl, fun _ => rfl, fun i => Handles.sleeper_cancel .., ?_,
      fun _ _ _ => rfl, fun t i ht hc hr hn => ?_⟩
    · intro i t _ hi
      change (v.handles.cancel k).2.isLive i = true at hi
      rw [Handles.isLive_cancel, Bool.and_eq_true] at hi
      exact hi.1
    · -- whoever rests in a wait with the handle `k` is awake now
      obtain ⟨x, hx, hch, hcan⟩ := resolution_none.1 hn
      refine resolution_none.2 ⟨x, hx, hch, ?_⟩
      change (v.handles.cancel k).2.isCancelled x.handle = false
      rw [Handles.isCancelled_cancel_of_ne, hcan]
      rintro rfl
      obtain ⟨k, hk, hs⟩ := hv.sleeper_of_rest ht hc hr
      have hkx : x.handle = k := by simpa [waitHandle?, hx] using hk
      subst hkx
      exact hr (hready t ((hsig.sleeper _).symm.trans hs))
  · exact h

theorem Rests.congr {t : TaskId} {task : Task} (h : w.Rests t task)
    (hi : ∀ c, t ∈ (w.context c).idle → t ∈ (w'.context c).idle)
    (hh : ∀ i, w'.waitHandle? i = w.waitHandle? i) (hs : ∀ k, w'.sleeper? k = w.sleeper? k)
    (hr : ∀ i, w.resolution? i = none → w'.resolution? i = none) : w'.Rests t task := by
  cases h with
  | idle hl => exact .idle (hi _ hl)
  | asleep hj hk hs' hn => exact .asleep hj ((hh _).trans hk) ((hs _).trans hs') (hr _ hn)

theorem idle_lt {c : ContextId} {t : TaskId} {rest : List TaskId}
    (h : (w.context c).idle = t :: rest) : c < w.contexts.size := by
  refine Nat.lt_of_not_le fun hle => ?_
  rw [context_of_size_le hle] at h
  cases h

theorem Scheduled.mem_idle_tail (h : Scheduled w) {c d : ContextId} {t u : TaskId}
    {rest : List TaskId} (hi : (w.context c).idle = t :: rest) :
    u ∈ ((w.modifyContext c fun x => { x with idle := rest }).context d).idle ↔
      u ∈ (w.context d).idle ∧ u ≠ t := by
  obtain ⟨-, -, l, hl, hlc, -⟩ := h.idle_at c t (hi ▸ .head _)
  have hnd := h.idle_nodup c
  rw [hi, List.nodup_cons] at hnd
  by_cases hd : d = c
  · subst hd
    rw [context_modifyContext_self _ (idle_lt hi), hi]
    constructor
    · intro hu
      exact ⟨.tail _ hu, fun he => hnd.1 (he ▸ hu)⟩
    · rintro ⟨hu, hut⟩
      exact (List.mem_cons.1 hu).resolve_left hut
  · rw [context_modifyContext_of_ne _ _ hd]
    refine ⟨fun hu => ⟨hu, ?_⟩, And.left⟩
    rintro rfl
    obtain ⟨-, -, l', hl', hc', -⟩ := h.idle_at d u hu
    rw [hl] at hl'
    cases hl'
    exact hd (hc'.symm.trans hlc)

theorem Scheduled.notify (h : Scheduled w) (c : ContextId) : Scheduled (w.notify c) := by
  unfold World.notify
  split
  · rename_i t rest hi
    obtain ⟨hnr, hnc, l, hl, -⟩ := h.idle_at c t (hi ▸ .head _)
    have hlt : t < w.tasks.size := (Array.getElem?_eq_some_iff.1 hl).1
    have hidle := fun d u => h.mem_idle_tail (d := d) (u := u) hi
    have hready : ((w.modifyContext c fun x => { x with idle := rest }).wake t).ready =
        w.ready ++ [t] := by
      rw [wake_eq]
      exact if_neg (by simpa [modifyContext] using hnr)
    rw [wake_eq]
    rw [wake_eq] at hready
    refine ⟨fun u hu => ?_, ?_, h.current_lt, fun u hu hur => ?_, fun d u hu => ?_, fun d => ?_,
      h.sleeper_in, h.sleeper_of, fun u task hu hn => ?_⟩
    · rw [hready] at hu
      rcases List.mem_append.1 hu with hu | hu
      · exact h.ready_lt u hu
      · exact List.mem_singleton.1 hu ▸ hlt
    · rw [hready]
      refine List.nodup_append.2 ⟨h.ready_nodup, by simp, fun a ha b hb hab => ?_⟩
      rw [hab, List.mem_singleton.1 hb] at ha
      exact hnr ha
    · rw [hready] at hur
      rcases List.mem_append.1 hur with hur | hur
      · exact h.current_out u hu hur
      · exact hnc (List.mem_singleton.1 hur ▸ hu)
    · obtain ⟨hu, hut⟩ := (hidle d u).1 hu
      obtain ⟨hur, huc, hul⟩ := h.idle_at d u hu
      refine ⟨fun hr => ?_, huc, hul⟩
      rw [hready] at hr
      rcases List.mem_append.1 hr with hr | hr
      · exact hur hr
      · exact hut (List.mem_singleton.1 hr)
    · change ((w.modifyContext c fun x => { x with idle := rest }).context d).idle.Nodup
      by_cases hd : d = c
      · subst hd
        rw [context_modifyContext_self _ (idle_lt hi)]
        exact (List.nodup_cons.1 (hi ▸ h.idle_nodup d)).2
      · rw [context_modifyContext_of_ne _ _ hd]
        exact h.idle_nodup d
    · rw [hready]
      by_cases hut : u = t
      · exact .inr (.inl (List.mem_append_right _ (hut ▸ List.mem_singleton.2 rfl)))
      · rcases h.rests u task hu hn with hc | hr | hw
        · exact .inl hc
        · exact .inr (.inl (List.mem_append_left _ hr))
        · exact .inr (.inr (hw.congr (fun d hd => (hidle d u).2 ⟨hd, hut⟩) (fun _ => rfl)
            (fun _ => rfl) fun _ => id))
  · exact h.calm (calm_modifyContext w c _ fun _ => rfl)

theorem awake_congr (h : w.Awake) (ht : w'.tasks = w.tasks) (hc : w'.current = w.current) :
    w'.Awake := by
  unfold Awake
  rw [ht, hc]
  exact h

theorem Scheduled.cancelHandles (ks : List HandleId) (h : Scheduled w) (ha : w.Awake) :
    Scheduled (w.cancelHandles ks) := by
  induction ks generalizing w with
  | nil => exact h
  | cons k ks ih =>
    have hs := signals_cancelHandle w k
    exact ih (h.cancelHandle ha k) (awake_congr ha hs.tasks hs.current)

theorem Scheduled.cancelRegistered (h : Scheduled w) (ha : w.Awake) (c : ContextId) :
    Scheduled (w.cancelRegistered c) := by
  rw [cancelRegistered_eq]
  exact (h.cancelHandles _ ha).calm (calm_modifyContext _ c _ fun _ => rfl)

theorem Scheduled.kill (h : Scheduled w) (ha : w.Awake) (c : ContextId) (f : Fault) :
    Scheduled (w.kill c f) := by
  have hm : Scheduled (w.modifyContext c fun x => { x with killer := x.killer.or (some f) }) :=
    h.calm (calm_modifyContext w c _ fun _ => rfl)
  exact (hm.cancelRegistered (awake_congr ha rfl rfl) c).notify c

theorem Scheduled.escalate (h : Scheduled w) (ha : w.Awake) (c : ContextId) (f : Fault) :
    Scheduled (w.escalate c f) := by
  unfold World.escalate
  dsimp only
  split
  · exact (h.kill ha c f).notify c
  · have hm : Scheduled (w.modifyContext c fun x =>
        { x with escalated := x.escalated.or (some f) }) :=
        h.calm (calm_modifyContext w c _ fun _ => rfl)
    exact (hm.cancelRegistered (awake_congr ha rfl rfl) c).notify c

theorem Scheduled.cancelIfKilled (h : Scheduled w) (ha : w.Awake) (c : ContextId) (k : HandleId) :
    Scheduled (w.cancelIfKilled c k) := by
  have hm : Scheduled (w.modifyContext c fun x =>
      { x with registry := x.registry.prune w.handles }) :=
        h.calm (calm_modifyContext w c _ fun _ => rfl)
  unfold World.cancelIfKilled
  dsimp only
  split
  · exact hm.cancelHandle (awake_congr ha rfl rfl) k
  · exact hm.calm (calm_modifyContext _ c _ fun _ => rfl)

theorem Scheduled.childFinished (h : Scheduled w) (c : ContextId) :
    Scheduled (w.childFinished c) := by
  have hm : Scheduled (w.modifyContext c fun x =>
      { x with activeChildren := x.activeChildren - 1 }) :=
        h.calm (calm_modifyContext w c _ fun _ => rfl)
  exact hm.notify c

/-! ## The running task -/

theorem Scheduled.setTask (h : Scheduled w) {t : TaskId} {old task : Task}
    (hc : w.current = some t) (ht : w.tasks[t]? = some old)
    (hs : ∀ k, w.sleeper? k = some t → w.handles.isLive k = true →
      ∃ i, task.wait? = some i ∧ w.waitHandle? i = some k)
    (ho : ∀ u i k, task.wait? = some i → w.waitHandle? i = some k → w.sleeper? k = some u →
      u = t) : Scheduled (w.setTask t task) where
  ready_lt u hu := by
    simp only [World.setTask, Array.set!_eq_setIfInBounds, Array.size_setIfInBounds]
    exact h.ready_lt u hu
  ready_nodup := h.ready_nodup
  current_lt u hu := by
    simp only [World.setTask, Array.set!_eq_setIfInBounds, Array.size_setIfInBounds]
    exact h.current_lt u hu
  current_out := h.current_out
  idle_at c u hu := by
    obtain ⟨hr, hcu, l, hl, hp⟩ := h.idle_at c u hu
    refine ⟨hr, hcu, l, ?_, hp⟩
    rw [getElem?_setTask, if_neg, hl]
    rintro ⟨rfl, -⟩
    exact hcu hc
  idle_nodup := h.idle_nodup
  sleeper_in k u hu hl := by
    rw [waitOf_setTask ht]
    by_cases hut : u = t
    · subst hut
      obtain ⟨i, hi, hk⟩ := hs k hu hl
      exact ⟨i, by rw [if_pos rfl, hi], hk⟩
    · obtain ⟨i, hi, hk⟩ := h.sleeper_in k u hu hl
      exact ⟨i, by rw [if_neg hut, hi], hk⟩
  sleeper_of u v i k hu hk hv := by
    rw [waitOf_setTask ht] at hu
    split at hu
    · rename_i hut
      exact hut ▸ ho v i k hu hk hv
    · exact h.sleeper_of u v i k hu hk hv
  rests u task' hu hn := by
    rw [getElem?_setTask] at hu
    split at hu
    · rename_i hut
      exact .inl (hut.1 ▸ hc)
    · rcases h.rests u task' hu hn with hc | hr | hw
      · exact .inl hc
      · exact .inr (.inl hr)
      · exact .inr (.inr (hw.congr (fun _ => id) (fun _ => rfl) (fun _ => rfl) fun _ => id))

theorem Scheduled.setAwake (h : Scheduled w) {t : TaskId} {old task : Task}
    (hc : w.current = some t) (ht : w.tasks[t]? = some old) (ho : old.wait? = none)
    (hn : task.wait? = none) : Scheduled (w.setTask t task) := by
  refine h.setTask hc ht (fun k hk hl => ?_) fun u i k hi => ?_
  · obtain ⟨i, hi, -⟩ := h.sleeper_in k t hk hl
    rw [waitOf_eq ht, ho] at hi
    cases hi
  · rw [hn] at hi
    cases hi

theorem Scheduled.suspend (h : Scheduled w)
    (hr : ∀ (t : TaskId) (task : Task), w.current = some t → w.tasks[t]? = some task →
      task.over = false → w.Rests t task) : Scheduled w.suspend where
  ready_lt := h.ready_lt
  ready_nodup := h.ready_nodup
  current_lt _ ht := by cases ht
  current_out _ ht := by cases ht
  idle_at c t ht := by
    obtain ⟨hr, -, hl⟩ := h.idle_at c t ht
    exact ⟨hr, (by simp [World.suspend]), hl⟩
  idle_nodup := h.idle_nodup
  sleeper_in := h.sleeper_in
  sleeper_of := h.sleeper_of
  rests t task ht hn := by
    have hkeep : ∀ hw : w.Rests t task, w.suspend.Rests t task :=
      fun hw => hw.congr (fun _ => id) (fun _ => rfl) (fun _ => rfl) fun _ => id
    rcases h.rests t task ht hn with hc | hr' | hw
    · exact .inr (.inr (hkeep (hr t task hc ht hn)))
    · exact .inr (.inl hr')
    · exact .inr (.inr (hkeep hw))

theorem Scheduled.yieldTask (h : Scheduled w) {t : TaskId} (hc : w.current = some t) :
    Scheduled (w.yieldTask t) where
  ready_lt u hu := by
    rcases List.mem_append.1 hu with hu | hu
    · exact h.ready_lt u hu
    · exact List.mem_singleton.1 hu ▸ h.current_lt t hc
  ready_nodup := by
    refine List.nodup_append.2 ⟨h.ready_nodup, by simp, fun a ha b hb hab => ?_⟩
    rw [hab, List.mem_singleton.1 hb] at ha
    exact h.current_out t hc ha
  current_lt _ ht := by cases ht
  current_out _ ht := by cases ht
  idle_at c u hu := by
    obtain ⟨hr, hcu, hl⟩ := h.idle_at c u hu
    refine ⟨fun hur => ?_, (by simp [World.yieldTask]), hl⟩
    rcases List.mem_append.1 hur with hur | hur
    · exact hr hur
    · exact hcu (List.mem_singleton.1 hur ▸ hc)
  idle_nodup := h.idle_nodup
  sleeper_in := h.sleeper_in
  sleeper_of := h.sleeper_of
  rests u task hu hn := by
    rcases h.rests u task hu hn with hcu | hr | hw
    · rw [hc] at hcu
      cases hcu
      exact .inr (.inl (List.mem_append_right _ (.head _)))
    · exact .inr (.inl (List.mem_append_left _ hr))
    · exact .inr (.inr (hw.congr (fun _ => id) (fun _ => rfl) (fun _ => rfl) fun _ => id))

theorem Scheduled.pick (h : Scheduled w) {t : TaskId} (hc : w.current = none) (ht : t ∈ w.ready) :
    Scheduled { w with current := some t, ready := w.ready.erase t } where
  ready_lt u hu := h.ready_lt u (List.mem_of_mem_erase hu)
  ready_nodup := h.ready_nodup.erase t
  current_lt u hu := by
    cases hu
    exact h.ready_lt t ht
  current_out u hu := by
    cases hu
    exact h.ready_nodup.not_mem_erase
  idle_at c u hu := by
    obtain ⟨hr, -, hl⟩ := h.idle_at c u hu
    refine ⟨fun hur => hr (List.mem_of_mem_erase hur), fun hcu => ?_, hl⟩
    cases hcu
    exact hr ht
  idle_nodup := h.idle_nodup
  sleeper_in := h.sleeper_in
  sleeper_of := h.sleeper_of
  rests u task hu hn := by
    rcases h.rests u task hu hn with hcu | hr | hw
    · rw [hc] at hcu
      cases hcu
    · by_cases hut : u = t
      · exact .inl (hut ▸ rfl)
      · exact .inr (.inl ((List.mem_erase_of_ne hut).2 hr))
    · exact .inr (.inr (hw.congr (fun _ => id) (fun _ => rfl) (fun _ => rfl) fun _ => id))

theorem Scheduled.spawnTask (h : Scheduled w) {task : Task} (hw : task.wait? = none) :
    Scheduled (w.spawnTask task) := by
  have hu := unwaiting_spawnTask w hw
  have hget : ∀ u : TaskId, (w.spawnTask task).tasks[u]? =
      if u = w.tasks.size then some task else w.tasks[u]? := fun u => Array.getElem?_push
  have hsize : (w.spawnTask task).tasks.size = w.tasks.size + 1 := Array.size_push _
  refine ⟨fun u hu => ?_, ?_, fun u hu => ?_, fun u hu hur => ?_, fun c u hu => ?_, h.idle_nodup,
    fun k t ht hl => ?_, fun t u i k ht hk => ?_, fun u task' ht hn => ?_⟩
  · rw [hsize]
    rcases List.mem_append.1 hu with hu | hu
    · exact Nat.lt_succ_of_lt (h.ready_lt u hu)
    · exact List.mem_singleton.1 hu ▸ Nat.lt_succ_self _
  · refine List.nodup_append.2 ⟨h.ready_nodup, by simp, fun a ha b hb hab => ?_⟩
    rw [hab, List.mem_singleton.1 hb] at ha
    exact Nat.lt_irrefl _ (h.ready_lt _ ha)
  · rw [hsize]
    exact Nat.lt_succ_of_lt (h.current_lt u hu)
  · rcases List.mem_append.1 hur with hur | hur
    · exact h.current_out u hu hur
    · exact Nat.lt_irrefl _ (List.mem_singleton.1 hur ▸ h.current_lt u hu)
  · obtain ⟨hr, hc, l, hl, hp⟩ := h.idle_at c u hu
    have hlt : u < w.tasks.size := (Array.getElem?_eq_some_iff.1 hl).1
    refine ⟨fun hur => ?_, hc, l, ?_, hp⟩
    · rcases List.mem_append.1 hur with hur | hur
      · exact hr hur
      · exact Nat.lt_irrefl _ (List.mem_singleton.1 hur ▸ hlt)
    · rw [hget, if_neg (Nat.ne_of_lt hlt), hl]
  · obtain ⟨i, hi, hk⟩ := h.sleeper_in k t ht hl
    exact ⟨i, (hu.waitOf t).trans hi, hk⟩
  · rw [hu.waitOf] at ht
    exact h.sleeper_of t u i k ht hk
  · rw [hget] at ht
    split at ht
    · rename_i hus
      exact .inr (.inl (List.mem_append_right _ (hus ▸ .head _)))
    · rcases h.rests u task' ht hn with hc | hr | hw
      · exact .inl hc
      · exact .inr (.inl (List.mem_append_left _ hr))
      · exact .inr (.inr (hw.congr (fun _ => id) (fun _ => rfl) (fun _ => rfl) fun _ => id))

theorem idle_append {c : ContextId} (hc : c < w.contexts.size) (t : TaskId) (d : ContextId) :
    ((w.modifyContext c fun x => { x with idle := x.idle ++ [t] }).context d).idle =
      if d = c then (w.context d).idle ++ [t] else (w.context d).idle := by
  rw [context_modifyContext]
  by_cases hd : d = c
  · rw [if_pos ⟨hd.symm, hd ▸ hc⟩, if_pos hd]
  · rw [if_neg fun he => hd he.1.symm, if_neg hd]

theorem mem_idle_append {c : ContextId} (hc : c < w.contexts.size) {t u : TaskId}
    {d : ContextId} :
    u ∈ ((w.modifyContext c fun x => { x with idle := x.idle ++ [t] }).context d).idle ↔
      u ∈ (w.context d).idle ∨ d = c ∧ u = t := by
  rw [idle_append hc]
  split
  · rename_i hd
    simp [hd]
  · rename_i hd
    simp [hd]

theorem Scheduled.park (h : Scheduled w) {t : TaskId} {l : Loop} (hd : Drives w t l)
    (hlt : l.context < w.contexts.size) :
    Scheduled (((w.modifyContext l.context fun x => { x with idle := x.idle ++ [t] }).setLoop t
      { l with point := .idle }).suspend) := by
  have hv : Scheduled (w.setLoop t { l with point := .idle }) :=
    h.setAwake hd.current hd.task hd.awake rfl
  have hnew : (w.setLoop t { l with point := .idle }).tasks[t]? =
      some (.loop { l with point := .idle }) := by
    rw [setLoop, getElem?_setTask, if_pos ⟨rfl, h.current_lt t hd.current⟩]
  have hcur : (w.setLoop t { l with point := .idle }).current = some t := hd.current
  have hsize : l.context < (w.setLoop t { l with point := .idle }).contexts.size := hlt
  -- the two changes commute, and the loop is put in its new place before the list knows of it
  change Scheduled ((w.setLoop t { l with point := .idle }).modifyContext l.context fun x =>
    { x with idle := x.idle ++ [t] }).suspend
  generalize w.setLoop t { l with point := .idle } = v at hv hnew hcur hsize
  have hmem := fun d u => mem_idle_append (t := t) (u := u) (d := d) hsize
  have hout : ∀ c, t ∉ (v.context c).idle := fun c hc => (hv.idle_at c t hc).2.1 hcur
  refine ⟨hv.ready_lt, hv.ready_nodup, fun _ ht => (by cases ht), fun _ ht => (by cases ht),
    fun c u hu => ?_, fun c => ?_, hv.sleeper_in, hv.sleeper_of, fun u task hu hn => ?_⟩
  · rcases (hmem c u).1 hu with hu | ⟨rfl, rfl⟩
    · obtain ⟨hr, -, hl⟩ := hv.idle_at c u hu
      exact ⟨hr, (by simp [World.suspend]), hl⟩
    · exact ⟨hv.current_out _ hcur, (by simp [World.suspend]), _, hnew, rfl, rfl⟩
  · change ((v.modifyContext l.context fun x =>
      { x with idle := x.idle ++ [t] }).context c).idle.Nodup
    rw [idle_append hsize]
    split
    · refine List.nodup_append.2 ⟨hv.idle_nodup c, by simp, fun a ha b hb hab => ?_⟩
      rw [hab, List.mem_singleton.1 hb] at ha
      exact hout c ha
    · exact hv.idle_nodup c
  · rcases hv.rests u task hu hn with hc | hr | hw
    · rw [hcur] at hc
      cases hc
      obtain rfl := Option.some.inj (hnew.symm.trans hu)
      exact .inr (.inr (.idle ((hmem l.context t).2 (.inr ⟨rfl, rfl⟩))))
    · exact .inr (.inl hr)
    · exact .inr (.inr (hw.congr (fun d hd => (hmem d u).2 (.inl hd)) (fun _ => rfl)
        (fun _ => rfl) fun _ => id))

/-! ## Waits -/

theorem waitHandle_eq {i : WaitId} {k : HandleId} (h : w.waitHandle? i = some k) :
    ∃ x, w.waitRecord? i = some x ∧ x.handle = k := Option.map_eq_some_iff.1 h

theorem sleeper_set {k : HandleId} (hk : k < w.handles.size) (t : TaskId) (current : Option TaskId)
    (j : HandleId) :
    World.sleeper? { w with
      handles := w.handles.modify k fun y => { y with sleeper := some t }, current } j =
      if k = j then some t else w.sleeper? j := by
  unfold World.sleeper?
  simp only [Array.getElem?_modify]
  split
  · rename_i hkj
    subst hkj
    rw [Array.getElem?_eq_getElem hk]
    rfl
  · rfl

theorem Linked.waits_alone (hl : Linked w) {t u : TaskId} {i j : WaitId} {x : Wait}
    (hti : w.waitOf? t = some i) (hx : w.waitRecord? i = some x) (hu : w.waitOf? u = some j)
    (hj : w.waitHandle? j = some x.handle) : u = t := by
  obtain ⟨y, hy, hyk⟩ := waitHandle_eq hj
  obtain rfl := hl.apart j i y x hy hx hyk
  exact hl.alone u t j hu hti

theorem Scheduled.sleepOn (h : Scheduled w) (hl : Linked w) {t : TaskId} {task : Task}
    {i : WaitId} (hc : w.current = some t) (ht : w.tasks[t]? = some task)
    (hi : task.wait? = some i) (hn : w.resolution? i = none) : Scheduled (w.sleepOn t i) := by
  have hti : w.waitOf? t = some i := (waitOf_eq ht).trans hi
  obtain ⟨x, hx, hch, hcan⟩ := resolution_none.1 hn
  have hk : w.waitHandle? i = some x.handle := by simp [waitHandle?, hx]
  unfold World.sleepOn
  rw [hk]
  dsimp only
  have hsleeper := sleeper_set (hl.handled i x hx) t none
  have hlive := fun k => w.handles.isLive_modify x.handle k
    (f := fun y => { y with sleeper := some t }) fun _ => rfl
  have hcancelled := fun k => w.handles.isCancelled_modify x.handle k
    (f := fun y => { y with sleeper := some t }) fun _ => rfl
  have halone := fun u j => hl.waits_alone (u := u) (j := j) hti hx
  refine ⟨h.ready_lt, h.ready_nodup, fun _ ht => (by cases ht), fun _ ht => (by cases ht),
    fun c u hu => ?_, h.idle_nodup, fun k u hu hkl => ?_, fun u v j k hu hj hv => ?_,
    fun u task' hu hov => ?_⟩
  · obtain ⟨hr, -, hl⟩ := h.idle_at c u hu
    exact ⟨hr, (by simp), hl⟩
  · rw [hsleeper] at hu
    split at hu
    · rename_i hkx
      cases hu
      exact ⟨i, hti, hkx ▸ hk⟩
    · exact h.sleeper_in k u hu (hlive k ▸ hkl)
  · rw [hsleeper] at hv
    split at hv
    · rename_i hkx
      cases hv
      exact (halone u j hu (hkx ▸ hj)).symm
    · exact h.sleeper_of u v j k hu hj hv
  · by_cases hut : u = t
    · subst hut
      obtain rfl := Option.some.inj (ht.symm.trans hu)
      refine .inr (.inr (.asleep hi hk ?_ ?_))
      · rw [hsleeper, if_pos rfl]
      · exact resolution_none.2 ⟨x, hx, hch, (hcancelled _).trans hcan⟩
    · rcases h.rests u task' hu hov with hcu | hr | hw
      · rw [hc] at hcu
        cases hcu
        exact absurd rfl hut
      · exact .inr (.inl hr)
      · refine .inr (.inr ?_)
        cases hw with
        | idle hi => exact .idle hi
        | @asleep _ j k hj hkj hs hnj =>
          refine .asleep hj hkj ?_ ?_
          · rw [hsleeper, if_neg, hs]
            rintro rfl
            exact hut (halone u j ((waitOf_eq hu).trans hj) hkj)
          · obtain ⟨y, hy, hych, hycan⟩ := resolution_none.1 hnj
            exact resolution_none.2 ⟨y, hy, hych, (hcancelled _).trans hycan⟩

theorem calm_setMailbox (hl : ∀ t i, w.waitOf? t = some i → ∃ x, w.waitRecord? i = some x)
    {s : SessionId} {mb : Mailbox}
    (hh : ∀ (j : Nat) (x : Wait), (w.mailbox s).waits[j]? = some x →
      ∃ y, mb.waits[j]? = some y ∧ y.handle = x.handle)
    (hr : ∀ (j : Nat) (x y : Wait) (t : TaskId), (w.mailbox s).waits[j]? = some x →
      mb.waits[j]? = some y → x.channel = .awaiting → w.waitOf? t = some ⟨s, j⟩ →
      w.current ≠ some t → t ∉ w.ready → y.channel = .awaiting) : Calm w (w.setMailbox s mb) where
  tasks := rfl
  ready := rfl
  current := rfl
  idle _ := rfl
  sleeper _ := rfl
  live _ _ _ h := h
  handle t i ht := by
    obtain ⟨x, hx⟩ := hl t i ht
    unfold waitHandle?
    rw [waitRecord_setMailbox]
    split
    · rename_i hi
      have hx' : (w.mailbox s).waits[i.index]? = some x := hi.1 ▸ hx
      obtain ⟨y, hy, hyx⟩ := hh i.index x hx'
      rw [hy, hx]
      exact congrArg some hyx
    · rfl
  resolution t i ht hc hrd hn := by
    obtain ⟨x, hx, hch, hcan⟩ := resolution_none.1 hn
    rw [resolution_none, waitRecord_setMailbox]
    split
    · rename_i hi
      have hx' : (w.mailbox s).waits[i.index]? = some x := hi.1 ▸ hx
      obtain ⟨y, hy, hyx⟩ := hh i.index x hx'
      have hti : w.waitOf? t = some ⟨s, i.index⟩ := by
        rw [ht, ← hi.1]
      exact ⟨y, hy, hr i.index x y t hx' hy hch hti hc hrd, hyx.symm ▸ hcan⟩
    · exact ⟨x, hx, hch, hcan⟩

theorem calm_newHandle (w : World) : Calm w w.newHandle.2 := by
  refine ⟨rfl, rfl, rfl, fun _ => rfl, Handles.sleeper_push w.handles, fun k t ht hl => ?_,
    fun _ _ _ => rfl, fun _ i _ _ _ hn => ?_⟩
  · change Handles.isLive (w.handles.push {}) k = true at hl
    rw [Handles.isLive_push, Bool.or_eq_true, beq_iff_eq] at hl
    rcases hl with hl | rfl
    · exact hl
    · unfold World.sleeper? at ht
      rw [Handles.getElem?_push_size] at ht
      cases ht
  · obtain ⟨x, hx, hch, hxc⟩ := resolution_none.1 hn
    exact resolution_none.2 ⟨x, hx, hch, (Handles.isCancelled_push ..).trans hxc⟩

theorem calm_finishHandle (w : World) (k : HandleId) : Calm w (w.finishHandle k) := by
  refine ⟨rfl, rfl, rfl, fun _ => rfl, Handles.sleeper_finish w.handles k, fun i t _ hl => ?_,
    fun _ _ _ => rfl, fun _ i _ _ _ hn => ?_⟩
  · change (w.handles.finish k).isLive i = true at hl
    rw [Handles.isLive_finish, Bool.and_eq_true] at hl
    exact hl.1
  · obtain ⟨x, hx, hch, hxc⟩ := resolution_none.1 hn
    exact resolution_none.2 ⟨x, hx, hch, (Handles.isCancelled_finish ..).trans hxc⟩

theorem Scheduled.request (h : Scheduled w) (hl : Linked w) (s : SessionId) (ops : List String) :
    Scheduled (w.request s ops).2 := by
  obtain ⟨ch, hw, -⟩ := grants_waits ((w.mailbox s).request_grants ops w.handles.size).2
  have hold : ∀ (j : Nat) (x : Wait), (w.mailbox s).waits[j]? = some x →
      ((w.mailbox s).request ops w.handles.size).2.waits[j]? = some x := by
    intro j x hx
    obtain ⟨hlt, -⟩ := Array.getElem?_eq_some_iff.1 hx
    rw [hw, Array.getElem?_push, if_neg (Nat.ne_of_lt hlt), hx]
  rw [request_eq]
  refine (h.calm (calm_newHandle w)).calm (calm_setMailbox (fun t i ht => ?_)
    (fun j x hx => ⟨x, hold j x hx, rfl⟩) fun j x y t hx hy hc _ _ _ => ?_)
  · obtain ⟨x, hx, -⟩ := hl.opened t i ht
    exact ⟨x, hx⟩
  · obtain rfl := Option.some.inj ((hold j x hx).symm.trans hy)
    exact hc

theorem Scheduled.closeWait (h : Scheduled w) (hl : Linked w) {t : TaskId} {i : WaitId}
    (hc : w.current = some t) (hti : w.waitOf? t = some i) : Scheduled (w.closeWait i).2 := by
  have hcalm : Calm w (w.setMailbox i.session ((w.mailbox i.session).close i.index).2) := by
    refine calm_setMailbox (fun u j hu => ?_) (fun j x hx => ?_) fun j x y u hx hy hch hu hcu _ => ?_
    · obtain ⟨x, hx, -⟩ := hl.opened u j hu
      exact ⟨x, hx⟩
    · change ∃ y, ((w.mailbox i.session).waits.modify i.index fun x =>
        { x with channel := .closed })[j]? = some y ∧ _
      rw [Mailbox.getElem?_modify_channel, hx]
      split
      · exact ⟨_, rfl, rfl⟩
      · exact ⟨x, rfl, rfl⟩
    · change ((w.mailbox i.session).waits.modify i.index fun x =>
        { x with channel := .closed })[j]? = some y at hy
      rw [Mailbox.getElem?_modify_channel, hx] at hy
      split at hy
      · rename_i hij
        subst hij
        exact absurd (hl.alone u t i hu hti ▸ hc) hcu
      · cases hy
        exact hch
  unfold World.closeWait
  dsimp only
  split
  · exact (h.calm hcalm).calm (calm_finishHandle _ _)
  · exact h.calm hcalm

/-- Every wait that can be handed a message has a task in it, which is not running. -/
def Tended (w : World) : Prop :=
  ∀ j x, w.waitRecord? j = some x → x.channel = .awaiting →
    ∃ t, w.waitOf? t = some j ∧ w.current ≠ some t

theorem Linked.tended (h : Linked w) (ha : w.Awake) : Tended w := by
  intro j x hx hc
  obtain ⟨t, ht⟩ := h.awaited j x hx (by simp [hc])
  refine ⟨t, ht, fun hcur => ?_⟩
  obtain ⟨task, htask, hw⟩ := Option.bind_eq_some_iff.1 ht
  rw [ha t task hcur htask] at hw
  cases hw

theorem wakeSleeper_setMailbox (w : World) (s : SessionId) (mb : Mailbox) (k : HandleId) :
    (w.setMailbox s mb).wakeSleeper k = (w.wakeSleeper k).setMailbox s mb := by
  have he : (w.setMailbox s mb).sleeper? k = w.sleeper? k := rfl
  rw [wakeSleeper_eq, wakeSleeper_eq, he]
  cases w.sleeper? k with
  | none => rfl
  | some t =>
    change (w.setMailbox s mb).wake t = (w.wake t).setMailbox s mb
    rw [wake_eq, wake_eq]
    rfl

theorem wakeServed_handed {s : SessionId} {mb : Mailbox} {i : Nat} {x : Wait} {m : Letter}
    (hs : s < w.sessions.size) (hx : (w.mailbox s).waits[i]? = some x)
    (hw : mb.waits = (w.mailbox s).waits.modify i fun x => { x with channel := .holding m }) :
    (w.setMailbox s mb).wakeServed s (some i) = (w.wakeSleeper x.handle).setMailbox s mb := by
  have hrec : (w.setMailbox s mb).waitHandle? ⟨s, i⟩ = some x.handle := by
    unfold waitHandle?
    rw [waitRecord_setMailbox, if_pos ⟨rfl, hs⟩]
    dsimp only
    rw [hw, Mailbox.getElem?_modify_channel, if_pos rfl, hx]
    rfl
  unfold wakeServed
  rw [Option.bind_some, hrec]
  exact wakeSleeper_setMailbox w s mb x.handle

theorem Scheduled.accept (h : Scheduled w)
    (ho : ∀ t i, w.waitOf? t = some i → ∃ x, w.waitRecord? i = some x) (htd : Tended w)
    {s : SessionId} (hs : s < w.sessions.size) {m : Letter} {back : Bool} {served : Option Nat}
    {mb : Mailbox} (ha : (w.mailbox s).Accepts m back served mb) :
    Scheduled ((w.setMailbox s mb).wakeServed s served) := by
  cases ha with
  | queued _ hw =>
    refine h.calm (calm_setMailbox ho (fun j x hx => ⟨x, hw ▸ hx, rfl⟩) ?_)
    intro j x y _ hx hy hc _ _ _
    rw [hw, hx] at hy
    cases hy
    exact hc
  | @handed i x _ hx hc _ _ hw =>
    -- the sleeper is woken first: nobody rests in the wait when the letter comes into its channel
    rw [wakeServed_handed hs hx hw]
    obtain ⟨t, ht, hct⟩ := htd ⟨s, i⟩ x hx hc
    have hk : w.waitHandle? ⟨s, i⟩ = some x.handle := by
      have hx' : w.waitRecord? ⟨s, i⟩ = some x := hx
      simp [waitHandle?, hx']
    have hv := h.wakeSleeper x.handle fun u hu => by
      obtain rfl := h.sleeper_of t u ⟨s, i⟩ _ ht hk hu
      exact ⟨⟨_, ht⟩, hct⟩
    have hsig := signals_wakeSleeper w x.handle
    have hready : ∀ u, w.sleeper? x.handle = some u → u ∈ (w.wakeSleeper x.handle).ready :=
      fun u => sleeper_ready
    generalize w.wakeSleeper x.handle = v at hv hsig hready
    have hbox := hsig.mailbox s
    refine hv.calm (calm_setMailbox (fun u j hu => ?_) (fun j y hy => ?_)
      fun j y z u hy hz hch hu hcu hru => ?_)
    · rw [waitOf_congr hsig.tasks] at hu
      rw [waitRecord_congr (hsig.mailbox _)]
      exact ho u j hu
    · rw [hbox] at hy
      rw [hw, Mailbox.getElem?_modify_channel, hy]
      split
      · exact ⟨_, rfl, rfl⟩
      · exact ⟨y, rfl, rfl⟩
    · rw [hbox] at hy
      rw [hw, Mailbox.getElem?_modify_channel, hy] at hz
      split at hz
      · rename_i hij
        subst hij
        obtain ⟨k, hk', hs'⟩ := hv.sleeper_of_rest hu hcu hru
        have hkx : k = x.handle := by
          have hrec' : v.waitHandle? ⟨s, i⟩ = w.waitHandle? ⟨s, i⟩ :=
            waitHandle_congr (waitRecord_congr (hsig.mailbox _))
          rw [hrec', hk] at hk'
          exact (Option.some.inj hk').symm
        subst hkx
        exact absurd (hready u ((hsig.sleeper _).symm.trans hs')) hru
      · cases hz
        exact hch

/-! ## Runs -/

theorem Scheduled.empty : Scheduled {} where
  ready_lt t ht := by cases ht
  ready_nodup := .nil
  current_lt t ht := by cases ht
  current_out t ht := by cases ht
  idle_at c t ht := by
    rw [context_of_size_le (Nat.zero_le c)] at ht
    cases ht
  idle_nodup c := by
    rw [context_of_size_le (Nat.zero_le c)]
    exact .nil
  sleeper_in h t ht := by cases ht
  sleeper_of t u i h ht := by cases ht
  rests t task ht := by cases ht

theorem Scheduled.dropHandle (h : Scheduled w) (name : String) : Scheduled (w.dropHandle name) := by
  unfold World.dropHandle
  split
  · rename_i k _
    exact (h.calm (calm_finishHandle w k)).calm
      (calm_of_eq rfl rfl rfl (fun _ => rfl) rfl fun _ => rfl)
  · exact h

theorem Scheduled.call (h : Scheduled w) (hp : Placed w) (hl : Linked w) (ha : w.Awake)
    (k : Call False w w') : Scheduled w' := by
  cases k with
  | edit e => exact h.calm e.edits.calm
  | kill c f => exact h.kill ha c f
  | clearKill c => exact h.calm (calm_modifyContext w c _ fun _ => rfl)
  | root label session scope budget k =>
    have hlist := edits_list ((w.openSession session).2.addContext
      { label := (w.openSession session).2.freshLabel label, session := (w.openSession session).1,
        sliceBudget := budget, scopes := [{ id := scope }], pending := k.toList }).2
      (c := (w.openSession session).2.contexts.size) (by simp [addContext])
    exact h.calm (((calm_openSession w session).trans (calm_addContext _ rfl)).trans hlist.calm)
  | child p label k => exact h.calm (calm_addContext w rfl)
  | start c =>
    unfold World.start
    dsimp only
    split
    · rename_i p _
      exact (h.calm (calm_modifyContext w p (fun x =>
        { x with activeChildren := x.activeChildren + 1 }) fun _ => rfl)).spawnTask rfl
    · exact h.spawnTask rfl
  | drive c budget => exact h.spawnTask rfl
  | newHandle name =>
    exact ((h.dropHandle name).calm (calm_newHandle _)).calm
      (calm_of_eq rfl rfl rfl (fun _ => rfl) rfl fun _ => rfl)
  | dropHandle name => exact h.dropHandle name
  | register c i => exact h.cancelIfKilled ha c i
  | cancel i => exact h.cancelHandle ha i
  | deliver c op v hc =>
    have hn : Calm w (w.newLetter op v).2 :=
      calm_of_eq rfl rfl rfl (fun _ => rfl) rfl fun _ => rfl
    have hacc := (w.mailbox (w.context c).session).deliver_accepts (w.newLetter op v).1
    refine ((h.calm hn).accept (fun t i ht => ?_) (hl.tended ha) (hp.sessions c hc) hacc).calm
      (calm_record _ _)
    obtain ⟨x, hx, -⟩ := hl.opened t i ht
    exact ⟨x, hx⟩
  | receiver c tag ops => exact h.spawnTask rfl
  | requeue c op v hr => exact hr.elim
  | request c slot ops hr => exact hr.elim
  | dropWait slot i hr => exact hr.elim
  | await slot i hr => exact hr.elim

theorem handle_not_live {i : WaitId} {x : Wait} (hx : w.waitRecord? i = some x) :
    (w.closeWait i).2.handles.isLive x.handle = false := by
  unfold World.closeWait waitHandle?
  rw [hx]
  dsimp only [Option.map_some]
  change (w.handles.finish x.handle).isLive x.handle = false
  rw [Handles.isLive_finish]
  simp

theorem Scheduled.receive (h : Scheduled w) (hl : Linked w) (ha : w.Awake)
    {t : TaskId} {old task : Task} {c : ContextId} {ops : List String} {i : WaitId}
    (hs : (w.context c).session < w.sessions.size) (hc : w.current = some t)
    (ht : w.tasks[t]? = some old) (ho : old.wait? = none) (hb : w.beginReceive c ops = .ok (i, w'))
    (hi : task.wait? = some i) : Scheduled (w'.setTask t task) := by
  obtain ⟨-, rfl, rfl⟩ := beginReceive_ok hs hb
  obtain ⟨x, hx, hxh, -⟩ := request_record hs ops
  have hreq := h.request hl (w.context c).session ops
  have hpost := posts_request w (w.context c).session ops
  have hhandles : (w.request (w.context c).session ops).2.handles = w.handles.push {} := by
    rw [request_eq]
    rfl
  generalize w.request (w.context c).session ops = r at *
  obtain ⟨i, v⟩ := r
  have hv := hreq.cancelIfKilled (awake_congr ha hpost.tasks hpost.current) c w.handles.size
  have hsig := signals_cancelIfKilled v c w.handles.size
  have htask : (v.cancelIfKilled c w.handles.size).tasks[t]? = some old := by
    rw [hsig.tasks, hpost.tasks, ht]
  refine hv.setTask (hsig.current.trans (hpost.current.trans hc)) htask (fun k hk hlive => ?_)
    fun u j k hj hk hu => ?_
  · obtain ⟨j, hj, -⟩ := hv.sleeper_in k t hk hlive
    rw [waitOf_eq htask, ho] at hj
    cases hj
  · -- the handle is new, so that nothing sleeps on it
    obtain rfl : i = j := Option.some.inj (hi.symm.trans hj)
    rw [waitHandle_congr (waitRecord_congr (hsig.mailbox _))] at hk
    obtain rfl : w.handles.size = k := by
      simpa [waitHandle?, show v.waitRecord? i = some x from hx, hxh] using hk
    rw [hsig.sleeper] at hu
    change v.handles[w.handles.size]?.bind Handle.sleeper = some u at hu
    rw [hhandles, Handles.sleeper_push, Handles.getElem?_push_size] at hu
    cases hu

theorem setTask_closeWait (w : World) (t : TaskId) (task : Task) (i : WaitId) :
    ((w.setTask t task).closeWait i).2 = (w.closeWait i).2.setTask t task := by
  have he : (w.setTask t task).waitHandle? i = w.waitHandle? i := rfl
  unfold World.closeWait
  rw [he]
  cases w.waitHandle? i <;> rfl

theorem scheduled_endReceive {i : WaitId} (h : Scheduled (w.closeWait i).2)
    (ho : ∀ t j, (w.closeWait i).2.waitOf? t = some j →
      ∃ x, (w.closeWait i).2.waitRecord? j = some x)
    (htd : Tended (w.closeWait i).2) (hs : i.session < w.sessions.size) (c : ContextId)
    (r : Except (Option Letter) Letter) : Scheduled (w.endReceive c i r).1 := by
  have hs' : i.session < (w.closeWait i).2.sessions.size := (posts_closeWait w i).sessions ▸ hs
  unfold World.endReceive
  generalize (w.closeWait i).2 = v at *
  rcases r with (_ | m) | m
  · exact h.calm (calm_record v _)
  · have hacc := (v.mailbox i.session).requeue_accepts m
    exact (h.accept ho htd hs' hacc).calm (calm_record _ _)
  · exact h.calm (calm_record v _)

theorem tended_closeWait (hl : Linked w) {t : TaskId} {i : WaitId} (hti : w.waitOf? t = some i) :
    ∀ j x, (w.closeWait i).2.waitRecord? j = some x → x.channel = .awaiting →
      ∃ u, w.waitOf? u = some j ∧ u ≠ t := by
  obtain ⟨z, hz, -⟩ := hl.opened t i hti
  intro j x hx hc
  rw [record_closeWait hz] at hx
  split at hx
  · cases hx
    cases hc
  · rename_i hji
    obtain ⟨u, hu⟩ := hl.awaited j x hx (by simp [hc])
    refine ⟨u, hu, ?_⟩
    rintro rfl
    exact hji (Option.some.inj (hu.symm.trans hti))

theorem opened_closeWait (hl : Linked w) {t u : TaskId} {i j : WaitId}
    (hti : w.waitOf? t = some i) (hu : w.waitOf? u = some j) :
    ∃ x, (w.closeWait i).2.waitRecord? j = some x := by
  obtain ⟨z, hz, -⟩ := hl.opened t i hti
  obtain ⟨x, hx, -⟩ := hl.opened u j hu
  rw [record_closeWait hz]
  split
  · exact ⟨_, rfl⟩
  · exact ⟨x, hx⟩

theorem Scheduled.leave (h : Scheduled w) (hl : Linked w) {t : TaskId} {old task : Task}
    {i : WaitId} (hc : w.current = some t) (ht : w.tasks[t]? = some old) (hi : old.wait? = some i)
    (hn : task.wait? = none) : Scheduled ((w.closeWait i).2.setTask t task) := by
  have hti := (waitOf_eq ht).trans hi
  obtain ⟨x, hx, -⟩ := hl.opened t i hti
  have hv := h.closeWait hl hc hti
  have hp := posts_closeWait w i
  refine hv.setTask (hp.current.trans hc) (hp.tasks ▸ ht) (fun k hk hlive => ?_)
    fun u j k hj => ?_
  · obtain ⟨j, hj, hk'⟩ := hv.sleeper_in k t hk hlive
    rw [waitOf_congr hp.tasks, hti] at hj
    cases hj
    have hxk : x.handle = k := by
      unfold waitHandle? at hk'
      rw [record_closeWait hx, if_pos rfl] at hk'
      exact Option.some.inj hk'
    rw [← hxk, handle_not_live hx] at hlive
    cases hlive
  · rw [hn] at hj
    cases hj

theorem Scheduled.resume (h : Scheduled w) (hl : Linked w) {t : TaskId} {old task : Task}
    {i : WaitId} (hc : w.current = some t) (ht : w.tasks[t]? = some old) (hi : old.wait? = some i)
    (hn : task.wait? = none) (c : ContextId) (r : Except (Option Letter) Letter) :
    Scheduled ((w.setTask t task).endReceive c i r).1 := by
  have hti := (waitOf_eq ht).trans hi
  obtain ⟨x, hx, -⟩ := hl.opened t i hti
  have hp := posts_closeWait w i
  have hwait : ∀ u, ((w.closeWait i).2.setTask t task).waitOf? u =
      if u = t then none else w.waitOf? u := by
    intro u
    rw [waitOf_setTask (hp.tasks ▸ ht), hn, waitOf_congr hp.tasks]
  refine scheduled_endReceive (w := w.setTask t task) ?_ ?_ ?_ (session_of_record hx) c r
  · rw [setTask_closeWait]
    exact h.leave hl hc ht hi hn
  · rw [setTask_closeWait]
    intro u j hu
    rw [hwait] at hu
    split at hu
    · cases hu
    · exact opened_closeWait hl hti hu
  · rw [setTask_closeWait]
    intro j y hy hyc
    obtain ⟨u, hu, hut⟩ := tended_closeWait hl hti j y hy hyc
    refine ⟨u, by rw [hwait, if_neg hut, hu], fun hcu => hut ?_⟩
    exact (Option.some.inj ((hp.current.trans hc).symm.trans hcu)).symm

theorem handles_endReceive (w : World) (c : ContextId) (i : WaitId)
    (r : Except (Option Letter) Letter) :
    (w.endReceive c i r).1.handles = (w.closeWait i).2.handles := by
  unfold World.endReceive
  generalize (w.closeWait i).2 = v
  rcases r with (_ | m) | m
  · rfl
  · change (v.requeue i.session m).handles = v.handles
    change ((v.setMailbox i.session ((v.mailbox i.session).requeue m).2).wakeServed i.session
      ((v.mailbox i.session).requeue m).1).handles = v.handles
    unfold wakeServed
    split
    · exact wakeSleeper_handles _ _
    · rfl
  · rfl

theorem opened_endReceive {i : WaitId} {x : Wait} (hx : w.waitRecord? i = some x) (c : ContextId)
    (r : Except (Option Letter) Letter) :
    ∃ y, (w.endReceive c i r).1.waitRecord? i = some y := by
  have hv : ∃ y, (w.closeWait i).2.waitRecord? i = some y := by
    rw [record_closeWait hx, if_pos rfl]
    exact ⟨_, rfl⟩
  unfold World.endReceive
  generalize (w.closeWait i).2 = v at hv
  rcases r with (_ | m) | m
  · exact hv
  · obtain ⟨y, hy⟩ := hv
    obtain ⟨z, hz, -⟩ := (unwaiting_requeue v i.session m).record' hy
    exact ⟨z, hz⟩
  · exact hv

theorem Scheduled.endReceipt (h : Scheduled w) (hl : Linked w) {t : TaskId} {old : Task}
    {i : WaitId} (hc : w.current = some t) (ht : w.tasks[t]? = some old) (hi : old.wait? = some i)
    (c : ContextId) (r : Except (Option Letter) Letter) (e : Event) :
    Scheduled ((((w.endReceive c i r).1.record e).setTask t .done).suspend) := by
  have hti := (waitOf_eq ht).trans hi
  obtain ⟨x, hx, -⟩ := hl.opened t i hti
  have hp := posts_closeWait w i
  have hend := posts_endReceive w c i r
  have hv : Scheduled (w.endReceive c i r).1 := by
    refine scheduled_endReceive (h.closeWait hl hc hti) (fun u j hu => ?_) (fun j y hy hyc => ?_)
      (session_of_record hx) c r
    · rw [waitOf_congr hp.tasks] at hu
      exact opened_closeWait hl hti hu
    · obtain ⟨u, hu, hut⟩ := tended_closeWait hl hti j y hy hyc
      refine ⟨u, (waitOf_congr hp.tasks u).trans hu, fun hcu => hut ?_⟩
      exact (Option.some.inj ((hp.current.trans hc).symm.trans hcu)).symm
  have hwi : (w.endReceive c i r).1.waitHandle? i = some x.handle := by
    obtain ⟨y, hy, hyx⟩ : ∃ y, (w.endReceive c i r).1.waitRecord? i = some y ∧
        y.handle = x.handle := by
      obtain ⟨y, hy⟩ := opened_endReceive hx c r
      obtain ⟨-, z, hz, hzy⟩ := (closes_endReceive hx c r).record y hy
      rw [hx] at hz
      cases hz
      exact ⟨y, hy, hzy.symm⟩
    rw [waitHandle?, hy, Option.map_some, hyx]
  have hlive : (w.endReceive c i r).1.handles.isLive x.handle = false := by
    rw [handles_endReceive, handle_not_live hx]
  generalize (w.endReceive c i r).1 = v at *
  have hvt : v.tasks[t]? = some old := hend.tasks ▸ ht
  have hdone : Scheduled ((v.record e).setTask t .done) := by
    refine (hv.calm (calm_record v e)).setTask (hend.current.trans hc) hvt
      (fun k hk hkl => ?_) fun u j k hj => ?_
    · obtain ⟨j, hj, hkj⟩ := hv.sleeper_in k t hk hkl
      rw [waitOf_congr hend.tasks, hti] at hj
      cases hj
      rw [hwi] at hkj
      cases hkj
      change v.handles.isLive x.handle = true at hkl
      rw [hlive] at hkl
      cases hkl
    · cases hj
  refine hdone.suspend fun u task hu htask hn => ?_
  obtain rfl : t = u := Option.some.inj ((hend.current.trans hc).symm.trans hu)
  rw [getElem?_setTask, if_pos ⟨rfl, (Array.getElem?_eq_some_iff.1 hvt).1⟩] at htask
  cases htask
  cases hn

theorem Drives.rests_of_over {t : TaskId} {l : Loop} {v : World}
    (hv : v.tasks[t]? = some (.loop l)) (hc : v.current = some t)
    (ho : (Task.loop l).over = true) :
    ∀ (u : TaskId) (task : Task), v.current = some u → v.tasks[u]? = some task →
      task.over = false → v.Rests u task := by
  intro u task hu ht hn
  obtain rfl : t = u := Option.some.inj (hc.symm.trans hu)
  rw [hv] at ht
  cases ht
  rw [ho] at hn
  cases hn

theorem Scheduled.endLoop (h : Scheduled w) {t : TaskId} {l : Loop} (hd : Drives w t l)
    (o : Outcome) : Scheduled (w.endLoop t l o) := by
  have hv : Scheduled (w.setLoop t { l with point := .ended o }) :=
    h.setAwake hd.current hd.task hd.awake rfl
  have hnew : (w.setLoop t { l with point := .ended o }).tasks[t]? =
      some (.loop { l with point := .ended o }) := by
    rw [setLoop, getElem?_setTask, if_pos ⟨rfl, h.current_lt t hd.current⟩]
  have hs : Scheduled (w.setLoop t { l with point := .ended o }).suspend :=
    hv.suspend (Drives.rests_of_over hnew hd.current rfl)
  unfold World.endLoop
  dsimp only
  split
  · exact hs.childFinished _
  · exact hs

theorem Scheduled.effect (h : Scheduled w) (hp : Placed w) (hl : Linked w) (e : Effect w w') :
    Scheduled w' := by
  cases e with
  | work e => exact h.calm e.edits.calm
  | takeEscalated c => exact h.calm (calm_modifyContext w c _ fun _ => rfl)
  | takePermit c => exact h.calm (calm_modifyContext w c _ fun _ => rfl)
  | runState c s => exact h.calm (calm_modifyContext w c _ fun _ => rfl)
  | kill c f ha => exact h.kill ha c f
  | escalate c f ha => exact h.escalate ha c f
  | pick t hc ht => exact h.pick hc ht
  | goto hd _ hb => exact h.setAwake hd.current hd.task hd.awake (wait_of_isBusy hb)
  | @yield t l l' hd _ hb =>
    have hv : Scheduled (w.setLoop t l') :=
      h.setAwake hd.current hd.task hd.awake (wait_of_isBusy hb)
    exact hv.yieldTask hd.current
  | park hd => exact h.park hd (hp.loop hd.task)
  | finish o hd => exact h.endLoop hd o
  | halt hc ho =>
    refine h.suspend fun t task ht htask hn => ?_
    obtain rfl := Option.some.inj (hc.symm.trans ht)
    rw [ho task htask] at hn
    cases hn
  | receive rest' receipt ops hr hb =>
    have hs := hp.sessions _ (hp.loop hr.2.1)
    exact h.receive hl hr.drives.isAwake hs hr.1 hr.2.1 hr.drives.awake hb rfl
  | @resume t l frame rest i receipt r rest' hc ht hpt =>
    exact h.resume hl hc ht (by simp [Task.wait?, hpt]) rfl l.context r
  | sleep hc ht hi hn => exact h.sleepOn hl hc ht hi hn
  | @beginReceipt t c tag ops i v hc ht hb =>
    have hs := hp.sessions _ (hp.tasks t _ c ht rfl)
    have ha : w.Awake := by
      intro u task hu htask
      obtain rfl : t = u := Option.some.inj (hc.symm.trans hu)
      rw [ht] at htask
      cases htask
      rfl
    exact h.receive hl ha hs hc ht rfl hb rfl
  | @refuse t c tag ops hc ht =>
    have hv : Scheduled (w.setTask t .done) := h.setAwake hc ht rfl rfl
    refine hv.suspend fun u task hu htask hn => ?_
    obtain rfl : t = u := Option.some.inj (hc.symm.trans hu)
    rw [getElem?_setTask, if_pos ⟨rfl, h.current_lt t hc⟩] at htask
    cases htask
    cases hn
  | endReceipt hc ht => exact h.endReceipt hl hc ht rfl _ _ _
  | endAwait hc ht => exact absurd ht (hl.received _ _ _)

theorem Reachable.scheduled (h : Reachable False admits w) : Scheduled w := by
  have hw : Linked w ∧ Scheduled w := by
    refine h.invariant (P := fun w => Linked w ∧ Scheduled w) ⟨.empty, .empty⟩ ?_ ?_
    · intro w w' hp hi _ ha k
      exact ⟨hi.1.unwaiting k.unwaiting, hi.2.call hp hi.1 ha k⟩
    · intro w w' hp hi e
      exact ⟨hi.1.effect hp e, hi.2.effect hp hi.1 e⟩
  exact hw.2

end SagaEngine.World
