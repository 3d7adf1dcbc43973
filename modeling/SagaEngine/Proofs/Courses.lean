import SagaEngine.Proofs.Registries

/-! Courses: what is done to handles from all sides, in any order and as often as one likes. An owner
creates, completes, drops or cancels a handle; a registry, whether a context has it or it stands alone,
takes it in, drops it or cancels it. Every run of the engine is such a course. -/

namespace SagaEngine

/-- The world next to registries that belong to no context. -/
structure Bench where
  world : World := {}
  registries : Nat → Registry := fun _ => {}

def Bench.put (b : Bench) (r : Nat) (x : Registry) : Bench :=
  { b with registries := fun i => if i = r then x else b.registries i }

/-- `pass` hands a handle to a context that is not killed, `refuse` to one that is. -/
inductive Deed where
  | create
  | finish (h : HandleId)
  | cancel (h : HandleId)
  | register (r : Nat) (h : HandleId)
  | prune (r : Nat)
  | cancelAll (r : Nat)
  | pass (c : ContextId) (h : HandleId)
  | refuse (c : ContextId) (h : HandleId)
  | kill (c : ContextId) (f : Fault)
  | escalate (c : ContextId) (f : Fault)

namespace Deed

def after : Deed → Bench → Bench
  | .create, b => { b with world := b.world.newHandle.2 }
  | .finish h, b => { b with world := b.world.finishHandle h }
  | .cancel h, b => { b with world := (b.world.cancelHandle h).2 }
  | .register r h, b => b.put r ((b.registries r).register h)
  | .prune r, b => b.put r ((b.registries r).prune b.world.handles)
  | .cancelAll r, b =>
    let (hits, registry, handles) := (b.registries r).cancelAll b.world.handles
    { b.put r registry with world := hits.foldl World.wakeSleeper { b.world with handles } }
  | .pass c h, b => { b with world := b.world.cancelIfKilled c h }
  | .refuse c h, b => { b with world := b.world.cancelIfKilled c h }
  | .kill c f, b => { b with world := b.world.kill c f }
  | .escalate c f, b => { b with world := b.world.escalate c f }

def hits : Deed → Bench → List HandleId
  | .cancel h, b => if (b.world.cancelHandle h).1 then [h] else []
  | .refuse _ h, b => if (b.world.cancelHandle h).1 then [h] else []
  | .cancelAll r, b => ((b.registries r).cancelAll b.world.handles).1
  | .kill c _, b => ((b.world.context c).registry.cancelAll b.world.handles).1
  | .escalate c _, b => ((b.world.context c).registry.cancelAll b.world.handles).1
  | .create, _ | .finish _, _ | .register _ _, _ | .prune _, _ | .pass _ _, _ => []

theorem world_cancelAll (r : Nat) (b : Bench) :
    ((cancelAll r).after b).world = b.world.cancelHandles (b.registries r).entries :=
  (World.cancelHandles_eq _ _).symm

def Possible : Deed → Bench → Prop
  | .pass c h, b => c < b.world.contexts.size ∧ h < b.world.handles.size ∧
      (b.world.context c).isKilled = false
  | .refuse c _, b => (b.world.context c).isKilled = true
  | _, _ => True

end Deed

structure Handles.Unmoved (hs hs' : Handles) : Prop where
  size : hs'.size = hs.size
  live : ∀ h, hs'.isLive h = hs.isLive h
  cancelled : ∀ h, hs'.isCancelled h = hs.isCancelled h

theorem Handles.unmoved_sleeper (hs : Handles) (k : HandleId) (t : TaskId) :
    hs.Unmoved (hs.modify k fun x => { x with sleeper := some t }) where
  size := by simp
  live h := Handles.isLive_modify hs k h (f := fun x => { x with sleeper := some t }) fun _ => rfl
  cancelled h :=
    Handles.isCancelled_modify hs k h (f := fun x => { x with sleeper := some t }) fun _ => rfl

structure World.Spares (w w' : World) : Prop extends World.Lenient w w' where
  handles : w.handles.Unmoved w'.handles

abbrev Log := List (Deed × List HandleId)

/-- From one bench to another, with the deeds on the way. -/
inductive Course (b : Bench) : Log → Bench → Prop where
  | refl : Course b [] b
  | deed {log : Log} {b' : Bench} (d : Deed) :
      Course b log b' → d.Possible b' → Course b (log ++ [(d, d.hits b')]) (d.after b')
  | rest {log : Log} {b' : Bench} {w : World} :
      Course b log b' → b'.world.Spares w → Course b log { b' with world := w }

variable {b b' b'' : Bench} {log log' : Log}

theorem Course.trans (h : Course b log b') (h' : Course b' log' b'') :
    Course b (log ++ log') b'' := by
  induction h' with
  | refl =>
    rw [List.append_nil]
    exact h
  | deed d _ hp ih =>
    rw [← List.append_assoc]
    exact .deed d ih hp
  | rest _ hs ih => exact .rest ih hs

/-! ## The engine -/

namespace World

variable {w w' w'' : World} {raw : Prop} {c : ContextId} {k : HandleId}

def Coursed (w w' : World) : Prop := ∀ rs, ∃ log, Course ⟨w, rs⟩ log ⟨w', rs⟩

theorem Coursed.trans (h : Coursed w w') (h' : Coursed w' w'') : Coursed w w'' := fun rs => by
  obtain ⟨log, hc⟩ := h rs
  obtain ⟨log', hc'⟩ := h' rs
  exact ⟨_, hc.trans hc'⟩

theorem coursed_deed (w : World) (d : Deed) (hp : ∀ rs, d.Possible ⟨w, rs⟩)
    (ha : ∀ rs, d.after ⟨w, rs⟩ = ⟨w', rs⟩) : Coursed w w' := fun rs => by
  have hd : Course ⟨w, rs⟩ _ (d.after ⟨w, rs⟩) := .deed d .refl (hp rs)
  rw [ha rs] at hd
  exact ⟨_, hd⟩

theorem Spares.coursed (h : Spares w w') : Coursed w w' := fun _ => ⟨_, .rest .refl h⟩

theorem coursed_uses {hs : Handles} (u : w.handles.Uses hs) : Coursed w (w.withHandles hs) := by
  cases u with
  | push => exact coursed_deed w .create (fun _ => trivial) fun _ => rfl
  | finish k => exact coursed_deed w (.finish k) (fun _ => trivial) fun _ => rfl
  | sleeper k t =>
    have hm : Tame w (w.withHandles (w.handles.modify k fun x => { x with sleeper := some t })) :=
      tame_of_used (.single (.sleeper k t)) rfl
    exact Spares.coursed ⟨hm.toLenient, Handles.unmoved_sleeper w.handles k t⟩

theorem coursed_used {hs : Handles} (u : w.handles.Used hs) : Coursed w (w.withHandles hs) := by
  induction u with
  | refl => exact fun _ => ⟨_, .refl⟩
  | @tail hs' hs'' _ u ih => exact ih.trans (coursed_uses (w := w.withHandles hs') u)

theorem Tame.coursed (m : Tame w w') : Coursed w w' := by
  have hs : Spares (w.withHandles w'.handles) w' :=
    { ages := .refl _
      registry := m.registry
      killer := m.killer
      handles := ⟨rfl, fun _ => rfl, fun _ => rfl⟩ }
  exact (coursed_used m.used).trans hs.coursed

def Known (w : World) : Prop := ∀ c, ∀ h ∈ (w.context c).registry.entries, h < w.handles.size

theorem coursed_cancelIfKilled (hk : (w.cancelIfKilled c k).Known) :
    Coursed w (w.cancelIfKilled c k) := by
  have hx := context_cancelIfKilled w c c k
  have hh := handles_cancelIfKilled w c k
  by_cases hkill : (w.context c).isKilled = true
  · exact coursed_deed w (.refuse c k) (fun _ => hkill) fun _ => rfl
  · rw [if_neg hkill] at hh
    by_cases hc : c < w.contexts.size
    · have hk : k < w.handles.size := by
        rw [seen_self _ hc] at hx
        simpa only [hh] using hk c k (by simp [hx, hkill, Registry.register])
      exact coursed_deed w (.pass c k) (fun _ => ⟨hc, hk, by simpa using hkill⟩) fun _ => rfl
    · -- there is no such context, and nothing happens
      have hsame : ∀ d, (w.cancelIfKilled c k).context d = w.context d := fun d => by
        rw [context_cancelIfKilled, seen, if_neg fun h => hc h.2]
      have hm : Lenient w (w.cancelIfKilled c k) :=
        ⟨hh ▸ .refl _, fun d => by rw [hsame], fun d => by rw [hsame]; exact .inl rfl⟩
      exact (hm.tame hh).coursed

theorem coursed_cancelHandle (w : World) (k : HandleId) : Coursed w (w.cancelHandle k).2 :=
  coursed_deed w (.cancel k) (fun _ => trivial) fun _ => rfl

theorem coursed_kill (w : World) (c : ContextId) (f : Fault) : Coursed w (w.kill c f) :=
  coursed_deed w (.kill c f) (fun _ => trivial) fun _ => rfl

theorem coursed_escalate (w : World) (c : ContextId) (f : Fault) : Coursed w (w.escalate c f) :=
  coursed_deed w (.escalate c f) (fun _ => trivial) fun _ => rfl

theorem coursed_beginReceive (hp : Placed w) (hc : c < w.contexts.size) {ops : List String}
    {i : WaitId} (hb : w.beginReceive c ops = .ok (i, w')) : Coursed w w' := by
  obtain ⟨hn, -, rfl⟩ := beginReceive_ok (hp.sessions c hc) hb
  have hr := (tame_request w (w.context c).session ops).coursed
  have hposts := posts_request w (w.context c).session ops
  have hsize : w.handles.size < (w.request (w.context c).session ops).2.handles.size := by
    rw [request_eq]
    simp [setMailbox, modifySession]
  have hkill : ((w.request (w.context c).session ops).2.context c).isKilled = false := by
    rw [hposts.context]
    exact not_killed_of_interruption hn
  refine hr.trans (coursed_deed _ (.pass c w.handles.size) (fun _ => ⟨?_, hsize, hkill⟩) fun _ => rfl)
  rwa [hposts.contexts]

theorem Call.coursed (k : Call raw w w') (hk : w'.Known) : Coursed w w' := by
  rcases k.tame with m | ⟨h, rfl⟩ | ⟨c, f, rfl⟩ | ⟨c, h, rfl⟩
  · exact m.coursed
  · exact coursed_cancelHandle w h
  · exact coursed_kill w c f
  · exact coursed_cancelIfKilled hk

theorem Effect.coursed (hp : Placed w) (e : Effect w w') : Coursed w w' := by
  rcases e.tame with m | ⟨c, f, rfl⟩ | ⟨c, f, rfl⟩ | ⟨c, ops, i, v, hc, hb, m⟩
  · exact m.coursed
  · exact coursed_kill w c f
  · exact coursed_escalate w c f
  · exact (coursed_beginReceive hp (hc hp) hb).trans m.coursed

theorem Effects.coursed (hp : Placed w) (e : Effects w w') : Placed w' ∧ Coursed w w' := by
  induction e with
  | refl => exact ⟨hp, fun _ => ⟨_, .refl⟩⟩
  | tail _ e ih => exact ⟨ih.1.effect e, ih.2.trans (e.coursed ih.1)⟩

theorem Reachable.course (h : Reachable raw Known w) (rs : Nat → Registry) :
    ∃ log, Course ⟨{}, rs⟩ log ⟨w, rs⟩ := by
  induction h with
  | start => exact ⟨_, .refl⟩
  | @next w w' h k hk ih =>
    have hc : Coursed w w' := by
      rcases k.effects fun _ _ => h.placed.loop with ⟨-, k⟩ | e
      · exact k.coursed hk
      · exact (Effects.coursed h.placed e).2
    obtain ⟨log, hl⟩ := ih
    obtain ⟨log', hl'⟩ := hc rs
    exact ⟨_, hl.trans hl'⟩

end World

end SagaEngine
