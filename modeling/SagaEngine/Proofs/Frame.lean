import Mathlib.Logic.Relation
import SagaEngine.World.Run

/-! What the operations of a world leave alone. Signals (kills, escalations, cancellations and
wake-ups) touch no task, session or scope; edits of scopes and continuations touch no signal. -/

namespace SagaEngine

namespace Context

/-- A context without its signals. -/
def still (x : Context) : Context :=
  { x with
    killer := none, escalated := none, registry := {}, runState := .created, activeChildren := 0,
    permit := false, idle := [] }

/-- A context without its work. -/
def bare (x : Context) : Context :=
  { x with scopes := [], pending := [], saved := [], marker := none, pauseRequested := false }

end Context

namespace Handles

variable {hs : Handles}

theorem getElem?_finish (hs : Handles) (h i : HandleId) :
    (hs.finish h)[i]? =
      if h = i then hs[i]?.map fun x => { x with finished := true } else hs[i]? := by
  simp [finish, Array.getElem?_modify]

theorem getElem?_cancel (hs : Handles) (h i : HandleId) :
    (hs.cancel h).2[i]? =
      if h = i ∧ hs.isLive h then hs[i]?.map fun x => { x with finished := true, cancelled := true }
      else hs[i]? := by
  unfold cancel
  split
  · rename_i hl
    simp [Array.getElem?_modify, hl]
  · rename_i hl
    simp [hl]

theorem size_cancel (hs : Handles) (h : HandleId) : (hs.cancel h).2.size = hs.size := by
  unfold cancel
  split <;> simp

theorem sleeper_cancel (hs : Handles) (h i : HandleId) :
    (hs.cancel h).2[i]?.bind Handle.sleeper = hs[i]?.bind Handle.sleeper := by
  rw [getElem?_cancel]
  split
  · cases hs[i]? <;> rfl
  · rfl

theorem isLive_eq (hs : Handles) (h : HandleId) :
    hs.isLive h = (hs[h]?.map fun x => !x.finished).getD false := by
  unfold isLive
  cases hs[h]? <;> rfl

theorem isCancelled_eq (hs : Handles) (h : HandleId) :
    hs.isCancelled h = (hs[h]?.map Handle.cancelled).getD false := by
  unfold isCancelled
  cases hs[h]? <;> rfl

theorem isLive_modify (hs : Handles) (h i : HandleId) {f : Handle → Handle}
    (hf : ∀ x, (f x).finished = x.finished) : Handles.isLive (hs.modify h f) i = hs.isLive i := by
  simp only [isLive_eq, Array.getElem?_modify]
  split
  · cases hs[i]? <;> simp [hf]
  · rfl

theorem isCancelled_modify (hs : Handles) (h i : HandleId) {f : Handle → Handle}
    (hf : ∀ x, (f x).cancelled = x.cancelled) :
    Handles.isCancelled (hs.modify h f) i = hs.isCancelled i := by
  simp only [isCancelled_eq, Array.getElem?_modify]
  split
  · cases hs[i]? <;> simp [hf]
  · rfl

theorem isLive_cancel (hs : Handles) (h i : HandleId) :
    (hs.cancel h).2.isLive i = (hs.isLive i && !(h == i)) := by
  rw [isLive_eq, getElem?_cancel, isLive_eq hs i]
  by_cases he : h = i
  · subst he
    by_cases hl : hs.isLive h
    · rw [if_pos ⟨rfl, hl⟩]
      cases hs[h]? <;> simp
    · rw [if_neg fun hc => hl hc.2]
      rw [isLive_eq] at hl
      simpa using hl
  · rw [if_neg fun hc => he hc.1]
    simp [he]

theorem isCancelled_cancel_of_ne (hs : Handles) {h i : HandleId} (hi : h ≠ i) :
    (hs.cancel h).2.isCancelled i = hs.isCancelled i := by
  rw [isCancelled_eq, getElem?_cancel, if_neg fun hc => hi hc.1, isCancelled_eq]

theorem isLive_finish (hs : Handles) (h i : HandleId) :
    (hs.finish h).isLive i = (hs.isLive i && !(h == i)) := by
  rw [isLive_eq, getElem?_finish, isLive_eq]
  by_cases he : h = i
  · rw [if_pos he]
    cases hs[i]? <;> simp [he]
  · rw [if_neg he]
    simp [he]

theorem isCancelled_finish (hs : Handles) (h i : HandleId) :
    (hs.finish h).isCancelled i = hs.isCancelled i := by
  rw [isCancelled_eq, getElem?_finish, isCancelled_eq]
  split
  · cases hs[i]? <;> rfl
  · rfl

theorem sleeper_finish (hs : Handles) (h i : HandleId) :
    (hs.finish h)[i]?.bind Handle.sleeper = hs[i]?.bind Handle.sleeper := by
  rw [getElem?_finish]
  split
  · cases hs[i]? <;> rfl
  · rfl

theorem getElem?_push_size (hs : Handles) : hs[hs.size]? = none :=
  Array.getElem?_eq_none (Nat.le_refl _)

theorem isLive_push (hs : Handles) (i : HandleId) :
    Handles.isLive (hs.push {}) i = (hs.isLive i || i == hs.size) := by
  rw [isLive_eq, Array.getElem?_push, isLive_eq]
  by_cases hi : i = hs.size
  · rw [if_pos hi, hi, getElem?_push_size]
    simp
  · rw [if_neg hi]
    simp [hi]

theorem isCancelled_push (hs : Handles) (i : HandleId) :
    Handles.isCancelled (hs.push {}) i = hs.isCancelled i := by
  rw [isCancelled_eq, Array.getElem?_push, isCancelled_eq]
  split
  · rename_i hi
    rw [hi, getElem?_push_size]
    rfl
  · rfl

theorem sleeper_push (hs : Handles) (i : HandleId) :
    (hs.push {})[i]?.bind Handle.sleeper = hs[i]?.bind Handle.sleeper := by
  rw [Array.getElem?_push]
  split
  · rename_i hi
    rw [hi, getElem?_push_size]
    rfl
  · rfl

theorem isCancelled_cancel (hs : Handles) (h : HandleId) {i : HandleId}
    (hi : hs.isCancelled i = true) : (hs.cancel h).2.isCancelled i = true := by
  simp only [isCancelled, getElem?_cancel] at hi ⊢
  by_cases hc : h = i ∧ hs.isLive h
  · rw [if_pos hc]
    cases hx : hs[i]? with
    | none => simp [hx] at hi
    | some x => rfl
  · rw [if_neg hc]
    exact hi

end Handles

def Event.isMail : Event → Bool
  | .delivered _ _ | .returned _ _ _ => true
  | _ => false

def Event.isUse : Event → Bool
  | .installed _ _ | .caught _ _ _ => true
  | _ => false

def Event.isWork : Event → Bool
  | .started _ _ => true
  | e => e.isUse

theorem isUse_of_isWork {e : Event} (h : e.isWork = false) : e.isUse = false := by
  cases e <;> first | rfl | exact h

namespace World

variable {w w' w'' : World}

theorem context_modifyContext (w : World) (c d : ContextId) (f : Context → Context) :
    (w.modifyContext c f).context d =
      if c = d ∧ d < w.contexts.size then f (w.context d) else w.context d := by
  simp only [context, modifyContext, Array.getD_eq_getD_getElem?, Array.getElem?_modify]
  by_cases hc : c = d
  · by_cases hd : d < w.contexts.size
    · simp [hc, hd]
    · simp [hc, hd]
  · simp [hc]

theorem context_modifyContext_self (f : Context → Context) {c : ContextId}
    (h : c < w.contexts.size) : (w.modifyContext c f).context c = f (w.context c) := by
  rw [context_modifyContext, if_pos ⟨rfl, h⟩]

theorem context_modifyContext_of_ne (w : World) (f : Context → Context) {c d : ContextId}
    (h : d ≠ c) : (w.modifyContext c f).context d = w.context d := by
  rw [context_modifyContext, if_neg fun hc => h hc.1.symm]

theorem context_modifyContext_congr {α : Type} (g : Context → α) {f : Context → Context}
    (h : ∀ x, g (f x) = g x) (w : World) (c d : ContextId) :
    g ((w.modifyContext c f).context d) = g (w.context d) := by
  rw [context_modifyContext]
  split
  · exact h _
  · rfl

@[simp] theorem contexts_size_modifyContext (w : World) (c : ContextId) (f : Context → Context) :
    (w.modifyContext c f).contexts.size = w.contexts.size := by
  simp [modifyContext]

theorem modifyContext_modifyContext (w : World) (c : ContextId) (f g : Context → Context) :
    (w.modifyContext c f).modifyContext c g = w.modifyContext c fun x => g (f x) := by
  simp only [modifyContext, World.mk.injEq, and_true, true_and]
  refine Array.ext_getElem? fun i => ?_
  simp only [Array.getElem?_modify]
  by_cases h : c = i
  · simp [h, Function.comp_def]
  · simp [h]

theorem modifyContext_self (w : World) (c : ContextId) :
    w.modifyContext c (fun _ => w.context c) = w := by
  have hctx : w.contexts.modify c (fun _ => w.context c) = w.contexts := by
    refine Array.ext_getElem? fun i => ?_
    rw [Array.getElem?_modify]
    split
    · rename_i hi
      subst hi
      cases hg : w.contexts[c]? <;> simp [context, Array.getD_eq_getD_getElem?, hg]
    · rfl
  rw [modifyContext, hctx]

theorem modifyContext_congr {c : ContextId} {f g : Context → Context}
    (hf : f (w.context c) = g (w.context c)) : w.modifyContext c f = w.modifyContext c g := by
  have hconst : ∀ f, w.modifyContext c f = w.modifyContext c fun _ => f (w.context c) := fun f => by
    have hm := modifyContext_modifyContext w c (fun _ => w.context c) f
    rw [modifyContext_self] at hm
    exact hm
  rw [hconst f, hconst g, hf]

theorem context_of_size_le {c : ContextId} (h : w.contexts.size ≤ c) : w.context c = default := by
  simp [context, Array.getD_eq_getD_getElem?, h]

def sleeper? (w : World) (h : HandleId) : Option TaskId := w.handles[h]?.bind Handle.sleeper

/-! ## Signals -/

/-- A signal may cancel handles, make tasks ready, and change the signals of contexts. -/
structure Signals (w w' : World) : Prop where
  sessions : w'.sessions = w.sessions
  tasks : w'.tasks = w.tasks
  current : w'.current = w.current
  arrivals : w'.arrivals = w.arrivals
  names : w'.names = w.names
  history : w'.history = w.history
  size : w'.contexts.size = w.contexts.size
  still : ∀ c, (w'.context c).still = (w.context c).still
  handles : w'.handles.size = w.handles.size
  ready : ∀ t ∈ w.ready, t ∈ w'.ready
  cancelled : ∀ h, w.handles.isCancelled h = true → w'.handles.isCancelled h = true
  sleeper : ∀ h, w'.sleeper? h = w.sleeper? h

namespace Signals

theorem refl (w : World) : Signals w w :=
  ⟨rfl, rfl, rfl, rfl, rfl, rfl, rfl, fun _ => rfl, rfl, fun _ h => h, fun _ h => h, fun _ => rfl⟩

theorem trans (h : Signals w w') (h' : Signals w' w'') : Signals w w'' where
  sessions := h'.sessions.trans h.sessions
  tasks := h'.tasks.trans h.tasks
  current := h'.current.trans h.current
  arrivals := h'.arrivals.trans h.arrivals
  names := h'.names.trans h.names
  history := h'.history.trans h.history
  size := h'.size.trans h.size
  still c := (h'.still c).trans (h.still c)
  handles := h'.handles.trans h.handles
  ready t ht := h'.ready t (h.ready t ht)
  cancelled i hi := h'.cancelled i (h.cancelled i hi)
  sleeper i := (h'.sleeper i).trans (h.sleeper i)

theorem scopes (h : Signals w w') (c : ContextId) :
    (w'.context c).scopes = (w.context c).scopes := by
  change (w'.context c).still.scopes = (w.context c).still.scopes
  rw [h.still]

theorem ancestors (h : Signals w w') (c : ContextId) :
    (w'.context c).ancestors = (w.context c).ancestors := by
  change (w'.context c).still.ancestors = (w.context c).still.ancestors
  rw [h.still]

theorem session (h : Signals w w') (c : ContextId) :
    (w'.context c).session = (w.context c).session := by
  change (w'.context c).still.session = (w.context c).still.session
  rw [h.still]

end Signals

theorem signals_modifyContext (w : World) (c : ContextId) (f : Context → Context)
    (h : ∀ x, (f x).still = x.still) : Signals w (w.modifyContext c f) where
  sessions := rfl
  tasks := rfl
  current := rfl
  arrivals := rfl
  names := rfl
  history := rfl
  size := contexts_size_modifyContext ..
  still d := context_modifyContext_congr Context.still h w c d
  handles := rfl
  ready _ ht := ht
  cancelled _ hi := hi
  sleeper _ := rfl

theorem wake_eq (w : World) (t : TaskId) :
    w.wake t = { w with ready := if w.ready.contains t then w.ready else w.ready ++ [t] } := by
  unfold wake
  split <;> rfl

theorem ready_wake (w : World) (t : TaskId) {u : TaskId} :
    u ∈ (w.wake t).ready ↔ u ∈ w.ready ∨ u = t := by
  unfold wake
  split
  · rename_i h
    have ht : t ∈ w.ready := by simpa using h
    exact ⟨.inl, fun hu => hu.elim id fun he => he ▸ ht⟩
  · simp

theorem signals_wake (w : World) (t : TaskId) : Signals w (w.wake t) := by
  have hr : ∀ u ∈ w.ready, u ∈ (w.wake t).ready := fun u hu => (ready_wake w t).2 (.inl hu)
  unfold wake at hr ⊢
  split
  · exact .refl w
  · rename_i h
    rw [if_neg h] at hr
    exact { Signals.refl w with ready := hr }

theorem signals_wakeSleeper (w : World) (h : HandleId) : Signals w (w.wakeSleeper h) := by
  unfold wakeSleeper
  split
  · exact signals_wake w _
  · exact .refl w

theorem signals_notify (w : World) (c : ContextId) : Signals w (w.notify c) := by
  unfold notify
  split
  · rename_i t idle _
    exact .trans (signals_modifyContext w c (fun x => { x with idle }) fun _ => rfl) (signals_wake _ t)
  · exact signals_modifyContext w c _ fun _ => rfl

theorem wakeSleeper_eq (w : World) (h : HandleId) :
    w.wakeSleeper h = match w.sleeper? h with
      | some t => w.wake t
      | none => w := by
  unfold wakeSleeper sleeper?
  cases hx : w.handles[h]? with
  | none => rfl
  | some x =>
    obtain ⟨_, _, _ | t⟩ := x
    · rfl
    · rfl

def withHandles (w : World) (hs : Handles) : World := { w with handles := hs }

theorem wakeSleeper_handles (w : World) (h : HandleId) : (w.wakeSleeper h).handles = w.handles := by
  rw [wakeSleeper_eq]
  cases w.sleeper? h with
  | none => rfl
  | some t =>
    change (w.wake t).handles = w.handles
    rw [wake_eq]

theorem withHandles_wakeSleeper (w : World) (hs : Handles) (h : HandleId)
    (hx : hs[h]?.bind Handle.sleeper = w.sleeper? h) :
    (w.withHandles hs).wakeSleeper h = (w.wakeSleeper h).withHandles hs := by
  have he : (w.withHandles hs).sleeper? h = w.sleeper? h := hx
  rw [wakeSleeper_eq, wakeSleeper_eq, he]
  cases w.sleeper? h with
  | none => rfl
  | some t =>
    change (w.withHandles hs).wake t = (w.wake t).withHandles hs
    rw [wake_eq, wake_eq]
    rfl

theorem cancelHandle_eq (w : World) (h : HandleId) :
    (w.cancelHandle h).2 =
      if w.handles.isLive h then (w.withHandles (w.handles.cancel h).2).wakeSleeper h else w := by
  by_cases hl : w.handles.isLive h
  · simp [cancelHandle, Handles.cancel, hl, withHandles]
  · simp [cancelHandle, Handles.cancel, hl]

theorem signals_cancelHandle (w : World) (h : HandleId) : Signals w (w.cancelHandle h).2 := by
  have hw : Signals w (w.withHandles (w.handles.cancel h).2) :=
    { Signals.refl w with
      handles := Handles.size_cancel ..
      cancelled := fun _ hi => Handles.isCancelled_cancel _ _ hi
      sleeper := fun i => Handles.sleeper_cancel .. }
  rw [cancelHandle_eq]
  split
  · exact hw.trans (signals_wakeSleeper _ h)
  · exact .refl w

def cancelHandles (w : World) (hs : List HandleId) : World :=
  hs.foldl (fun w h => (w.cancelHandle h).2) w

theorem signals_cancelHandles (hs : List HandleId) (w : World) : Signals w (w.cancelHandles hs) := by
  induction hs generalizing w with
  | nil => exact .refl w
  | cons h hs ih => exact (signals_cancelHandle w h).trans (ih _)

theorem sleeper_cancelEach (hs : List HandleId) (xs : Handles) (i : HandleId) :
    (xs.cancelEach hs).2[i]?.bind Handle.sleeper = xs[i]?.bind Handle.sleeper := by
  induction hs generalizing xs with
  | nil => rfl
  | cons h hs ih => exact (ih _).trans (Handles.sleeper_cancel ..)

theorem cancelHandles_eq (hs : List HandleId) (w : World) :
    w.cancelHandles hs =
      (w.handles.cancelEach hs).1.foldl wakeSleeper (w.withHandles (w.handles.cancelEach hs).2) := by
  induction hs generalizing w with
  | nil => rfl
  | cons h hs ih =>
    change (w.cancelHandle h).2.cancelHandles hs = _
    rw [ih, cancelHandle_eq]
    by_cases hl : w.handles.isLive h
    · have hc : w.handles.cancel h = (true, (w.handles.cancel h).2) := by
        simp [Handles.cancel, hl]
      have hx : ((w.handles.cancel h).2.cancelEach hs).2[h]?.bind Handle.sleeper =
          (w.withHandles (w.handles.cancel h).2).sleeper? h := sleeper_cancelEach ..
      rw [if_pos hl, wakeSleeper_handles]
      simp only [Handles.cancelEach]
      rw [hc]
      exact congrArg (List.foldl wakeSleeper · _) (withHandles_wakeSleeper _ _ _ hx).symm
    · have hc : w.handles.cancel h = (false, w.handles) := by simp [Handles.cancel, hl]
      rw [if_neg hl]
      simp only [Handles.cancelEach, hc]
      rfl

theorem wakeSleeper_modifyContext (w : World) (c : ContextId) (f : Context → Context)
    (h : HandleId) :
    (w.modifyContext c f).wakeSleeper h = (w.wakeSleeper h).modifyContext c f := by
  have he : (w.modifyContext c f).sleeper? h = w.sleeper? h := rfl
  rw [wakeSleeper_eq, wakeSleeper_eq, he]
  cases w.sleeper? h with
  | none => rfl
  | some t =>
    change (w.modifyContext c f).wake t = (w.wake t).modifyContext c f
    rw [wake_eq, wake_eq]
    rfl

theorem cancelRegistered_eq (w : World) (c : ContextId) :
    w.cancelRegistered c = (w.cancelHandles (w.context c).registry.entries).modifyContext c
      fun x => { x with registry := {} } := by
  have hf : ∀ (hs : List HandleId) (v : World) (f : Context → Context),
      hs.foldl wakeSleeper (v.modifyContext c f) = (hs.foldl wakeSleeper v).modifyContext c f := by
    intro hs v f
    induction hs generalizing v with
    | nil => rfl
    | cons h hs ih => rw [List.foldl_cons, wakeSleeper_modifyContext, ih, List.foldl_cons]
  rw [cancelHandles_eq, ← hf]
  rfl

theorem signals_cancelRegistered (w : World) (c : ContextId) : Signals w (w.cancelRegistered c) := by
  rw [cancelRegistered_eq]
  exact (signals_cancelHandles _ w).trans (signals_modifyContext _ c _ fun _ => rfl)

theorem signals_kill (w : World) (c : ContextId) (f : Fault) : Signals w (w.kill c f) := by
  refine .trans (.trans ?_ (signals_cancelRegistered _ c)) (signals_notify _ c)
  exact signals_modifyContext w c _ fun _ => rfl

theorem signals_setRunState (w : World) (c : ContextId) (s : RunState) :
    Signals w (w.setRunState c s) := signals_modifyContext w c _ fun _ => rfl

theorem signals_clearKill (w : World) (c : ContextId) : Signals w (w.clearKill c) :=
  signals_modifyContext w c _ fun _ => rfl

theorem signals_takeEscalated (w : World) (c : ContextId) :
    Signals w (w.modifyContext c fun x => { x with escalated := none }) :=
  signals_modifyContext w c _ fun _ => rfl

theorem signals_takePermit (w : World) (c : ContextId) :
    Signals w (w.modifyContext c fun x => { x with permit := false }) :=
  signals_modifyContext w c _ fun _ => rfl

theorem signals_idle (w : World) (c : ContextId) (t : TaskId) :
    Signals w (w.modifyContext c fun x => { x with idle := x.idle ++ [t] }) :=
  signals_modifyContext w c _ fun _ => rfl

theorem signals_addChild (w : World) (c : ContextId) :
    Signals w (w.modifyContext c fun x => { x with activeChildren := x.activeChildren + 1 }) :=
  signals_modifyContext w c _ fun _ => rfl

theorem signals_escalate (w : World) (c : ContextId) (f : Fault) : Signals w (w.escalate c f) := by
  refine .trans ?_ (signals_notify _ c)
  split
  · exact signals_kill w c f
  · have he : Signals w (w.modifyContext c fun x => { x with escalated := x.escalated.or (some f) }) :=
      signals_modifyContext w c _ fun _ => rfl
    exact he.trans (signals_cancelRegistered _ c)

theorem signals_cancelIfKilled (w : World) (c : ContextId) (h : HandleId) :
    Signals w (w.cancelIfKilled c h) := by
  unfold cancelIfKilled
  refine .trans (signals_modifyContext w c (fun x =>
    { x with registry := x.registry.prune w.handles }) fun _ => rfl) ?_
  dsimp only
  split
  · exact signals_cancelHandle _ h
  · exact signals_modifyContext _ c _ fun _ => rfl

theorem signals_childFinished (w : World) (c : ContextId) : Signals w (w.childFinished c) := by
  refine .trans ?_ (signals_notify _ c)
  exact signals_modifyContext w c _ fun _ => rfl

/-! ## Edits -/

/-- An edit may change the data of sessions, and the scopes and continuations of contexts. -/
structure Edits (w w' : World) : Prop where
  mailbox : ∀ s, w'.mailbox s = w.mailbox s
  sessions : w'.sessions.size = w.sessions.size
  tasks : w'.tasks = w.tasks
  ready : w'.ready = w.ready
  current : w'.current = w.current
  handles : w'.handles = w.handles
  arrivals : w'.arrivals = w.arrivals
  waits : w'.names.waits = w.names.waits
  named : w'.names.handles = w.names.handles
  size : w'.contexts.size = w.contexts.size
  bare : ∀ c, (w'.context c).bare = (w.context c).bare
  listed : ∀ c ∈ w'.names.listed, c ∈ w.names.listed ∨ c < w.contexts.size
  history : ∃ es, w'.history.toList = w.history.toList ++ es ∧ ∀ e ∈ es, e.isMail = false

namespace Edits

theorem refl (w : World) : Edits w w :=
  ⟨fun _ => rfl, rfl, rfl, rfl, rfl, rfl, rfl, rfl, rfl, rfl, fun _ => rfl, fun _ => .inl, [],
    by simp⟩

theorem trans (h : Edits w w') (h' : Edits w' w'') : Edits w w'' where
  mailbox s := (h'.mailbox s).trans (h.mailbox s)
  sessions := h'.sessions.trans h.sessions
  tasks := h'.tasks.trans h.tasks
  ready := h'.ready.trans h.ready
  current := h'.current.trans h.current
  handles := h'.handles.trans h.handles
  arrivals := h'.arrivals.trans h.arrivals
  waits := h'.waits.trans h.waits
  named := h'.named.trans h.named
  size := h'.size.trans h.size
  bare c := (h'.bare c).trans (h.bare c)
  listed c hc := (h'.listed c hc).elim (h.listed c) fun hc => .inr (h.size ▸ hc)
  history := by
    obtain ⟨es, he, hes⟩ := h.history
    obtain ⟨es', he', hes'⟩ := h'.history
    refine ⟨es ++ es', by rw [he', he, List.append_assoc], ?_⟩
    intro e h
    exact (List.mem_append.1 h).elim (hes e) (hes' e)

end Edits

theorem edits_modifyContext (w : World) (c : ContextId) (f : Context → Context)
    (h : ∀ x, (f x).bare = x.bare) : Edits w (w.modifyContext c f) :=
  { Edits.refl w with
    size := contexts_size_modifyContext ..
    bare := context_modifyContext_congr Context.bare h w c }

theorem edits_record (w : World) {e : Event} (h : e.isMail = false) : Edits w (w.record e) :=
  { Edits.refl w with history := ⟨[e], by simp [record], by simpa using h⟩ }

theorem session_modifySession (w : World) (s t : SessionId) (f : Session → Session) :
    (w.modifySession s f).session t =
      if s = t ∧ t < w.sessions.size then f (w.session t) else w.session t := by
  simp only [session, modifySession, Array.getD_eq_getD_getElem?, Array.getElem?_modify]
  by_cases hs : s = t
  · by_cases ht : t < w.sessions.size
    · simp [hs, ht]
    · simp [hs, ht]
  · simp [hs]

theorem modifySession_modifySession (w : World) (s : SessionId) (f g : Session → Session) :
    (w.modifySession s f).modifySession s g = w.modifySession s fun x => g (f x) := by
  simp only [modifySession, World.mk.injEq, and_true]
  refine Array.ext_getElem? fun i => ?_
  simp only [Array.getElem?_modify]
  by_cases h : s = i
  · simp [h, Function.comp_def]
  · simp [h]

theorem edits_modifyData (w : World) (c : ContextId) (f : Data → Data) :
    Edits w (w.modifyData c f) :=
  { Edits.refl w with
    mailbox := by
      intro s
      simp only [mailbox, modifyData, session_modifySession]
      split <;> rfl
    sessions := by simp [modifyData, modifySession] }

theorem edits_updateScope {α : Type} (w : World) (c : ContextId)
    (f : Scope Installed → α × Scope Installed) : Edits w (w.updateScope c f).1 := by
  unfold updateScope
  split
  · exact edits_modifyContext w _ _ fun _ => rfl
  · exact .refl w

theorem edits_install (w : World) (c : ContextId) (role : Role) (k : Continuation)
    (put : Installed → Scope Installed → Scope Installed) :
    Edits w (w.install c role k put).1 := by
  have hu := edits_updateScope w c fun s => ((), put ⟨w.history.size, k⟩ s)
  unfold install
  dsimp only
  split
  · rename_i v hv
    rw [hv] at hu
    exact hu.trans (edits_record v rfl)
  · exact hu

theorem bare_popScope {x y : Context} {marker : Option String} {s : Scope Installed}
    (h : x.popScope? marker = some (s, y)) : y.bare = x.bare := by
  unfold Context.popScope? at h
  split at h
  · cases h
  · simp only [Option.some.injEq, Prod.mk.injEq] at h
    rw [← h.2]
    split <;> rfl

theorem bare_nextContinuation (x : Context) : x.nextContinuation.2.bare = x.bare := by
  unfold Context.nextContinuation
  split <;> rfl

theorem edits_mergeUpward (w : World) (c : ContextId) (s : Scope Installed) :
    Edits w (w.mergeUpward c s) := by
  unfold mergeUpward
  split
  · exact edits_updateScope w _ _
  · exact .refl w

theorem edits_replaceContext (w : World) (c : ContextId) {x : Context}
    (h : x.bare = (w.context c).bare) : Edits w (w.modifyContext c fun _ => x) :=
  { Edits.refl w with
    size := contexts_size_modifyContext ..
    bare := by
      intro d
      rw [context_modifyContext]
      split
      · rename_i hd
        rw [← hd.1]
        exact h
      · rfl }

theorem edits_popScope (w : World) (c : ContextId) (merge : Bool) (marker : Option String) :
    Edits w (w.popScope c merge marker).1 := by
  unfold popScope
  split
  · exact .refl w
  · rename_i s x hx
    have hw := edits_replaceContext w c (bare_popScope hx)
    dsimp only
    split
    · exact hw
    · exact hw.trans (edits_modifyContext _ c _ fun _ => rfl)
    · exact hw.trans (edits_mergeUpward _ c s)

theorem bare_unwindFrom (fault : String) (n : Nat) (x : Context) :
    (Context.unwindFrom fault n x).2.bare = x.bare := by
  induction n generalizing x with
  | zero => rfl
  | succ n ih =>
    unfold Context.unwindFrom
    split
    · rfl
    · split
      · rfl
      · split
        · split
          · rename_i hx
            rw [ih, bare_popScope hx]
          · rfl
        · rfl

theorem bare_unwind {x : Context} {h : Option Installed} {y : Context} {fault : String}
    (hy : x.unwind fault = (h, y)) : y.bare = x.bare := by
  have hb := bare_unwindFrom fault x.scopes.length x
  rw [← Context.unwind, hy] at hb
  exact hb

theorem history_updateScope {α : Type} (w : World) (c : ContextId)
    (f : Scope Installed → α × Scope Installed) : (w.updateScope c f).1.history = w.history := by
  unfold updateScope
  split <;> rfl

theorem history_popScope (w : World) (c : ContextId) (merge : Bool) (marker : Option String) :
    (w.popScope c merge marker).1.history = w.history := by
  unfold popScope
  split
  · rfl
  · dsimp only
    split
    · rfl
    · rfl
    · unfold mergeUpward
      split
      · exact history_updateScope ..
      · rfl

theorem edits_mention (w : World) (ops : List String) : Edits w (w.mention ops) :=
  { Edits.refl w with }

theorem edits_list (w : World) {c : ContextId} (h : c < w.contexts.size) : Edits w (w.list c) := by
  unfold list
  split
  · exact .refl w
  · refine { Edits.refl w with listed := ?_ }
    intro d hd
    rcases Array.mem_push.1 hd with hd | rfl
    · exact .inl hd
    · exact .inr h

/-! ## Mail -/

/-- What the traffic of messages and the use of handles leave alone. -/
structure Posts (w w' : World) : Prop where
  contexts : w'.contexts = w.contexts
  sessions : w'.sessions.size = w.sessions.size
  tasks : w'.tasks = w.tasks
  current : w'.current = w.current
  listed : w'.names.listed = w.names.listed
  history : ∃ es, w'.history.toList = w.history.toList ++ es ∧ ∀ e ∈ es, e.isWork = false

theorem posts_of_eq (hc : w'.contexts = w.contexts) (hs : w'.sessions.size = w.sessions.size)
    (ht : w'.tasks = w.tasks) (hr : w'.current = w.current)
    (hl : w'.names.listed = w.names.listed) (hh : w'.history = w.history) : Posts w w' :=
  ⟨hc, hs, ht, hr, hl, [], by simp [hh], by simp⟩

namespace Posts

theorem refl (w : World) : Posts w w := posts_of_eq rfl rfl rfl rfl rfl rfl

theorem trans (h : Posts w w') (h' : Posts w' w'') : Posts w w'' where
  contexts := h'.contexts.trans h.contexts
  sessions := h'.sessions.trans h.sessions
  tasks := h'.tasks.trans h.tasks
  current := h'.current.trans h.current
  listed := h'.listed.trans h.listed
  history := by
    obtain ⟨es, he, hes⟩ := h.history
    obtain ⟨es', he', hes'⟩ := h'.history
    refine ⟨es ++ es', by rw [he', he, List.append_assoc], ?_⟩
    intro e h
    exact (List.mem_append.1 h).elim (hes e) (hes' e)

theorem context (h : Posts w w') (c : ContextId) : w'.context c = w.context c := by
  simp only [World.context, h.contexts]

end Posts

theorem posts_setMailbox (w : World) (s : SessionId) (mb : Mailbox) : Posts w (w.setMailbox s mb) :=
  { Posts.refl w with sessions := by simp [setMailbox, modifySession] }

theorem posts_record (w : World) {e : Event} (h : e.isWork = false) : Posts w (w.record e) :=
  { Posts.refl w with history := ⟨[e], by simp [record], by simpa using h⟩ }

theorem posts_wakeSleeper (w : World) (h : HandleId) : Posts w (w.wakeSleeper h) := by
  rw [wakeSleeper_eq]
  cases w.sleeper? h with
  | none => exact .refl w
  | some t =>
    change Posts w (w.wake t)
    rw [wake_eq]
    exact posts_of_eq rfl rfl rfl rfl rfl rfl

theorem posts_wakeServed (w : World) (s : SessionId) (served : Option Nat) :
    Posts w (w.wakeServed s served) := by
  unfold wakeServed
  split
  · exact posts_wakeSleeper w _
  · exact .refl w

theorem posts_deliver (w : World) (s : SessionId) (m : Letter) : Posts w (w.deliver s m).2 :=
  (posts_setMailbox w s _).trans ((posts_wakeServed _ s _).trans (posts_record _ rfl))

theorem posts_requeue (w : World) (s : SessionId) (m : Letter) : Posts w (w.requeue s m) :=
  (posts_setMailbox w s _).trans (posts_wakeServed _ s _)

theorem posts_request (w : World) (s : SessionId) (ops : List String) :
    Posts w (w.request s ops).2 := by
  have hn : Posts w w.newHandle.2 :=
    posts_of_eq rfl rfl rfl rfl rfl rfl
  exact hn.trans (posts_setMailbox w.newHandle.2 s _)

theorem posts_closeWait (w : World) (i : WaitId) : Posts w (w.closeWait i).2 := by
  unfold closeWait
  dsimp only
  split
  · exact (posts_setMailbox w _ _).trans (posts_of_eq rfl rfl rfl rfl rfl rfl)
  · exact posts_setMailbox w _ _

theorem posts_dropHandle (w : World) (name : String) : Posts w (w.dropHandle name) := by
  unfold dropHandle
  split
  · exact posts_of_eq rfl rfl rfl rfl rfl rfl
  · exact .refl w

theorem posts_nameNewHandle (w : World) (name : String) : Posts w (w.nameNewHandle name) :=
  (posts_dropHandle w name).trans (posts_of_eq rfl rfl rfl rfl rfl rfl)

theorem posts_requestInto (w : World) (c : ContextId) (slot : String) (ops : List String) :
    Posts w (w.requestInto c slot ops) := by
  have hr := posts_request w (w.context c).session ops
  unfold requestInto
  dsimp only
  split
  · exact (hr.trans (posts_closeWait _ _)).trans (posts_of_eq rfl rfl rfl rfl rfl rfl)
  · exact hr.trans (posts_of_eq rfl rfl rfl rfl rfl rfl)

theorem posts_endReceive (w : World) (c : ContextId) (i : WaitId)
    (r : Except (Option Letter) Letter) : Posts w (w.endReceive c i r).1 := by
  have hc := posts_closeWait w i
  unfold endReceive
  split
  · exact hc.trans (posts_record _ rfl)
  · dsimp only
    split
    · exact (hc.trans (posts_requeue _ _ _)).trans (posts_record _ rfl)
    · exact hc.trans (posts_record _ rfl)

end World

end SagaEngine
