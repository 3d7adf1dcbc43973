import SagaEngine.Proofs.Frame

/-! What signals do to the context that they are for. They leave every other context as it is. -/

namespace SagaEngine

namespace Context

def notified (x : Context) : Context :=
  match x.idle with
  | _ :: idle => { x with idle }
  | [] => { x with permit := true }

def drained (x : Context) : Context := { x with registry := {} }

def killed (x : Context) (f : Fault) : Context := { x with killer := x.killer.or (some f) }

def escalatedTo (x : Context) (f : Fault) : Context := { x with escalated := x.escalated.or (some f) }

variable {x : Context}

theorem notified_congr {α : Type} (g : Context → α)
    (h : ∀ (y : Context) idle permit, g { y with idle, permit } = g y) : g x.notified = g x := by
  unfold notified
  split
  · rename_i idle _
    exact h x idle x.permit
  · exact h x x.idle true

theorem idle_notified : x.notified.idle = x.idle.tail := by
  unfold notified
  split
  · rename_i h
    rw [h]
    rfl
  · rename_i h
    exact h.trans (by rw [h]; rfl)

theorem interruption_notified : x.notified.interruption? = x.interruption? :=
  notified_congr _ fun _ _ _ => rfl

end Context

namespace World

variable {w w' : World}

theorem context_wake (w : World) (t : TaskId) (c : ContextId) :
    (w.wake t).context c = w.context c := by
  rw [wake_eq]
  rfl

theorem context_wakeSleeper (w : World) (h : HandleId) (c : ContextId) :
    (w.wakeSleeper h).context c = w.context c := by
  rw [wakeSleeper_eq]
  cases w.sleeper? h with
  | none => rfl
  | some t => exact context_wake w t c

theorem context_cancelHandle (w : World) (h : HandleId) (c : ContextId) :
    (w.cancelHandle h).2.context c = w.context c := by
  rw [cancelHandle_eq]
  split
  · exact context_wakeSleeper _ h c
  · rfl

theorem context_cancelHandles (hs : List HandleId) (w : World) (c : ContextId) :
    (w.cancelHandles hs).context c = w.context c := by
  induction hs generalizing w with
  | nil => rfl
  | cons h hs ih => exact (ih _).trans (context_cancelHandle w h c)

/-- The part of a change that is seen at a context `d` when it was made at `c`. -/
def seen (w : World) (c d : ContextId) (f : Context → Context) : Context :=
  if d = c ∧ c < w.contexts.size then f (w.context d) else w.context d

theorem seen_of_ne (f : Context → Context) {c d : ContextId} (h : d ≠ c) :
    w.seen c d f = w.context d := if_neg fun hc => h hc.1

theorem seen_self (f : Context → Context) {c : ContextId} (h : c < w.contexts.size) :
    w.seen c c f = f (w.context c) := if_pos ⟨rfl, h⟩

theorem seen_congr {c : ContextId} {f g : Context → Context}
    (h : f (w.context c) = g (w.context c)) (d : ContextId) : w.seen c d f = w.seen c d g := by
  unfold seen
  split
  · rename_i hd
    rw [hd.1, h]
  · rfl

theorem context_modifyContext' (w : World) (c d : ContextId) (f : Context → Context) :
    (w.modifyContext c f).context d = w.seen c d f := by
  rw [context_modifyContext, seen]
  by_cases hd : d = c
  · subst hd
    rfl
  · rw [if_neg fun h => hd h.1.symm, if_neg fun h => hd h.1]

theorem seen_trans {c d : ContextId} {f g : Context → Context}
    (h : ∀ d, w'.context d = w.seen c d f) (hs : w'.contexts.size = w.contexts.size) :
    w'.seen c d g = w.seen c d fun x => g (f x) := by
  unfold seen
  rw [hs]
  by_cases hd : d = c ∧ c < w.contexts.size
  · rw [if_pos hd, if_pos hd, h, seen, if_pos hd]
  · rw [if_neg hd, if_neg hd, h, seen, if_neg hd]

theorem context_notify (w : World) (c d : ContextId) :
    (w.notify c).context d = w.seen c d Context.notified := by
  unfold notify
  split
  · rename_i t idle hi
    rw [context_wake, context_modifyContext']
    exact seen_congr (by simp only [Context.notified, hi]) d
  · rename_i hi
    rw [context_modifyContext']
    exact seen_congr (by simp only [Context.notified, hi]) d

theorem context_cancelRegistered (w : World) (c d : ContextId) :
    (w.cancelRegistered c).context d = w.seen c d Context.drained := by
  have hs := signals_cancelHandles (w.context c).registry.entries w
  rw [cancelRegistered_eq, context_modifyContext', seen, seen, context_cancelHandles, hs.size]
  rfl

theorem context_kill (w : World) (c d : ContextId) (f : Fault) :
    (w.kill c f).context d = w.seen c d fun x => (x.killed f).drained.notified := by
  have hk : ∀ d, (w.modifyContext c fun x => { x with killer := x.killer.or (some f) }).context d =
      w.seen c d fun x => x.killed f := fun d => context_modifyContext' w c d _
  have hr : ∀ d, ((w.modifyContext c fun x =>
      { x with killer := x.killer.or (some f) }).cancelRegistered c).context d =
      w.seen c d fun x => (x.killed f).drained := fun d => by
    rw [context_cancelRegistered]
    exact seen_trans hk (contexts_size_modifyContext ..)
  unfold kill
  rw [context_notify]
  refine seen_trans hr ?_
  exact (signals_cancelRegistered _ c).size.trans (contexts_size_modifyContext ..)

def escalatedContext (x : Context) (f : Fault) : Context :=
  if x.runState.isTerminal then (x.killed f).drained.notified.notified
  else (x.escalatedTo f).drained.notified

theorem context_escalate (w : World) (c d : ContextId) (f : Fault) :
    (w.escalate c f).context d = w.seen c d fun x => escalatedContext x f := by
  unfold escalate
  dsimp only
  split
  · rename_i ht
    rw [context_notify, seen_trans (fun d => context_kill w c d f) (signals_kill w c f).size]
    exact seen_congr (by rw [escalatedContext, if_pos ht]) d
  · rename_i ht
    have hk : ∀ d, (w.modifyContext c fun x =>
        { x with escalated := x.escalated.or (some f) }).context d =
        w.seen c d fun x => x.escalatedTo f := fun d => context_modifyContext' w c d _
    have hr : ∀ d, ((w.modifyContext c fun x =>
        { x with escalated := x.escalated.or (some f) }).cancelRegistered c).context d =
        w.seen c d fun x => (x.escalatedTo f).drained := fun d => by
      rw [context_cancelRegistered]
      exact seen_trans hk (contexts_size_modifyContext ..)
    rw [context_notify, seen_trans hr
      ((signals_cancelRegistered _ c).size.trans (contexts_size_modifyContext ..))]
    exact seen_congr (by rw [escalatedContext, if_neg ht]) d

theorem context_childFinished (w : World) (c d : ContextId) :
    (w.childFinished c).context d = w.seen c d fun x =>
      ({ x with activeChildren := x.activeChildren - 1 } : Context).notified := by
  unfold childFinished
  rw [context_notify]
  exact seen_trans (fun d => context_modifyContext' w c d _) (contexts_size_modifyContext ..)

theorem context_cancelIfKilled (w : World) (c d : ContextId) (h : HandleId) :
    (w.cancelIfKilled c h).context d = w.seen c d fun x =>
      { x with registry :=
          if x.isKilled then x.registry.prune w.handles
          else (x.registry.prune w.handles).register h } := by
  have hprune := fun d => context_modifyContext' w c d fun x =>
    { x with registry := x.registry.prune w.handles }
  have hkilled : ((w.modifyContext c fun x =>
      { x with registry := x.registry.prune w.handles }).context c).isKilled =
      (w.context c).isKilled :=
    context_modifyContext_congr Context.isKilled
      (f := fun x => { x with registry := x.registry.prune w.handles }) (fun _ => rfl) w c c
  unfold cancelIfKilled
  dsimp only
  rw [hkilled]
  split
  · rename_i hk
    rw [context_cancelHandle, hprune]
    exact seen_congr (by simp only [if_pos hk]) d
  · rename_i hk
    rw [context_modifyContext', seen_trans hprune (contexts_size_modifyContext ..)]
    exact seen_congr (by simp only [if_neg hk]) d

/-! ## Handles -/

theorem handles_wake (w : World) (t : TaskId) : (w.wake t).handles = w.handles := by
  rw [wake_eq]

theorem handles_cancelHandle (w : World) (h : HandleId) :
    (w.cancelHandle h).2.handles = (w.handles.cancel h).2 := by
  rw [cancelHandle_eq]
  split
  · exact wakeSleeper_handles _ h
  · rename_i hl
    simp [Handles.cancel, hl]

theorem handles_notify (w : World) (c : ContextId) : (w.notify c).handles = w.handles := by
  unfold notify
  split
  · exact handles_wake _ _
  · rfl

theorem isCancelled_cancelEach (ks : List HandleId) {hs : Handles} {h : HandleId}
    (hc : hs.isCancelled h = true) : (hs.cancelEach ks).2.isCancelled h = true := by
  induction ks generalizing hs with
  | nil => exact hc
  | cons k ks ih => exact ih (Handles.isCancelled_cancel hs k hc)

theorem handles_cancelHandles (ks : List HandleId) (w : World) :
    (w.cancelHandles ks).handles = (w.handles.cancelEach ks).2 := by
  induction ks generalizing w with
  | nil => rfl
  | cons k ks ih =>
    refine (ih _).trans ?_
    rw [handles_cancelHandle]
    rfl

theorem cancelEach_live (ks : List HandleId) {hs : Handles} {h : HandleId}
    (hl : hs.isLive h = true) :
    (hs.cancelEach ks).2.isCancelled h = true ∨
      h ∉ ks ∧ (hs.cancelEach ks).2.isLive h = true := by
  induction ks generalizing hs with
  | nil => exact .inr ⟨List.not_mem_nil, hl⟩
  | cons k ks ih =>
    change ((hs.cancel k).2.cancelEach ks).2.isCancelled h = true ∨
      h ∉ k :: ks ∧ ((hs.cancel k).2.cancelEach ks).2.isLive h = true
    by_cases hk : k = h
    · subst hk
      refine .inl (isCancelled_cancelEach ks ?_)
      rw [Handles.isCancelled_eq, Handles.getElem?_cancel, if_pos ⟨rfl, hl⟩]
      rw [Handles.isLive_eq] at hl
      cases hx : hs[k]? with
      | none => simp [hx] at hl
      | some x => rfl
    · have hl' : (hs.cancel k).2.isLive h = true := by
        rw [Handles.isLive_cancel, hl]
        simp [hk]
      rcases ih hl' with hc | ⟨hn, hlive⟩
      · exact .inl hc
      · exact .inr ⟨fun hm => (List.mem_cons.1 hm).elim (fun he => hk he.symm) hn, hlive⟩

theorem handles_cancelRegistered (w : World) (c : ContextId) :
    (w.cancelRegistered c).handles =
      (w.handles.cancelEach (w.context c).registry.entries).2 := by
  rw [cancelRegistered_eq]
  exact handles_cancelHandles _ w

theorem handles_drain (w : World) (c : ContextId) {f : Context → Context}
    (h : ∀ x, (f x).registry = x.registry) :
    ((w.modifyContext c f).cancelRegistered c).handles =
      (w.handles.cancelEach (w.context c).registry.entries).2 := by
  rw [handles_cancelRegistered, context_modifyContext_congr Context.registry h]
  rfl

theorem handles_kill (w : World) (c : ContextId) (f : Fault) :
    (w.kill c f).handles = (w.handles.cancelEach (w.context c).registry.entries).2 :=
  (handles_notify _ c).trans
    (handles_drain w c (f := fun x => { x with killer := x.killer.or (some f) }) fun _ => rfl)

theorem handles_escalate (w : World) (c : ContextId) (f : Fault) :
    (w.escalate c f).handles = (w.handles.cancelEach (w.context c).registry.entries).2 := by
  unfold escalate
  dsimp only
  rw [handles_notify]
  split
  · exact handles_kill w c f
  · exact handles_drain w c (f := fun x => { x with escalated := x.escalated.or (some f) })
      fun _ => rfl

end World

end SagaEngine
