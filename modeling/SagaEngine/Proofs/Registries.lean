import SagaEngine.Proofs.Endings

/-! Nothing that is registered escapes a kill. A handle passed to a context stays in its registry for as
long as it is live, whatever is pruned, and a kill cancels all that the registry has. -/

namespace SagaEngine

namespace Handles

variable {hs hs' hs'' : Handles} {h : HandleId}

structure Ages (hs hs' : Handles) : Prop where
  size : hs.size ≤ hs'.size
  live : ∀ h < hs.size, hs'.isLive h = true → hs.isLive h = true
  cancelled : ∀ h, hs.isCancelled h = true → hs'.isCancelled h = true

theorem Ages.refl (hs : Handles) : Ages hs hs := ⟨Nat.le_refl _, fun _ _ hl => hl, fun _ hc => hc⟩

theorem Ages.trans (a : Ages hs hs') (a' : Ages hs' hs'') : Ages hs hs'' where
  size := Nat.le_trans a.size a'.size
  live h hh hl := a.live h hh (a'.live h (Nat.lt_of_lt_of_le hh a.size) hl)
  cancelled h hc := a'.cancelled h (a.cancelled h hc)

theorem ages_push (hs : Handles) : Ages hs (hs.push {}) where
  size := by simp
  live h hh hl := by
    rw [isLive_push] at hl
    simpa [Nat.ne_of_lt hh] using hl
  cancelled h hc := (isCancelled_push hs h).trans hc

theorem ages_finish (hs : Handles) (k : HandleId) : Ages hs (hs.finish k) where
  size := by simp [finish]
  live h _ hl := by
    rw [isLive_finish, Bool.and_eq_true] at hl
    exact hl.1
  cancelled h hc := (isCancelled_finish hs k h).trans hc

theorem ages_cancel (hs : Handles) (k : HandleId) : Ages hs (hs.cancel k).2 where
  size := Nat.le_of_eq (size_cancel hs k).symm
  live h _ hl := by
    rw [isLive_cancel, Bool.and_eq_true] at hl
    exact hl.1
  cancelled _ hc := isCancelled_cancel hs k hc

theorem ages_cancelEach (ks : List HandleId) (hs : Handles) : Ages hs (hs.cancelEach ks).2 := by
  induction ks generalizing hs with
  | nil => exact .refl hs
  | cons k ks ih => exact (ages_cancel hs k).trans (ih _)

theorem ages_sleeper (hs : Handles) (k : HandleId) (t : TaskId) :
    Ages hs (hs.modify k fun x => { x with sleeper := some t }) where
  size := by simp
  live h _ hl := by
    rw [isLive_modify hs k h (f := fun x => { x with sleeper := some t }) fun _ => rfl] at hl
    exact hl
  cancelled h hc := by
    rw [isCancelled_modify hs k h (f := fun x => { x with sleeper := some t }) fun _ => rfl]
    exact hc

inductive Uses (hs : Handles) : Handles → Prop where
  | push : Uses hs (hs.push {})
  | sleeper (k : HandleId) (t : TaskId) :
      Uses hs (hs.modify k fun x => { x with sleeper := some t })
  | finish (k : HandleId) : Uses hs (hs.finish k)

abbrev Used : Handles → Handles → Prop := Relation.ReflTransGen Uses

theorem Uses.ages (t : Uses hs hs') : Ages hs hs' := by
  cases t with
  | push => exact ages_push hs
  | sleeper k t => exact ages_sleeper hs k t
  | finish k => exact ages_finish hs k

theorem Used.ages (t : Used hs hs') : Ages hs hs' := by
  induction t with
  | refl => exact .refl hs
  | tail _ t ih => exact ih.trans t.ages

theorem isLive_cancelEach (ks : List HandleId) (hs : Handles) (h : HandleId) :
    (hs.cancelEach ks).2.isLive h = (hs.isLive h && !ks.contains h) := by
  induction ks generalizing hs with
  | nil => simp [cancelEach]
  | cons k ks ih =>
    refine (ih (hs.cancel k).2).trans ?_
    rw [isLive_cancel, List.contains_cons, Bool.not_or, Bool.and_assoc, BEq.comm]

theorem isCancelled_cancel_self (hl : hs.isLive h = true) : (hs.cancel h).2.isCancelled h = true :=
  (World.cancelEach_live [h] hl).elim id fun hn => absurd (.head _) hn.1

end Handles

namespace World

variable {w w' w'' v : World} {raw : Prop} {admits : World → Prop} {t : TaskId} {l : Loop}
  {c : ContextId} {k : HandleId} {o : Outcome}

/-- Entries that are still live stay registered, and there is no kill while they do. -/
structure Minds (w w' : World) : Prop where
  ages : w.handles.Ages w'.handles
  kept : ∀ c, ∀ h < w.handles.size, h ∈ (w.context c).registry.entries →
    w'.handles.isLive h = true → h ∈ (w'.context c).registry.entries ∧
      ((w.context c).killer = none → (w'.context c).killer = none)
  emptied : ∀ c, ((w.context c).isKilled = true → (w.context c).registry = {}) →
    (w'.context c).isKilled = true → (w'.context c).registry = {}

theorem Minds.trans (m : Minds w w') (m' : Minds w' w'') : Minds w w'' where
  ages := m.ages.trans m'.ages
  kept c h hh hm hl := by
    have hh' : h < w'.handles.size := Nat.lt_of_lt_of_le hh m.ages.size
    obtain ⟨hm', hk⟩ := m.kept c h hh hm (m'.ages.live h hh' hl)
    obtain ⟨hm'', hk'⟩ := m'.kept c h hh' hm' hl
    exact ⟨hm'', hk' ∘ hk⟩
  emptied c he := m'.emptied c (m.emptied c he)

/-! ## Where registries stay -/

structure Lenient (w w' : World) : Prop where
  ages : w.handles.Ages w'.handles
  registry : ∀ c, (w'.context c).registry = (w.context c).registry
  killer : ∀ c, (w'.context c).killer = (w.context c).killer ∨ (w'.context c).killer = none

theorem Lenient.gentle (m : Lenient w w') (hk : (w.context c).killer = none) :
    (w'.context c).killer = none := (m.killer c).elim (fun he => he.trans hk) id

theorem Lenient.trans (m : Lenient w w') (m' : Lenient w' w'') : Lenient w w'' where
  ages := m.ages.trans m'.ages
  registry c := (m'.registry c).trans (m.registry c)
  killer c := (m'.killer c).elim (fun he => he ▸ m.killer c) .inr

theorem Lenient.minds (m : Lenient w w') : Minds w w' where
  ages := m.ages
  kept c h _ hm _ := ⟨m.registry c ▸ hm, m.gentle⟩
  emptied c he hk := by
    rw [m.registry]
    refine he ?_
    rcases m.killer c with hk' | hk'
    · rwa [Context.isKilled, hk'] at hk
    · simp [Context.isKilled, hk'] at hk

theorem lenient_modifyContext (w : World) (c : ContextId) (f : Context → Context)
    (hf : ∀ x, (f x).registry = x.registry ∧ (f x).killer = x.killer) :
    Lenient w (w.modifyContext c f) where
  ages := .refl _
  registry := context_modifyContext_congr Context.registry (fun x => (hf x).1) w c
  killer d := .inl (context_modifyContext_congr Context.killer (fun x => (hf x).2) w c d)

theorem lenient_setRunState (w : World) (c : ContextId) (s : RunState) :
    Lenient w (w.setRunState c s) := lenient_modifyContext w c _ fun _ => ⟨rfl, rfl⟩

theorem Edits.lenient (e : Edits w w') : Lenient w w' where
  ages := e.handles ▸ .refl _
  registry c := by
    change (w'.context c).bare.registry = (w.context c).bare.registry
    rw [e.bare]
  killer c := by
    refine .inl ?_
    change (w'.context c).bare.killer = (w.context c).bare.killer
    rw [e.bare]

structure Tame (w w' : World) : Prop extends Lenient w w' where
  used : w.handles.Used w'.handles

theorem Tame.trans (m : Tame w w') (m' : Tame w' w'') : Tame w w'' :=
  ⟨m.toLenient.trans m'.toLenient, m.used.trans m'.used⟩

theorem Lenient.tame (m : Lenient w w') (hh : w'.handles = w.handles) : Tame w w' :=
  ⟨m, hh ▸ .refl⟩

theorem tame_of_used (hu : w.handles.Used w'.handles) (hc : w'.contexts = w.contexts) : Tame w w' where
  ages := hu.ages
  registry c := by simp only [context, hc]
  killer c := by simp only [context, hc, true_or]
  used := hu

theorem tame_of_eq (hh : w'.handles = w.handles) (hc : w'.contexts = w.contexts) : Tame w w' :=
  tame_of_used (hh ▸ .refl) hc

theorem minds_of_eq (hh : w'.handles = w.handles) (hc : w'.contexts = w.contexts) : Minds w w' :=
  (tame_of_eq hh hc).minds

theorem lenient_addContext (w : World) {x : Context} (hr : x.registry = {}) (hk : x.killer = none) :
    Lenient w (w.addContext x).2 := by
  refine ⟨.refl _, fun c => ?_, fun c => ?_⟩
  · rw [context_push]
    split
    · rename_i hc
      rw [hc, context_of_size_le (Nat.le_refl _), hr]
      rfl
    · rfl
  · rw [context_push]
    split
    · exact .inr hk
    · exact .inl rfl

theorem lenient_notify (w : World) (c : ContextId) : Lenient w (w.notify c) := by
  refine ⟨handles_notify w c ▸ .refl _, fun d => ?_, fun d => .inl ?_⟩
  · rw [context_notify]
    exact seen_field Context.registry (fun _ => Context.notified_congr _ fun _ _ _ => rfl) c d
  · rw [context_notify]
    exact seen_field Context.killer (fun _ => Context.notified_congr _ fun _ _ _ => rfl) c d

theorem lenient_cancelHandle (w : World) (h : HandleId) : Lenient w (w.cancelHandle h).2 where
  ages := handles_cancelHandle w h ▸ Handles.ages_cancel _ h
  registry c := by rw [context_cancelHandle]
  killer c := by rw [context_cancelHandle]; exact .inl rfl

theorem handles_wakeServed (w : World) (s : SessionId) (served : Option Nat) :
    (w.wakeServed s served).handles = w.handles := by
  unfold wakeServed
  split
  · exact wakeSleeper_handles w _
  · rfl

theorem used_closeWait (w : World) (i : WaitId) : w.handles.Used (w.closeWait i).2.handles := by
  unfold closeWait
  dsimp only
  split
  · rename_i h _
    exact .single (.finish h)
  · exact .refl

theorem used_request (w : World) (s : SessionId) (ops : List String) :
    w.handles.Used (w.request s ops).2.handles := by
  rw [request_eq]
  exact .single .push

theorem used_requestInto (w : World) (c : ContextId) (slot : String) (ops : List String) :
    w.handles.Used (w.requestInto c slot ops).handles := by
  have hr := used_request w (w.context c).session ops
  unfold requestInto
  dsimp only
  split
  · exact hr.trans (used_closeWait _ _)
  · exact hr

theorem used_dropHandle (w : World) (name : String) :
    w.handles.Used (w.dropHandle name).handles := by
  unfold dropHandle
  split
  · rename_i h _
    exact .single (.finish h)
  · exact .refl

theorem used_nameNewHandle (w : World) (name : String) :
    w.handles.Used (w.nameNewHandle name).handles := (used_dropHandle w name).tail .push

theorem tame_request (w : World) (s : SessionId) (ops : List String) : Tame w (w.request s ops).2 :=
  tame_of_used (used_request w s ops) (posts_request w s ops).contexts

theorem tame_closeWait (w : World) (i : WaitId) : Tame w (w.closeWait i).2 :=
  tame_of_used (used_closeWait w i) (posts_closeWait w i).contexts

theorem tame_endReceive (w : World) (c : ContextId) (i : WaitId)
    (r : Except (Option Letter) Letter) : Tame w (w.endReceive c i r).1 :=
  tame_of_used (handles_endReceive w c i r ▸ used_closeWait w i) (posts_endReceive w c i r).contexts

theorem tame_sleepOn (w : World) (t : TaskId) (i : WaitId) : Tame w (w.sleepOn t i) := by
  unfold sleepOn
  split
  · rename_i h _
    exact tame_of_used (.single (.sleeper h t)) rfl
  · exact tame_of_eq rfl rfl

theorem tame_endLoop (w : World) (t : TaskId) (l : Loop) (o : Outcome) :
    Tame w (w.endLoop t l o) := by
  have hs : Tame w (w.setLoop t { l with point := .ended o }).suspend := tame_of_eq rfl rfl
  unfold endLoop
  dsimp only
  split
  · rename_i p _ _
    exact hs.trans (((lenient_modifyContext _ p (fun x =>
      { x with activeChildren := x.activeChildren - 1 }) fun _ => ⟨rfl, rfl⟩).tame rfl).trans
        ((lenient_notify _ p).tame (handles_notify _ p)))
  · exact hs

/-! ## Kills and registrations -/

structure Drains (w : World) (c : ContextId) (w' : World) : Prop where
  handles : w'.handles = (w.handles.cancelEach (w.context c).registry.entries).2
  emptied : (w'.context c).registry = {}
  others : ∀ d, d ≠ c → w'.context d = w.context d

theorem drains_of_seen {f : Context → Context}
    (hh : w'.handles = (w.handles.cancelEach (w.context c).registry.entries).2)
    (hf : ∀ x, (f x).registry = {}) (hc : ∀ d, w'.context d = w.seen c d f) : Drains w c w' where
  handles := hh
  emptied := by
    rw [hc]
    by_cases hlt : c < w.contexts.size
    · rw [seen_self f hlt, hf]
    · rw [seen, if_neg fun h => hlt h.2, context_of_size_le (Nat.le_of_not_lt hlt)]
      rfl
  others d hd := by rw [hc, seen_of_ne f hd]

theorem drains_kill (w : World) (c : ContextId) (f : Fault) : Drains w c (w.kill c f) :=
  drains_of_seen (handles_kill w c f)
    (fun _ => Context.notified_congr Context.registry fun _ _ _ => rfl) fun d => context_kill w c d f

theorem drains_escalate (w : World) (c : ContextId) (f : Fault) : Drains w c (w.escalate c f) := by
  have hn := fun x : Context => Context.notified_congr (x := x) Context.registry fun _ _ _ => rfl
  refine drains_of_seen (handles_escalate w c f) (fun x => ?_) fun d => context_escalate w c d f
  unfold escalatedContext
  split
  · rw [hn, hn]
    rfl
  · rw [hn]
    rfl

theorem Drains.minds (m : Drains w c w') : Minds w w' where
  ages := m.handles ▸ Handles.ages_cancelEach _ _
  kept d h _ hm hl := by
    rw [m.handles, Handles.isLive_cancelEach, Bool.and_eq_true, Bool.not_eq_true'] at hl
    have hd : d ≠ c := by
      rintro rfl
      simp [hm] at hl
    rw [m.others d hd]
    exact ⟨hm, id⟩
  emptied d he hk := by
    by_cases hd : d = c
    · rw [hd]
      exact m.emptied
    · rw [m.others d hd] at hk ⊢
      exact he hk

theorem minds_cancelIfKilled (w : World) (c : ContextId) (h : HandleId) :
    Minds w (w.cancelIfKilled c h) := by
  have ha : w.handles.Ages (w.cancelIfKilled c h).handles := by
    rw [handles_cancelIfKilled]
    split
    · exact Handles.ages_cancel _ h
    · exact .refl _
  refine ⟨ha, fun d i hi hm hl => ?_, fun d he hk => ?_⟩
  · rw [context_cancelIfKilled, seen]
    split
    · have hp := mem_prune hm (ha.live i hi hl)
      refine ⟨?_, id⟩
      dsimp only
      split
      · exact hp
      · exact List.mem_append_left _ hp
    · exact ⟨hm, id⟩
  · rw [context_cancelIfKilled, seen] at hk ⊢
    split at hk
    · rename_i hd
      rw [if_pos hd]
      change (w.context d).isKilled = true at hk
      simp only [if_pos hk, he hk]
      rfl
    · rename_i hd
      rw [if_neg hd]
      exact he hk

theorem minds_beginReceive {ops : List String} {i : WaitId}
    (h : w.beginReceive c ops = .ok (i, w')) : Minds w w' := by
  have hr := (tame_request w (w.context c).session ops).minds
  unfold beginReceive at h
  split at h
  · cases h
  · dsimp only at h
    split at h
    · cases h
      exact hr.trans (minds_cancelIfKilled _ c _)
    · cases h
      exact hr

/-! ## Every transition -/

theorem Call.tame (k : Call raw w w') :
    Tame w w' ∨ (∃ h, w' = (w.cancelHandle h).2) ∨ (∃ c f, w' = w.kill c f) ∨
      ∃ c h, w' = w.cancelIfKilled c h := by
  cases k with
  | edit e => exact .inl (e.edits.lenient.tame e.edits.handles)
  | kill c f => exact .inr (.inr (.inl ⟨c, f, rfl⟩))
  | clearKill c =>
    refine .inl ⟨⟨.refl _, fun d => ?_, fun d => ?_⟩, .refl⟩
    · exact context_modifyContext_congr Context.registry
        (f := fun x => { x with killer := none }) (fun _ => rfl) w c d
    · rw [World.clearKill, context_modifyContext]
      split
      · exact .inr rfl
      · exact .inl rfl
  | root label session scope budget k =>
    obtain ⟨ss, hw⟩ := openSession_eq w session
    have hopen : Tame w (w.openSession session).2 := hw ▸ tame_of_eq rfl rfl
    have hlist := edits_list ((w.openSession session).2.addContext
      { label := (w.openSession session).2.freshLabel label, session := (w.openSession session).1,
        sliceBudget := budget, scopes := [{ id := scope }], pending := k.toList }).2
      (c := (w.openSession session).2.contexts.size) (by simp [addContext])
    exact .inl ((hopen.trans ((lenient_addContext _ rfl rfl).tame rfl)).trans
      (hlist.lenient.tame hlist.handles))
  | child p label k hp => exact .inl ((lenient_addContext w rfl rfl).tame rfl)
  | start c hc =>
    refine .inl ?_
    unfold World.start
    dsimp only
    split
    · rename_i p _
      have hm := lenient_modifyContext w p
        (fun x => { x with activeChildren := x.activeChildren + 1 }) fun _ => ⟨rfl, rfl⟩
      exact (hm.tame rfl).trans (tame_of_eq rfl rfl)
    · exact tame_of_eq rfl rfl
  | drive c budget hc => exact .inl (tame_of_eq rfl rfl)
  | newHandle name =>
    exact .inl (tame_of_used (used_nameNewHandle w name) (posts_nameNewHandle w name).contexts)
  | dropHandle name =>
    exact .inl (tame_of_used (used_dropHandle w name) (posts_dropHandle w name).contexts)
  | register c i => exact .inr (.inr (.inr ⟨c, i, rfl⟩))
  | cancel i => exact .inr (.inl ⟨i, rfl⟩)
  | deliver c op v hc =>
    exact .inl (tame_of_eq (handles_wakeServed _ _ _)
      ((posts_newLetter w op v).trans (posts_deliver _ _ _)).contexts)
  | receiver c tag ops hc => exact .inl (tame_of_eq rfl rfl)
  | requeue c op v hr hc =>
    exact .inl (tame_of_eq (handles_wakeServed _ _ _)
      ((posts_newLetter w op v).trans (posts_requeue _ _ _)).contexts)
  | request c slot ops hr hc =>
    exact .inl (tame_of_used (used_requestInto w c slot ops) (posts_requestInto w c slot ops).contexts)
  | dropWait slot i hr hi => exact .inl ((tame_closeWait w i).trans (tame_of_eq rfl rfl))
  | await slot i hr hi => exact .inl (tame_of_eq rfl rfl)

theorem Call.minds (k : Call raw w w') : Minds w w' := by
  rcases k.tame with m | ⟨h, rfl⟩ | ⟨c, f, rfl⟩ | ⟨c, h, rfl⟩
  · exact m.minds
  · exact (lenient_cancelHandle w h).minds
  · exact (drains_kill w c f).minds
  · exact minds_cancelIfKilled w c h

theorem Effect.tame (e : Effect w w') :
    Tame w w' ∨ (∃ c f, w' = w.kill c f) ∨ (∃ c f, w' = w.escalate c f) ∨
      ∃ c ops i v, (Placed w → c < w.contexts.size) ∧ w.beginReceive c ops = .ok (i, v) ∧
        Tame v w' := by
  cases e with
  | work e => exact .inl (e.edits.lenient.tame e.edits.handles)
  | takeEscalated c =>
    have ht := lenient_modifyContext w c (fun x => { x with escalated := none }) fun _ => ⟨rfl, rfl⟩
    exact .inl (ht.tame rfl)
  | takePermit c =>
    have ht := lenient_modifyContext w c (fun x => { x with permit := false }) fun _ => ⟨rfl, rfl⟩
    exact .inl (ht.tame rfl)
  | runState c s => exact .inl ((lenient_setRunState w c s).tame rfl)
  | kill c f => exact .inr (.inl ⟨c, f, rfl⟩)
  | escalate c f => exact .inr (.inr (.inl ⟨c, f, rfl⟩))
  | pick t => exact .inl (tame_of_eq rfl rfl)
  | goto => exact .inl (tame_of_eq rfl rfl)
  | yield => exact .inl (tame_of_eq rfl rfl)
  | @park t l =>
    have hi := lenient_modifyContext w l.context (fun x => { x with idle := x.idle ++ [t] })
      fun _ => ⟨rfl, rfl⟩
    exact .inl ((hi.tame rfl).trans (tame_of_eq rfl rfl))
  | finish o => exact .inl (tame_endLoop w _ _ o)
  | halt => exact .inl (tame_of_eq rfl rfl)
  | receive rest' receipt ops hr hb =>
    exact .inr (.inr (.inr ⟨_, ops, _, _, fun hp => hp.loop hr.2.1, hb, tame_of_eq rfl rfl⟩))
  | @resume t l frame rest i receipt r rest' =>
    have hs : Tame w (w.setLoop t { l with point := .body frame rest' }) := tame_of_eq rfl rfl
    exact .inl (hs.trans (tame_endReceive _ l.context i r))
  | sleep => exact .inl (tame_sleepOn w _ _)
  | beginReceipt hc ht hb =>
    exact .inr (.inr (.inr
      ⟨_, _, _, _, fun hp => hp.tasks _ _ _ ht rfl, hb, tame_of_eq rfl rfl⟩))
  | refuse => exact .inl (tame_of_eq rfl rfl)
  | @endReceipt t c tag i r =>
    exact .inl ((tame_endReceive w c i r).trans (tame_of_eq rfl rfl))
  | @endAwait t slot i =>
    have hc := tame_closeWait w i
    generalize (w.closeWait i).2 = v at hc ⊢
    exact .inl (hc.trans (tame_of_eq rfl rfl))

theorem Effect.minds (e : Effect w w') : Minds w w' := by
  rcases e.tame with m | ⟨c, f, rfl⟩ | ⟨c, f, rfl⟩ | ⟨c, ops, i, v, -, hb, m⟩
  · exact m.minds
  · exact (drains_kill w c f).minds
  · exact (drains_escalate w c f).minds
  · exact (minds_beginReceive hb).trans m.minds

theorem Effects.minds (e : Effects w w') : Minds w w' := by
  induction e with
  | refl => exact minds_of_eq rfl rfl
  | tail _ e ih => exact ih.trans e.minds

theorem Transition.minds (hp : Placed w) (k : Transition raw w w') : Minds w w' := by
  rcases k.effects fun _ _ => hp.loop with ⟨-, k⟩ | e
  · exact k.minds
  · exact Effects.minds e

/-! ## Kills that come from the engine -/

def Forceful (w w' : World) : Prop :=
  ∀ h, w.handles.isLive h = true → w'.handles.isLive h = true ∨ w'.handles.isCancelled h = true

theorem Forceful.trans (h : Forceful w w') (h' : Forceful w' w'') (m : Minds w' w'') :
    Forceful w w'' := fun i hi => by
  rcases h i hi with hl | hc
  · exact h' i hl
  · exact .inr (m.ages.cancelled i hc)

theorem forceful_of_cancelEach {ks : List HandleId}
    (hh : w'.handles = (w.handles.cancelEach ks).2) : Forceful w w' := fun h hl => by
  rw [hh]
  exact (cancelEach_live ks hl).symm.imp_left And.right

theorem handles_endLoop (w : World) (t : TaskId) (l : Loop) (o : Outcome) :
    (w.endLoop t l o).handles = w.handles := by
  unfold endLoop
  dsimp only
  split
  · exact handles_notify _ _
  · rfl

theorem forceful_endLoop (h : Forceful w v) (t : TaskId) (l : Loop) (o : Outcome) :
    Forceful w (v.endLoop t l o) := fun i hi => by
  rw [handles_endLoop]
  exact h i hi

theorem handles_setRunState (w : World) (c : ContextId) (s : RunState) :
    (w.setRunState c s).handles = w.handles := rfl

theorem forceful_fallen (w : World) (c : ContextId) (f : Fault) (x : Context) :
    Forceful w (w.fallen c f x) := by
  have hm : Forceful w (w.modifyContext c fun _ => x) := fun _ hl => .inl hl
  unfold fallen
  generalize w.modifyContext c (fun _ => x) = v at hm ⊢
  have hh := (handles_setRunState (v.kill c f) c .failed).trans (handles_kill v c f)
  have hk : Forceful v ((v.kill c f).setRunState c .failed) := forceful_of_cancelEach hh
  exact hm.trans hk ((drains_kill v c f).minds.trans (lenient_setRunState _ c _).minds)

theorem Exit.forceful (x : w.Exit t l o w') : Forceful w w' := by
  have hstate : ∀ s, Forceful w (w.setRunState l.context s) := fun _ _ hl => .inl hl
  have hfallen : ∀ f x, Forceful w ((w.taken l.context).fallen l.context f x) :=
    fun f x h hl => forceful_fallen (w.taken l.context) l.context f x h hl
  cases x with
  | killed => exact forceful_endLoop (hstate .killed) t l _
  | completed => exact forceful_endLoop (hstate .completed) t l _
  | @failed f x => exact forceful_endLoop (hfallen f x) t l _
  | @escalated f x p =>
    have hf := hfallen f x
    generalize (w.taken l.context).fallen l.context f x = v at hf ⊢
    have he : Forceful v (v.escalate p f) := forceful_of_cancelEach (handles_escalate v p f)
    exact forceful_endLoop (hf.trans he (drains_escalate v p f).minds) t l _

theorem Act.gentle_or_forceful (a : Act w w') :
    (∀ c, (w.context c).killer = none → (w'.context c).killer = none) ∨ Forceful w w' := by
  cases a with
  | routine r => exact .inl fun c hk => (r.killer c).trans hk
  | @pause t l _ _ _ r =>
    have hm := lenient_modifyContext w l.context (fun x => { x with pauseRequested := false })
      fun _ => ⟨rfl, rfl⟩
    exact .inl fun c hk => (r.killer c).trans (hm.gentle hk)
  | @start t l k rest v _ _ r =>
    have hm := lenient_modifyContext w l.context (fun x => { x with pending := rest })
      fun _ => ⟨rfl, rfl⟩
    exact .inl fun c hk => (r.killer c).trans (hm.gentle hk)
  | @caught t l f h x _ _ _ hx r =>
    have ht := lenient_modifyContext w l.context (fun x => { x with escalated := none })
      fun _ => ⟨rfl, rfl⟩
    have hc : Work (w.taken l.context) ((w.taken l.context).handled l.context f h x) :=
      .caught l.context f hx
    exact .inl fun c hk => (r.killer c).trans (hc.edits.lenient.gentle (ht.gentle hk))
  | exit _ x => exact .inr x.forceful

theorem Call.gentle_or_forceful (k : Call raw w w') :
    (∀ c, (w.context c).killer = none → (w'.context c).killer = none) ∨ Forceful w w' := by
  rcases k.tame with m | ⟨h, rfl⟩ | ⟨c, f, rfl⟩ | ⟨c, h, rfl⟩
  · exact .inl fun _ hk => m.gentle hk
  · exact .inl fun _ hk => (lenient_cancelHandle w h).gentle hk
  · exact .inr (forceful_of_cancelEach (handles_kill w c f))
  · exact .inl fun d hk => ((routine_cancelIfKilled w c h).killer d).trans hk

theorem Transition.gentle_or_forceful (hp : Placed w) (k : Transition raw w w') :
    (∀ c, (w.context c).killer = none → (w'.context c).killer = none) ∨ Forceful w w' := by
  rcases k.acts hp with ⟨-, k⟩ | ⟨v, n, a⟩
  · exact k.gentle_or_forceful
  · rcases a.gentle_or_forceful with hg | hf
    · exact .inl fun c hk => hg c (n.context c ▸ hk)
    · refine .inr fun h hl => hf h ?_
      cases n <;> exact hl

/-! ## Handles passed to a context -/

/-- Handle `k` is passed to context `c`, by a call or with the wait of a receipt that begins. -/
inductive Passes (w : World) (c : ContextId) (k : HandleId) : World → Prop where
  | register : w.AtLiberty → c < w.contexts.size → k < w.handles.size →
      Passes w c k (w.cancelIfKilled c k)
  | receive {t : TaskId} {l : Loop} {frame : Frame} {rest : List Step} {i : WaitId} {w' : World}
      (rest' : List Step) (receipt : Receipt) (ops : List String) :
      w.Runs t l frame rest → l.context = c → w.beginReceive c ops = .ok (i, w') →
      w'.waitHandle? i = some k →
      Passes w c k (w'.setLoop t { l with point := .receiving frame rest' i receipt })
  | beginReceipt {t : TaskId} {tag : String} {ops : List String} {i : WaitId} {w' : World} :
      w.current = some t → w.tasks[t]? = some (.receiver c tag ops) →
      w.beginReceive c ops = .ok (i, w') → w'.waitHandle? i = some k →
      Passes w c k (w'.setTask t (.receiving c tag i))

theorem Passes.transition (p : Passes w c k w') : Transition raw w w' := by
  cases p with
  | register ha => exact .call ha (.register c k)
  | receive rest' receipt ops hr hc hb =>
    subst hc
    exact .receive rest' receipt ops hr hb
  | @beginReceipt t tag ops i v hc ht hb =>
    have hk : Transition raw w (w.receiverStep t c tag ops) := .beginReceipt hc ht
    unfold receiverStep at hk
    rw [hb] at hk
    exact hk

/-- As long as handle `k` is live, it is registered with context `c`, which is not killed. -/
structure Held (w : World) (c : ContextId) (k : HandleId) : Prop where
  known : k < w.handles.size
  registered : w.handles.isLive k = true → k ∈ (w.context c).registry.entries
  spared : w.handles.isLive k = true → (w.context c).killer = none

theorem Held.minds (h : Held w c k) (m : Minds w w') : Held w' c k := by
  have hold : w'.handles.isLive k = true → k ∈ (w'.context c).registry.entries ∧
      (w'.context c).killer = none := fun hl => by
    have hl' := m.ages.live k h.known hl
    obtain ⟨hm, hk⟩ := m.kept c k h.known (h.registered hl') hl
    exact ⟨hm, hk (h.spared hl')⟩
  exact ⟨Nat.lt_of_lt_of_le h.known m.ages.size, fun hl => (hold hl).1, fun hl => (hold hl).2⟩

theorem Held.cancelled (h : Held w c k) (m : Transition raw w w') (hp : Placed w)
    (hl : w.handles.isLive k = true) (hk : (w'.context c).isKilled = true) :
    w'.handles.isCancelled k = true := by
  have hne : (w'.context c).killer ≠ none := by
    intro hn
    simp [Context.isKilled, hn] at hk
  rcases m.gentle_or_forceful hp with hg | hf
  · exact absurd (hg c (h.spared hl)) hne
  · rcases hf k hl with hl' | hc
    · exact absurd ((h.minds (m.minds hp)).spared hl') hne
    · exact hc

theorem held_cancelIfKilled (hc : c < w.contexts.size) (hk : k < w.handles.size) :
    Held (w.cancelIfKilled c k) c k := by
  have hs := (minds_cancelIfKilled w c k).ages.size
  have hx := context_cancelIfKilled w c c k
  have hh := handles_cancelIfKilled w c k
  rw [seen_self _ hc] at hx
  by_cases hkill : (w.context c).isKilled = true
  · have hdead : (w.cancelIfKilled c k).handles.isLive k = false := by
      rw [hh, if_pos hkill, Handles.isLive_cancel]
      simp
    refine ⟨Nat.lt_of_lt_of_le hk hs, fun hl => ?_, fun hl => ?_⟩
    · rw [hdead] at hl
      cases hl
    · rw [hdead] at hl
      cases hl
  · refine ⟨Nat.lt_of_lt_of_le hk hs, fun _ => ?_, fun _ => ?_⟩
    · rw [hx]
      simp only [if_neg hkill]
      exact List.mem_append_right _ (.head _)
    · rw [hx]
      simpa [Context.isKilled] using hkill

theorem held_beginReceive (hp : Placed w) (hc : c < w.contexts.size) {ops : List String} {i : WaitId}
    (hb : w.beginReceive c ops = .ok (i, w')) (hk : w'.waitHandle? i = some k) : Held w' c k := by
  have hs := hp.sessions c hc
  obtain ⟨-, rfl, rfl⟩ := beginReceive_ok hs hb
  obtain ⟨x, hx, hxh, -⟩ := request_record hs ops
  have hsig := signals_cancelIfKilled (w.request (w.context c).session ops).2 c w.handles.size
  obtain rfl : w.handles.size = k := by
    have hold := (waitHandle_congr (waitRecord_congr (hsig.mailbox _))).symm.trans hk
    unfold waitHandle? at hold
    rw [hx, Option.map_some, hxh] at hold
    exact Option.some.inj hold
  refine held_cancelIfKilled ((posts_request w (w.context c).session ops).contexts ▸ hc) ?_
  rw [request_eq]
  simp [setMailbox, modifySession]

theorem Passes.held (hp : Placed w) (p : Passes w c k w') : Held w' c k := by
  cases p with
  | register _ hc hk => exact held_cancelIfKilled hc hk
  | receive rest' receipt ops hr hc hb hk =>
    subst hc
    exact (held_beginReceive hp (hp.loop hr.2.1) hb hk).minds (minds_of_eq rfl rfl)
  | beginReceipt _ ht hb hk =>
    exact (held_beginReceive hp (hp.tasks _ _ c ht rfl) hb hk).minds (minds_of_eq rfl rfl)

theorem Passes.cancelled (hp : Placed w) (p : Passes w c k w') (hl : w.handles.isLive k = true)
    (hk : (w'.context c).isKilled = true) : w'.handles.isCancelled k = true := by
  have hfresh : ∀ {ops i v}, c < w.contexts.size → w.beginReceive c ops = .ok (i, v) →
      (v.context c).isKilled = false := fun {ops i v} hc hb => by
    obtain ⟨hn, rfl, rfl⟩ := beginReceive_ok (hp.sessions c hc) hb
    have hr := (routine_cancelIfKilled (w.request (w.context c).session ops).2 c
      w.handles.size).killer c
    rw [Context.isKilled, hr, (posts_request w _ ops).context]
    exact not_killed_of_interruption hn
  cases p with
  | register _ hc _ =>
    have hr := (routine_cancelIfKilled w c k).killer c
    rw [Context.isKilled, hr] at hk
    rw [handles_cancelIfKilled, if_pos (by rwa [Context.isKilled])]
    exact Handles.isCancelled_cancel_self hl
  | receive rest' receipt ops hr hc hb =>
    subst hc
    have hn := hfresh (hp.loop hr.2.1) hb
    exact absurd hk (Bool.eq_false_iff.1 hn)
  | beginReceipt _ ht hb =>
    have hn := hfresh (hp.tasks _ _ c ht rfl) hb
    exact absurd hk (Bool.eq_false_iff.1 hn)

/-! ## Every run -/

theorem Reachable.registry_empty (h : Reachable raw admits w) :
    (w.context c).isKilled = true → (w.context c).registry = {} := by
  induction h with
  | start => exact fun hk => by cases hk
  | next h k _ ih => exact (k.minds h.placed).emptied c ih

theorem minds_run (hp : Placed w) (hr : Relation.ReflTransGen (Transition raw) w w') :
    Placed w' ∧ Minds w w' := by
  induction hr with
  | refl => exact ⟨hp, minds_of_eq rfl rfl⟩
  | tail _ k ih => exact ⟨ih.1.transition k, ih.2.trans (k.minds ih.1)⟩

/-- No registered operation escapes a kill. -/
theorem Reachable.kill_reaches_registered (h : Reachable raw admits w) :
    (∀ c, (w.context c).isKilled = true → (w.context c).registry = {}) ∧
    ∀ {c : ContextId} {k : HandleId} {w' v : World}, Passes w c k w' →
      Relation.ReflTransGen (Transition raw) w' v →
      ((v.context c).isKilled = true →
        (v.context c).registry = {} ∧ v.handles.isLive k = false) ∧
      (v.handles.isLive k = true → k ∈ (v.context c).registry.entries) ∧
      (w.handles.isLive k = true → (w'.context c).isKilled = true →
        v.handles.isCancelled k = true) ∧
      ∀ {v' u : World}, Transition raw v v' → v.handles.isLive k = true →
        (v'.context c).isKilled = true → Relation.ReflTransGen (Transition raw) v' u →
        u.handles.isCancelled k = true := by
  refine ⟨fun c => h.registry_empty, fun {c k w' v} p hr => ?_⟩
  have k₁ : Transition raw w w' := p.transition
  have hp' := h.placed.transition k₁
  obtain ⟨hp, hm⟩ := minds_run hp' hr
  have hv : Held v c k := (p.held h.placed).minds hm
  refine ⟨fun hk => ⟨?_, ?_⟩, hv.registered, fun hl hk => ?_, fun {v' u} m hl hk hu => ?_⟩
  · exact ((k₁.minds h.placed).trans hm).emptied c h.registry_empty hk
  · refine Bool.eq_false_iff.2 fun hl => ?_
    simp [Context.isKilled, hv.spared hl] at hk
  · exact hm.ages.cancelled k (p.cancelled h.placed hl hk)
  · have hc := hv.cancelled m hp hl hk
    exact (minds_run (hp.transition m) hu).2.ages.cancelled k hc

theorem payment_cancelled : ∃ w w' v : World, Reachable False (fun _ => True) w ∧
    Passes w 0 0 w' ∧ Transition False w' v ∧ w'.handles.isLive 0 = true ∧
    (v.context 0).isKilled = true ∧ v.handles.isCancelled 0 = true := by
  have h1 : Reachable False (fun _ => True) (rooted "order" "shop" "main" 1 none) :=
    .rooted _ _ _ _ _ trivial trivial
  have h2 := h1.next (.call (.inl rfl) (.newHandle "payment")) trivial
  have hp : Passes ((rooted "order" "shop" "main" 1 none).nameNewHandle "payment") 0 0 _ :=
    .register (.inl rfl) (by decide) (by decide)
  have hk : Transition False (((rooted "order" "shop" "main" 1 none).nameNewHandle
      "payment").cancelIfKilled 0 0) _ := .call (.inl rfl) (.kill 0 ⟨"stop", none, .null⟩)
  exact ⟨_, _, _, h2, hp, hk, rfl, rfl,
    (h2.kill_reaches_registered.2 hp .refl).2.2.2 hk rfl rfl .refl⟩

end World

end SagaEngine
