import SagaEngine.Proofs.Children
import SagaEngine.Proofs.Registries

/-! A fault that a child hands up cancels whatever is registered with the parent by then. While the
fault is pending no receipt begins, but a handle may still be registered by hand: that one is not
cancelled, unlike a handle that is registered with a killed context. That it takes a registration by
hand rests on a turn being atomic: a receipt looks for a fault and registers its handle in one turn,
in which no child can hand a fault up. -/

namespace SagaEngine.World

variable {w w' v : World} {raw : Prop} {admits : World → Prop} {t : TaskId} {l : Loop}
  {c : ContextId} {k : HandleId} {f : Fault} {o : Outcome}

/-! ## Where a pending fault comes from -/

theorem Exit.interrupts (hp : Placed w) (hd : w.Drives t l) (x : w.Exit t l o w')
    (hf : (w'.context c).escalated = some f) :
    (w.context c).escalated = some f ∨
      ∀ k ∈ (w.context c).registry.entries, w'.handles.isLive k = false := by
  by_cases hn : ∃ g, w.HandsUp l o c g
  · right
    intro k hk
    obtain ⟨g, rfl, hpar⟩ := hn
    cases x with
    | @escalated _ x p _ _ hq =>
      obtain rfl := Option.some.inj (hq.symm.trans hpar)
      have hne := Nat.ne_of_lt (parent_lt hp hpar)
      rw [handles_endLoop, handles_escalate, Handles.isLive_cancelEach,
        context_fallen_of_ne w g x hne, List.contains_iff_mem.2 hk]
      exact Bool.and_false _
  · left
    by_cases hc : c = l.context
    · subst hc
      have hnone := x.unpending hp hd
      rw [hf] at hnone
      cases x with
      | @killed g => exact (escalated_stopped w t l g l.context).symm.trans hf
      | completed hu => cases hnone hu.killer
      | failed hdue => cases hnone hdue.alive
      | escalated hdue => cases hnone hdue.alive
    · have hsame := x.spares Context.escalated (fun _ _ _ _ => rfl) hc (not_exists.1 hn)
      exact hsame.symm.trans hf

theorem Act.interrupts (hp : Placed w) (a : Act w w') (hf : (w'.context c).escalated = some f) :
    (w.context c).escalated = some f ∨
      ∀ k ∈ (w.context c).registry.entries, w'.handles.isLive k = false := by
  have hkeep : ∀ (d : ContextId) {g : Context → Context}, (∀ x, (g x).escalated = x.escalated) →
      ((w.modifyContext d g).context c).escalated = (w.context c).escalated := fun d _ hg =>
    context_modifyContext_congr Context.escalated hg w d c
  cases a with
  | routine r => exact .inl ((r.escalated c).symm.trans hf)
  | @pause t l _ _ _ r =>
    have hm := hkeep l.context (g := fun x => { x with pauseRequested := false }) fun _ => rfl
    exact .inl (((r.escalated c).trans hm).symm.trans hf)
  | @start t l _ rest v _ _ r =>
    have hm := hkeep l.context (g := fun x => { x with pending := rest }) fun _ => rfl
    exact .inl (((r.escalated c).trans hm).symm.trans hf)
  | @caught t l g h x _ hd _ hx r =>
    rw [r.escalated] at hf
    by_cases hc : c = l.context
    · -- what was pending is taken, to be raised
      subst hc
      have hl := hp.loop hd.task
      rw [context_handled (size_taken w l.context ▸ hl)] at hf
      cases (escalated_unwind hl hx).symm.trans hf
    · rw [context_handled_of_ne _ g h x hc, context_taken_of_ne w hc] at hf
      exact .inl hf
  | exit hd x => exact x.interrupts hp hd hf

theorem Transition.interrupts (hp : Placed w) (m : Transition raw w w')
    (hf : (w'.context c).escalated = some f) :
    (w.context c).escalated = some f ∨
      ∀ k ∈ (w.context c).registry.entries, w'.handles.isLive k = false := by
  rcases m.acts hp with ⟨-, call⟩ | ⟨v, n, a⟩
  · exact .inl ((call.lull.escalated c).symm.trans hf)
  · have ha := a.interrupts (hp.effects n.effects) hf
    rw [n.context] at ha
    exact ha

/-! ## What is registered while no fault is pending -/

theorem Held.pending (h : Held w c k) (hp : Placed w) (m : Transition raw w w')
    (hf : (w'.context c).escalated = some f) (hl : w'.handles.isLive k = true) :
    (w.context c).escalated = some f := by
  rcases m.interrupts hp hf with he | hdead
  · exact he
  · have hlive := (m.minds hp).ages.live k h.known hl
    rw [hdead k (h.registered hlive)] at hl
    cases hl

theorem Held.pending_run (h : Held w c k) (hp : Placed w) (hr : Transitions raw w v)
    (hf : (v.context c).escalated = some f) (hl : v.handles.isLive k = true) :
    (w.context c).escalated = some f := by
  induction hr using Relation.ReflTransGen.head_induction_on with
  | refl => exact hf
  | head m hr ih =>
    have hp' := hp.transition m
    have h' := h.minds (m.minds hp)
    have hlive := (minds_run hp' hr).2.ages.live k h'.known hl
    exact h.pending hp m (ih h' hp') hlive

/-- A handle is registered under a pending fault, which in an atomic turn is done by hand only. -/
structure Late (w w' : World) (c : ContextId) (k : HandleId) (f : Fault) : Prop where
  registered : w' = w.cancelIfKilled c k
  alive : (w.context c).killer = none
  pending : (w.context c).escalated = some f

theorem Passes.late (hp : Placed w) (p : Passes w c k w') (hf : (w'.context c).escalated = some f)
    (hl : w'.handles.isLive k = true) : Late w w' c k f := by
  -- a receipt checks and registers in one step, so that it registers nothing under a fault
  have hreceive : ∀ {ops i u}, c < w.contexts.size → w.beginReceive c ops = .ok (i, u) →
      (u.context c).escalated = none := by
    intro ops i u hc hb
    obtain ⟨hn, -, -⟩ := beginReceive_ok (hp.sessions c hc) hb
    rw [(routine_beginReceive hb).escalated]
    exact (Option.or_eq_none_iff.1 hn).2
  cases p with
  | register _ hc hk =>
    have hr := routine_cancelIfKilled w c k
    exact ⟨rfl, (hr.killer c).symm.trans ((held_cancelIfKilled hc hk).spared hl),
      (hr.escalated c).symm.trans hf⟩
  | receive rest' receipt ops hr hc hb =>
    subst hc
    cases (hreceive (hp.loop hr.2.1) hb).symm.trans hf
  | beginReceipt _ ht hb => cases (hreceive (hp.tasks _ _ c ht rfl) hb).symm.trans hf

theorem Late.spared (h : Late w w' c k f) (hl : w.handles.isLive k = true) :
    w'.handles.isLive k = true ∧ (w'.context c).escalated = some f := by
  obtain ⟨rfl, hk, hf⟩ := h
  refine ⟨?_, ((routine_cancelIfKilled w c k).escalated c).trans hf⟩
  have halive : (w.context c).isKilled = false := by rw [Context.isKilled, hk]; rfl
  rw [handles_cancelIfKilled, halive]
  exact hl

/-- While a fault is pending, only handles that were registered under it by hand are live. -/
theorem Reachable.pending_interrupts (h : Reachable raw admits w) (p : Passes w c k w') :
    (∀ {v f}, Transitions raw w' v → (v.context c).escalated = some f →
      v.handles.isLive k = false ∨ Late w w' c k f ∧
        ∀ u, Transitions raw w' u → Transitions raw u v → (u.context c).escalated = some f) ∧
    ∀ {f}, Late w w' c k f → w.handles.isLive k = true →
      w'.handles.isLive k = true ∧ (w'.context c).escalated = some f := by
  have hm : Transition raw w w' := p.transition
  have hp' := h.placed.transition hm
  have hheld := p.held h.placed
  refine ⟨fun {v f} hr hf => ?_, fun hlate hl => hlate.spared hl⟩
  cases hl : v.handles.isLive k with
  | false => exact .inl rfl
  | true =>
    right
    have hsince : ∀ u, Transitions raw w' u → Transitions raw u v →
        (u.context c).escalated = some f := by
      intro u hu huv
      obtain ⟨hpu, hm⟩ := minds_run hp' hu
      exact (hheld.minds hm).pending_run hpu huv hf hl
    have hlive := (minds_run hp' hr).2.ages.live k hheld.known hl
    exact ⟨p.late h.placed (hsince w' .refl hr) hlive, hsince⟩

theorem hold_interrupted : ∃ w w' v : World, Reachable False (fun _ => True) w ∧ Passes w 0 0 w' ∧
    Transitions False w' v ∧ w'.handles.isLive 0 = true ∧
    (v.context 0).escalated = some ⟨"declined", none, .null⟩ ∧ v.handles.isLive 0 = false := by
  have h1 : Reachable False (fun _ => True) (rooted "order" "shop" "main" 1 none) :=
    .rooted _ _ _ _ _ trivial trivial
  have h2 := h1.next (.call (.inl rfl) (.newHandle "hold")) trivial
  have hp : Passes ((rooted "order" "shop" "main" 1 none).nameNewHandle "hold") 0 0 _ :=
    .register (.inl rfl) (by decide) (by decide)
  have r1 : Transitions False (((rooted "order" "shop" "main" 1 none).nameNewHandle
      "hold").cancelIfKilled 0 0) _ := .refl
  have r2 := r1.tail (.call (.inl rfl)
    (.child 0 "pay" (some ⟨"charge", false, []⟩) (by decide)))
  have r3 := r2.tail (.call (.inl rfl) (.start 1 (by decide)))
  have r4 := r3.tail (.pick 0 rfl (by decide))
  have r5 := r4.tail (.drive (t := 0) rfl rfl rfl)
  have r6 := r5.tail (.drive (t := 0) rfl rfl rfl)
  have r7 := r6.tail (.fail (t := 0) ⟨"declined", none, .null⟩ ⟨rfl, rfl, rfl⟩)
  refine ⟨_, _, _, h2, hp, r7, rfl, rfl, ?_⟩
  refine ((h2.pending_interrupts hp).1 r7 rfl).resolve_right ?_
  rintro ⟨hlate, -⟩
  cases hlate.pending

/-- A hold on the stock that is registered under a pending fault is not given up. -/
theorem late_hold_live : ∃ w w' : World, Reachable False (fun _ => True) w ∧ Passes w 0 0 w' ∧
    (w'.context 0).escalated = some ⟨"declined", none, .null⟩ ∧ w'.handles.isLive 0 = true := by
  have h1 : Reachable False (fun _ => True)
      (rooted "order" "shop" "main" 1 (some ⟨"buy", false, []⟩)) :=
    .rooted _ _ _ _ _ trivial trivial
  have h2 := h1.next (.call (.inl rfl) (.start 0 (by decide))) trivial
  have h3 := h2.next (.pick 0 rfl (by decide)) trivial
  have h4 := h3.next (.drive (t := 0) rfl rfl rfl) trivial
  have h5 := h4.next (.drive (t := 0) rfl rfl rfl) trivial
  have h6 := h5.next (.call (.inr ⟨0, _, _, _, rfl, rfl, rfl⟩)
    (.child 0 "pay" (some ⟨"charge", false, []⟩) (by decide))) trivial
  have h7 := h6.next (.call (.inr ⟨0, _, _, _, rfl, rfl, rfl⟩) (.start 1 (by decide))) trivial
  -- the order yields to its payment, which ends by handing up its fault
  have h8 := h7.next (.pauseBody (t := 0) [] ⟨rfl, rfl, rfl⟩) trivial
  have h9 := h8.next (.pick 1 rfl (by decide)) trivial
  have h10 := h9.next (.drive (t := 1) rfl rfl rfl) trivial
  have h11 := h10.next (.drive (t := 1) rfl rfl rfl) trivial
  have h12 := h11.next (.fail (t := 1) ⟨"declined", none, .null⟩ ⟨rfl, rfl, rfl⟩) trivial
  have h13 := h12.next (.pick 0 rfl (by decide)) trivial
  have h14 := h13.next (.call (.inr ⟨0, _, _, _, rfl, rfl, rfl⟩) (.newHandle "hold")) trivial
  exact ⟨_, _, h14, .register (.inr ⟨0, _, _, _, rfl, rfl, rfl⟩) (by decide) (by decide), rfl, rfl⟩

/-! ## Receipts -/

theorem Reachable.guarded (h : Reachable False admits w) : Linked w ∧ Guarded w := by
  refine h.invariant (P := fun w => Linked w ∧ Guarded w) ⟨.empty, ?_⟩ ?_ ?_
  · intro t task c i k ht
    simp at ht
  · rintro w w' - ⟨hl, hg⟩ - - k
    exact ⟨hl.unwaiting k.unwaiting, hg.call hl k⟩
  · rintro w w' hp ⟨hl, hg⟩ e
    exact ⟨hl.effect hp e, hg.effect hp hl e⟩

theorem Reachable.receipt_interrupted (h : Reachable False admits w) {task : Task} {i : WaitId}
    (ht : w.tasks[t]? = some task) (hc : task.context? = some c) (hi : task.wait? = some i)
    (hf : (w.context c).escalated = some f) : w.resolution? i ≠ none := by
  intro hn
  obtain ⟨x, hx, -, hcan⟩ := resolution_none.1 hn
  have hk : w.waitHandle? i = some x.handle := by rw [waitHandle?, hx]; rfl
  rcases h.guarded.2 t task c i _ ht hc hi hk with hcan' | hreg
  · cases hcan.symm.trans hcan'
  · cases (unstopped_of_interruption hreg.2.2).escalated.symm.trans hf

end SagaEngine.World
