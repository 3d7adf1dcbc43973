import SagaEngine.Proofs.Outcomes
import SagaEngine.Proofs.Scripts

/-! A context does not complete under its children. It counts them exactly, a fault that one hands
up is there before the child is no longer counted, and what is pending is raised before the context
completes. -/

namespace SagaEngine.World

variable {w w' v : World} {raw : Prop} {admits : World → Prop} {t : TaskId} {l : Loop}
  {c p : ContextId} {f : Fault} {o : Outcome}

/-! ## The count -/

theorem Exit.ancestors (hp : Placed w) (hd : w.Drives t l) (x : w.Exit t l o w') (d : ContextId) :
    (w'.context d).ancestors = (w.context d).ancestors := by
  have hl := hp.loop hd.task
  have hend : ∀ (v : World) (o : Outcome),
      ((v.endLoop t l o).context d).ancestors = (v.context d).ancestors := fun v o =>
    endLoop_field Context.ancestors v t l o (fun _ _ _ _ => rfl) d
  have htaken : ((w.taken l.context).context d).ancestors = (w.context d).ancestors :=
    (signals_takeEscalated w l.context).ancestors d
  cases x with
  | killed => exact (hend _ _).trans ((signals_setRunState w l.context .killed).ancestors d)
  | completed => exact (hend _ _).trans ((signals_setRunState w l.context .completed).ancestors d)
  | failed hf hx => exact (hend _ _).trans (((felled_taken hl hf hx).1.ancestors d).trans htaken)
  | @escalated f x p hf hx =>
    have hs := (signals_escalate ((w.taken l.context).fallen l.context f x) p f).ancestors d
    exact (hend _ _).trans (hs.trans (((felled_taken hl hf hx).1.ancestors d).trans htaken))

theorem Counted.exit (h : Counted w) (h' : Counted w') (hp : Placed w) (hd : w.Drives t l)
    (x : w.Exit t l o w') (hl : l.counted = true) (hpar : (w.context l.context).parent? = some p) :
    (w'.context p).activeChildren + 1 = (w.context p).activeChildren := by
  have hchild : w.childOf p (.loop l) = true := by simp [childOf, hl, hd.unfinished, hpar]
  have hdone : w.childOf p (.loop { l with point := .ended o }) = false := by
    simp [childOf, outcome?]
  have hpos : 0 < w.tasks.countP (w.childOf p) :=
    Array.countP_pos_iff.2 ⟨_, Array.mem_of_getElem? hd.task, hchild⟩
  have hset := countP_setTask hd.task (.loop { l with point := .ended o }) (w.childOf p)
  rw [hchild, hdone] at hset
  rw [h p, h' p, childOf_congr (x.ancestors hp hd), x.kept.1]
  unfold setLoop
  rw [hset, if_pos rfl, if_neg Bool.false_ne_true]
  omega

/-! ## Faults that are handed up -/

def Escalates (w w' : World) (c : ContextId) (f : Fault) : Prop :=
  (∃ t l o, Ends w w' t l o ∧ w.HandsUp l o c f) ∧ (w.context c).runState.isTerminal = false

def Refuses (w w' : World) (c : ContextId) : Prop :=
  ∃ g, (w.context c).escalated = some g ∧ (w'.context c).escalated = some g

/-- Fault `f`, which was pending in context `c`, is raised there. -/
structure Raised (w w' : World) (c : ContextId) (f : Fault) : Prop where
  pending : (w.context c).escalated = some f
  taken : (w'.context c).escalated = none
  raised : (∃ h es, w'.history.toList = w.history.toList ++ es ∧ .caught c f h ∈ es) ∨
    ∃ t l, l.context = c ∧ (Ends w w' t l (.failed f) ∨ Ends w w' t l (.escalated f))

theorem escalated_unwind (hl : c < w.contexts.size) {fault : String} {h : Option Installed}
    {x : Context} (hx : ((w.taken c).context c).unwind fault = (h, x)) : x.escalated = none := by
  change x.bare.escalated = none
  rw [bare_unwind hx, context_taken hl]
  rfl

theorem escalated_fallen (hl : c < w.contexts.size) {x : Context}
    (hx : ((w.taken c).context c).unwind f.name = (none, x)) :
    (((w.taken c).fallen c f x).context c).escalated = none := by
  have hnone := escalated_unwind hl hx
  rw [context_fallen, seen_self _ (size_taken w c ▸ hl)]
  exact (Context.notified_congr Context.escalated fun _ _ _ => rfl).trans hnone

theorem Exit.unpending (hp : Placed w) (hd : w.Drives t l) (x : w.Exit t l o w')
    (hk : (w.context l.context).killer = none) : (w'.context l.context).escalated = none := by
  have hl := hp.loop hd.task
  have hend : ∀ (v : World) (o : Outcome),
      ((v.endLoop t l o).context l.context).escalated = (v.context l.context).escalated :=
    fun v o => endLoop_field Context.escalated v t l o (fun _ _ _ _ => rfl) l.context
  cases x with
  | killed hf =>
    rw [hf] at hk
    cases hk
  | completed hu =>
    have hstate := (routine_setRunState w l.context .completed).escalated l.context
    exact (hend _ _).trans (hstate.trans hu.escalated)
  | failed hdue hx => exact (hend _ _).trans (escalated_fallen hl hx)
  | @escalated g x p hdue hx hpar =>
    have hne := (Nat.ne_of_lt (parent_lt hp hpar)).symm
    refine (hend _ _).trans ?_
    rw [context_escalate, seen_of_ne _ hne]
    exact escalated_fallen hl hx

theorem escalated_stopped (w : World) (t : TaskId) (l : Loop) (f : Fault) (c : ContextId) :
    (((w.setRunState l.context .killed).endLoop t l (.killed f)).context c).escalated =
      (w.context c).escalated := by
  have hend := endLoop_field Context.escalated (w.setRunState l.context .killed) t l (.killed f)
    (fun _ _ _ _ => rfl) c
  exact hend.trans ((routine_setRunState w l.context .killed).escalated c)

theorem Exit.pending (hp : Placed w) (hd : w.Drives t l) (x : w.Exit t l o w')
    (hf : (w.context c).escalated = some f) :
    (w'.context c).escalated = some f ∨ Raised w w' c f := by
  have hends := x.ends hd
  have hunpending := x.unpending hp hd
  by_cases hc : c = l.context
  · subst hc
    cases x with
    | @killed g => exact .inl ((escalated_stopped w t l g l.context).trans hf)
    | completed hu =>
      rw [hu.escalated] at hf
      cases hf
    | failed hdue =>
      obtain rfl := hdue.first _ hf
      exact .inr ⟨hf, hunpending hdue.alive, .inr ⟨t, l, rfl, .inl hends⟩⟩
    | escalated hdue =>
      obtain rfl := hdue.first _ hf
      exact .inr ⟨hf, hunpending hdue.alive, .inr ⟨t, l, rfl, .inr hends⟩⟩
  · left
    by_cases hn : ∃ g, w.HandsUp l o c g
    · obtain ⟨g, hg⟩ := hn
      rw [(x.hears hp hd hg).escalated, hf]
      exact ite_self _
    · exact (x.spares Context.escalated (fun _ _ _ _ => rfl) hc (not_exists.1 hn)).trans hf

theorem Act.pending (hp : Placed w) (a : Act w w') (hf : (w.context c).escalated = some f) :
    (w'.context c).escalated = some f ∨ Raised w w' c f := by
  have hkeep : ∀ (v : World) (d : ContextId) {g : Context → Context},
      (∀ x, (g x).escalated = x.escalated) →
      ((v.modifyContext d g).context c).escalated = (v.context c).escalated := fun v d _ hg =>
    context_modifyContext_congr Context.escalated hg v d c
  cases a with
  | routine r => exact .inl ((r.escalated c).trans hf)
  | @pause t l _ _ _ r =>
    have hm := hkeep w l.context (g := fun x => { x with pauseRequested := false }) fun _ => rfl
    exact .inl ((r.escalated c).trans (hm.trans hf))
  | @start t l k rest v _ _ r =>
    have hm := hkeep w l.context (g := fun x => { x with pending := rest }) fun _ => rfl
    exact .inl ((r.escalated c).trans (hm.trans hf))
  | @caught t l g h x _ hd hdue hx r =>
    by_cases hc : c = l.context
    · subst hc
      obtain rfl := hdue.first _ hf
      have hl := hp.loop hd.task
      have hnone := escalated_unwind hl hx
      refine .inr ⟨hf, ?_, .inl ?_⟩
      · rw [r.escalated, context_handled (size_taken w l.context ▸ hl)]
        exact hnone
      · obtain ⟨es, he, -⟩ := r.history
        refine ⟨h, .caught l.context g h :: es, ?_, .head _⟩
        rw [he]
        simp [handled, record, taken, modifyContext]
    · left
      rw [r.escalated, context_handled_of_ne _ g h x hc, context_taken_of_ne w hc]
      exact hf
  | exit hd x => exact x.pending hp hd hf

theorem Raised.noted (h : Raised v w' c f) (n : Noted w v) : Raised w w' c f where
  pending := n.context c ▸ h.pending
  taken := h.taken
  raised := by
    rcases h.raised with ⟨x, es, he, hx⟩ | ⟨t, l, hc, he⟩
    · obtain ⟨es', hv, -⟩ := n.lull.history
      exact .inl ⟨x, es' ++ es, by rw [he, hv, List.append_assoc], List.mem_append_right es' hx⟩
    · refine .inr ⟨t, l, hc, he.imp (fun he => ?_) fun he => ?_⟩
      · exact ⟨n.tasks ▸ he.before, he.unfinished, he.after⟩
      · exact ⟨n.tasks ▸ he.before, he.unfinished, he.after⟩

theorem Transition.pending (hp : Placed w) (k : Transition raw w w')
    (hf : (w.context c).escalated = some f) :
    (w'.context c).escalated = some f ∨ Raised w w' c f := by
  rcases k.acts hp with ⟨-, call⟩ | ⟨v, n, a⟩
  · exact .inl ((call.lull.escalated c).trans hf)
  · have hv : (v.context c).escalated = some f := by
      rw [n.context]
      exact hf
    exact (a.pending (hp.effects n.effects) hv).imp_right fun h => h.noted n

theorem raised_before (hp : Placed w) (hr : Transitions raw w w')
    (hf : (w.context c).escalated = some f) (hn : (w'.context c).escalated ≠ some f) :
    ∃ u u', Transitions raw w u ∧ Transition raw u u' ∧ Raised u u' c f ∧
      Transitions raw u' w' := by
  induction hr using Relation.ReflTransGen.head_induction_on with
  | refl => exact absurd hf hn
  | head k hr ih =>
    rcases k.pending hp hf with hf' | h
    · obtain ⟨u, u', hu, hs, h, hu'⟩ := ih (hp.transition k) hf'
      exact ⟨u, u', hu.head k, hs, h, hu'⟩
    · exact ⟨_, _, .refl, k, h, hr⟩

theorem Escalates.cases (hp : Placed w) (k : Transition raw w w') (h : Escalates w w' c f) :
    Refuses w w' c ∨ (w'.context c).escalated = some f := by
  obtain ⟨⟨t, l, o, he, hh⟩, hterm⟩ := h
  obtain ⟨v, n, hpv, hd, x⟩ := k.exit hp he
  have hheard := ((x.hears hpv hd ⟨hh.1, n.context l.context ▸ hh.2⟩).noted n).escalated
  rw [hterm] at hheard
  rcases hg : (w.context c).escalated with _ | g
  · exact .inr (by rw [hheard, hg]; rfl)
  · exact .inl ⟨g, hg, by rw [hheard, hg]; rfl⟩

/-- A context never completes under its children, and hears of a fault while the child still counts. -/
theorem Reachable.children_counted (h : Reachable raw admits w) :
    (∀ p, (w.context p).activeChildren = w.tasks.countP (w.childOf p)) ∧
    ∀ w' t l o, Transition raw w w' → Ends w w' t l o →
      (∀ p, l.counted = true → (w.context l.context).parent? = some p →
        (w'.context p).activeChildren + 1 = (w.context p).activeChildren) ∧
      (∀ p f, w.HandsUp l o p f → ∃ v, Effects w v ∧ Hears w v p f ∧
        v.tasks[t]? = some (.loop l) ∧
        (v.context p).activeChildren = (w.context p).activeChildren ∧ w' = v.endLoop t l o) ∧
      (o = .completed →
        w.tasks.countP (w.childOf l.context) = 0 ∧ (w.context l.context).escalated = none ∧
        ∀ w₁ w₂ f, Reachable raw admits w₁ → Transition raw w₁ w₂ → Transitions raw w₂ w →
          Escalates w₁ w₂ l.context f →
          Refuses w₁ w₂ l.context ∨ ∃ u u', Transitions raw w₂ u ∧ Transition raw u u' ∧
            Raised u u' l.context f ∧ Transitions raw u' w) := by
  refine ⟨h.counted, fun w' t l o k he => ?_⟩
  obtain ⟨v, n, hp, hd, x⟩ := k.exit h.placed he
  refine ⟨fun p hl hpar => ?_, fun p f hh => ?_, ?_⟩
  · rw [← n.context p]
    exact (n.counted h.counted).exit (h.counted.transition h.placed k) hp hd x hl
      (n.context l.context ▸ hpar)
  · obtain ⟨u, hu, hears, htasks, hactive, hend⟩ := x.heard hp hd ⟨hh.1, n.context l.context ▸ hh.2⟩
    refine ⟨u, n.effects.trans hu, hears.noted n, ?_, n.context p ▸ hactive, hend⟩
    rw [htasks]
    exact hd.task
  · rintro rfl
    cases x with
    | completed hu _ _ hz =>
      rw [n.context] at hz
      have hnone : (w.context l.context).escalated = none := n.context l.context ▸ hu.escalated
      refine ⟨(h.counted l.context).symm.trans hz, hnone, fun w₁ w₂ f h₁ k₁ hr hesc => ?_⟩
      refine (hesc.cases h₁.placed k₁).imp_right fun hf => ?_
      refine raised_before (h₁.placed.transition k₁) hr hf ?_
      rw [hnone]
      exact (Option.some_ne_none f).symm

theorem pay_counted : ∃ (w w' : World) (l : Loop), Reachable False (fun _ => True) w ∧
    Transition False w w' ∧ Ends w w' 0 l .completed ∧ w.tasks.countP (w.childOf 0) = 2 ∧
    (w'.context 0).activeChildren + 1 = 2 := by
  have h1 : Reachable False (fun _ => True) (rooted "order" "shop" "main" 1 none) :=
    .rooted _ _ _ _ _ trivial trivial
  have h2 := h1.next (.call (.inl rfl) (.child 0 "pay" none (by decide))) trivial
  have h3 := h2.next (.call (.inl rfl) (.start 1 (by decide))) trivial
  have h4 := h3.next (.call (.inl rfl) (.start 1 (by decide))) trivial
  have h5 := h4.next (.pick 0 rfl (by decide)) trivial
  have h6 := h5.next (.drive (t := 0) rfl rfl rfl) trivial
  obtain ⟨hcount, hends⟩ := h6.children_counted
  refine ⟨_, _, _, h6, .drive (t := 0) rfl rfl rfl, ⟨rfl, rfl, rfl⟩, (hcount 0).symm.trans rfl, ?_⟩
  obtain ⟨hless, -⟩ := hends _ 0 _ .completed (.drive (t := 0) rfl rfl rfl) ⟨rfl, rfl, rfl⟩
  exact (hless 0 rfl rfl).trans rfl

end SagaEngine.World
