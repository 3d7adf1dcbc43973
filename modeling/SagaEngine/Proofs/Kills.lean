import SagaEngine.Proofs.Outcomes

/-! A kill is decisive. Until it is taken back, the engine starts nothing more in the context and
leaves its scopes alone, and its loops have one way to end. -/

namespace SagaEngine.World

variable {w w' w'' v : World} {raw : Prop} {admits : World → Prop} {t : TaskId} {l : Loop}
  {c : ContextId} {f : Fault} {o : Outcome}

/-- Since the kill by `f` nothing has started in context `c`, and its loops that ended were killed. -/
structure Doomed (w w' : World) (c : ContextId) (f : Fault) : Prop where
  killer : (w'.context c).killer = some f
  history : ∃ es, w'.history.toList = w.history.toList ++ es ∧ ∀ e ∈ es, e.runner? ≠ some c
  ended : ∀ (t : TaskId) (l : Loop) (o : Outcome),
    w'.tasks[t]? = some (.loop l) → l.context = c → outcome? l = some o →
    w.tasks[t]? = some (.loop l) ∨ o = .killed f

def Unpardoned (raw : Prop) (c : ContextId) (w w' : World) : Prop :=
  Transition raw w w' ∧ w' ≠ w.clearKill c

theorem unpardoned_of_killed (k : Transition raw w w') (hc : c < w.contexts.size)
    (hk : (w'.context c).killer = some f) : Unpardoned raw c w w' := by
  refine ⟨k, fun he => ?_⟩
  have hnone := congrArg Context.killer
    (context_modifyContext_self (w := w) (fun x => { x with killer := none }) hc)
  rw [he] at hk
  cases hk.symm.trans hnone

theorem Doomed.trans (h : Doomed w w' c f) (h' : Doomed w' w'' c f) : Doomed w w'' c f where
  killer := h'.killer
  history := by
    obtain ⟨es, he, hes⟩ := h.history
    obtain ⟨es', he', hes'⟩ := h'.history
    refine ⟨es ++ es', by rw [he', he, List.append_assoc], fun e h => ?_⟩
    exact (List.mem_append.1 h).elim (hes e) (hes' e)
  ended t l o hl hc ho := (h'.ended t l o hl hc ho).elim (fun hl => h.ended t l o hl hc ho) .inr

theorem Lull.doomed (h : Lull w w') (hk : (w'.context c).killer = some f) : Doomed w w' c f where
  killer := hk
  history := by
    obtain ⟨es, he, hes⟩ := h.history
    refine ⟨es, he, fun e hm => ?_⟩
    rw [hes e hm]
    exact (Option.some_ne_none c).symm
  ended t l o hl _ ho := .inl (h.ended t l o hl ho)

theorem killer_kill (w : World) (c d : ContextId) (g : Fault) (hk : (w.context c).killer = some f) :
    ((w.kill d g).context c).killer = some f := by
  rw [context_kill, seen]
  split
  · refine (Context.notified_congr Context.killer fun _ _ _ => rfl).trans ?_
    change (w.context c).killer.or (some g) = some f
    rw [hk]
    rfl
  · exact hk

theorem Call.killer (k : Call raw w w') (hn : w' ≠ w.clearKill c)
    (hk : (w.context c).killer = some f) : (w'.context c).killer = some f := by
  have hposts : ∀ {v : World}, Posts w v → (v.context c).killer = some f := fun p => by
    rw [p.context]
    exact hk
  have hpush : ∀ {v : World} (x : Context), v.contexts = w.contexts →
      ((v.addContext x).2.context c).killer = some f := by
    intro v x hv
    have hvc : v.context c = w.context c := by simp only [context, hv]
    rw [context_push, hvc]
    split
    · rename_i hc
      rw [context_of_size_le (Nat.le_of_eq (hv ▸ hc.symm))] at hk
      cases hk
    · exact hk
  cases k with
  | edit e =>
    change (w'.context c).bare.killer = some f
    rw [e.edits.bare]
    exact hk
  | kill d g => exact killer_kill w c d g hk
  | clearKill d =>
    have hd : c ≠ d := fun h => hn (h ▸ rfl)
    exact (congrArg Context.killer (context_modifyContext_of_ne w _ hd)).trans hk
  | root label session scope budget k =>
    obtain ⟨ss, hw⟩ := openSession_eq w session
    have hr := (routine_list ((w.openSession session).2.addContext
      { label := (w.openSession session).2.freshLabel label, session := (w.openSession session).1,
        sliceBudget := budget, scopes := [{ id := scope }], pending := k.toList }).2
      (w.openSession session).2.contexts.size).killer c
    exact hr.trans (hpush _ (by rw [hw]))
  | child p label k hp => exact hpush _ rfl
  | start d hd =>
    unfold World.start
    dsimp only
    split
    · rename_i p _
      refine Eq.trans ?_ hk
      exact context_modifyContext_congr Context.killer
        (f := fun x => { x with activeChildren := x.activeChildren + 1 }) (fun _ => rfl) w p c
    · exact hk
  | drive d budget hd => exact hk
  | newHandle name => exact hposts (posts_nameNewHandle w name)
  | dropHandle name => exact hposts (posts_dropHandle w name)
  | register d i => exact ((routine_cancelIfKilled w d i).killer c).trans hk
  | cancel i =>
    rw [context_cancelHandle]
    exact hk
  | deliver d op v hd => exact hposts ((posts_newLetter w op v).trans (posts_deliver _ _ _))
  | receiver d tag ops hd => exact hk
  | requeue d op v hr hd => exact hposts ((posts_newLetter w op v).trans (posts_requeue _ _ _))
  | request d slot ops hr hd => exact hposts (posts_requestInto w d slot ops)
  | dropWait slot i hr hi => exact hposts ((posts_closeWait w i).trans (posts_forgetWait _ slot))
  | await slot i hr hi => exact hk

theorem doomed_record {e : Event} (he : e.runner? ≠ some c) (hk : (w.context c).killer = some f) :
    Doomed w (w.record e) c f where
  killer := hk
  history := ⟨[e], by simp [record], fun e' h => List.mem_singleton.1 h ▸ he⟩
  ended _ _ _ hl _ _ := .inl hl

theorem doomed_modifyContext {d : ContextId} (hd : c ≠ d) (g : Context → Context)
    (hk : (w.context c).killer = some f) : Doomed w (w.modifyContext d g) c f where
  killer := (congrArg Context.killer (context_modifyContext_of_ne w g hd)).trans hk
  history := ⟨[], by simp [modifyContext], by simp⟩
  ended _ _ _ hl _ _ := .inl hl

theorem doomed_handled {d : ContextId} (hd : c ≠ d) (g : Fault) (h : Installed) (x : Context)
    (hk : (w.context c).killer = some f) : Doomed w (w.handled d g h x) c f := by
  have h1 := doomed_modifyContext hd (fun _ => x) hk
  have h2 := doomed_modifyContext hd (fun x => x.discardPending.executeNext [h.continuation])
    h1.killer
  exact (h1.trans h2).trans (doomed_record (fun he => hd (Option.some.inj he).symm) h2.killer)

theorem Exit.of_killed (hk : (w.context l.context).killer = some f) (x : w.Exit t l o w') :
    o = .killed f := by
  cases x with
  | killed hg => exact congrArg Outcome.killed (Option.some.inj (hg.symm.trans hk))
  | completed hu =>
    rw [hu.killer] at hk
    cases hk
  | failed hf =>
    rw [hf.alive] at hk
    cases hk
  | escalated hf =>
    rw [hf.alive] at hk
    cases hk

theorem Exit.doomed (hp : Placed w) (hd : w.Drives t l) (x : w.Exit t l o w')
    (hk : (w.context c).killer = some f) :
    Doomed w w' c f ∧ (w'.context c).still = (w.context c).still := by
  by_cases hc : l.context = c
  · subst hc
    obtain rfl := x.of_killed hk
    have htruth := x.truthful hp hd
    refine ⟨⟨htruth.2, ⟨[], by simp [x.kept.2], by simp⟩, fun u m o hm _ ho => ?_⟩, ?_⟩
    · exact (x.ended hm ho).imp_right fun he => he.2.2
    · cases x with
      | killed =>
        exact (endLoop_field Context.still _ t l _ (fun _ _ _ _ => rfl) _).trans
          ((routine_setRunState w l.context .killed).still l.context)
  · have hkill : (w'.context c).killer = some f := by
      by_cases hn : ∃ g, w.HandsUp l o c g
      · obtain ⟨g, hg⟩ := hn
        rw [(x.hears hp hd hg).killer, hk]
        exact ite_self _
      · exact (x.spares Context.killer (fun _ _ _ _ => rfl) (Ne.symm hc) (not_exists.1 hn)).trans hk
    refine ⟨⟨hkill, ⟨[], by simp [x.kept.2], by simp⟩, fun u m o hm hmc ho => ?_⟩,
      x.still_of_ne (Ne.symm hc)⟩
    rcases x.ended hm ho with hold | ⟨-, rfl, -⟩
    · exact .inl hold
    · exact absurd hmc hc

theorem Act.doomed (hp : Placed w) (a : Act w w') (hk : (w.context c).killer = some f) :
    Doomed w w' c f ∧ (w'.context c).still = (w.context c).still := by
  have hne : ∀ {d}, (w.context d).killer = none → c ≠ d := fun hd he => by
    rw [← he, hk] at hd
    cases hd
  have hroutine : ∀ {v u : World}, Doomed w v c f → (v.context c).still = (w.context c).still →
      Routine v u → Doomed w u c f ∧ (u.context c).still = (w.context c).still := fun hv hs r =>
    ⟨hv.trans (r.toLull.doomed ((r.killer c).trans hv.killer)), (r.still c).trans hs⟩
  cases a with
  | routine r => exact ⟨r.toLull.doomed ((r.killer c).trans hk), r.still c⟩
  | pause _ hu r =>
    have hc := hne hu.killer
    exact hroutine (doomed_modifyContext hc _ hk)
      (congrArg Context.still (context_modifyContext_of_ne w _ hc)) r
  | start _ hu r =>
    have hc := hne hu.killer
    obtain ⟨hv, hs⟩ := hroutine (doomed_modifyContext hc _ hk)
      (congrArg Context.still (context_modifyContext_of_ne w _ hc)) r
    exact ⟨hv.trans (doomed_record (fun he => hc (Option.some.inj he).symm) hv.killer), hs⟩
  | @caught t l g h x _ _ hf _ r =>
    have hc := hne hf.alive
    have htaken : Doomed w (w.taken l.context) c f := doomed_modifyContext hc _ hk
    refine hroutine (htaken.trans (doomed_handled hc g h x htaken.killer)) ?_ r
    rw [context_handled_of_ne _ g h x hc, context_taken_of_ne w hc]
  | exit hd x => exact x.doomed hp hd hk

theorem Transition.doomed (hp : Placed w) (k : Unpardoned raw c w w')
    (hk : (w.context c).killer = some f) :
    Doomed w w' c f ∧
      (w.AtLiberty ∧ Call raw w w' ∨ (w'.context c).still = (w.context c).still) := by
  rcases k.1.acts hp with ⟨ha, call⟩ | ⟨v, n, a⟩
  · exact ⟨call.lull.doomed (call.killer k.2 hk), .inl ⟨ha, call⟩⟩
  · have hv : (v.context c).killer = some f := by
      rw [n.context]
      exact hk
    obtain ⟨hd, hs⟩ := a.doomed (hp.effects n.effects) hv
    rw [n.context] at hs
    exact ⟨(n.lull.doomed hv).trans hd, .inr hs⟩

/-- As long as a kill is not taken back, the engine starts nothing in the context. -/
theorem Reachable.kill_decisive {w₀ : World} (h : Reachable raw admits w₀)
    (hk : (w₀.context c).killer = some f)
    (hr : Relation.ReflTransGen (Unpardoned raw c) w₀ w) :
    Doomed w₀ w c f ∧ ∀ w', Unpardoned raw c w w' →
      (w.AtLiberty ∧ Call raw w w' ∨ (w'.context c).still = (w.context c).still) ∧
      ∀ t l o, Ends w w' t l o → l.context = c →
        o = .killed f ∧ (w'.context c).runState = .killed := by
  have hw : Placed w ∧ Doomed w₀ w c f := by
    induction hr with
    | refl => exact ⟨h.placed, hk, ⟨[], by simp, by simp⟩, fun _ _ _ hl _ _ => .inl hl⟩
    | tail _ k ih =>
      obtain ⟨hp, hd⟩ := ih
      exact ⟨hp.transition k.1, hd.trans (Transition.doomed hp k hd.killer).1⟩
  obtain ⟨hp, hd⟩ := hw
  refine ⟨hd, fun w' k => ⟨(Transition.doomed hp k hd.killer).2, fun t l o he hc => ?_⟩⟩
  subst hc
  obtain ⟨v, n, hpv, hdr, x⟩ := k.1.exit hp he
  have hv : (v.context l.context).killer = some f := by
    rw [n.context]
    exact hd.killer
  obtain rfl := x.of_killed hv
  exact ⟨rfl, (x.truthful hpv hdr).1⟩

theorem order_stopped : ∃ (w w' : World) (l : Loop), Reachable False (fun _ => True) w ∧
    (w.context 0).killer = some ⟨"stop", none, .null⟩ ∧ Unpardoned False 0 w w' ∧
    Ends w w' 0 l (.killed ⟨"stop", none, .null⟩) ∧ (w'.context 0).runState = .killed := by
  have h1 : Reachable False (fun _ => True)
      (rooted "order" "shop" "main" 1 (some ⟨"pay", false, []⟩)) :=
    .rooted _ _ _ _ _ trivial trivial
  have h2 := h1.next (.call (.inl rfl) (.start 0 (by decide))) trivial
  have h3 := h2.next (.pick 0 rfl (by decide)) trivial
  have h4 := h3.next (.drive (t := 0) rfl rfl rfl) trivial
  have h5 := h4.next (.drive (t := 0) rfl rfl rfl) trivial
  have h6 := h5.next (.call (.inr ⟨0, _, _, _, rfl, rfl, rfl⟩)
    (.kill 0 ⟨"stop", none, .null⟩)) trivial
  obtain ⟨-, hnext⟩ := h6.kill_decisive (c := 0) (f := ⟨"stop", none, .null⟩) rfl .refl
  refine ⟨_, _, _, h6, rfl, unpardoned_of_killed (.fail (t := 0) ⟨"declined", none, .null⟩
    ⟨rfl, rfl, rfl⟩) (by decide) rfl, ⟨rfl, rfl, rfl⟩, ?_⟩
  have hkilled := hnext _ (unpardoned_of_killed (f := ⟨"stop", none, .null⟩)
    (.fail (t := 0) ⟨"declined", none, .null⟩ ⟨rfl, rfl, rfl⟩) (by decide) rfl)
  exact (hkilled.2 0 _ _ ⟨rfl, rfl, rfl⟩ rfl).2

end SagaEngine.World
