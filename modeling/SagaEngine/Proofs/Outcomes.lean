import SagaEngine.Proofs.Endings

/-! The outcome of a drive loop says how the context ends: what it was killed by, whether it was the
root, and who has the fault now. -/

namespace SagaEngine.World

variable {w w' : World} {raw : Prop} {admits : World → Prop} {t : TaskId} {l : Loop}
  {c : ContextId} {f : Fault} {o : Outcome}

/-- What an outcome says about its context `c`, and about the parent. -/
def Truthful (w w' : World) (c : ContextId) : Outcome → Prop
  | .completed =>
    (w'.context c).runState = .completed ∧ (w'.context c).killer = none ∧
      (w'.context c).escalated = none ∧ (w'.context c).pauseRequested = false ∧
      (w'.context c).pending = [] ∧ (w'.context c).activeChildren = 0
  | .killed f => (w'.context c).runState = .killed ∧ (w'.context c).killer = some f
  | .failed f =>
    (w'.context c).parent? = none ∧ (w'.context c).runState = .failed ∧
      (w'.context c).killer = some f
  | .escalated f =>
    (w'.context c).scopes = [] ∧ (w'.context c).runState = .failed ∧
      (w'.context c).killer = some f ∧ ∃ p, (w'.context c).parent? = some p ∧ Hears w w' p f

theorem endLoop_self (hp : Placed w) (t : TaskId) (l : Loop) (o : Outcome) :
    (w.endLoop t l o).context l.context = w.context l.context :=
  endLoop_context w t l o fun h => Nat.lt_irrefl _ (parent_lt hp h)

theorem felled_taken (hl : c < w.contexts.size) (hf : w.Due c f) {x : Context}
    (hx : ((w.taken c).context c).unwind f.name = (none, x)) :
    Felled (w.taken c) ((w.taken c).fallen c f x) f c ∧
      (((w.taken c).fallen c f x).context c).parent? = (w.context c).parent? := by
  have hv : Felled (w.taken c) ((w.taken c).fallen c f x) f c := by
    refine felled (size_taken w c ▸ hl) ?_ hx
    rw [context_taken hl]
    exact hf.alive
  refine ⟨hv, ?_⟩
  rw [Context.parent?, hv.ancestors, context_taken hl]
  rfl

theorem Exit.truthful (hp : Placed w) (hd : w.Drives t l) (x : w.Exit t l o w') :
    Truthful w w' l.context o := by
  have hl := hp.loop hd.task
  have hhears : ∀ {p f}, w.HandsUp l o p f → Hears w w' p f := x.hears hp hd
  have hstate : ∀ s, (w.setRunState l.context s).context l.context =
      { w.context l.context with runState := s } := fun s => context_modifyContext_self _ hl
  have hset : ∀ s, Placed (w.setRunState l.context s) := fun s =>
    hp.steady (signals_setRunState w l.context s).steady
  cases x with
  | @killed f hk =>
    have hself := (endLoop_self (hset .killed) t l (.killed f)).trans (hstate .killed)
    unfold Truthful endKilled
    rw [hself]
    exact ⟨rfl, hk⟩
  | completed hu hpause hpend hz =>
    have hself := (endLoop_self (hset .completed) t l .completed).trans (hstate .completed)
    unfold Truthful
    rw [hself]
    exact ⟨rfl, hu.killer, hu.escalated, hpause, hpend, hz⟩
  | @failed f x hf hx hroot =>
    obtain ⟨hv, hpar⟩ := felled_taken hl hf hx
    rw [hroot] at hpar
    have hself := endLoop_context ((w.taken l.context).fallen l.context f x) t l (.failed f)
      (d := l.context) (by rw [hpar]; exact (Option.some_ne_none _).symm)
    unfold Truthful
    rw [hself]
    exact ⟨hpar, hv.runState, hv.killer⟩
  | @escalated f x p hf hx hchild =>
    obtain ⟨hv, hpar⟩ := felled_taken hl hf hx
    rw [hchild] at hpar
    have hne : l.context ≠ p := (Nat.ne_of_lt (parent_lt hp hchild)).symm
    have hescalate : (((w.taken l.context).fallen l.context f x).escalate p f).context l.context =
        ((w.taken l.context).fallen l.context f x).context l.context := by
      rw [context_escalate, seen_of_ne _ hne]
    have hself := (endLoop_context (((w.taken l.context).fallen l.context f x).escalate p f) t l
      (.escalated f) (d := l.context) (by
        rw [hescalate, hpar]
        exact fun h => hne (Option.some.inj h).symm)).trans hescalate
    have hanc : ((w.taken l.context).context l.context).ancestors ≠ [] := fun he => by
      have hnone := hv.ancestors l.context
      rw [he] at hnone
      simp [Context.parent?, hnone] at hpar
    unfold Truthful
    rw [hself]
    exact ⟨hv.scopes hanc, hv.runState, hv.killer, p, hpar, hhears ⟨rfl, hchild⟩⟩

theorem Truthful.noted {v : World} (h : Truthful v w' c o) (n : Noted w v) : Truthful w w' c o := by
  cases o with
  | completed => exact h
  | killed f => exact h
  | failed f => exact h
  | escalated f =>
    obtain ⟨hs, hr, hk, p, hp, hh⟩ := h
    exact ⟨hs, hr, hk, p, hp, hh.noted n⟩

/-- The outcome of a drive loop tells the truth about the context and its parent. -/
theorem Reachable.outcome_truthful (h : Reachable raw admits w) (k : Transition raw w w')
    (he : Ends w w' t l o) : Truthful w w' l.context o := by
  obtain ⟨v, n, hp, hd, x⟩ := k.exit h.placed he
  exact (x.truthful hp hd).noted n

theorem decline_escalated : ∃ (w w' : World) (l : Loop), Reachable False (fun _ => True) w ∧
    Transition False w w' ∧ Ends w w' 0 l (.escalated ⟨"declined", none, .null⟩) ∧
    Truthful w w' l.context (.escalated ⟨"declined", none, .null⟩) := by
  have h1 : Reachable False (fun _ => True) (rooted "order" "shop" "main" 1 none) :=
    .rooted _ _ _ _ _ trivial trivial
  have h2 := h1.next (.call (.inl rfl)
    (.child 0 "pay" (some ⟨"charge", false, []⟩) (by decide))) trivial
  have h3 := h2.next (.call (.inl rfl) (.start 1 (by decide))) trivial
  have h4 := h3.next (.pick 0 rfl (by decide)) trivial
  have h5 := h4.next (.drive (t := 0) rfl rfl rfl) trivial
  have h6 := h5.next (.drive (t := 0) rfl rfl rfl) trivial
  refine ⟨_, _, _, h6, .fail (t := 0) ⟨"declined", none, .null⟩ ⟨rfl, rfl, rfl⟩,
    ⟨rfl, rfl, rfl⟩, ?_⟩
  refine h6.outcome_truthful (t := 0) (.fail ⟨"declined", none, .null⟩ ⟨rfl, rfl, rfl⟩) ?_
  exact ⟨rfl, rfl, rfl⟩

end SagaEngine.World
