import SagaEngine.Proofs.Children

/-! Continuations that fail. Two faults can meet in a context: the one that its continuation failed
with, and one that a child has handed up and that is still pending. The context raises the pending
one, and then nothing is left of the other but its record. -/

namespace SagaEngine.World

variable {w w' : World} {raw : Prop} {admits : World → Prop} {t : TaskId} {l : Loop}
  {frame : Frame} {rest : List Step} {f g : Fault}

/-- Fault `f` is raised: the innermost scope with a handler has it queued, or the loop ends. -/
inductive Met (w w' : World) (t : TaskId) (l : Loop) (f : Fault) : Prop where
  | caught {x : Installed} {m : Loop} {es : List Event} :
      handlerOn? f.name (w.context l.context).scopes = some x →
      w'.history.toList = w.history.toList ++ es ++ [.caught l.context f x] →
      (w'.context l.context).pending = [x.continuation] → (w'.context l.context).killer = none →
      w'.tasks[t]? = some (.loop m) → m.context = l.context → m.point = .head → Met w w' t l f
  | ended {o : Outcome} :
      handlerOn? f.name (w.context l.context).scopes = none → Ends w w' t l o →
      o.fault = some f → (w'.context l.context).killer = some f → Met w w' t l f

theorem Met.recorded {e : Event} (h : Met (w.record e) w' t l f) : Met w w' t l f := by
  cases h with
  | @caught x m es hx hh hp hk ht hm hpt =>
    have hlog : w'.history.toList = w.history.toList ++ (e :: es) ++ [.caught l.context f x] := by
      rw [hh]
      simp [record]
    exact .caught hx hlog hp hk ht hm hpt
  | ended hx he ho hk => exact .ended hx ⟨he.before, he.unfinished, he.after⟩ ho hk

theorem failContinuation_eq (hk : (w.context l.context).killer = none) (g : Fault) :
    w.failContinuation t l g = (w.taken l.context).raiseIn t l
      ((w.context l.context).escalated.getD g) fun v => v.finishRound t l := by
  unfold failContinuation
  dsimp only
  rw [hk]
  rfl

theorem finishRound_task (ht : w.tasks[t]? = some (.loop l)) :
    ∃ m, (w.finishRound t l).tasks[t]? = some (.loop m) ∧ m.context = l.context ∧
      m.point = .head := by
  have hset : ∀ m, (w.setLoop t m).tasks[t]? = some (.loop m) := fun m =>
    (getElem?_setTask t t _).trans (if_pos ⟨rfl, (Array.getElem?_eq_some_iff.1 ht).1⟩)
  unfold finishRound
  split
  · exact ⟨_, hset _, rfl, rfl⟩
  · exact ⟨_, hset _, rfl, rfl⟩

theorem finishRound_context (w : World) (t : TaskId) (l : Loop) (c : ContextId) :
    (w.finishRound t l).context c = w.context c := by
  unfold finishRound
  split <;> rfl

theorem finishRound_history (w : World) (t : TaskId) (l : Loop) :
    (w.finishRound t l).history = w.history := by
  unfold finishRound
  split <;> rfl

theorem Truthful.killer {c : ContextId} {o : Outcome} (h : Truthful w w' c o) (ho : o.fault = some f) :
    (w'.context c).killer = some f := by
  cases o with
  | completed => cases ho
  | killed g => exact h.2.trans ho
  | failed g => exact h.2.2.trans ho
  | escalated g => exact h.2.2.1.trans ho

theorem met_raiseIn (hp : Placed w) (hd : w.Drives t l) (hf : w.Due l.context f)
    (hw : w' = (w.taken l.context).raiseIn t l f fun v => v.finishRound t l) :
    Met w w' t l f ∧ (w'.context l.context).escalated = none := by
  have hlt := hp.loop hd.task
  have hlt' : l.context < (w.taken l.context).contexts.size := size_taken w l.context ▸ hlt
  have hself := context_taken hlt
  have hfound := Context.unwind_fst ((w.taken l.context).context l.context) f.name
  rcases hx : ((w.taken l.context).context l.context).unwind f.name with ⟨_ | x, y⟩
  · rw [hx, hself] at hfound
    have hended : ∀ o, o.fault = some f → w.Exit t l o w' →
        Met w w' t l f ∧ (w'.context l.context).escalated = none := fun o ho x =>
      ⟨.ended hfound.symm (x.ends hd) ho ((x.truthful hp hd).killer ho), x.unpending hp hd hf.alive⟩
    have hk : ((w.taken l.context).context l.context).killer = none := by
      rw [hself]
      exact hf.alive
    have hsame : ({ w.context l.context with escalated := none } : Context).parent? =
        (w.context l.context).parent? := rfl
    unfold raiseIn at hw
    rw [raise_fallen hlt' hk hx, hself, hsame] at hw
    rcases hpar : (w.context l.context).parent? with _ | p
    · rw [hpar] at hw
      exact hended (.failed f) rfl (hw ▸ .failed hf hx hpar)
    · rw [hpar] at hw
      exact hended (.escalated f) rfl (hw ▸ .escalated hf hx hpar)
  · rw [raiseIn_caught hx] at hw
    have hpending := escalated_unwind hlt hx
    have hkiller : y.killer = none := by
      change y.bare.killer = none
      rw [bare_unwind hx, hself]
      exact hf.alive
    rw [hx, hself] at hfound
    have hctx : w'.context l.context = y.discardPending.executeNext [x.continuation] := by
      rw [hw]
      exact (finishRound_context ..).trans (context_handled hlt' f x y)
    obtain ⟨m, hm, hmc, hmp⟩ := finishRound_task (w := (w.taken l.context).handled l.context f x y)
      hd.task
    have hlog : w'.history.toList = w.history.toList ++ [] ++ [.caught l.context f x] := by
      rw [hw, finishRound_history]
      simp [handled, record, taken, modifyContext]
    exact ⟨.caught hfound.symm hlog (by rw [hctx]; rfl) (by rw [hctx]; exact hkiller)
      (hw ▸ hm) hmc hmp, by rw [hctx]; exact hpending⟩

/-- A continuation's own fault is raised, unless a child has handed up one that is still pending. -/
theorem Reachable.failure_met (h : Reachable raw admits w) (hr : w.Runs t l frame rest)
    (hk : (w.context l.context).killer = none) (g : Fault) :
    Transition raw w (w.failStep t l frame g) ∧
      ((w.failStep t l frame g).context l.context).escalated = none ∧
      ((w.context l.context).escalated = none → Met w (w.failStep t l frame g) t l g) ∧
      ∀ f, (w.context l.context).escalated = some f →
        Met w (w.failStep t l frame g) t l f ∧
          w.failContinuation t l g = w.failContinuation t l f := by
  have hrec := edits_record w (e := .raised l.context frame g) rfl
  have hp := h.placed.steady hrec.steady
  have hd := hr.drives.steady hrec.steady
  have hdue : Due (w.record (.raised l.context frame g)) l.context
      ((w.context l.context).escalated.getD g) :=
    ⟨hk, fun f (hf : (w.context l.context).escalated = some f) => by rw [hf]; rfl⟩
  obtain ⟨hmet, hnone⟩ := met_raiseIn hp hd hdue
    (failContinuation_eq (w := w.record (.raised l.context frame g)) hk g)
  refine ⟨.fail g hr, hnone, fun he => ?_, fun f hf => ⟨?_, ?_⟩⟩
  · rw [he] at hmet
    exact hmet.recorded
  · rw [hf] at hmet
    exact hmet.recorded
  · rw [failContinuation_eq hk, failContinuation_eq hk, hf]
    rfl

theorem refund_queued : ∃ (w : World) (l : Loop) (frame : Frame) (rest : List Step),
    Reachable False (fun _ => True) w ∧ w.Runs 0 l frame rest ∧
    (w.context l.context).killer = none ∧ (w.context l.context).escalated = none ∧
    handlerOn? "declined" (w.context l.context).scopes = some ⟨1, .noop "refund"⟩ ∧
    Met w (w.failStep 0 l frame ⟨"declined", none, .null⟩) 0 l ⟨"declined", none, .null⟩ := by
  have h1 : Reachable False (fun _ => True)
      (rooted "order" "shop" "main" 1 (some ⟨"pay", false, []⟩)) :=
    .rooted _ _ _ _ _ trivial trivial
  have h2 := h1.next (.call (.inl rfl) (.start 0 (by decide))) trivial
  have h3 := h2.next (.pick 0 rfl (by decide)) trivial
  have h4 := h3.next (.drive (t := 0) rfl rfl rfl) trivial
  have h5 := h4.next (.drive (t := 0) rfl rfl rfl) trivial
  have h6 := h5.next (.call (.inr ⟨0, _, _, _, rfl, rfl, rfl⟩)
    (.edit (.installHandler 0 "declined" (.noop "refund")))) trivial
  refine ⟨_, _, _, _, h6, ⟨rfl, rfl, rfl⟩, rfl, rfl, rfl, ?_⟩
  exact (h6.failure_met (t := 0) ⟨rfl, rfl, rfl⟩ rfl ⟨"declined", none, .null⟩).2.2.1 rfl

/-- The order fails for a reason of its own, and the declined charge is raised in its place. -/
theorem overdraft_lost : ∃ (w : World) (l : Loop) (frame : Frame) (rest : List Step),
    Reachable False (fun _ => True) w ∧ w.Runs 0 l frame rest ∧
    (w.context l.context).killer = none ∧
    Transition False w (w.failStep 0 l frame ⟨"overdraft", none, .null⟩) ∧
    ((w.failStep 0 l frame ⟨"overdraft", none, .null⟩).context l.context).pending =
      [.noop "refund"] ∧
    ¬Met w (w.failStep 0 l frame ⟨"overdraft", none, .null⟩) 0 l ⟨"overdraft", none, .null⟩ := by
  have h1 : Reachable False (fun _ => True)
      (rooted "order" "shop" "main" 1 (some ⟨"pay", false, []⟩)) :=
    .rooted _ _ _ _ _ trivial trivial
  have h2 := h1.next (.call (.inl rfl) (.start 0 (by decide))) trivial
  have h3 := h2.next (.pick 0 rfl (by decide)) trivial
  have h4 := h3.next (.drive (t := 0) rfl rfl rfl) trivial
  have h5 := h4.next (.drive (t := 0) rfl rfl rfl) trivial
  have h6 := h5.next (.call (.inr ⟨0, _, _, _, rfl, rfl, rfl⟩)
    (.edit (.installHandler 0 "declined" (.noop "refund")))) trivial
  have h7 := h6.next (.call (.inr ⟨0, _, _, _, rfl, rfl, rfl⟩)
    (.child 0 "charge" (some ⟨"charge", false, []⟩) (by decide))) trivial
  have h8 := h7.next (.call (.inr ⟨0, _, _, _, rfl, rfl, rfl⟩) (.start 1 (by decide))) trivial
  -- the order yields to its charge, which ends by handing up its fault
  have h9 := h8.next (.pauseBody (t := 0) [] ⟨rfl, rfl, rfl⟩) trivial
  have h10 := h9.next (.pick 1 rfl (by decide)) trivial
  have h11 := h10.next (.drive (t := 1) rfl rfl rfl) trivial
  have h12 := h11.next (.drive (t := 1) rfl rfl rfl) trivial
  have h13 := h12.next (.fail (t := 1) ⟨"declined", none, .null⟩ ⟨rfl, rfl, rfl⟩) trivial
  have h14 := h13.next (.pick 0 rfl (by decide)) trivial
  refine ⟨_, _, _, _, h14, ⟨rfl, rfl, rfl⟩, rfl, .fail _ ⟨rfl, rfl, rfl⟩, rfl,
    fun h => ?_⟩
  cases h with
  | caught hx => cases hx
  | ended _ he =>
    have hpoint : Point.head = .ended _ :=
      congrArg Loop.point (Task.loop.inj (Option.some.inj he.after))
    cases hpoint

end SagaEngine.World
