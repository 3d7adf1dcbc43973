import Mathlib.Algebra.Ring.Nat
import Mathlib.Data.List.Nodup
import SagaEngine.Proofs.Courses

/-! Attempts to cancel. Whichever side they come from, at most one attempt on a handle succeeds, and none
does once the operation is over. -/

namespace SagaEngine

namespace Handles

variable {hs hs' hs'' : Handles} {ks ks' : List HandleId} {h k : HandleId}

theorem lt_size_of_isLive (hl : hs.isLive h = true) : h < hs.size := by
  refine Nat.lt_of_not_le fun hle => ?_
  simp [isLive, Array.getElem?_eq_none hle] at hl

/-- The handles `ks`, and no others, are cancelled between `hs` and `hs'`, each once. -/
structure Account (hs : Handles) (ks : List HandleId) (hs' : Handles) : Prop where
  ages : hs.Ages hs'
  nodup : ks.Nodup
  live : ∀ k ∈ ks, k < hs.size → hs.isLive k = true
  ended : ∀ k ∈ ks, k < hs'.size ∧ hs'.isLive k = false
  cancelled : ∀ k, hs'.isCancelled k = true ↔ hs.isCancelled k = true ∨ k ∈ ks

theorem account_nil (ha : hs.Ages hs') (hc : ∀ k, hs'.isCancelled k = hs.isCancelled k) :
    Account hs [] hs' where
  ages := ha
  nodup := List.nodup_nil
  live k hk := absurd hk List.not_mem_nil
  ended k hk := absurd hk List.not_mem_nil
  cancelled k := by simp [hc]

theorem Account.refl (hs : Handles) : Account hs [] hs := account_nil (.refl hs) fun _ => rfl

theorem Account.trans (a : Account hs ks hs') (a' : Account hs' ks' hs'') :
    Account hs (ks ++ ks') hs'' where
  ages := a.ages.trans a'.ages
  nodup := by
    -- what has been cancelled is over, and is not cancelled again
    refine List.nodup_append'.2 ⟨a.nodup, a'.nodup, fun k hk hk' => ?_⟩
    obtain ⟨hlt, hover⟩ := a.ended k hk
    have hlive := a'.live k hk' hlt
    rw [hover] at hlive
    cases hlive
  live k hk hlt := by
    rcases List.mem_append.1 hk with hk | hk
    · exact a.live k hk hlt
    · exact a.ages.live k hlt (a'.live k hk (Nat.lt_of_lt_of_le hlt a.ages.size))
  ended k hk := by
    rcases List.mem_append.1 hk with hk | hk
    · obtain ⟨hlt, hover⟩ := a.ended k hk
      refine ⟨Nat.lt_of_lt_of_le hlt a'.ages.size, Bool.eq_false_iff.2 fun hl => ?_⟩
      rw [a'.ages.live k hlt hl] at hover
      cases hover
    · exact a'.ended k hk
  cancelled k := by rw [a'.cancelled, a.cancelled, List.mem_append, or_assoc]

theorem isCancelled_cancel_iff (hs : Handles) (h k : HandleId) :
    (hs.cancel h).2.isCancelled k = true ↔
      hs.isCancelled k = true ∨ k ∈ if (hs.cancel h).1 then [h] else [] := by
  by_cases hl : hs.isLive h = true
  · have hhit : (hs.cancel h).1 = true := by simp [cancel, hl]
    rw [if_pos hhit, List.mem_singleton]
    by_cases hk : h = k
    · subst hk
      simp [isCancelled_cancel_self hl]
    · rw [isCancelled_cancel_of_ne hs hk]
      simp [Ne.symm hk]
  · simp [cancel, hl]

theorem account_cancel (hs : Handles) (h : HandleId) :
    Account hs (if (hs.cancel h).1 then [h] else []) (hs.cancel h).2 := by
  have hc := isCancelled_cancel_iff hs h
  by_cases hl : hs.isLive h = true
  · have hhit : (hs.cancel h).1 = true := by simp [cancel, hl]
    rw [if_pos hhit] at hc ⊢
    refine ⟨ages_cancel hs h, List.nodup_singleton h, fun k hk _ => ?_, fun k hk => ?_, hc⟩
    · rw [List.mem_singleton.1 hk]
      exact hl
    · rw [List.mem_singleton.1 hk, size_cancel, isLive_cancel]
      exact ⟨lt_size_of_isLive hl, by simp⟩
  · have hmiss : hs.cancel h = (false, hs) := by simp [cancel, hl]
    rw [hmiss]
    exact .refl hs

theorem account_cancelEach (ks : List HandleId) (hs : Handles) :
    Account hs (hs.cancelEach ks).1 (hs.cancelEach ks).2 := by
  induction ks generalizing hs with
  | nil => exact .refl hs
  | cons k ks ih =>
    have hcons : (hs.cancelEach (k :: ks)).1 =
        (if (hs.cancel k).1 then [k] else []) ++ ((hs.cancel k).2.cancelEach ks).1 := by
      simp only [cancelEach]
      split <;> rfl
    rw [hcons]
    exact (account_cancel hs k).trans (ih (hs.cancel k).2)

theorem account_push (hs : Handles) : Account hs [] (hs.push {}) :=
  account_nil (ages_push hs) (isCancelled_push hs)

theorem account_finish (hs : Handles) (h : HandleId) : Account hs [] (hs.finish h) :=
  account_nil (ages_finish hs h) (isCancelled_finish hs h)

theorem Unmoved.account (h : Unmoved hs hs') : Account hs [] hs' := by
  refine account_nil ⟨Nat.le_of_eq h.size.symm, fun k _ hl => ?_, fun k hc => ?_⟩ h.cancelled
  · rwa [h.live] at hl
  · rwa [h.cancelled]

theorem Account.length (a : Account hs ks hs') (hn : ∀ k, hs.isCancelled k = false) :
    ks.length = (List.range hs'.size).countP hs'.isCancelled := by
  have hperm : ks.Perm ((List.range hs'.size).filter hs'.isCancelled) := by
    refine (List.perm_ext_iff_of_nodup a.nodup (List.nodup_range.filter _)).2 fun k => ?_
    rw [List.mem_filter, List.mem_range, a.cancelled, hn]
    constructor
    · intro hk
      exact ⟨(a.ended k hk).1, .inr hk⟩
    · rintro ⟨-, h | hk⟩
      · cases h
      · exact hk
  rw [hperm.length_eq, List.countP_eq_length_filter]

end Handles

variable {b b' : Bench} {log log' : Log} {d : Deed}

/-! ## One deed, and all of them -/

theorem Deed.account (hp : d.Possible b) :
    b.world.handles.Account (d.hits b) (d.after b).world.handles := by
  cases d with
  | create => exact Handles.account_push _
  | finish h => exact Handles.account_finish _ h
  | cancel h =>
    change Handles.Account _ _ (b.world.cancelHandle h).2.handles
    rw [World.handles_cancelHandle]
    exact Handles.account_cancel _ h
  | register r h => exact .refl _
  | prune r => exact .refl _
  | cancelAll r =>
    rw [Deed.world_cancelAll, World.handles_cancelHandles]
    exact Handles.account_cancelEach _ _
  | pass c h =>
    change Handles.Account _ [] (b.world.cancelIfKilled c h).handles
    rw [World.handles_cancelIfKilled, if_neg (by simp [hp.2.2])]
    exact .refl _
  | refuse c h =>
    change Handles.Account _ _ (b.world.cancelIfKilled c h).handles
    rw [World.handles_cancelIfKilled, if_pos (show (b.world.context c).isKilled = true from hp)]
    exact Handles.account_cancel _ h
  | kill c f =>
    change Handles.Account _ _ (b.world.kill c f).handles
    rw [World.handles_kill]
    exact Handles.account_cancelEach _ _
  | escalate c f =>
    change Handles.Account _ _ (b.world.escalate c f).handles
    rw [World.handles_escalate]
    exact Handles.account_cancelEach _ _

def Log.hits (log : Log) : List HandleId := log.flatMap Prod.snd

theorem Course.account (h : Course b log b') :
    b.world.handles.Account log.hits b'.world.handles := by
  induction h with
  | refl => exact .refl _
  | @deed log b' d _ hp ih =>
    have hd := ih.trans (Deed.account hp)
    have he : Log.hits (log ++ [(d, d.hits b')]) = log.hits ++ d.hits b' := by simp [Log.hits]
    rw [he]
    exact hd
  | @rest log b' w _ hs ih =>
    have hu := ih.trans hs.handles.account
    rw [List.append_nil] at hu
    exact hu

theorem Course.stays_over (h : Course b log b') {k : HandleId} (hk : k < b.world.handles.size)
    (hl : b.world.handles.isLive k = false) : b'.world.handles.isLive k = false ∧ k ∉ log.hits ∧
      b'.world.handles.isCancelled k = b.world.handles.isCancelled k := by
  have a := h.account
  have hmiss : k ∉ log.hits := fun hm => by
    rw [a.live k hm hk] at hl
    cases hl
  refine ⟨Bool.eq_false_iff.2 fun hl' => ?_, hmiss, Bool.eq_iff_iff.2 ?_⟩
  · rw [a.ages.live k hk hl'] at hl
    cases hl
  · rw [a.cancelled, or_iff_left hmiss]

theorem Course.isCancelled_iff (h : Course {} log b) (k : HandleId) :
    b.world.handles.isCancelled k = true ↔ k ∈ log.hits := by
  have hnone : ({} : Bench).world.handles.isCancelled k = false := rfl
  rw [h.account.cancelled, hnone]
  simp

theorem Course.not_cancelled_of_isLive (h : Course {} log b) {k : HandleId}
    (hl : b.world.handles.isLive k = true) : b.world.handles.isCancelled k = false := by
  refine Bool.eq_false_iff.2 fun hc => ?_
  rw [(h.account.ended k ((h.isCancelled_iff k).1 hc)).2] at hl
  cases hl

/-- At most one attempt on a handle succeeds, from whichever side, and none once it is over. -/
theorem Course.cancelled_once (h : Course {} log b) :
    (∀ k, log.hits.count k ≤ 1 ∧
      (b.world.handles.isCancelled k = true ↔ log.hits.count k = 1)) ∧
    (log.map fun e => e.2.length).sum =
      (List.range b.world.handles.size).countP b.world.handles.isCancelled ∧
    (∀ {log' : Log} {b' : Bench}, Course b log' b' →
      ∀ k < b.world.handles.size, b.world.handles.isLive k = false →
        b'.world.handles.isLive k = false ∧ k ∉ log'.hits ∧
          b'.world.handles.isCancelled k = b.world.handles.isCancelled k) ∧
    (∀ {log' : Log} {b' : Bench} {k : HandleId}, b.world.handles.isLive k = true →
      Course ((Deed.finish k).after b) log' b' →
        b'.world.handles.isCancelled k = false ∧ b'.world.handles.isLive k = false) ∧
    ∀ {raw : Prop} {w : World}, World.Reachable raw World.Known w →
      ∃ log, Course {} log { world := w } := by
  have hnodup := h.account.nodup
  refine ⟨fun k => ⟨List.nodup_iff_count_le_one.1 hnodup k, ?_⟩, ?_,
    fun h' k hk hl => h'.stays_over hk hl, fun {log' b' k} hl h' => ?_, fun hr => hr.course _⟩
  · rw [h.isCancelled_iff]
    constructor
    · exact List.count_eq_one_of_mem hnodup
    · intro hc
      exact List.count_pos_iff.1 (by omega)
  · rw [← h.account.length fun _ => rfl, Log.hits, List.length_flatMap]
  · have hlt : k < ((Deed.finish k).after b).world.handles.size :=
      Nat.lt_of_lt_of_le (Handles.lt_size_of_isLive hl) (Handles.ages_finish _ k).size
    have hdead : ((Deed.finish k).after b).world.handles.isLive k = false :=
      (Handles.isLive_finish _ k k).trans (by simp)
    obtain ⟨hlive, -, hsame⟩ := h'.stays_over hlt hdead
    have hfinish : ((Deed.finish k).after b).world.handles.isCancelled k = _ :=
      Handles.isCancelled_finish _ k k
    exact ⟨hsame.trans (hfinish.trans (h.not_cancelled_of_isLive hl)), hlive⟩

theorem shared_handle_cancelled_once : ∃ log b, Course {} log b ∧
    log.map Prod.snd = [[], [], [], [], [0], [], []] ∧ b.world.handles.isCancelled 0 = true := by
  have h : Course {} _ _ := .deed (.cancel 0) (.deed (.cancelAll 1) (.deed (.cancelAll 0)
    (.deed (.register 1 0) (.deed (.register 0 0) (.deed (.register 0 0)
      (.deed .create .refl trivial) trivial) trivial) trivial) trivial) trivial) trivial
  exact ⟨_, _, h, rfl, ((h.cancelled_once.1 0).2).2 rfl⟩

end SagaEngine
