import Mathlib.Data.List.TakeWhile
import SagaEngine.Proofs.Attempts

/-! What a registry is left with. Entries are dropped only when they are over, and only from the front,
so that a context has the last of the handles that were registered with it, from the oldest one on that
was live when a handle was last passed to it. -/

namespace SagaEngine

namespace Registry

variable {r : Registry} {hs hs' : Handles} {ks : List HandleId} {k : HandleId}

/-- Of the handles `ks` the registry has the last ones; those before are over. -/
structure Retains (r : Registry) (hs : Handles) (ks : List HandleId) : Prop where
  known : ∀ k ∈ ks, k < hs.size
  suffix : ∃ gone, ks = gone ++ r.entries ∧ ∀ k ∈ gone, hs.isLive k = false

theorem retains_nil (hs : Handles) : Retains {} hs [] :=
  ⟨fun _ hk => absurd hk List.not_mem_nil, [], rfl, fun _ hk => absurd hk List.not_mem_nil⟩

theorem Retains.ages (h : r.Retains hs ks) (ha : hs.Ages hs') : r.Retains hs' ks := by
  obtain ⟨gone, hg, ho⟩ := h.suffix
  refine ⟨fun k hk => Nat.lt_of_lt_of_le (h.known k hk) ha.size, gone, hg, fun k hk => ?_⟩
  have hlt : k < hs.size := h.known k (hg ▸ List.mem_append_left _ hk)
  refine Bool.eq_false_iff.2 fun hl => ?_
  have hl' := ha.live k hlt hl
  rw [ho k hk] at hl'
  cases hl'

theorem Retains.prune (h : r.Retains hs ks) : (r.prune hs).Retains hs ks := by
  obtain ⟨gone, hg, ho⟩ := h.suffix
  refine ⟨h.known, gone ++ r.entries.takeWhile fun h => !hs.isLive h, ?_, fun k hk => ?_⟩
  · rw [List.append_assoc, hg]
    exact congrArg (gone ++ ·) List.takeWhile_append_dropWhile.symm
  · rcases List.mem_append.1 hk with hk | hk
    · exact ho k hk
    · simpa using List.mem_takeWhile_imp hk

theorem Retains.register (h : r.Retains hs ks) (hk : k < hs.size) :
    (r.register k).Retains hs (ks ++ [k]) := by
  obtain ⟨gone, hg, ho⟩ := h.suffix
  refine ⟨fun j hj => ?_, gone, ?_, ho⟩
  · rcases List.mem_append.1 hj with hj | hj
    · exact h.known j hj
    · rw [List.mem_singleton.1 hj]
      exact hk
  · rw [hg, List.append_assoc]
    rfl

theorem Retains.prune_entries (h : r.Retains hs ks) :
    (r.prune hs).entries = ks.dropWhile fun k => !hs.isLive k := by
  obtain ⟨gone, hg, ho⟩ := h.suffix
  rw [hg, List.dropWhile_append_of_pos fun k hk => by rw [ho k hk]; rfl]
  rfl

theorem Retains.liveCount (h : r.Retains hs ks) : r.liveCount hs = ks.countP hs.isLive := by
  obtain ⟨gone, hg, ho⟩ := h.suffix
  have hgone : gone.countP hs.isLive = 0 := List.countP_eq_zero.2 fun k hk => by simp [ho k hk]
  rw [hg, List.countP_append, hgone, Nat.zero_add]
  rfl

end Registry

namespace World

variable {w : World} {c : ContextId}

theorem registry_cancelIfKilled (hc : c < w.contexts.size) (hn : (w.context c).isKilled = false)
    (k : HandleId) : ((w.cancelIfKilled c k).context c).registry =
      ((w.context c).registry.prune w.handles).register k := by
  rw [context_cancelIfKilled, seen_self _ hc]
  simp only [hn, Bool.false_eq_true, if_false]

end World

def Deed.registered (c : ContextId) (ks : List HandleId) : Deed → List HandleId
  | .pass d h => if d = c then ks ++ [h] else ks
  | .kill d _ => if d = c then [] else ks
  | .escalate d _ => if d = c then [] else ks
  | _ => ks

def Log.registered (log : Log) (c : ContextId) : List HandleId :=
  log.foldl (fun ks e => e.1.registered c ks) []

variable {b b' : Bench} {log : Log} {c : ContextId} {ks : List HandleId}

def Bench.Retains (b : Bench) (c : ContextId) (ks : List HandleId) : Prop :=
  (b.world.context c).registry.Retains b.world.handles ks

theorem Bench.retains_of_eq {r : Registry} (hr : (b.world.context c).registry = r)
    (h : r.Retains b.world.handles ks) : b.Retains c ks := by
  subst hr
  exact h

theorem Bench.Retains.same (h : b.Retains c ks) (ha : b.world.handles.Ages b'.world.handles)
    (hr : (b'.world.context c).registry = (b.world.context c).registry) : b'.Retains c ks :=
  retains_of_eq hr (Registry.Retains.ages h ha)

theorem Bench.Retains.drain {d : ContextId} (h : b.Retains c ks)
    (m : World.Drains b.world d b'.world) : b'.Retains c (if d = c then [] else ks) := by
  split
  · rename_i hd
    subst hd
    exact retains_of_eq m.emptied (Registry.retains_nil _)
  · rename_i hd
    exact h.same m.minds.ages (by rw [m.others c (Ne.symm hd)])

theorem Deed.retains {d : Deed} (hp : d.Possible b) (h : b.Retains c ks) :
    (d.after b).Retains c (d.registered c ks) := by
  have ha := (Deed.account hp).ages
  cases d with
  | create => exact h.same ha rfl
  | finish k => exact h.same ha rfl
  | cancel k => exact h.same ha (congrArg Context.registry (World.context_cancelHandle b.world k c))
  | register r k => exact h.same ha rfl
  | prune r => exact h.same ha rfl
  | cancelAll r =>
    refine h.same ha (congrArg Context.registry ?_)
    rw [Deed.world_cancelAll, World.context_cancelHandles]
  | pass d k =>
    obtain ⟨hd, hk, hn⟩ := hp
    change (Deed.after _ b).Retains c (if d = c then ks ++ [k] else ks)
    split
    · rename_i he
      subst he
      exact Bench.retains_of_eq (World.registry_cancelIfKilled hd hn k)
        (((Registry.Retains.prune h).register hk).ages ha)
    · rename_i he
      have hx := World.context_cancelIfKilled b.world d c k
      rw [World.seen_of_ne _ (Ne.symm he)] at hx
      exact h.same ha (congrArg Context.registry hx)
  | refuse d k =>
    have hkill : (b.world.context d).isKilled = true := hp
    have hx := World.context_cancelIfKilled b.world d c k
    unfold World.seen at hx
    split at hx
    · rename_i he
      obtain ⟨rfl, -⟩ := he
      refine Bench.retains_of_eq ?_ ((Registry.Retains.prune h).ages ha)
      refine (congrArg Context.registry hx).trans ?_
      simp only [hkill, if_true]
    · exact h.same ha (congrArg Context.registry hx)
  | kill d f => exact h.drain (World.drains_kill b.world d f)
  | escalate d f => exact h.drain (World.drains_escalate b.world d f)

theorem Course.retains (h : Course {} log b) (c : ContextId) : b.Retains c (log.registered c) := by
  induction h with
  | refl => exact Registry.retains_nil _
  | @deed log b' d _ hp ih =>
    have he : Log.registered (log ++ [(d, d.hits b')]) c = d.registered c (log.registered c) := by
      simp [Log.registered]
    rw [he]
    exact Deed.retains hp ih
  | rest _ hs ih => exact ih.same hs.ages (hs.registry c)

/-- The registry of a context is the shortest suffix that pruning from the front allows. -/
theorem Course.registry_suffix (h : Course {} log b) (c : ContextId) :
    (b.world.context c).registry.liveCount b.world.handles =
      (log.registered c).countP b.world.handles.isLive ∧
    ∀ {k : HandleId} {w : World}, c < b.world.contexts.size → k < b.world.handles.size →
      (b.world.context c).isKilled = false → w = b.world.cancelIfKilled c k →
      (w.context c).registry.entries =
        (log.registered c).dropWhile (fun j => !b.world.handles.isLive j) ++ [k] ∧
      (w.context c).registry.liveCount w.handles =
        (log.registered c ++ [k]).countP w.handles.isLive ∧
      ((∀ j ∈ log.registered c, b.world.handles.isLive j = false) →
        (w.context c).registry.size = 1) := by
  have hb : (b.world.context c).registry.Retains b.world.handles (log.registered c) := h.retains c
  refine ⟨hb.liveCount, ?_⟩
  rintro k w hc hk hn rfl
  have hh := World.handles_cancelIfKilled b.world c k
  rw [if_neg (by simp [hn])] at hh
  have hr := World.registry_cancelIfKilled hc hn k
  have hentries : ((b.world.cancelIfKilled c k).context c).registry.entries =
      (log.registered c).dropWhile (fun j => !b.world.handles.isLive j) ++ [k] := by
    rw [hr, ← hb.prune_entries]
    rfl
  refine ⟨hentries, ?_, fun ho => ?_⟩
  · rw [hr, hh]
    exact (hb.prune.register hk).liveCount
  · rw [Registry.size, hentries, List.dropWhile_eq_nil_iff.2 fun j hj => by simp [ho j hj]]
    rfl

theorem fourth_payment_registered : ∃ log b, Course {} log b ∧ log.registered 0 = [0, 1, 2] ∧
    ((b.world.cancelIfKilled 0 3).context 0).registry.entries = [1, 2, 3] := by
  have h0 : Course {} [] _ := .rest .refl
    ⟨World.lenient_addContext {} (x := { label := "order", session := 0, sliceBudget := 1 }) rfl rfl,
      rfl, fun _ => rfl, fun _ => rfl⟩
  have hnew : Course {} _ _ :=
    .deed .create (.deed .create (.deed .create (.deed .create h0 trivial) trivial) trivial) trivial
  have hpaid : Course {} _ _ := .deed (.pass 0 2) (.deed (.pass 0 1) (.deed (.pass 0 0) hnew
    ⟨by decide, by decide, rfl⟩) ⟨by decide, by decide, rfl⟩) ⟨by decide, by decide, rfl⟩
  have h : Course {} _ _ := .deed (.finish 2) (.deed (.finish 0) hpaid trivial) trivial
  exact ⟨_, _, h, rfl, ((h.registry_suffix 0).2 (by decide) (by decide) rfl rfl).1⟩

end SagaEngine
