import SagaEngine.Proofs.Labels
import SagaEngine.Proofs.Solo
import SagaEngine.Proofs.Tally

/-! Delegated access. Code outside any scope of its own context uses the nearest scope above as the
context that owns it does: with the same answer, and with the same world after it. Only leaving a scope
is up to the context itself. -/

namespace SagaEngine.World

variable {w : World} {raw : Prop} {admits : World → Prop} {α : Type} {c o : ContextId}
  {s : Scope Installed} {below : List (Scope Installed)}

/-- The accesses to the nearest scope; `read` is for whatever is read off a copy of it. -/
inductive Access : Type → Type 1 where
  | installCompensation (k : Continuation) : Access Unit
  | installHandler (fault : String) (k : Continuation) : Access Unit
  | lookupHandler (fault : String) (erase : Bool) : Access (Option Installed)
  | ownCompensation : Access (Option Installed)
  | takeCompensation (id : String) : Access (Option Installed)
  | currentScopeId : Access String
  | read {α : Type} (f : Scope Installed → α) : Access α

namespace Access

def run (w : World) (c : ContextId) : Access α → World × Except EngineError α
  | installCompensation k => w.installCompensation c k
  | installHandler fault k => w.installHandler c fault k
  | lookupHandler fault erase => w.lookupHandler c fault erase
  | ownCompensation => (w, w.ownCompensation c)
  | takeCompensation id => w.takeCompensation c id
  | currentScopeId => (w, w.currentScopeId c)
  | read f => (w, w.readScope c f)

def act (n : Nat) (s : Scope Installed) : Access α → α × Scope Installed
  | installCompensation k => ((), s.installCompensation ⟨n, k⟩)
  | installHandler fault k => ((), s.installHandler fault ⟨n, k⟩)
  | lookupHandler fault erase => s.lookup fault erase
  | ownCompensation => (s.ownCompensation?, s)
  | takeCompensation id => s.takeCompensation id
  | currentScopeId => (s.id, s)
  | read f => (f s, s)

def events (n : Nat) : Access α → List Event
  | installCompensation k => [.installed .compensation ⟨n, k⟩]
  | installHandler _ k => [.installed .handler ⟨n, k⟩]
  | _ => []

def after (w : World) (o : ContextId) (s : Scope Installed) (a : Access α) : World :=
  (a.events w.history.size).foldl record (w.setTopScope o (a.act w.history.size s).2)

end Access

/-! ## The scope that is accessed -/

theorem nearestScope_owner (ho : w.scopeOwner? c = some o)
    (hs : (w.context o).scopes = s :: below) : w.nearestScope? c = some s := by
  rw [nearestScope?, ho, Option.bind_some, hs, List.head?_cons]

theorem updateScope_owner (ho : w.scopeOwner? c = some o) (hs : (w.context o).scopes = s :: below)
    (f : Scope Installed → α × Scope Installed) :
    w.updateScope c f = (w.setTopScope o (f s).2, .ok (f s).1) := by
  unfold updateScope
  rw [ho, nearestScope_owner ho hs]

theorem install_owner (ho : w.scopeOwner? c = some o) (hs : (w.context o).scopes = s :: below)
    (role : Role) (k : Continuation) (put : Installed → Scope Installed → Scope Installed) :
    w.install c role k put =
      ((w.setTopScope o (put ⟨w.history.size, k⟩ s)).record (.installed role ⟨w.history.size, k⟩),
        .ok ()) := by
  unfold install
  dsimp only
  rw [updateScope_owner ho hs]

theorem readScope_owner (ho : w.scopeOwner? c = some o) (hs : (w.context o).scopes = s :: below)
    (f : Scope Installed → α) : w.readScope c f = .ok (f s) := by
  unfold readScope
  rw [nearestScope_owner ho hs]

theorem updateScope_none (ho : w.scopeOwner? c = none) (f : Scope Installed → α × Scope Installed) :
    w.updateScope c f = (w, .error (w.noScope c)) := by
  unfold updateScope
  rw [ho]

theorem install_none (ho : w.scopeOwner? c = none) (role : Role) (k : Continuation)
    (put : Installed → Scope Installed → Scope Installed) :
    w.install c role k put = (w, .error (w.noScope c)) := by
  unfold install
  dsimp only
  rw [updateScope_none ho]

theorem readScope_none (ho : w.scopeOwner? c = none) (f : Scope Installed → α) :
    w.readScope c f = .error (w.noScope c) := by
  have hn : w.nearestScope? c = none := by rw [nearestScope?, ho, Option.bind_none]
  unfold readScope
  rw [hn]

namespace Access

theorem after_quiet {a : Access α} (hs : (w.context o).scopes = s :: below)
    (hact : (a.act w.history.size s).2 = s) (he : a.events w.history.size = []) :
    a.after w o s = w := by
  unfold after
  rw [hact, setTopScope_self hs, he, List.foldl_nil]

theorem run_owner (a : Access α) (ho : w.scopeOwner? c = some o)
    (hs : (w.context o).scopes = s :: below) :
    a.run w c = (a.after w o s, .ok (a.act w.history.size s).1) := by
  cases a with
  | installCompensation k =>
    exact install_owner ho hs .compensation k fun x s => s.installCompensation x
  | installHandler fault k =>
    exact install_owner ho hs .handler k fun x s => s.installHandler fault x
  | lookupHandler fault erase => exact updateScope_owner ho hs fun s => s.lookup fault erase
  | takeCompensation id => exact updateScope_owner ho hs fun s => s.takeCompensation id
  | ownCompensation =>
    rw [after_quiet hs rfl rfl]
    exact congrArg (Prod.mk w) (readScope_owner ho hs _)
  | currentScopeId =>
    rw [after_quiet hs rfl rfl]
    exact congrArg (Prod.mk w) (readScope_owner ho hs _)
  | read f =>
    rw [after_quiet hs rfl rfl]
    exact congrArg (Prod.mk w) (readScope_owner ho hs _)

theorem run_none (a : Access α) (ho : w.scopeOwner? c = none) :
    a.run w c = (w, .error (w.noScope c)) := by
  cases a with
  | installCompensation k =>
    exact install_none ho .compensation k fun x s => s.installCompensation x
  | installHandler fault k => exact install_none ho .handler k fun x s => s.installHandler fault x
  | lookupHandler fault erase => exact updateScope_none ho fun s => s.lookup fault erase
  | takeCompensation id => exact updateScope_none ho fun s => s.takeCompensation id
  | ownCompensation => exact congrArg (Prod.mk w) (readScope_none ho _)
  | currentScopeId => exact congrArg (Prod.mk w) (readScope_none ho _)
  | read f => exact congrArg (Prod.mk w) (readScope_none ho _)

end Access

/-! ## The lineage -/

theorem scopeOwner_first {before after : List ContextId} (hl : w.lineage c = before ++ o :: after)
    (hb : ∀ d ∈ before, (w.context d).scopes = []) (hs : (w.context o).scopes = s :: below) :
    w.scopeOwner? c = some o := by
  have hnone : before.find? w.hasScope = none :=
    List.find?_eq_none.2 fun d hd => by simp [hasScope_of_nil (hb d hd)]
  have hown : w.hasScope o = true := by simp [hasScope, hs]
  unfold scopeOwner?
  rw [hl, List.find?_append, hnone, Option.none_or, List.find?_cons_of_pos hown]

theorem scopeOwner_none (hl : ∀ d ∈ w.lineage c, (w.context d).scopes = []) :
    w.scopeOwner? c = none :=
  List.find?_eq_none.2 fun d hd => by simp [hasScope_of_nil (hl d hd)]

theorem Placed.lineage_parent (hp : Placed w) (c : ContextId) :
    w.lineage c = c :: (w.context c).parent?.elim [] w.lineage := by
  unfold World.lineage Context.parent?
  rcases ha : (w.context c).ancestors with _ | ⟨p, rest⟩
  · rfl
  · rw [List.head?_cons, Option.elim_some, (hp.lineage c p rest ha).2]

theorem popScope_ok (hs : (w.context c).scopes ≠ []) (merge : Bool) (marker : Option String) :
    ∃ v, w.popScope c merge marker = (v, .ok ()) := by
  unfold popScope Context.popScope?
  split
  · rename_i h
    split at h
    · contradiction
    · cases h
  · dsimp only
    split <;> exact ⟨_, rfl⟩

theorem popScope_underflow (hs : (w.context c).scopes = []) (merge : Bool) (marker : Option String) :
    w.popScope c merge marker = (w, .error (.scopeUnderflow (w.context c).label)) := by
  unfold popScope Context.popScope?
  rw [hs]

/-- It is all the same whether an access is made where the nearest scope is, or further down. -/
theorem Reachable.delegated (h : Reachable raw admits w) (hc : c < w.contexts.size) :
    w.lineage c = c :: (w.context c).parent?.elim [] w.lineage ∧
    (∀ before o after s below, w.lineage c = before ++ o :: after →
      (∀ d ∈ before, (w.context d).scopes = []) → (w.context o).scopes = s :: below →
      ∀ {α : Type} (a : Access α), a.run w c = a.run w o ∧
        a.run w o = (a.after w o s, .ok (a.act w.history.size s).1)) ∧
    ((∀ d ∈ w.lineage c, (w.context d).scopes = []) →
      ∀ {α : Type} (a : Access α), a.run w c = (w, .error (.noScope (w.context c).label))) ∧
    (∀ merge marker,
      ((w.context c).scopes = [] →
        w.popScope c merge marker = (w, .error (.scopeUnderflow (w.context c).label))) ∧
      ((w.context c).scopes ≠ [] → ∃ v, w.popScope c merge marker = (v, .ok ()))) ∧
    ∀ d < w.contexts.size, (w.context d).label = (w.context c).label → d = c := by
  refine ⟨h.placed.lineage_parent c, fun before o after s below hl hb hs α a => ?_,
    fun hl α a => a.run_none (scopeOwner_none hl),
    fun merge marker => ⟨fun hs => popScope_underflow hs merge marker,
      fun hs => popScope_ok hs merge marker⟩,
    fun d hd hl => h.label_inj hd hc hl⟩
  have hdirect := a.run_owner (scopeOwner_own hs) hs
  have hdelegated := a.run_owner (scopeOwner_first hl hb hs) hs
  exact ⟨hdelegated.trans hdirect.symm, hdirect⟩

def charged : World := ((rooted "order" "shop" "main" 1 none).addChild 0 "charge" none).2.2

theorem charge_delegates :
    (Access.installHandler "declined" (.noop "refund")).run charged 1 =
      (Access.installHandler "declined" (.noop "refund")).run charged 0 ∧
    charged.popScope 1 true none =
      (charged, .error (.scopeUnderflow (charged.context 1).label)) := by
  have hr : Reachable False (fun _ => True) charged :=
    (Reachable.rooted "order" "shop" "main" 1 none trivial trivial).next
      (.call (.inl rfl) (.child 0 "charge" none (by decide))) trivial
  obtain ⟨-, haccess, -, hpop, -⟩ := hr.delegated (c := 1) (by decide)
  refine ⟨(haccess [1] 0 [] _ _ rfl (fun d hd => ?_) rfl _).1, (hpop true none).1 rfl⟩
  rw [List.mem_singleton.1 hd]
  rfl

end SagaEngine.World
