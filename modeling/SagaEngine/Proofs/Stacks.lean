import SagaEngine.Proofs.Entries
import SagaEngine.Proofs.Isolation
import SagaEngine.Proofs.Workload

/-! The stack of a context, which is its scopes and what is queued at each level. Calls and drive loops
change it by a few steps at the top and by nothing else. What these steps keep holds of every context in
every run. -/

namespace SagaEngine

theorem Table.Sorted.merge {α : Type} {t : Table α} (h : t.Sorted) (u : Table α) :
    (t.merge u).Sorted := by
  induction u generalizing t with
  | nil => exact h
  | cons e u ih => exact ih (h.insert e.1 e.2)

namespace Scope

structure Amends (s s' : Scope Installed) : Prop where
  id : s'.id = s.id
  sorted : s.compensations.Sorted → s'.compensations.Sorted

theorem amends_takeHandler (s : Scope Installed) (fault : String) :
    s.Amends (s.takeHandler fault).2 := by
  unfold takeHandler
  split
  · exact ⟨rfl, fun h => h⟩
  · exact ⟨rfl, fun h => h⟩

theorem amends_lookup (s : Scope Installed) (fault : String) (erase : Bool) :
    s.Amends (s.lookup fault erase).2 := by
  unfold lookup
  split
  · exact amends_takeHandler s fault
  · exact ⟨rfl, fun h => h⟩

theorem amends_merge (s inner : Scope Installed) : s.Amends (s.mergeCompensations inner) :=
  ⟨rfl, fun h => h.merge inner.compensations⟩

end Scope

namespace Context

variable {x y : Context} {fault : String} {h : Option Installed}

/-- A step on a stack. -/
inductive StackStep : Context → Context → Prop where
  | keep {x y : Context} :
      y.scopes = x.scopes → y.levels = x.levels → y.ancestors = x.ancestors →
      y.marker = x.marker → StackStep x y
  | table {x : Context} {s s' : Scope Installed} {below : List (Scope Installed)} :
      x.scopes = s :: below → s.Amends s' → StackStep x { x with scopes := s' :: below }
  | queue (x : Context) (ks : List Continuation) : StackStep x (x.executeNext ks)
  | next {x : Context} {k : Continuation} {rest : List Continuation} :
      x.pending = k :: rest → StackStep x { x with pending := rest }
  | discard (x : Context) : StackStep x x.discardPending
  | push (x : Context) (id : String) (marker : Option String) : StackStep x (x.pushScope id marker)
  | pop {x y : Context} {s : Scope Installed} {marker : Option String} :
      x.popScope? marker = some (s, y) → StackStep x y

def StackSteps : Context → Context → Prop := Relation.ReflTransGen StackStep

structure Fresh (x : Context) : Prop where
  saved : x.saved = []
  scopes : x.ancestors = [] ∧ (∃ id, x.scopes = [{ id }]) ∨ x.ancestors ≠ [] ∧ x.scopes = []

theorem stackStep_of_still (h : y.still = x.still) : StackStep x y := by
  have hs : y.still.scopes = x.still.scopes := by rw [h]
  have hl : y.still.levels = x.still.levels := by rw [h]
  have ha : y.still.ancestors = x.still.ancestors := by rw [h]
  have hm : y.still.marker = x.still.marker := by rw [h]
  exact .keep hs hl ha hm

theorem StackSteps.keeps {P : Context → Prop} (hP : ∀ {x y : Context}, StackStep x y → P x → P y)
    (h : StackSteps x y) (hx : P x) : P y := by
  induction h with
  | refl => exact hx
  | tail _ s ih => exact hP s ih

theorem stackSteps_unwindFrom {n : Nat} (hx : unwindFrom fault n x = (h, y)) : StackSteps x y := by
  induction n generalizing x with
  | zero =>
    obtain ⟨-, rfl⟩ := Prod.mk.inj hx
    exact .refl
  | succ n ih =>
    unfold unwindFrom at hx
    split at hx
    · obtain ⟨-, rfl⟩ := Prod.mk.inj hx
      exact .refl
    · rename_i s below hs
      split at hx
      · rename_i k s' ht
        obtain ⟨-, rfl⟩ := Prod.mk.inj hx
        have hamends := s.amends_takeHandler fault
        rw [ht] at hamends
        exact .single (.table hs hamends)
      · split at hx
        · split at hx
          · rename_i z hz
            exact (ih hx).head (.pop hz)
          · obtain ⟨-, rfl⟩ := Prod.mk.inj hx
            exact .refl
        · obtain ⟨-, rfl⟩ := Prod.mk.inj hx
          exact .refl

end Context

namespace World

variable {w w' v : World} {raw : Prop} {admits : World → Prop} {t : TaskId} {l : Loop}
  {c : ContextId} {o : Outcome}

def StackSteps (w w' : World) : Prop := ∀ c, Context.StackSteps (w.context c) (w'.context c)

theorem StackSteps.trans (h : StackSteps w v) (h' : StackSteps v w') : StackSteps w w' := fun c =>
  Relation.ReflTransGen.trans (h c) (h' c)

theorem stackSteps_of_still (h : ∀ c, (w'.context c).still = (w.context c).still) :
    StackSteps w w' := fun c => .single (Context.stackStep_of_still (h c))

theorem stackSteps_modifyContext (w : World) (c : ContextId) {f : Context → Context}
    (h : Context.StackSteps (w.context c) (f (w.context c))) : StackSteps w (w.modifyContext c f) := by
  intro d
  rw [context_modifyContext]
  split
  · rename_i hd
    obtain ⟨rfl, -⟩ := hd
    exact h
  · exact .refl

theorem stackSteps_setTopScope {s s' : Scope Installed} {below : List (Scope Installed)}
    (hs : (w.context c).scopes = s :: below) (ha : s.Amends s') :
    StackSteps w (w.setTopScope c s') := by
  apply stackSteps_modifyContext
  rw [hs, List.tail_cons]
  exact .single (.table hs ha)

theorem stackSteps_updateScope {α : Type} (w : World) (c : ContextId)
    {f : Scope Installed → α × Scope Installed} (hf : ∀ s : Scope Installed, s.Amends (f s).2) :
    StackSteps w (w.updateScope c f).1 := by
  rcases updateScope_cases w c f with ⟨o, s, below, -, hs, hu⟩ | hu
  · rw [hu]
    exact stackSteps_setTopScope hs (hf s)
  · rw [hu]
    exact stackSteps_of_still fun _ => rfl

theorem stackSteps_install (w : World) (c : ContextId) (role : Role) (k : Continuation)
    {put : Installed → Scope Installed → Scope Installed}
    (hput : ∀ (x : Installed) (s : Scope Installed), s.Amends (put x s)) :
    StackSteps w (w.install c role k put).1 := by
  intro d
  rw [context_install]
  exact stackSteps_updateScope w c (fun s => hput _ s) d

theorem stackSteps_popScope (w : World) (c : ContextId) (merge : Bool) (marker : Option String) :
    StackSteps w (w.popScope c merge marker).1 := by
  unfold popScope
  rcases hx : (w.context c).popScope? marker with _ | ⟨s, x⟩
  · exact stackSteps_of_still fun _ => rfl
  · have hpop : StackSteps w (w.modifyContext c fun _ => x) :=
      stackSteps_modifyContext w c (.single (.pop hx))
    have hself : (w.modifyContext c fun _ => x).context c = x :=
      context_modifyContext_self _ (lt_of_popScope hx)
    dsimp only
    split
    · exact hpop
    · rename_i outer below hs
      exact hpop.trans (stackSteps_setTopScope (hself ▸ hs) (outer.amends_merge s))
    · unfold mergeUpward
      split
      · exact hpop.trans (stackSteps_updateScope _ _ fun outer => outer.amends_merge s)
      · exact hpop

/-! ## Calls -/

theorem Edit.stackSteps (e : Edit w w') : StackSteps w w' := by
  cases e with
  | data c f => exact stackSteps_of_still fun _ => rfl
  | mention ops => exact stackSteps_of_still fun _ => rfl
  | list c hc => exact stackSteps_of_still (routine_list w c).still
  | pushScope c id marker => exact stackSteps_modifyContext w c (.single (.push _ id marker))
  | popScope c merge marker => exact stackSteps_popScope w c merge marker
  | installHandler c fault k =>
    exact stackSteps_install w c .handler k fun _ _ => ⟨rfl, fun h => h⟩
  | installCompensation c k =>
    exact stackSteps_install w c .compensation k fun _ s => ⟨rfl, fun h => h.insert s.id _⟩
  | lookupHandler c fault erase =>
    exact stackSteps_updateScope w c fun s => s.amends_lookup fault erase
  | takeCompensation c id => exact stackSteps_updateScope w c fun _ => ⟨rfl, fun h => h.erase id⟩
  | executeNext c ks => exact stackSteps_modifyContext w c (.single (.queue _ ks))
  | popNext c =>
    apply stackSteps_modifyContext
    rcases hp : (w.context c).pending with _ | ⟨k, rest⟩
    · simp only [Context.nextContinuation, hp]
      exact .refl
    · simp only [Context.nextContinuation, hp]
      exact .single (.next hp)
  | discard c => exact stackSteps_modifyContext w c (.single (.discard _))
  | pause c requested => exact stackSteps_modifyContext w c (.single (.keep rfl rfl rfl rfl))

theorem Call.stackSteps (k : Call raw w w') :
    StackSteps w w' ∨ ∃ x, x.Fresh ∧ w'.contexts = w.contexts.push x := by
  cases k with
  | edit e => exact .inl e.stackSteps
  | kill c f => exact .inl (stackSteps_of_still (signals_kill w c f).still)
  | clearKill c => exact .inl (stackSteps_of_still (signals_clearKill w c).still)
  | root label session scope budget k =>
    obtain ⟨ss, hw⟩ := openSession_eq w session
    rw [hw]
    exact .inr ⟨_, ⟨rfl, .inl ⟨rfl, scope, rfl⟩⟩, (list_kept _ _).2.2.2⟩
  | child p label k hp => exact .inr ⟨_, ⟨rfl, .inr ⟨List.cons_ne_nil _ _, rfl⟩⟩, rfl⟩
  | start c hc =>
    left
    unfold World.start
    dsimp only
    split
    · rename_i p _
      exact stackSteps_of_still (signals_addChild w p).still
    · exact stackSteps_of_still fun _ => rfl
  | drive c budget hc => exact .inl (stackSteps_of_still fun _ => rfl)
  | newHandle name => exact .inl (stackSteps_of_still (posts_nameNewHandle w name).routine.still)
  | dropHandle name => exact .inl (stackSteps_of_still (posts_dropHandle w name).routine.still)
  | register c i => exact .inl (stackSteps_of_still (signals_cancelIfKilled w c i).still)
  | cancel i => exact .inl (stackSteps_of_still (signals_cancelHandle w i).still)
  | deliver c op v hc =>
    exact .inl (stackSteps_of_still ((posts_newLetter w op v).trans (posts_deliver _ _ _)).routine.still)
  | receiver c tag ops hc => exact .inl (stackSteps_of_still fun _ => rfl)
  | requeue c op v hr hc =>
    exact .inl (stackSteps_of_still ((posts_newLetter w op v).trans (posts_requeue _ _ _)).routine.still)
  | request c slot ops hr hc =>
    exact .inl (stackSteps_of_still (posts_requestInto w c slot ops).routine.still)
  | dropWait slot i hr hi =>
    exact .inl (stackSteps_of_still
      ((posts_closeWait w i).trans (posts_forgetWait _ slot)).routine.still)
  | await slot i hr hi => exact .inl (stackSteps_of_still fun _ => rfl)

/-! ## Drive loops -/

theorem stackSteps_taken (w : World) (c : ContextId) : StackSteps w (w.taken c) :=
  stackSteps_modifyContext w c (.single (.keep rfl rfl rfl rfl))

theorem stackSteps_handled {f : Fault} {h : Installed} {x : Context}
    (hx : (w.context c).unwind f.name = (some h, x)) : StackSteps w (w.handled c f h x) := by
  have hu : StackSteps w (w.modifyContext c fun _ => x) :=
    stackSteps_modifyContext w c (Context.stackSteps_unwindFrom hx)
  refine hu.trans (stackSteps_modifyContext _ c ?_)
  exact (Relation.ReflTransGen.single (.discard _)).tail (.queue _ [h.continuation])

theorem stackSteps_fallen {f : Fault} {x : Context}
    (hx : (w.context c).unwind f.name = (none, x)) : StackSteps w (w.fallen c f x) := by
  have hu : StackSteps w (w.modifyContext c fun _ => x) :=
    stackSteps_modifyContext w c (Context.stackSteps_unwindFrom hx)
  have hk := stackSteps_of_still (signals_kill (w.modifyContext c fun _ => x) c f).still
  exact (hu.trans hk).trans (stackSteps_of_still (routine_setRunState _ c .failed).still)

theorem stackSteps_endLoop (w : World) (t : TaskId) (l : Loop) (o : Outcome) :
    StackSteps w (w.endLoop t l o) :=
  stackSteps_of_still (endLoop_field Context.still w t l o fun _ _ _ _ => rfl)

theorem Exit.stackSteps (x : w.Exit t l o w') : StackSteps w w' := by
  have hstate := fun s => stackSteps_of_still (routine_setRunState w l.context s).still
  have htaken := stackSteps_taken w l.context
  cases x with
  | killed => exact (hstate .killed).trans (stackSteps_endLoop _ t l _)
  | completed => exact (hstate .completed).trans (stackSteps_endLoop _ t l _)
  | failed _ hx => exact (htaken.trans (stackSteps_fallen hx)).trans (stackSteps_endLoop _ t l _)
  | @escalated f x p _ hx =>
    have hp := stackSteps_of_still
      (signals_escalate ((w.taken l.context).fallen l.context f x) p f).still
    exact ((htaken.trans (stackSteps_fallen hx)).trans hp).trans (stackSteps_endLoop _ t l _)

theorem Act.stackSteps (a : Act w w') : StackSteps w w' := by
  cases a with
  | routine r => exact stackSteps_of_still r.still
  | @pause t l _ _ _ r =>
    have hm := stackSteps_modifyContext w l.context (f := fun x => { x with pauseRequested := false })
      (.single (.keep rfl rfl rfl rfl))
    exact hm.trans (stackSteps_of_still r.still)
  | @start t l k rest v _ _ r hk =>
    have hm := stackSteps_modifyContext w l.context (f := fun x => { x with pending := rest })
      (.single (.next hk))
    exact hm.trans (stackSteps_of_still r.still)
  | caught _ _ hx r =>
    exact ((stackSteps_taken w _).trans (stackSteps_handled hx)).trans (stackSteps_of_still r.still)
  | exit _ x => exact x.stackSteps

theorem Transition.stackSteps (hp : Placed w) (k : Transition raw w w') :
    StackSteps w w' ∨ ∃ x, x.Fresh ∧ w'.contexts = w.contexts.push x := by
  rcases k.acts hp with ⟨-, k⟩ | ⟨v, n, a⟩
  · exact k.stackSteps
  · left
    intro c
    rw [← n.context]
    exact a.stackSteps c

/-- What new contexts have and steps on stacks keep, every context has in every run. -/
theorem Reachable.stack_invariant {P : Context → Prop} (hd : P default)
    (hf : ∀ x : Context, x.Fresh → P x)
    (hs : ∀ {x y : Context}, Context.StackStep x y → P x → P y) (h : Reachable raw admits w)
    (c : ContextId) : P (w.context c) := by
  induction h with
  | start => exact hd
  | next h k _ ih =>
    rcases k.stackSteps h.placed with hw | ⟨x, hx, hw⟩
    · exact (hw c).keeps hs ih
    · rw [context_of_push hw]
      split
      · exact hf x hx
      · exact ih

end World

end SagaEngine
