import SagaEngine.Proofs.Solo

/-! What a raised fault does to the context. Its own scopes are left, from the innermost, until one of
them has a handler for the fault, and that handler is all that is pending then. The search uses
operations that would ask the ancestors of a context without a scope, but it never gets there. -/

namespace SagaEngine

namespace Scope

variable {α : Type} {s : Scope α} {fault : String} {a : α}

inductive Loses (s : Scope α) (fault : String) (a : α) : Scope α → Prop where
  | specific :
      s.handlers.get? fault = some a → Loses s fault a { s with handlers := s.handlers.erase fault }
  | fallback :
      s.handlers.get? fault = none → s.handlers.get? Fault.defaultHandler = some a →
      Loses s fault a { s with handlers := s.handlers.erase Fault.defaultHandler }

theorem takeHandler_loses (h : s.handlerFor? fault = some a) :
    ∃ t, s.takeHandler fault = (some a, t) ∧ s.Loses fault a t := by
  unfold handlerFor? at h
  unfold takeHandler handlerName? Table.contains
  rcases hf : s.handlers.get? fault with _ | b
  · rw [hf, Option.none_or] at h
    exact ⟨{ s with handlers := s.handlers.erase Fault.defaultHandler }, by simp [h], .fallback hf h⟩
  · rw [hf, Option.some_or] at h
    cases h
    exact ⟨{ s with handlers := s.handlers.erase fault }, by simp [hf], .specific hf⟩

theorem takeHandler_none (h : s.handlerFor? fault = none) : s.takeHandler fault = (none, s) := by
  unfold handlerFor? at h
  obtain ⟨hf, hd⟩ := Option.or_eq_none_iff.1 h
  simp [takeHandler, handlerName?, Table.contains, hf, hd]

end Scope

namespace Context

variable {x : Context} {fault : String} {above below : List (Scope Installed)} {s t : Scope Installed}
  {h : Installed}

def without (x : Context) (n : Nat) : Context :=
  { x with
    scopes := x.scopes.drop n
    pending := (x.saved.take n).getLastD x.pending
    saved := x.saved.drop n
    marker := if n = 0 then x.marker else none }

theorem popScope_without (hs : x.scopes = s :: below) :
    x.popScope? none = some (s, x.without 1) := by
  unfold popScope? without
  rw [hs]
  cases x.saved <;> rfl

theorem without_without (x : Context) (m n : Nat) : (x.without m).without n = x.without (m + n) := by
  have hpending : ((x.saved.drop m).take n).getLastD ((x.saved.take m).getLastD x.pending) =
      (x.saved.take (m + n)).getLastD x.pending := by
    simp only [List.getLastD_eq_getLast?, List.take_add, List.getLast?_append, Option.getD_or]
  have hmarker : (if n = 0 then if m = 0 then x.marker else none else none) =
      if m + n = 0 then x.marker else none := by
    split <;> split <;> simp_all
  simp only [without, List.drop_drop, hpending, hmarker]

theorem unwindFloor_le (x : Context) : x.unwindFloor ≤ 1 := by
  unfold unwindFloor
  split <;> decide

theorem unwindFrom_left (n : Nat) (hs : x.scopes = s :: below) (hh : s.handlerFor? fault = none)
    (hf : x.unwindFloor ≤ below.length) :
    unwindFrom fault (n + 1) x = unwindFrom fault n (x.without 1) := by
  have hlt : x.unwindFloor < (s :: below).length := Nat.lt_succ_of_le hf
  simp only [unwindFrom, hs, Scope.takeHandler_none hh, if_pos hlt, popScope_without hs]

theorem unwindFrom_skip (n : Nat) (hs : x.scopes = above ++ below)
    (ha : ∀ a ∈ above, a.handlerFor? fault = none) (hf : x.unwindFloor ≤ below.length) :
    unwindFrom fault (above.length + n) x = unwindFrom fault n (x.without above.length) := by
  induction above generalizing x with
  | nil =>
    rw [List.length_nil, Nat.zero_add]
    congr 1
  | cons a above ih =>
    have hfloor : x.unwindFloor ≤ (above ++ below).length := by
      rw [List.length_append]
      omega
    have hpopped : (x.without 1).scopes = above ++ below := by simp [without, hs]
    rw [List.length_cons, Nat.add_right_comm, unwindFrom_left _ hs (ha a (.head _)) hfloor,
      ih hpopped (fun b hb => ha b (.tail _ hb)) hf, without_without, Nat.add_comm 1]

theorem unwind_handled (hs : x.scopes = above ++ s :: below)
    (ha : ∀ a ∈ above, a.handlerFor? fault = none) (ht : s.takeHandler fault = (some h, t)) :
    x.unwind fault = (some h, { x.without above.length with scopes := t :: below }) := by
  have hfloor : x.unwindFloor ≤ (s :: below).length :=
    Nat.le_trans x.unwindFloor_le (Nat.succ_le_succ (Nat.zero_le _))
  have hleft : (x.without above.length).scopes = s :: below := by simp [without, hs]
  unfold unwind
  rw [hs, List.length_append, unwindFrom_skip _ hs ha hfloor]
  simp only [List.length_cons, unwindFrom, hleft, ht]

theorem unwind_unhandled (hn : ∀ s ∈ x.scopes, s.handlerFor? fault = none) :
    x.unwind fault = (none, x.without (x.scopes.length - x.unwindFloor)) := by
  unfold unwind
  rcases Nat.le_one_iff_eq_zero_or_eq_one.1 x.unwindFloor_le with hf | hf
  · have hall := unwindFrom_skip 0 (List.append_nil x.scopes).symm hn (hf ▸ Nat.le_refl _)
    rw [hf, Nat.sub_zero]
    exact hall
  · rcases List.eq_nil_or_concat x.scopes with hs | ⟨above, s, hs⟩
    · rw [hs, hf]
      rfl
    · have hs' : x.scopes = above ++ [s] := by rw [hs, List.concat_eq_append]
      have hstop : (x.without above.length).scopes = [s] := by simp [without, hs']
      have hfloor : (x.without above.length).unwindFloor = 1 := hf
      have habove : ∀ a ∈ above, a.handlerFor? fault = none := fun a ha => hn a (by simp [hs', ha])
      rw [hs', List.length_append, unwindFrom_skip _ hs' habove (Nat.le_of_eq hf)]
      simp [unwindFrom, hstop, Scope.takeHandler_none (hn s (by simp [hs'])), hfloor, hf]

end Context

namespace World

variable {w w' v : World} {c d p : ContextId} {f : Fault} {h : Installed} {s : Scope Installed}
  {above below : List (Scope Installed)}

/-! ## The search, operation by operation -/

def handOn (w : World) (c : ContextId) (f : Fault) : World × Option Outcome :=
  match (w.context c).parent?, w.hasScope c with
  | some p, false => (w.escalate p f, some (.escalated f))
  | _, _ => (w, some (.failed f))

def giveUp (w : World) (c : ContextId) (f : Fault) : World × Option Outcome :=
  ((w.kill c f).setRunState c .failed).handOn c f

/-- Raises a fault in at most `n` rounds, by operations that are open to any code. -/
def raiseBy (c : ContextId) (f : Fault) : Nat → World → Option (World × Option Outcome)
  | 0, _ => none
  | n + 1, w =>
    if w.hasScope c then
      match w.lookupHandler c f.name true with
      | (w, .ok (some h)) =>
        let w := w.modifyContext c fun x => x.discardPending.executeNext [h.continuation]
        some (w.record (.caught c f h), none)
      | (w, .ok none) =>
        if (w.context c).unwindFloor < (w.context c).scopes.length then
          match w.popScope c false none with
          | (w, .ok ()) => raiseBy c f n w
          | (w, .error _) => some (w.giveUp c f)
        else some (w.giveUp c f)
      | (w, .error _) => some (w.giveUp c f)
    else some (w.giveUp c f)

theorem raise_giveUp {x : Context} (hx : (w.context c).unwind f.name = (none, x)) :
    w.raise c f = (w.modifyContext c fun _ => x).giveUp c f := by
  unfold raise giveUp
  rw [hx]
  dsimp only
  generalize ((w.modifyContext c fun _ => x).kill c f).setRunState c .failed = v
  rfl

theorem raise_stays (hx : (w.context c).unwind f.name = (none, w.context c)) :
    w.raise c f = w.giveUp c f := by
  rw [raise_giveUp hx, modifyContext_self]

theorem lookupHandler_own (hs : (w.context c).scopes = s :: below) (fault : String) :
    w.lookupHandler c fault true =
      (w.setTopScope c (s.takeHandler fault).2, .ok (s.takeHandler fault).1) := by
  unfold lookupHandler updateScope
  rw [scopeOwner_own hs, nearestScope_own hs]
  rfl

theorem raise_left (hc : c < w.contexts.size) (hs : (w.context c).scopes = s :: below)
    (hh : s.handlerFor? f.name = none) (hf : (w.context c).unwindFloor ≤ below.length) :
    (w.modifyContext c fun _ => (w.context c).without 1).raise c f = w.raise c f := by
  have hunwind : (w.context c).unwind f.name = ((w.context c).without 1).unwind f.name := by
    have hpopped : ((w.context c).without 1).scopes = below := by simp [Context.without, hs]
    unfold Context.unwind
    rw [hs, List.length_cons, Context.unwindFrom_left _ hs hh hf, hpopped]
  unfold raise
  rw [context_modifyContext_self _ hc, ← hunwind]
  dsimp only
  rw [modifyContext_modifyContext]

theorem raiseBy_eq (n : Nat) (hc : c < w.contexts.size) (hn : (w.context c).scopes.length < n) :
    raiseBy c f n w = some (w.raise c f) := by
  induction n generalizing w with
  | zero => cases hn
  | succ n ih =>
    unfold raiseBy
    rcases hs : (w.context c).scopes with _ | ⟨s, below⟩
    · rw [if_neg (by simp [hasScope_of_nil hs]), raise_stays]
      rw [Context.unwind, hs]
      rfl
    · rw [if_pos (by simp [hasScope, hs]), lookupHandler_own hs]
      rcases hh : s.handlerFor? f.name with _ | h
      · rw [Scope.takeHandler_none hh]
        dsimp only
        rw [setTopScope_self hs, hs]
        by_cases hf : (w.context c).unwindFloor < (s :: below).length
        · have hle : (w.context c).unwindFloor ≤ below.length := Nat.le_of_lt_succ hf
          have hpop : w.popScope c false none =
              (w.modifyContext c fun _ => (w.context c).without 1, .ok ()) := by
            unfold popScope
            rw [Context.popScope_without hs]
          rw [if_pos hf, hpop]
          dsimp only
          rw [ih, raise_left hc hs hh hle]
          · simpa using hc
          · rw [hs, List.length_cons] at hn
            simpa [context_modifyContext_self _ hc, Context.without, hs] using hn
        · rw [if_neg hf, raise_stays]
          rw [Context.unwind, hs, List.length_cons]
          simp only [Context.unwindFrom, hs, Scope.takeHandler_none hh]
          rw [if_neg hf]
      · obtain ⟨t, ht, -⟩ := Scope.takeHandler_loses hh
        rw [raise_caught (Context.unwind_current hs ht), ht]
        have hset : w.setTopScope c t =
            w.modifyContext c fun _ => { w.context c with scopes := t :: below } :=
          modifyContext_congr (by rw [hs, List.tail_cons])
        dsimp only
        rw [hset]

/-! ## Scopes of other contexts -/

theorem modifyContext_comm {f g : Context → Context} (h : c = d → ∀ x, f (g x) = g (f x)) :
    (w.modifyContext d g).modifyContext c f = (w.modifyContext c f).modifyContext d g := by
  by_cases hcd : c = d
  · subst hcd
    rw [modifyContext_modifyContext, modifyContext_modifyContext]
    exact congrArg (w.modifyContext c) (funext (h rfl))
  · have hctx : (w.contexts.modify d g).modify c f = (w.contexts.modify c f).modify d g := by
      refine Array.ext_getElem? fun i => ?_
      simp only [Array.getElem?_modify]
      by_cases hi : c = i
      · subst hi
        simp [Ne.symm hcd]
      · simp [hi]
    rw [modifyContext, modifyContext, hctx]
    rfl

def withScopes (w : World) (d : ContextId) (ss : List (Scope Installed)) : World :=
  w.modifyContext d fun x => { x with scopes := ss }

variable {ss : List (Scope Installed)}

theorem withScopes_field {α : Type} (g : Context → α)
    (h : ∀ x : Context, g { x with scopes := ss } = g x) :
    g ((w.withScopes d ss).context c) = g (w.context c) := context_modifyContext_congr g h w d c

theorem withScopes_modifyContext (f : Context → Context)
    (h : ∀ x : Context, f { x with scopes := ss } = { f x with scopes := ss }) :
    (w.withScopes d ss).modifyContext c f = (w.modifyContext c f).withScopes d ss :=
  modifyContext_comm fun _ => h

theorem withScopes_replace (x : Context) (hd : d ≠ c) :
    (w.withScopes d ss).modifyContext c (fun _ => x) =
      (w.modifyContext c fun _ => x).withScopes d ss :=
  modifyContext_comm fun h => absurd h.symm hd

theorem withScopes_wake (t : TaskId) : (w.withScopes d ss).wake t = (w.wake t).withScopes d ss := by
  rw [wake_eq, wake_eq]
  rfl

theorem withScopes_notify : (w.withScopes d ss).notify c = (w.notify c).withScopes d ss := by
  unfold notify
  rw [withScopes_field Context.idle fun _ => rfl]
  split
  · rw [withScopes_modifyContext, withScopes_wake]
    exact fun _ => rfl
  · exact withScopes_modifyContext _ fun _ => rfl

theorem withScopes_cancelHandle (k : HandleId) :
    ((w.withScopes d ss).cancelHandle k).2 = (w.cancelHandle k).2.withScopes d ss := by
  have hlive : (w.withScopes d ss).handles.isLive k = w.handles.isLive k := rfl
  rw [cancelHandle_eq, cancelHandle_eq, hlive]
  split
  · exact wakeSleeper_modifyContext (w.withHandles (w.handles.cancel k).2) d
      (fun x => { x with scopes := ss }) k
  · rfl

theorem withScopes_cancelHandles (hs : List HandleId) :
    (w.withScopes d ss).cancelHandles hs = (w.cancelHandles hs).withScopes d ss := by
  induction hs generalizing w with
  | nil => rfl
  | cons k hs ih => exact (congrArg (cancelHandles · hs) (withScopes_cancelHandle k)).trans ih

theorem withScopes_cancelRegistered :
    (w.withScopes d ss).cancelRegistered c = (w.cancelRegistered c).withScopes d ss := by
  rw [cancelRegistered_eq, cancelRegistered_eq, withScopes_field Context.registry fun _ => rfl,
    withScopes_cancelHandles, withScopes_modifyContext]
  exact fun _ => rfl

theorem withScopes_kill (f : Fault) : (w.withScopes d ss).kill c f = (w.kill c f).withScopes d ss := by
  unfold kill
  rw [withScopes_modifyContext, withScopes_cancelRegistered, withScopes_notify]
  exact fun _ => rfl

theorem withScopes_escalate (f : Fault) :
    (w.withScopes d ss).escalate c f = (w.escalate c f).withScopes d ss := by
  unfold escalate
  dsimp only
  rw [withScopes_field Context.runState fun _ => rfl]
  split
  · rw [withScopes_kill, withScopes_notify]
  · rw [withScopes_modifyContext, withScopes_cancelRegistered, withScopes_notify]
    exact fun _ => rfl

theorem withScopes_fallen (f : Fault) (x : Context) (hd : d ≠ c) :
    (w.withScopes d ss).fallen c f x = (w.fallen c f x).withScopes d ss := by
  unfold fallen setRunState
  rw [withScopes_replace x hd, withScopes_kill, withScopes_modifyContext]
  exact fun _ => rfl

theorem withScopes_raise (hc : c < w.contexts.size) (hk : (w.context c).killer = none)
    (hd : d ≠ c) (f : Fault) (ss : List (Scope Installed)) :
    (w.withScopes d ss).raise c f = ((w.raise c f).1.withScopes d ss, (w.raise c f).2) := by
  have hself : (w.withScopes d ss).context c = w.context c :=
    context_modifyContext_of_ne w _ hd.symm
  have hc' : c < (w.withScopes d ss).contexts.size := by
    simpa [withScopes] using hc
  rcases hx : (w.context c).unwind f.name with ⟨_ | h, x⟩
  · have hraise := raise_fallen hc hk hx
    have hraise' := raise_fallen (w := w.withScopes d ss) hc' (hself ▸ hk) (hself ▸ hx)
    rw [hself, withScopes_fallen f x hd] at hraise'
    rw [hraise, hraise']
    cases (w.context c).parent? with
    | none => rfl
    | some p =>
      dsimp only
      rw [withScopes_escalate]
  · rw [raise_caught hx, raise_caught (w := w.withScopes d ss) (hself ▸ hx)]
    rw [withScopes_replace x hd, withScopes_modifyContext]
    · rfl
    · exact fun _ => rfl

/-! ## What a fault comes to -/

/-- Handler `h` of scope `s` meets the fault, and the scopes above that one are gone. -/
def Handled (w : World) (c : ContextId) (f : Fault) (above : List (Scope Installed))
    (s : Scope Installed) (below : List (Scope Installed)) (h : Installed)
    (r : World × Option Outcome) : Prop :=
  ∃ t, s.Loses f.name h t ∧
    r = ((w.modifyContext c fun x => { x with
      scopes := t :: below
      pending := [h.continuation]
      saved := x.saved.drop above.length
      marker := if above = [] then x.marker else none }).record (.caught c f h), none)

/-- Nothing handles the fault: the context falls, and its parent is handed the fault once. -/
structure Unhandled (w : World) (c : ContextId) (f : Fault) (r : World × Option Outcome) : Prop where
  result : r =
    let x := (w.context c).without ((w.context c).scopes.length - (w.context c).unwindFloor)
    match (w.context c).parent? with
    | some p => ((w.fallen c f x).escalate p f, some (.escalated f))
    | none => (w.fallen c f x, some (.failed f))
  child : ∀ p, (w.context c).parent? = some p → (r.1.context c).scopes = []
  root : (w.context c).parent? = none →
    (r.1.context c).scopes = (w.context c).scopes.getLast?.toList
  killer : (r.1.context c).killer = some f
  runState : (r.1.context c).runState = .failed
  parent : ∀ p, (w.context c).parent? = some p → p < w.contexts.size →
    r.1.context p = escalatedContext (w.context p) f
  others : ∀ d, d ≠ c → (w.context c).parent? ≠ some d → r.1.context d = w.context d
  sessions : r.1.sessions = w.sessions

theorem handled_raise {s : Scope Installed} (hs : (w.context c).scopes = above ++ s :: below)
    (ha : ∀ a ∈ above, a.handlerFor? f.name = none) (hh : s.handlerFor? f.name = some h) :
    Handled w c f above s below h (w.raise c f) := by
  obtain ⟨t, ht, hloses⟩ := Scope.takeHandler_loses hh
  refine ⟨t, hloses, ?_⟩
  rw [raise_caught (Context.unwind_handled hs ha ht), modifyContext_modifyContext]
  congr 2
  refine modifyContext_congr ?_
  simp [Context.discardPending, Context.executeNext, Context.without]

theorem scopes_left (x : Context) : (x.without (x.scopes.length - x.unwindFloor)).scopes =
    if x.ancestors.isEmpty then x.scopes.getLast?.toList else [] := by
  unfold Context.without Context.unwindFloor
  dsimp only
  split
  · rcases List.eq_nil_or_concat x.scopes with hs | ⟨above, s, hs⟩
    · rw [hs]
      rfl
    · simp [hs]
  · simp

theorem unhandled_raise (hc : c < w.contexts.size) (hk : (w.context c).killer = none)
    (hp : (w.context c).parent? ≠ some c)
    (hn : ∀ s ∈ (w.context c).scopes, s.handlerFor? f.name = none) :
    Unhandled w c f (w.raise c f) := by
  obtain ⟨x, hdef⟩ : ∃ x, (w.context c).without
      ((w.context c).scopes.length - (w.context c).unwindFloor) = x := ⟨_, rfl⟩
  have hx := hdef ▸ Context.unwind_unhandled hn
  have hv := felled hc hk hx
  have hsig := (signals_kill (w.modifyContext c fun _ => x) c f).trans
    (signals_setRunState _ c .failed)
  have hsize : (w.fallen c f x).contexts.size = w.contexts.size :=
    hsig.size.trans (contexts_size_modifyContext ..)
  have hscopes : ((w.fallen c f x).context c).scopes =
      if (w.context c).ancestors.isEmpty then (w.context c).scopes.getLast?.toList else [] := by
    rw [context_fallen, seen_self _ hc, ← scopes_left, hdef]
    exact Context.notified_congr Context.scopes fun _ _ _ => rfl
  have hsessions : (w.fallen c f x).sessions = w.sessions := hsig.sessions
  have hraise := raise_fallen hc hk hx
  have hresult : w.raise c f =
      let x := (w.context c).without ((w.context c).scopes.length - (w.context c).unwindFloor)
      match (w.context c).parent? with
      | some p => ((w.fallen c f x).escalate p f, some (.escalated f))
      | none => (w.fallen c f x, some (.failed f)) := by
    rw [hdef]
    exact hraise
  generalize w.fallen c f x = v at hv hsize hscopes hsessions hraise
  rcases hpar : (w.context c).parent? with _ | p
  · have hroot : (w.context c).ancestors = [] := List.head?_eq_none_iff.1 hpar
    have hrun : (w.raise c f).1 = v := by rw [hraise, hpar]
    rw [if_pos (List.isEmpty_iff.2 hroot)] at hscopes
    exact {
      result := hresult
      child := fun p h => by
        rw [hpar] at h
        cases h
      root := fun _ => by rw [hrun, hscopes]
      killer := by rw [hrun, hv.killer]
      runState := by rw [hrun, hv.runState]
      parent := fun p h => by
        rw [hpar] at h
        cases h
      others := fun d hd _ => by rw [hrun, hv.others d hd]
      sessions := by rw [hrun, hsessions] }
  · have hchild : ¬(w.context c).ancestors.isEmpty = true := fun he => by
      simp [Context.parent?, List.isEmpty_iff.1 he] at hpar
    have hne : c ≠ p := fun he => hp (he ▸ hpar)
    have hrun : (w.raise c f).1 = v.escalate p f := by rw [hraise, hpar]
    have hother : ∀ d, d ≠ p → (v.escalate p f).context d = v.context d := fun d hd =>
      (context_escalate _ p d f).trans (seen_of_ne _ hd)
    rw [if_neg hchild] at hscopes
    exact {
      result := hresult
      child := fun _ _ => by rw [hrun, hother c hne, hscopes]
      root := fun h => by
        rw [hpar] at h
        cases h
      killer := by rw [hrun, hother c hne, hv.killer]
      runState := by rw [hrun, hother c hne, hv.runState]
      parent := fun q hq hlt => by
        have hqp : p = q := Option.some.inj (hpar.symm.trans hq)
        have hlt' : q < v.contexts.size := by
          rw [hsize]
          exact hlt
        rw [hrun, hqp, context_escalate, seen_self _ hlt', hv.others q (hqp ▸ hne.symm)]
      others := fun d hd hdp => by
        have hdq : d ≠ p := fun he => hdp (he ▸ hpar)
        rw [hrun, hother d hdq, hv.others d hd]
      sessions := by rw [hrun, (signals_escalate v p f).sessions, hsessions] }

/-- The search for a handler ends, and scopes of other contexts are neither looked at nor changed. -/
theorem raise_resolved (hc : c < w.contexts.size) (hk : (w.context c).killer = none)
    (hp : (w.context c).parent? ≠ some c) (f : Fault) :
    (∀ n, (w.context c).scopes.length < n → raiseBy c f n w = some (w.raise c f)) ∧
    (∀ above s below h, (w.context c).scopes = above ++ s :: below →
      (∀ a ∈ above, a.handlerFor? f.name = none) → s.handlerFor? f.name = some h →
      Handled w c f above s below h (w.raise c f)) ∧
    ((∀ s ∈ (w.context c).scopes, s.handlerFor? f.name = none) →
      Unhandled w c f (w.raise c f)) ∧
    ∀ d ss, d ≠ c →
      (w.withScopes d ss).raise c f = ((w.raise c f).1.withScopes d ss, (w.raise c f).2) :=
  ⟨fun n hn => raiseBy_eq n hc hn, fun _ _ _ _ hs ha hh => handled_raise hs ha hh,
    unhandled_raise hc hk hp, fun _ ss hd => withScopes_raise hc hk hd f ss⟩

def charging : World where
  sessions := #[{ id := "shop" }]
  contexts := #[
    { label := "order", session := 0, sliceBudget := 2, saved := [[]]
      scopes := [{ id := "receipt" },
        { id := "main", handlers := [("declined", ⟨0, .noop "refund"⟩)] }] },
    { label := "charge", session := 0, ancestors := [0], sliceBudget := 2, saved := [[]]
      scopes := [{ id := "card" }] }]
  history := #[.installed .handler ⟨0, .noop "refund"⟩]

theorem refund_found :
    Unhandled charging 1 ⟨"declined", none, .null⟩ (charging.raise 1 ⟨"declined", none, .null⟩) ∧
    Handled charging 0 ⟨"declined", none, .null⟩ [{ id := "receipt" }]
      { id := "main", handlers := [("declined", ⟨0, .noop "refund"⟩)] } [] ⟨0, .noop "refund"⟩
      (charging.raise 0 ⟨"declined", none, .null⟩) := by
  have hcharge := raise_resolved (w := charging) (c := 1) (by decide) rfl (by decide)
    ⟨"declined", none, .null⟩
  have horder := raise_resolved (w := charging) (c := 0) (by decide) rfl (by decide)
    ⟨"declined", none, .null⟩
  refine ⟨hcharge.2.2.1 fun s hs => ?_, horder.2.1 _ _ _ _ rfl (fun s hs => ?_) rfl⟩
  · cases hs with
    | head => rfl
    | tail _ hs => cases hs
  · cases hs with
    | head => rfl
    | tail _ hs => cases hs

end World

end SagaEngine
