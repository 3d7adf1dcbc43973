import SagaEngine.Proofs.Placement
import SagaEngine.Proofs.Tally

/-! Installations are linear. Wherever merges take it, a handler or a compensation is in one slot of one
scope at most, and what has been given out for good is never found again. -/

namespace SagaEngine

/-- A name in one of the tables of a scope, which is told by its depth in the stack. -/
structure Slot where
  context : ContextId
  depth : Nat
  role : Role
  name : String

def Event.catches (n : Nat) : Event → Bool
  | .caught _ _ x => x.serial == n
  | _ => false

def Event.isCaught : Event → Bool
  | .caught _ _ _ => true
  | _ => false

def Event.installsHandler : Event → Bool
  | .installed .handler _ => true
  | _ => false

def numbered (n : Nat) (_ : Role) (x : Installed) : Bool := x.serial == n

namespace World

variable {w w' w'' : World} {raw : Prop} {admits : World → Prop}

def slot (w : World) (p : Slot) : Option Installed :=
  ((w.context p.context).scopes[p.depth]?).bind fun s => (s.table p.role).get? p.name

/-! ## What the steps do -/

structure Idle (w w' : World) : Prop where
  tally : ∀ p, w'.tally p ≤ w.tally p
  history : ∃ es, w'.history.toList = w.history.toList ++ es ∧ ∀ e ∈ es, e.isUse = false

namespace Idle

theorem refl (w : World) : Idle w w := ⟨fun _ => Nat.le_refl _, [], by simp, by simp⟩

theorem trans (h : Idle w w') (h' : Idle w' w'') : Idle w w'' where
  tally p := Nat.le_trans (h'.tally p) (h.tally p)
  history := by
    obtain ⟨es, he, hes⟩ := h.history
    obtain ⟨es', he', hes'⟩ := h'.history
    refine ⟨es ++ es', by rw [he', he, List.append_assoc], fun e h => ?_⟩
    exact (List.mem_append.1 h).elim (hes e) (hes' e)

theorem of_contexts (hc : w'.contexts = w.contexts) (hh : w'.history = w.history) : Idle w w' where
  tally p := Nat.le_of_eq (by simp only [World.tally, hc])
  history := ⟨[], by simp [hh], by simp⟩

theorem modifyContext (w : World) (c : ContextId) {f : Context → Context}
    (h : ∀ p, (f (w.context c)).tally p ≤ (w.context c).tally p) : Idle w (w.modifyContext c f) where
  tally p := tally_modifyContext_le f (h p)
  history := ⟨[], by simp [World.modifyContext], by simp⟩

theorem addContext (w : World) {x : Context} (h : ∀ p, x.tally p = 0) :
    Idle w (w.addContext x).2 where
  tally p := by
    rw [tally_addContext, h p]
    exact Nat.le_refl _
  history := ⟨[], by simp [World.addContext], by simp⟩

theorem record (w : World) {e : Event} (h : e.isUse = false) : Idle w (w.record e) where
  tally _ := Nat.le_refl _
  history := ⟨[e], by simp [World.record], by simpa using h⟩

theorem list (w : World) (c : ContextId) : Idle w (w.list c) := by
  unfold World.list
  split
  · exact .refl w
  · exact of_contexts rfl rfl

theorem setTask (w : World) (t : TaskId) (task : Task) : Idle w (w.setTask t task) :=
  of_contexts rfl rfl

theorem popScope (w : World) (c : ContextId) (merge : Bool) (marker : Option String) :
    Idle w (w.popScope c merge marker).1 where
  tally p := tally_popScope w c merge marker
  history := ⟨[], by simp [history_popScope], by simp⟩

end Idle

theorem Signals.idle (h : Signals w w') : Idle w w' where
  tally p := Nat.le_of_eq (tally_congr h.size h.scopes)
  history := ⟨[], by simp [h.history], by simp⟩

theorem Posts.idle (h : Posts w w') : Idle w w' where
  tally p := Nat.le_of_eq (tally_congr (by rw [h.contexts]) fun c => by rw [h.context])
  history := by
    obtain ⟨es, he, hes⟩ := h.history
    exact ⟨es, he, fun e h => isUse_of_isWork (hes e h)⟩

/-- What one step does to installations: nothing, a new one, or a handler that a fault is given. -/
inductive Moved (w w' : World) : Prop where
  | idle : Idle w w' → Moved w w'
  | installed (r : Role) (x : Installed) :
      x.serial = w.history.size → w'.history = w.history.push (.installed r x) →
      (∀ p, w'.tally p ≤ w.tally p + if p r x then 1 else 0) → Moved w w'
  | caught (c : ContextId) (f : Fault) (x : Installed) :
      w'.history = w.history.push (.caught c f x) →
      (∀ p, (w'.tally p + if p .handler x then 1 else 0) ≤ w.tally p) → Moved w w'

theorem moved_install (w : World) (c : ContextId) (r : Role) (k : Continuation)
    {put : Installed → Scope Installed → Scope Installed}
    (hput : ∀ p x s, (put x s).tally p ≤ s.tally p + if p r x then 1 else 0) :
    Moved w (w.install c r k put).1 := by
  have ht : ∀ p, (w.updateScope c fun s => ((), put ⟨w.history.size, k⟩ s)).1.tally p ≤
      w.tally p + if p r ⟨w.history.size, k⟩ then 1 else 0 :=
    fun p => tally_updateScope fun s => hput p _ s
  unfold install
  dsimp only
  rcases updateScope_cases w c fun s => ((), put ⟨w.history.size, k⟩ s) with
    ⟨o, s, below, -, hs, hu⟩ | hu
  · rw [hu] at ht ⊢
    exact .installed r ⟨w.history.size, k⟩ rfl rfl ht
  · rw [hu]
    exact .idle (.refl w)

theorem idle_updateScope {α : Type} (w : World) (c : ContextId)
    {f : Scope Installed → α × Scope Installed} (h : ∀ p s, (f s).2.tally p ≤ s.tally p) :
    Idle w (w.updateScope c f).1 where
  tally p := tally_updateScope (n := 0) (h p)
  history := ⟨[], by simp [history_updateScope], by simp⟩

theorem Edit.moved (e : Edit w w') : Moved w w' := by
  cases e with
  | data c f => exact .idle (.of_contexts rfl rfl)
  | mention ops => exact .idle (.of_contexts rfl rfl)
  | list c hc => exact .idle (.list w c)
  | pushScope c id marker =>
    refine .idle (.modifyContext w c fun p => ?_)
    simp [Context.pushScope, Context.tally, Scope.tally]
  | popScope c merge marker => exact .idle (.popScope w c merge marker)
  | installHandler c fault k =>
    exact moved_install w c .handler k fun p x s => s.tally_installHandler fault
  | installCompensation c k =>
    exact moved_install w c .compensation k fun p x s => s.tally_installCompensation
  | lookupHandler c fault erase =>
    exact .idle (idle_updateScope w c fun p s => s.tally_lookup fault erase)
  | takeCompensation c id =>
    exact .idle (idle_updateScope w c fun p s => s.tally_takeCompensation id)
  | executeNext c ks => exact .idle (.modifyContext w c fun p => Nat.le_refl _)
  | popNext c =>
    refine .idle (.modifyContext w c fun p => Nat.le_of_eq ?_)
    unfold Context.nextContinuation Context.tally
    split <;> rfl
  | discard c => exact .idle (.modifyContext w c fun p => Nat.le_refl _)
  | pause c requested => exact .idle (.modifyContext w c fun p => Nat.le_refl _)

theorem Call.moved (k : Call raw w w') : Moved w w' := by
  cases k with
  | edit e => exact e.moved
  | kill c f => exact .idle (signals_kill w c f).idle
  | clearKill c => exact .idle (signals_clearKill w c).idle
  | root label session scope budget k =>
    have ho : Idle w (w.openSession session).2 := by
      unfold openSession
      split <;> exact .of_contexts rfl rfl
    generalize w.openSession session = r at ho
    have ha := Idle.addContext r.2 (x :=
      { label := r.2.freshLabel label, session := r.1, sliceBudget := budget,
        scopes := [{ id := scope }], pending := k.toList }) fun p => rfl
    exact .idle ((ho.trans ha).trans (.list _ _))
  | child p label k hp => exact .idle (.addContext w fun p => rfl)
  | start c hc =>
    unfold World.start
    dsimp only
    split
    · rename_i p _
      have hp := signals_addChild w p
      exact .idle (hp.idle.trans (.of_contexts rfl rfl))
    · exact .idle (.of_contexts rfl rfl)
  | drive c budget hc => exact .idle (.of_contexts rfl rfl)
  | newHandle name => exact .idle (posts_nameNewHandle w name).idle
  | dropHandle name => exact .idle (posts_dropHandle w name).idle
  | register c i => exact .idle (signals_cancelIfKilled w c i).idle
  | cancel i => exact .idle (signals_cancelHandle w i).idle
  | deliver c op v hc => exact .idle ((posts_newLetter w op v).trans (posts_deliver _ _ _)).idle
  | receiver c tag ops hc => exact .idle (.of_contexts rfl rfl)
  | requeue c op v hr hc => exact .idle ((posts_newLetter w op v).trans (posts_requeue _ _ _)).idle
  | request c slot ops hr hc => exact .idle (posts_requestInto w c slot ops).idle
  | dropWait slot i hr hi =>
    exact .idle ((posts_closeWait w i).trans (posts_forgetWait _ slot)).idle
  | await slot i hr hi =>
    exact .idle ((posts_forgetWait w slot).idle.trans (.of_contexts rfl rfl))

theorem idle_beginReceive {c : ContextId} {ops : List String} {i : WaitId}
    (h : w.beginReceive c ops = .ok (i, w')) : Idle w w' := by
  have hr := (posts_request w (w.context c).session ops).idle
  unfold beginReceive at h
  split at h
  · cases h
  · dsimp only at h
    split at h
    · cases h
      exact hr.trans (signals_cancelIfKilled _ c _).idle
    · cases h
      exact hr

theorem tally_caught {p : Role → Installed → Bool} {c : ContextId} (f : Fault) {h : Installed}
    {x : Context} (hx : (w.context c).unwind f.name = (some h, x)) :
    ((((w.modifyContext c fun _ => x).modifyContext c fun x =>
      x.discardPending.executeNext [h.continuation]).record (.caught c f h)).tally p +
      if p .handler h then 1 else 0) ≤ w.tally p := by
  obtain ⟨above, s, below, hsplit, -⟩ := Context.unwindFrom_some hx
  have hc : c < w.contexts.size := context_lt (s := s) (by simp [hsplit])
  have hn := tally_modifyContext (p := p) hc fun _ => x.discardPending.executeNext [h.continuation]
  have hu := Context.tally_unwind_some (p := p) hx
  rw [modifyContext_modifyContext]
  change ((w.modifyContext c fun _ => x.discardPending.executeNext [h.continuation]).tally p +
    if p .handler h then 1 else 0) ≤ w.tally p
  change _ = w.tally p + x.tally p at hn
  omega

theorem Work.moved (e : Work w w') : Moved w w' := by
  cases e with
  | note e he => exact .idle (.record w (by cases e <;> first | rfl | cases he))
  | list c hc => exact .idle (.list w c)
  | popNext c hp => exact .idle (.modifyContext w c fun p => Nat.le_refl _)
  | unpause c => exact .idle (.modifyContext w c fun p => Nat.le_refl _)
  | abandon c fault hx =>
    exact .idle (.modifyContext w c fun p => Context.tally_unwind_none hx)
  | caught c f hx => exact .caught c f _ rfl fun p => tally_caught f hx

theorem Effect.moved (e : Effect w w') : Moved w w' := by
  cases e with
  | work e => exact e.moved
  | takeEscalated c => exact .idle (signals_takeEscalated w c).idle
  | takePermit c => exact .idle (signals_takePermit w c).idle
  | runState c s => exact .idle (signals_setRunState w c s).idle
  | kill c f => exact .idle (signals_kill w c f).idle
  | escalate c f => exact .idle (signals_escalate w c f).idle
  | pick t => exact .idle (.of_contexts rfl rfl)
  | goto => exact .idle (.of_contexts rfl rfl)
  | yield => exact .idle (.of_contexts rfl rfl)
  | @park t l =>
    have hs := signals_idle w l.context t
    exact .idle (hs.idle.trans (.of_contexts rfl rfl))
  | @finish t l o =>
    have hs : Idle w (w.setLoop t { l with point := .ended o }).suspend := .of_contexts rfl rfl
    unfold endLoop
    dsimp only
    split
    · exact .idle (hs.trans (signals_childFinished _ _).idle)
    · exact .idle hs
  | halt => exact .idle (.of_contexts rfl rfl)
  | receive rest' receipt ops hr hb => exact .idle ((idle_beginReceive hb).trans (.setTask ..))
  | @resume t l frame rest i _ r rest' =>
    exact .idle ((Idle.setTask w t _).trans (posts_endReceive _ l.context i r).idle)
  | @sleep t task i =>
    unfold sleepOn
    split <;> exact .idle (.of_contexts rfl rfl)
  | beginReceipt hc ht hb => exact .idle ((idle_beginReceive hb).trans (.setTask ..))
  | refuse => exact .idle (.of_contexts rfl rfl)
  | @endReceipt t c tag i r =>
    have hr := posts_record (w.endReceive c i r).1 (e := .received tag (w.endReceive c i r).2) rfl
    exact .idle (((posts_endReceive w c i r).trans hr).idle.trans (.of_contexts rfl rfl))
  | @endAwait t slot i r =>
    have hr := posts_record (w.closeWait i).2 (e := .awaited slot r) rfl
    exact .idle (((posts_closeWait w i).trans hr).idle.trans (.of_contexts rfl rfl))

/-! ## The invariant -/

/-- Every installation is recorded, and held by one slot or used by one fault, or neither. -/
structure Linear (w : World) : Prop where
  once : ∀ n, w.history.countP (Event.catches n) + w.tally (numbered n) ≤ 1
  recorded : ∀ p, 0 < w.tally p →
    ∃ r x, p r x = true ∧ w.history[x.serial]? = some (.installed r x)
  fresh : ∀ n, w.history.size ≤ n → w.history.countP (Event.catches n) = 0
  counted : w.history.countP Event.isCaught + w.tally (fun r _ => r == .handler) ≤
    w.history.countP Event.installsHandler

theorem Moved.history (h : Moved w w') : ∃ es, w'.history.toList = w.history.toList ++ es := by
  cases h with
  | idle h =>
    obtain ⟨es, he, -⟩ := h.history
    exact ⟨es, he⟩
  | installed r x hx hh ht => exact ⟨[.installed r x], by simp [hh]⟩
  | caught c f x hh ht => exact ⟨[.caught c f x], by simp [hh]⟩

theorem Moved.recorded (h : Moved w w') {n : Nat} {e : Event} (he : w.history[n]? = some e) :
    w'.history[n]? = some e := by
  obtain ⟨es, hes⟩ := h.history
  rw [← Array.getElem?_toList] at he ⊢
  rw [hes, List.getElem?_append_left (List.getElem?_eq_some_iff.1 he).1, he]

theorem Moved.size_le (h : Moved w w') : w.history.size ≤ w'.history.size := by
  obtain ⟨es, hes⟩ := h.history
  have hl := congrArg List.length hes
  simp only [Array.length_toList, List.length_append] at hl
  omega

theorem Idle.countP {q : Event → Bool} (hq : ∀ e, e.isUse = false → q e = false)
    (h : Idle w w') : w'.history.countP q = w.history.countP q := by
  obtain ⟨es, he, hes⟩ := h.history
  rw [← Array.countP_toList, ← Array.countP_toList, he, List.countP_append]
  have h0 : es.countP q = 0 := List.countP_eq_zero.2 fun e hm => by simp [hq e (hes e hm)]
  omega

theorem isUse_of_catches {n : Nat} (e : Event) (h : e.isUse = false) : e.catches n = false := by
  cases e <;> first | rfl | cases h

namespace Linear

theorem empty : Linear {} where
  once n := by simp [tally]
  recorded p hp := by simp [tally] at hp
  fresh n _ := by simp
  counted := by simp [tally]

theorem unheld (h : Linear w) {n : Nat} (hn : w.history.size ≤ n) : w.tally (numbered n) = 0 := by
  refine Nat.eq_zero_of_not_pos fun hp => ?_
  obtain ⟨r, x, hx, hr⟩ := h.recorded _ hp
  have hs : x.serial = n := by simpa [numbered] using hx
  have hlt := (Array.getElem?_eq_some_iff.1 hr).1
  omega

theorem recorded_moved (h : Linear w) (m : Moved w w') {p : Role → Installed → Bool}
    (hp : 0 < w.tally p) :
    ∃ r x, p r x = true ∧ w'.history[x.serial]? = some (.installed r x) := by
  obtain ⟨r, x, hx, hr⟩ := h.recorded p hp
  exact ⟨r, x, hx, m.recorded hr⟩

theorem idle (h : Linear w) (i : Idle w w') : Linear w' := by
  have hcatches := fun n => i.countP (q := Event.catches n) isUse_of_catches
  refine ⟨fun n => ?_, fun p hp => ?_, fun n hn => ?_, ?_⟩
  · have ho := h.once n
    have ht := i.tally (numbered n)
    rw [hcatches]
    omega
  · exact h.recorded_moved (.idle i) (Nat.lt_of_lt_of_le hp (i.tally p))
  · rw [hcatches]
    exact h.fresh n (Nat.le_trans (Moved.idle i).size_le hn)
  · have hcaught := i.countP (q := Event.isCaught) fun e he => by
      cases e <;> first | rfl | cases he
    have hinst := i.countP (q := Event.installsHandler) fun e he => by
      cases e <;> first | rfl | cases he
    have hc := h.counted
    have ht := i.tally fun r _ => r == .handler
    rw [hcaught, hinst]
    omega

theorem installed (h : Linear w) {r : Role} {x : Installed} (hx : x.serial = w.history.size)
    (hh : w'.history = w.history.push (.installed r x))
    (ht : ∀ p, w'.tally p ≤ w.tally p + if p r x then 1 else 0) : Linear w' := by
  have hcatches : ∀ n, w'.history.countP (Event.catches n) = w.history.countP (Event.catches n) := by
    intro n
    simp [hh, Event.catches]
  refine ⟨fun n => ?_, fun p hp => ?_, fun n hn => ?_, ?_⟩
  · have ho := h.once n
    have hn := ht (numbered n)
    rw [hcatches]
    by_cases hxn : x.serial = n
    · -- a new number, which nothing has had before
      have hsize : w.history.size ≤ n := Nat.le_of_eq (hx.symm.trans hxn)
      have h0 := h.unheld hsize
      have h1 := h.fresh n hsize
      split at hn <;> omega
    · rw [if_neg (by simpa [numbered] using hxn)] at hn
      omega
  · by_cases hpx : p r x = true
    · exact ⟨r, x, hpx, by simp [hh, hx]⟩
    · have hle := ht p
      rw [if_neg hpx] at hle
      exact h.recorded_moved (.installed r x hx hh ht) (by omega)
  · rw [hcatches]
    rw [hh, Array.size_push] at hn
    exact h.fresh n (by omega)
  · have hc := h.counted
    have hle := ht fun r _ => r == .handler
    have hcaught : w'.history.countP Event.isCaught = w.history.countP Event.isCaught := by
      simp [hh, Event.isCaught]
    have hinst : w'.history.countP Event.installsHandler =
        w.history.countP Event.installsHandler + if r == .handler then 1 else 0 := by
      rw [hh, Array.countP_push]
      cases r <;> rfl
    omega

theorem caught (h : Linear w) {c : ContextId} {f : Fault} {x : Installed}
    (hh : w'.history = w.history.push (.caught c f x))
    (ht : ∀ p, (w'.tally p + if p .handler x then 1 else 0) ≤ w.tally p) : Linear w' := by
  have hcatches : ∀ n, w'.history.countP (Event.catches n) =
      w.history.countP (Event.catches n) + if numbered n .handler x then 1 else 0 := by
    intro n
    rw [hh, Array.countP_push]
    rfl
  refine ⟨fun n => ?_, fun p hp => ?_, fun n hn => ?_, ?_⟩
  · have ho := h.once n
    have hle := ht (numbered n)
    rw [hcatches]
    omega
  · have hle := ht p
    exact h.recorded_moved (.caught c f x hh ht) (by omega)
  · rw [hh, Array.size_push] at hn
    have h0 := h.unheld (n := n) (by omega)
    have h1 := h.fresh n (by omega)
    have hle := ht (numbered n)
    rw [hcatches]
    omega
  · have hc := h.counted
    have hle := ht fun r _ => r == .handler
    have hcaught : w'.history.countP Event.isCaught = w.history.countP Event.isCaught + 1 := by
      rw [hh, Array.countP_push]
      rfl
    have hinst : w'.history.countP Event.installsHandler =
        w.history.countP Event.installsHandler := by
      simp [hh, Event.installsHandler]
    rw [if_pos (by rfl)] at hle
    omega

theorem moved (h : Linear w) (m : Moved w w') : Linear w' := by
  cases m with
  | idle i => exact h.idle i
  | installed r x hx hh ht => exact h.installed hx hh ht
  | caught c f x hh ht => exact h.caught hh ht

end Linear

def Gone (n : Nat) (w : World) : Prop := n < w.history.size ∧ w.tally (numbered n) = 0

theorem Gone.moved {n : Nat} (h : Gone n w) (m : Moved w w') : Gone n w' := by
  refine ⟨Nat.lt_of_lt_of_le h.1 m.size_le, ?_⟩
  have h0 := h.2
  cases m with
  | idle i =>
    have hle := i.tally (numbered n)
    omega
  | installed r x hx hh ht =>
    -- a new installation has a new number
    have hle := ht (numbered n)
    have hlt := h.1
    rw [if_neg (by simp [numbered]; omega)] at hle
    omega
  | caught c f x hh ht =>
    have hle := ht (numbered n)
    omega

/-! ## Slots and lookups -/

theorem slot_of_mem {c : ContextId} {s : Scope Installed} {x : Installed}
    (hs : s ∈ (w.context c).scopes) (r : Role) {name : String}
    (hx : (s.table r).get? name = some x) : ∃ p, w.slot p = some x := by
  obtain ⟨i, hi⟩ := List.mem_iff_getElem?.1 hs
  exact ⟨⟨c, i, r, name⟩, by simp [slot, hi, hx]⟩

theorem slot_some {p : Slot} {x : Installed} (h : w.slot p = some x) :
    ∃ s, (w.context p.context).scopes[p.depth]? = some s ∧ (s.table p.role).get? p.name = some x :=
  Option.bind_eq_some_iff.1 h

theorem slot_tally {p : Slot} {x : Installed} (h : w.slot p = some x)
    {q : Role → Installed → Bool} (hq : q p.role x = true) :
    0 < (w.context p.context).tally q ∧ 0 < w.tally q := by
  obtain ⟨s, hs, hx⟩ := slot_some h
  have hc : 0 < (w.context p.context).tally q :=
    Nat.lt_of_lt_of_le (Scope.tally_pos hx hq) (le_sum _ hs)
  have hlt : p.context < w.contexts.size := context_lt (List.mem_of_getElem? hs)
  exact ⟨hc, Nat.lt_of_lt_of_le hc (le_sum _ (context_getElem hlt))⟩

theorem slot_unique {q : Role → Installed → Bool} (h : w.tally q ≤ 1) {p p' : Slot} {x x' : Installed}
    (hx : w.slot p = some x) (hx' : w.slot p' = some x') (hq : q p.role x = true)
    (hq' : q p'.role x' = true) : p = p' := by
  obtain ⟨s, hs, hn⟩ := slot_some hx
  obtain ⟨s', hs', hn'⟩ := slot_some hx'
  have hlt : p.context < w.contexts.size := context_lt (List.mem_of_getElem? hs)
  have hlt' : p'.context < w.contexts.size := context_lt (List.mem_of_getElem? hs')
  obtain ⟨c, d, r, n⟩ := p
  obtain ⟨c', d', r', n'⟩ := p'
  dsimp only at *
  obtain rfl : c = c' := index_unique_of_sum _ h (context_getElem hlt) (context_getElem hlt')
    (slot_tally hx hq).1 (slot_tally hx' hq').1
  have hc : (w.context c).tally q ≤ 1 := Nat.le_trans (le_sum _ (context_getElem hlt)) h
  obtain rfl : d = d' := index_unique_of_sum _ hc hs hs' (Scope.tally_pos hn hq) (Scope.tally_pos hn' hq')
  obtain rfl : s = s' := Option.some.inj (hs.symm.trans hs')
  have ht : s.tally q ≤ 1 := Nat.le_trans (le_sum _ hs) hc
  obtain ⟨rfl, rfl⟩ := Scope.name_unique ht hn hn' hq hq'
  rfl

inductive Finds (w : World) (x : Installed) : Prop where
  | handler (c : ContextId) (fault : String) (erase : Bool) :
      (w.lookupHandler c fault erase).2 = .ok (some x) → Finds w x
  | own (c : ContextId) : w.ownCompensation c = .ok (some x) → Finds w x
  | compensation (c : ContextId) (id : String) :
      (w.takeCompensation c id).2 = .ok (some x) → Finds w x
  | unwind (c : ContextId) (fault : String) :
      ((w.context c).unwind fault).1 = some x → Finds w x

inductive Takes (w : World) (x : Installed) : World → Prop where
  | handler (c : ContextId) (fault : String) :
      (w.lookupHandler c fault true).2 = .ok (some x) →
      Takes w x (w.lookupHandler c fault true).1
  | compensation (c : ContextId) (id : String) :
      (w.takeCompensation c id).2 = .ok (some x) → Takes w x (w.takeCompensation c id).1
  | raise (c : ContextId) (f : Fault) :
      ((w.context c).unwind f.name).1 = some x → Takes w x (w.raise c f).1

theorem updateScope_ok {α : Type} {c : ContextId} {f : Scope Installed → α × Scope Installed} {a : α}
    (h : (w.updateScope c f).2 = .ok a) :
    ∃ o s, s ∈ (w.context o).scopes ∧ (f s).1 = a := by
  rcases updateScope_cases w c f with ⟨o, s, below, -, hs, hu⟩ | hu
  · rw [hu] at h
    exact ⟨o, s, by simp [hs], Except.ok.inj h⟩
  · rw [hu] at h
    cases h

theorem Finds.slot {x : Installed} (h : Finds w x) : ∃ p, w.slot p = some x := by
  have hhandler : ∀ {c : ContextId} {s : Scope Installed} {fault : String},
      s ∈ (w.context c).scopes → s.handlerFor? fault = some x → ∃ p, w.slot p = some x := by
    intro c s fault hs hf
    obtain ⟨name, hx⟩ := Scope.handlerFor_some hf
    exact slot_of_mem hs .handler hx
  cases h with
  | handler c fault erase h =>
    obtain ⟨o, s, hs, hx⟩ := updateScope_ok h
    have hf : s.handlerFor? fault = some x := by
      unfold Scope.lookup at hx
      split at hx
      · exact (s.takeHandler_fst fault).symm.trans hx
      · exact (s.handler_eq fault).symm.trans hx
    exact hhandler hs hf
  | own c h =>
    unfold ownCompensation readScope at h
    split at h
    · rename_i s hs
      obtain ⟨o, -, ho⟩ := Option.bind_eq_some_iff.1 hs
      exact slot_of_mem (List.mem_of_mem_head? ho) .compensation (Except.ok.inj h)
    · cases h
  | compensation c id h =>
    obtain ⟨o, s, hs, hx⟩ := updateScope_ok h
    exact slot_of_mem hs .compensation hx
  | unwind c fault h =>
    rcases hu : (w.context c).unwind fault with ⟨k, y⟩
    rw [hu] at h
    obtain rfl : k = some x := h
    obtain ⟨above, s, below, hsplit, -, hf, -⟩ := Context.unwindFrom_some hu
    exact hhandler (c := c) (by simp [hsplit]) hf

theorem Takes.tally {x : Installed} (h : Takes w x w') :
    Moved w w' ∧ ∃ r, ∀ p, (w'.tally p + if p r x then 1 else 0) ≤ w.tally p := by
  cases h with
  | handler c fault h =>
    refine ⟨(Edit.lookupHandler c fault true).moved, .handler, fun p => ?_⟩
    exact tally_updateScope_ok (fun s hs => s.tally_takeHandler_some hs) h
  | compensation c id h =>
    refine ⟨(Edit.takeCompensation c id).moved, .compensation, fun p => ?_⟩
    exact tally_updateScope_ok (fun s hs => s.tally_takeCompensation_some hs) h
  | raise c f h =>
    rcases hu : (w.context c).unwind f.name with ⟨k, y⟩
    rw [hu] at h
    obtain rfl : k = some x := h
    rw [raise_caught hu]
    exact ⟨(Work.caught c f hu).moved, .handler, fun p => tally_caught f hu⟩

theorem Takes.gone {x : Installed} (h : Takes w x w') (hw : Linear w) : Gone x.serial w' := by
  obtain ⟨hm, r, ht⟩ := h.tally
  have hle := ht (numbered x.serial)
  rw [if_pos (by simp [numbered])] at hle
  have ho := hw.once x.serial
  refine ⟨Nat.lt_of_not_le fun hn => ?_, by omega⟩
  have h0 := hw.unheld (Nat.le_trans hm.size_le hn)
  omega

theorem Finds.not_gone {x : Installed} (h : Finds w x) : ¬ Gone x.serial w := by
  rintro ⟨-, h0⟩
  obtain ⟨p, hp⟩ := h.slot
  have hpos := (slot_tally hp (q := numbered x.serial) (by simp [numbered])).2
  omega

/-! ## Runs -/

abbrev Later (raw : Prop) (w w' : World) : Prop :=
  Relation.ReflTransGen (fun w w' => Call raw w w' ∨ Effect w w') w w'

theorem Reachable.later (h : Reachable raw admits w) : Later raw {} w := by
  induction h with
  | start => exact .refl
  | next h k _ ih =>
    rcases k.effects fun _ _ => h.placed.loop with ⟨-, k⟩ | k
    · exact ih.tail (.inl k)
    · exact ih.trans (Relation.ReflTransGen.mono (fun _ _ e => Or.inr e) _ _ k)

theorem later_keeps {P : World → Prop} (hP : ∀ {w w' : World}, P w → Moved w w' → P w')
    (hw : P w) (h : Later raw w w') : P w' := by
  induction h with
  | refl => exact hw
  | tail _ k ih =>
    rcases k with k | e
    · exact hP ih k.moved
    · exact hP ih e.moved

theorem Linear.slot_recorded (h : Linear w) {p : Slot} {x : Installed} (hx : w.slot p = some x) :
    w.history[x.serial]? = some (.installed p.role x) := by
  classical
  have hpos := (slot_tally hx (q := fun r y => decide (r = p.role ∧ y = x)) (by simp)).2
  obtain ⟨r, y, hy, hr⟩ := h.recorded _ hpos
  obtain ⟨rfl, rfl⟩ := of_decide_eq_true hy
  exact hr

/-- Handlers and compensations fire at most once. -/
theorem Reachable.installations_linear {w₀ : World} (h : Reachable raw admits w₀)
    (hl : Later raw w₀ w) :
    (∀ p x, w.slot p = some x → w.history[x.serial]? = some (.installed p.role x)) ∧
    (∀ p p' x x', w.slot p = some x → w.slot p' = some x' → x.serial = x'.serial → p = p') ∧
    (∀ n, w.history.countP (Event.catches n) ≤ 1) ∧
    (∀ p x, w.slot p = some x → w.history.countP (Event.catches x.serial) = 0) ∧
    (∀ x w' w'' y, Takes w x w' → Later raw w' w'' → Finds w'' y → y.serial ≠ x.serial) ∧
    w.history.countP Event.isCaught ≤ w.history.countP Event.installsHandler := by
  have hw : Linear w := later_keeps (fun h m => h.moved m) .empty (h.later.trans hl)
  refine ⟨fun p x hx => hw.slot_recorded hx, ?_, ?_, ?_, ?_, ?_⟩
  · intro p p' x x' hx hx' hs
    -- two slots would count twice
    have ho := hw.once x.serial
    exact slot_unique (q := numbered x.serial) (by omega) hx hx' (by simp [numbered])
      (by simp [numbered, hs])
  · intro n
    have ho := hw.once n
    omega
  · intro p x hx
    have ho := hw.once x.serial
    have hpos := (slot_tally hx (q := numbered x.serial) (by simp [numbered])).2
    omega
  · intro x w' w'' y ht hl hf hs
    refine hf.not_gone ?_
    rw [hs]
    exact later_keeps (fun h m => h.moved m) (ht.gone hw) hl
  · have hc := hw.counted
    omega

theorem refund_spent : ∃ (w : World) (x : Installed) (w' : World),
    Reachable False (fun _ => True) w ∧ Takes w x w' ∧
    ∀ w'' y, Later False w' w'' → Finds w'' y → y.serial ≠ x.serial := by
  have h1 : Reachable False (fun _ => True) (rooted "order" "shop" "main" 1 none) :=
    .rooted _ _ _ _ _ trivial trivial
  have h2 := h1.next (.call (.inl rfl)
    (.edit (.installHandler 0 "declined" ⟨"refund", false, []⟩))) trivial
  have h3 := h2.next (.call (.inl rfl) (.child 0 "pay" none (by decide))) trivial
  obtain ⟨-, -, -, -, htaken, -⟩ := h3.installations_linear .refl
  exact ⟨_, ⟨0, "refund", false, []⟩, _, h3, .handler 1 "declined" rfl,
    fun w'' y hl hf => htaken _ _ w'' y (.handler 1 "declined" rfl) hl hf⟩

end World

end SagaEngine
