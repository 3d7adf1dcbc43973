import Mathlib.Algebra.Order.Group.Multiset
import SagaEngine.Proofs.Isolation
import SagaEngine.Proofs.Outcomes

/-! What becomes of the continuations that are queued in a context. The books of a context note what
was queued, and what was started, handed out, discarded, left behind or abandoned since; whatever is
missing there is still in one of the levels. With the books goes a list of the scopes that were pushed
and are still open. The levels that are set aside are those below these scopes, and no others. -/

namespace SagaEngine

/-- `pushed` has the scopes that are open, each with what was pending when it was entered. -/
structure OpenScopes where
  implicit : Option String := none
  pushed : List (String × List Continuation) := []

namespace OpenScopes

def ids (o : OpenScopes) : List String := o.pushed.map Prod.fst ++ o.implicit.toList

def aside (o : OpenScopes) : List (List Continuation) := o.pushed.map Prod.snd

def push (o : OpenScopes) (id : String) (ks : List Continuation) : OpenScopes :=
  { o with pushed := (id, ks) :: o.pushed }

def unwound (o : OpenScopes) (n : Nat) : OpenScopes := { o with pushed := o.pushed.drop n }

end OpenScopes

namespace Context

variable {x y : Context} {o : OpenScopes} {marker : Option String} {s : Scope Installed}
  {fault : String} {h : Option Installed}

def levels (x : Context) : List (List Continuation) := x.pending :: x.saved

def work (x : Context) : Multiset Continuation := ↑x.levels.flatten

structure Stays (x y : Context) : Prop where
  levels : y.levels = x.levels
  scopes : y.scopes.map Scope.id = x.scopes.map Scope.id
  ancestors : y.ancestors = x.ancestors

theorem Stays.refl (x : Context) : x.Stays x := ⟨rfl, rfl, rfl⟩

theorem Stays.trans {z : Context} (h : x.Stays y) (h' : y.Stays z) : x.Stays z where
  levels := h'.levels.trans h.levels
  scopes := h'.scopes.trans h.scopes
  ancestors := h'.ancestors.trans h.ancestors

theorem stays_of_still (h : y.still = x.still) : x.Stays y := by
  have hl : y.still.levels = x.still.levels := by rw [h]
  have hs : y.still.scopes = x.still.scopes := by rw [h]
  have ha : y.still.ancestors = x.still.ancestors := by rw [h]
  exact ⟨hl, congrArg (List.map Scope.id) hs, ha⟩

/-- The levels that are set aside are what was pending when the open scopes were pushed. -/
structure Opened (x : Context) (o : OpenScopes) : Prop where
  saved : x.saved = o.aside
  scopes : x.scopes.map Scope.id = o.ids
  implicit : x.ancestors ≠ [] → o.implicit = none

theorem Opened.stays (ho : x.Opened o) (hs : x.Stays y) : y.Opened o where
  saved := (List.cons.inj hs.levels).2.trans ho.saved
  scopes := hs.scopes.trans ho.scopes
  implicit := hs.ancestors ▸ ho.implicit

theorem popScope_of_scopes (marker : Option String) (h : x.scopes ≠ []) :
    ∃ s y, x.popScope? marker = some (s, y) := by
  unfold popScope?
  split
  · contradiction
  · exact ⟨_, _, rfl⟩

theorem scopes_of_popScope (h : x.popScope? marker = some (s, y)) : x.scopes ≠ [] := by
  intro hs
  simp [popScope?, hs] at h

theorem ancestors_popScope (h : x.popScope? marker = some (s, y)) : y.ancestors = x.ancestors := by
  change y.bare.ancestors = x.bare.ancestors
  rw [World.bare_popScope h]

theorem levels_popScope (h : x.popScope? marker = some (s, y)) :
    y.levels = match x.saved with
      | [] => x.levels
      | _ :: _ => x.saved := by
  unfold popScope? at h
  split at h
  · cases h
  · obtain ⟨-, rfl⟩ := Prod.mk.inj (Option.some.inj h)
    rcases hl : x.saved with _ | ⟨level, saved⟩
    · simp only [levels, hl]
    · rfl

theorem Opened.pop_pushed {id : String} {level : List Continuation}
    {pushed : List (String × List Continuation)} (ho : x.Opened o)
    (hp : o.pushed = (id, level) :: pushed) (hx : x.popScope? marker = some (s, y)) :
    x.levels = x.pending :: y.levels ∧ y.Opened { o with pushed } := by
  have hsaved : x.saved = level :: pushed.map Prod.snd := by
    rw [ho.saved, OpenScopes.aside, hp]
    rfl
  have hl := levels_popScope hx
  rw [hsaved] at hl
  have hids := ho.scopes
  rw [World.scopes_popScope hx, OpenScopes.ids, hp] at hids
  refine ⟨?_, (List.cons.inj hl).2, (List.cons.inj hids).2, ?_⟩
  · rw [hl, levels, hsaved]
  · rw [ancestors_popScope hx]
    exact ho.implicit

theorem Opened.pop_implicit (ho : x.Opened o) (hp : o.pushed = [])
    (hx : x.popScope? marker = some (s, y)) :
    y.levels = x.levels ∧ y.Opened { o with implicit := none } := by
  have hsaved : x.saved = [] := by
    rw [ho.saved, OpenScopes.aside, hp]
    rfl
  have hl := levels_popScope hx
  rw [hsaved] at hl
  have hids := ho.scopes
  rw [World.scopes_popScope hx, OpenScopes.ids, hp] at hids
  refine ⟨hl, ?_, ?_, fun _ => rfl⟩
  · rw [(List.cons.inj hl).2, hsaved, OpenScopes.aside, hp]
    rfl
  · -- there is but one implicit scope
    have hnil : y.scopes.map Scope.id = [] := by
      rcases hi : o.implicit with _ | i
      · rw [hi] at hids
        cases hids
      · rw [hi] at hids
        exact (List.cons.inj hids).2
    rw [hnil, OpenScopes.ids, hp]
    rfl

theorem Opened.pushed_of_floor (ho : x.Opened o) (hf : x.unwindFloor < x.scopes.length) :
    ∃ id level pushed, o.pushed = (id, level) :: pushed := by
  rcases hp : o.pushed with _ | ⟨⟨id, level⟩, pushed⟩
  · have hids := congrArg List.length ho.scopes
    rw [List.length_map, OpenScopes.ids, hp] at hids
    change x.scopes.length = o.implicit.toList.length at hids
    rw [hids] at hf
    unfold unwindFloor at hf
    split at hf
    · have hle := Option.length_toList_le (o := o.implicit)
      omega
    · rename_i ha
      rw [ho.implicit fun hn => ha (List.isEmpty_iff.2 hn)] at hf
      cases hf
  · exact ⟨id, level, pushed, rfl⟩

structure Abandons (x : Context) (o : OpenScopes) (y : Context) (k : Nat) : Prop where
  scopes : x.scopes.length = k + y.scopes.length
  levels : x.levels = x.levels.take k ++ y.levels
  opened : y.Opened (o.unwound k)

theorem Opened.abandons_none (ho : x.Opened o) (hs : x.Stays y) : x.Abandons o y 0 where
  scopes := by
    have hlen := congrArg List.length hs.scopes
    rw [List.length_map, List.length_map] at hlen
    rw [hlen, Nat.zero_add]
  levels := hs.levels.symm
  opened := ho.stays hs

theorem Opened.abandons_pop {z : Context} {id : String} {level : List Continuation}
    {pushed : List (String × List Continuation)} {k : Nat} (ho : x.Opened o)
    (hp : o.pushed = (id, level) :: pushed) (hz : x.popScope? marker = some (s, z))
    (h : z.Abandons { o with pushed } y k) : x.Abandons o y (k + 1) where
  scopes := by
    rw [World.scopes_popScope hz, List.length_cons, h.scopes]
    omega
  levels := by
    rw [(ho.pop_pushed hp hz).1, List.take_succ_cons, List.cons_append, ← h.levels]
  opened := by
    have hdrop : o.unwound (k + 1) = ({ o with pushed } : OpenScopes).unwound k := by
      unfold OpenScopes.unwound
      rw [hp]
      rfl
    rw [hdrop]
    exact h.opened

theorem Opened.unwindFrom {n : Nat} (ho : x.Opened o) (hx : unwindFrom fault n x = (h, y)) :
    ∃ k, x.Abandons o y k := by
  have hsame : ∀ {x : Context} {o : OpenScopes}, x.Opened o → ∃ k, x.Abandons o x k := fun ho =>
    ⟨0, ho.abandons_none (.refl _)⟩
  induction n generalizing x o with
  | zero =>
    obtain ⟨-, rfl⟩ := Prod.mk.inj hx
    exact hsame ho
  | succ n ih =>
    unfold Context.unwindFrom at hx
    split at hx
    · obtain ⟨-, rfl⟩ := Prod.mk.inj hx
      exact hsame ho
    · rename_i s below hs
      split at hx
      · rename_i k s' ht
        obtain ⟨-, rfl⟩ := Prod.mk.inj hx
        have hid : s'.id = s.id := by
          have hid := World.id_takeHandler s fault
          rwa [ht] at hid
        refine ⟨0, ho.abandons_none ⟨rfl, ?_, rfl⟩⟩
        rw [hs, List.map_cons, List.map_cons, hid]
      · split at hx
        · rename_i hf
          obtain ⟨id, level, pushed, hp⟩ := ho.pushed_of_floor hf
          split at hx
          · rename_i z hz
            obtain ⟨k, hk⟩ := ih (ho.pop_pushed hp hz).2 hx
            exact ⟨k + 1, ho.abandons_pop hp hz hk⟩
          · obtain ⟨-, rfl⟩ := Prod.mk.inj hx
            exact hsame ho
        · obtain ⟨-, rfl⟩ := Prod.mk.inj hx
          exact hsame ho

theorem Opened.unwind (ho : x.Opened o) (hx : { x with escalated := none }.unwind fault = (h, y)) :
    ∃ k, x.Abandons o y k := by
  have htaken : { x with escalated := none }.Opened o := ⟨ho.saved, ho.scopes, ho.implicit⟩
  obtain ⟨k, hk⟩ := htaken.unwindFrom hx
  exact ⟨k, hk.scopes, hk.levels, hk.opened⟩

end Context

/-- `handedOut` went to a caller, `left` was pending when its scope was left, `abandoned` gave way. -/
structure Ledger where
  queued : Multiset Continuation := 0
  started : Multiset Continuation := 0
  handedOut : Multiset Continuation := 0
  discarded : Multiset Continuation := 0
  left : Multiset Continuation := 0
  abandoned : Multiset Continuation := 0

namespace Ledger

def add (b e : Ledger) : Ledger where
  queued := b.queued + e.queued
  started := b.started + e.started
  handedOut := b.handedOut + e.handedOut
  discarded := b.discarded + e.discarded
  left := b.left + e.left
  abandoned := b.abandoned + e.abandoned

def spent (b : Ledger) : Multiset Continuation :=
  b.started + b.handedOut + b.discarded + b.left + b.abandoned

theorem spent_add (b e : Ledger) : (b.add e).spent = b.spent + e.spent := by
  simp only [spent, add]
  ac_rfl

end Ledger

def Event.startedIn? (c : ContextId) : Event → Option Continuation
  | .started d k => if d = c then some k else none
  | _ => none

namespace World

variable {w w' v : World} {raw : Prop} {admits : World → Prop} {t : TaskId} {l : Loop}
  {c d : ContextId} {b e : Ledger} {o o' : OpenScopes}

def starts (w : World) (c : ContextId) : List Continuation :=
  w.history.toList.filterMap (Event.startedIn? c)

/-- What one transition does with the continuations and the open scopes of context `c`. -/
inductive Entry (w : World) (c : ContextId) (o : OpenScopes) : World → Ledger → OpenScopes → Prop where
  | idle {w' : World} :
      (w.context c).Stays (w'.context c) → w'.starts c = w.starts c → Entry w c o w' {} o
  -- calls
  | created {w' : World} (k : Option Continuation) (i : Option String) :
      c = w.contexts.size → (w'.context c).levels = [k.toList] →
      (w'.context c).scopes.map Scope.id = i.toList → ((w'.context c).ancestors ≠ [] → i = none) →
      w'.starts c = w.starts c → Entry w c o w' { queued := ↑k.toList } { implicit := i }
  | queued (ks : List Continuation) :
      c < w.contexts.size →
      Entry w c o (w.modifyContext c fun x => x.executeNext ks) { queued := ↑ks } o
  | handedOut {k : Continuation} {rest : List Continuation} :
      c < w.contexts.size → (w.context c).pending = k :: rest →
      Entry w c o (w.modifyContext c fun _ => (w.context c).nextContinuation.2) { handedOut := {k} } o
  | discarded :
      c < w.contexts.size →
      Entry w c o (w.modifyContext c Context.discardPending)
        { discarded := ↑(w.context c).pending } o
  | entered (id : String) (marker : Option String) :
      c < w.contexts.size →
      Entry w c o (w.pushScope c id marker).2 {} (o.push id (w.context c).pending)
  | left (merge : Bool) (marker : Option String) {id : String} {level : List Continuation}
      {pushed : List (String × List Continuation)} :
      (w.context c).scopes ≠ [] → o.pushed = (id, level) :: pushed →
      Entry w c o (w.popScope c merge marker).1 { left := ↑(w.context c).pending } { o with pushed }
  | leftImplicit (merge : Bool) (marker : Option String) :
      (w.context c).scopes ≠ [] → o.pushed = [] →
      Entry w c o (w.popScope c merge marker).1 {} { o with implicit := none }
  -- the engine
  | started {w' : World} {k : Continuation} {rest : List Continuation} :
      (w.context c).pending = k :: rest →
      { w.context c with pending := rest }.Stays (w'.context c) →
      w'.starts c = w.starts c ++ [k] → Entry w c o w' { started := {k} } o
  | caught {w' : World} {f : Fault} {h : Installed} {x : Context} {n : Nat} :
      { w.context c with escalated := none }.unwind f.name = (some h, x) →
      (w.context c).scopes.length = n + x.scopes.length →
      { x with pending := [h.continuation] }.Stays (w'.context c) → w'.starts c = w.starts c →
      Entry w c o w'
        { queued := {h.continuation}
          abandoned := ↑(((w.context c).levels.take n).flatten ++ x.pending) } (o.unwound n)
  | fell {w' : World} {f : Fault} {x : Context} {n : Nat} :
      { w.context c with escalated := none }.unwind f.name = (none, x) →
      (w.context c).scopes.length = n + x.scopes.length →
      x.Stays (w'.context c) → w'.starts c = w.starts c →
      Entry w c o w' { abandoned := ↑((w.context c).levels.take n).flatten } (o.unwound n)

/-- The books of context `c` in a run, with the scopes that are open. -/
inductive Kept (raw : Prop) (admits : World → Prop) (c : ContextId) :
    World → Ledger → OpenScopes → Prop where
  | start : admits {} → Kept raw admits c {} {} {}
  | next {w w' : World} {b e : Ledger} {o o' : OpenScopes} :
      Kept raw admits c w b o → Transition raw w w' → admits w' → Entry w c o w' e o' →
      Kept raw admits c w' (b.add e) o'

/-! ## The books balance -/

theorem work_eq {x y : Context} (h : x.levels = y.levels) : x.work = y.work :=
  congrArg (fun ls : List (List Continuation) => (↑ls.flatten : Multiset Continuation)) h

theorem work_cons (x : Context) : x.work = ↑x.pending + ↑x.saved.flatten := rfl

theorem work_gone {x y : Context} {gone : List (List Continuation)}
    (h : x.levels = gone ++ y.levels) : x.work = ↑gone.flatten + y.work := by
  unfold Context.work
  rw [h, List.flatten_append, Multiset.coe_add]

def KeepsStacks (w w' : World) : Prop := ∀ d, (w.context d).Stays (w'.context d)

theorem KeepsStacks.trans (h : KeepsStacks w v) (h' : KeepsStacks v w') : KeepsStacks w w' := fun d =>
  (h d).trans (h' d)

theorem keepsStacks_of_still (h : ∀ d, (w'.context d).still = (w.context d).still) :
    KeepsStacks w w' := fun d => Context.stays_of_still (h d)

theorem keepsStacks_modifyContext (w : World) (c : ContextId) {f : Context → Context}
    (hf : (w.context c).Stays (f (w.context c))) : KeepsStacks w (w.modifyContext c f) := by
  intro d
  rw [context_modifyContext]
  split
  · rename_i hd
    obtain ⟨rfl, -⟩ := hd
    exact hf
  · exact .refl _

theorem keepsStacks_setTopScope {s s' : Scope Installed} {below : List (Scope Installed)}
    (hs : (w.context c).scopes = s :: below) (hi : s'.id = s.id) :
    KeepsStacks w (w.setTopScope c s') := by
  refine keepsStacks_modifyContext w c ⟨rfl, ?_, rfl⟩
  rw [hs, List.tail_cons, List.map_cons, List.map_cons, hi]

theorem keepsStacks_updateScope {α : Type} (w : World) (c : ContextId)
    {f : Scope Installed → α × Scope Installed} (hf : ∀ s, (f s).2.id = s.id) :
    KeepsStacks w (w.updateScope c f).1 := by
  rcases updateScope_cases w c f with ⟨o, s, below, -, hs, hu⟩ | hu
  · rw [hu]
    exact keepsStacks_setTopScope hs (hf s)
  · rw [hu]
    exact keepsStacks_of_still fun _ => rfl

theorem keepsStacks_install (w : World) (c : ContextId) (role : Role) (k : Continuation)
    (put : Installed → Scope Installed → Scope Installed) (hput : ∀ x s, (put x s).id = s.id) :
    KeepsStacks w (w.install c role k put).1 := by
  intro d
  rw [context_install]
  exact keepsStacks_updateScope w c (fun s => hput _ s) d

theorem lt_of_popScope {s : Scope Installed} {x : Context} {marker : Option String}
    (hx : (w.context c).popScope? marker = some (s, x)) : c < w.contexts.size := by
  refine Nat.lt_of_not_le fun hc => ?_
  rw [context_of_size_le hc] at hx
  cases hx

theorem keepsStacks_popScope {s : Scope Installed} {x : Context} {marker : Option String}
    (hx : (w.context c).popScope? marker = some (s, x)) (merge : Bool) :
    KeepsStacks (w.modifyContext c fun _ => x) (w.popScope c merge marker).1 := by
  unfold popScope
  rw [hx]
  dsimp only
  split
  · exact keepsStacks_of_still fun _ => rfl
  · rename_i outer below hs
    have hself : (w.modifyContext c fun _ => x).context c = x :=
      context_modifyContext_self _ (lt_of_popScope hx)
    have houter := (congrArg Context.scopes hself).trans hs
    exact keepsStacks_setTopScope houter rfl
  · unfold mergeUpward
    split
    · exact keepsStacks_updateScope _ _ fun _ => rfl
    · exact keepsStacks_of_still fun _ => rfl

theorem stays_popScope {s : Scope Installed} {x : Context} {marker : Option String}
    (hx : (w.context c).popScope? marker = some (s, x)) (merge : Bool) :
    x.Stays ((w.popScope c merge marker).1.context c) := by
  have hk := keepsStacks_popScope hx merge c
  rwa [context_modifyContext_self _ (lt_of_popScope hx)] at hk

theorem abandons_of_unwind {fault : String} {h : Option Installed} {x : Context} {n : Nat}
    (ho : (w.context c).Opened o)
    (hx : { w.context c with escalated := none }.unwind fault = (h, x))
    (hn : (w.context c).scopes.length = n + x.scopes.length) :
    (w.context c).Abandons o x n := by
  obtain ⟨k, hk⟩ := ho.unwind hx
  have hkn : k = n := Nat.add_right_cancel (hk.scopes.symm.trans hn)
  exact hkn ▸ hk

theorem Entry.opened (k : Entry w c o w' e o') (ho : (w.context c).Opened o) :
    (w'.context c).Opened o' := by
  cases k with
  | idle hs => exact ho.stays hs
  | created k i hc hl hs hi =>
    refine ⟨(List.cons.inj hl).2, hs, hi⟩
  | queued ks hc =>
    rw [context_modifyContext_self _ hc]
    exact ⟨ho.saved, ho.scopes, ho.implicit⟩
  | handedOut hc hp =>
    rw [context_modifyContext_self _ hc]
    simp only [Context.nextContinuation, hp]
    exact ⟨ho.saved, ho.scopes, ho.implicit⟩
  | discarded hc =>
    rw [context_modifyContext_self _ hc]
    exact ⟨ho.saved, ho.scopes, ho.implicit⟩
  | entered id marker hc =>
    change ((w.modifyContext c _).context c).Opened _
    rw [context_modifyContext_self _ hc]
    exact ⟨congrArg (List.cons _) ho.saved, congrArg (List.cons id) ho.scopes, ho.implicit⟩
  | left merge marker hs hp =>
    obtain ⟨s, x, hx⟩ := Context.popScope_of_scopes marker hs
    exact (ho.pop_pushed hp hx).2.stays (stays_popScope hx merge)
  | leftImplicit merge marker hs hp =>
    obtain ⟨s, x, hx⟩ := Context.popScope_of_scopes marker hs
    exact (ho.pop_implicit hp hx).2.stays (stays_popScope hx merge)
  | @started _ _ rest _ hs =>
    have hrest : { w.context c with pending := rest }.Opened o :=
      ⟨ho.saved, ho.scopes, ho.implicit⟩
    exact hrest.stays hs
  | @caught _ _ h x n hx hn hs =>
    have hox := (abandons_of_unwind ho hx hn).opened
    have hcaught : { x with pending := [h.continuation] }.Opened (o.unwound n) :=
      ⟨hox.saved, hox.scopes, hox.implicit⟩
    exact hcaught.stays hs
  | fell hx hn hs => exact (abandons_of_unwind ho hx hn).opened.stays hs

theorem Entry.balance (k : Entry w c o w' e o') (ho : (w.context c).Opened o) :
    (w.context c).work + e.queued = (w'.context c).work + e.spent := by
  -- the current level is the first of the levels: what moves between levels drops out of the sum
  cases k with
  | idle hs => simp [work_eq hs.levels, Ledger.spent]
  | created k i hc hl =>
    have hnone : (w.context c).work = 0 := by
      rw [context_of_size_le (Nat.le_of_eq hc.symm)]
      rfl
    have hnew : (w'.context c).work = ↑k.toList := by simp [Context.work, hl]
    simp [hnone, hnew, Ledger.spent]
  | queued ks hc =>
    rw [context_modifyContext_self _ hc, work_cons, work_cons]
    simp only [Context.executeNext, Ledger.spent, ← Multiset.coe_add, add_zero]
    ac_rfl
  | @handedOut k rest hc hp =>
    rw [context_modifyContext_self _ hc, work_cons, work_cons]
    simp only [Context.nextContinuation, hp, Ledger.spent, ← Multiset.cons_coe,
      ← Multiset.singleton_add, add_zero, zero_add]
    ac_rfl
  | discarded hc =>
    rw [context_modifyContext_self _ hc, work_cons, work_cons]
    simp only [Context.discardPending, Ledger.spent, Multiset.coe_nil, add_zero, zero_add]
    ac_rfl
  | entered id marker hc =>
    change _ = ((w.modifyContext c _).context c).work + _
    rw [context_modifyContext_self _ hc, work_cons, work_cons]
    simp [Context.pushScope, Ledger.spent]
  | left merge marker hs hp =>
    obtain ⟨s, x, hx⟩ := Context.popScope_of_scopes marker hs
    have hl : (w.context c).levels = [(w.context c).pending] ++ x.levels := (ho.pop_pushed hp hx).1
    rw [work_eq (stays_popScope hx merge).levels, work_gone hl]
    simp only [Ledger.spent, List.flatten_singleton, add_zero, zero_add]
    ac_rfl
  | leftImplicit merge marker hs hp =>
    obtain ⟨s, x, hx⟩ := Context.popScope_of_scopes marker hs
    rw [work_eq (stays_popScope hx merge).levels, work_eq (ho.pop_implicit hp hx).1]
    simp [Ledger.spent]
  | started hp hs =>
    rw [work_cons, hp, work_eq hs.levels, work_cons]
    simp only [Ledger.spent, ← Multiset.cons_coe, ← Multiset.singleton_add, add_zero]
    ac_rfl
  | caught hx hn hs =>
    rw [work_gone (abandons_of_unwind ho hx hn).levels, work_cons, work_eq hs.levels, work_cons]
    simp only [← Multiset.coe_add, Ledger.spent, add_zero, zero_add, Multiset.coe_singleton]
    ac_rfl
  | fell hx hn hs =>
    rw [work_gone (abandons_of_unwind ho hx hn).levels, work_eq hs.levels]
    simp only [Ledger.spent, add_zero, zero_add]
    ac_rfl

theorem Entry.starts (k : Entry w c o w' e o') :
    (↑(w'.starts c) : Multiset Continuation) = ↑(w.starts c) + e.started := by
  have hpop : ∀ merge marker, (w.popScope c merge marker).1.starts c = w.starts c := fun _ _ => by
    unfold World.starts
    rw [history_popScope]
  cases k with
  | idle _ hh => simp [hh]
  | created k i _ _ _ _ hh => simp [hh]
  | queued => exact (add_zero _).symm
  | handedOut => exact (add_zero _).symm
  | discarded => exact (add_zero _).symm
  | entered => exact (add_zero _).symm
  | left merge marker => simp [hpop]
  | leftImplicit merge marker => simp [hpop]
  | started _ _ hh => rw [hh, ← Multiset.coe_add, Multiset.coe_singleton]
  | caught _ _ _ hh => simp [hh]
  | fell _ _ _ hh => simp [hh]

structure Balanced (w : World) (c : ContextId) (b : Ledger) (o : OpenScopes) : Prop where
  queued : b.queued = b.spent + (w.context c).work
  started : b.started = ↑(w.starts c)
  opened : (w.context c).Opened o

theorem Balanced.entry (h : Balanced w c b o) (k : Entry w c o w' e o') :
    Balanced w' c (b.add e) o' where
  queued := by
    change b.queued + e.queued = (b.add e).spent + _
    rw [h.queued, add_assoc, k.balance h.opened, Ledger.spent_add]
    ac_rfl
  started := by
    change b.started + e.started = _
    rw [h.started, k.starts]
  opened := k.opened h.opened

theorem Kept.balanced (h : Kept raw admits c w b o) : Balanced w c b o := by
  induction h with
  | start => exact ⟨rfl, rfl, rfl, rfl, fun _ => rfl⟩
  | next _ _ _ k ih => exact ih.entry k

/-! ## Every transition has an entry -/

def Booked (w : World) (c : ContextId) (w' : World) : Prop :=
  ∀ o, (w.context c).Opened o → ∃ e o', Entry w c o w' e o'

theorem KeepsStacks.booked (h : KeepsStacks w w') (hs : w'.starts c = w.starts c) :
    w.Booked c w' := fun _ _ => ⟨_, _, .idle (h c) hs⟩

theorem booked_of_context (h : w'.context c = w.context c) (hs : w'.starts c = w.starts c) :
    w.Booked c w' := fun _ _ => ⟨_, _, .idle (h ▸ .refl _) hs⟩

theorem startedIn_of_runner {e : Event} (h : e.runner? = none) : e.startedIn? c = none := by
  cases e <;> first | rfl | cases h

theorem starts_append {es : List Event} (h : w'.history.toList = w.history.toList ++ es)
    (hes : ∀ e ∈ es, e.runner? = none) : w'.starts c = w.starts c := by
  have hnone : es.filterMap (Event.startedIn? c) = [] :=
    List.filterMap_eq_nil_iff.2 fun e he => startedIn_of_runner (hes e he)
  unfold starts
  rw [h, List.filterMap_append, hnone, List.append_nil]

theorem Lull.starts (h : Lull w w') : w'.starts c = w.starts c := by
  obtain ⟨es, he, hes⟩ := h.history
  exact starts_append he hes

theorem Routine.booked (h : Routine w w') : w.Booked c w' :=
  (keepsStacks_of_still h.still).booked h.toLull.starts

theorem booked_modifyContext {f : Context → Context}
    (he : c = d → c < w.contexts.size → w.Booked c (w.modifyContext d f)) :
    w.Booked c (w.modifyContext d f) := by
  by_cases h : c = d ∧ c < w.contexts.size
  · exact he h.1 h.2
  · refine booked_of_context ?_ rfl
    rw [context_modifyContext]
    exact if_neg fun hd => h ⟨hd.1.symm, hd.2⟩

theorem booked_popScope (w : World) (c d : ContextId) (merge : Bool) (marker : Option String) :
    w.Booked c (w.popScope d merge marker).1 := by
  have hh : (w.popScope d merge marker).1.starts c = w.starts c := by
    unfold starts
    rw [history_popScope]
  rcases hx : (w.context d).popScope? marker with _ | ⟨s, x⟩
  · refine booked_of_context ?_ hh
    simp only [popScope, hx]
  · by_cases hc : c = d
    · subst hc
      intro o ho
      have hs := Context.scopes_of_popScope hx
      rcases hp : o.pushed with _ | ⟨⟨id, level⟩, pushed⟩
      · exact ⟨_, _, .leftImplicit merge marker hs hp⟩
      · exact ⟨_, _, .left merge marker hs hp⟩
    · have hk := keepsStacks_popScope hx merge c
      rw [context_modifyContext_of_ne w _ hc] at hk
      exact fun _ _ => ⟨_, _, .idle hk hh⟩

theorem Edit.booked (k : Edit w w') : w.Booked c w' := by
  have hs : w'.starts c = w.starts c := k.lull.starts
  cases k with
  | data d f => exact booked_of_context rfl hs
  | mention ops => exact booked_of_context rfl hs
  | list d hd => exact (routine_list w d).booked
  | pushScope d id marker =>
    apply booked_modifyContext
    rintro rfl hc
    exact fun _ _ => ⟨_, _, .entered id marker hc⟩
  | popScope d merge marker => exact booked_popScope w c d merge marker
  | installHandler d fault k =>
    exact (keepsStacks_install w d .handler k (fun x s => s.installHandler fault x)
      fun _ _ => rfl).booked hs
  | installCompensation d k =>
    exact (keepsStacks_install w d .compensation k (fun x s => s.installCompensation x)
      fun _ _ => rfl).booked hs
  | lookupHandler d fault erase =>
    exact (keepsStacks_updateScope w d fun s => id_lookup s fault erase).booked hs
  | takeCompensation d id => exact (keepsStacks_updateScope w d fun _ => rfl).booked hs
  | executeNext d ks =>
    apply booked_modifyContext
    rintro rfl hc
    exact fun _ _ => ⟨_, _, .queued ks hc⟩
  | popNext d =>
    rcases hp : (w.context d).pending with _ | ⟨k, rest⟩
    · have hkeep : (w.context d).nextContinuation.2 = w.context d := by
        simp only [Context.nextContinuation, hp]
      rw [hkeep, modifyContext_self]
      exact booked_of_context rfl rfl
    · apply booked_modifyContext
      rintro rfl hc
      exact fun _ _ => ⟨_, _, .handedOut hc hp⟩
  | discard d =>
    apply booked_modifyContext
    rintro rfl hc
    exact fun _ _ => ⟨_, _, .discarded hc⟩
  | pause d requested => exact (keepsStacks_modifyContext w d ⟨rfl, rfl, rfl⟩).booked hs

theorem booked_created {x : Context} {k : Option Continuation} {i : Option String}
    (hv : w'.contexts = w.contexts.push x) (hl : x.levels = [k.toList])
    (hs : x.scopes.map Scope.id = i.toList) (hi : x.ancestors ≠ [] → i = none)
    (hh : w'.starts c = w.starts c) : w.Booked c w' := by
  have hself := context_of_push hv c
  by_cases hc : c = w.contexts.size
  · rw [if_pos hc] at hself
    rw [← hself] at hl hs hi
    exact fun _ _ => ⟨_, _, .created k i hc hl hs hi hh⟩
  · rw [if_neg hc] at hself
    exact booked_of_context hself hh

theorem Call.booked (k : Call raw w w') : w.Booked c w' := by
  have hs : w'.starts c = w.starts c := k.lull.starts
  cases k with
  | edit e => exact e.booked
  | kill d f => exact (keepsStacks_of_still (signals_kill w d f).still).booked hs
  | clearKill d => exact (keepsStacks_of_still (signals_clearKill w d).still).booked hs
  | root label session scope budget k =>
    obtain ⟨ss, hw⟩ := openSession_eq w session
    rw [hw] at hs ⊢
    exact booked_created (i := some scope) (list_kept _ _).2.2.2 rfl rfl (fun h => absurd rfl h) hs
  | child p label k hp => exact booked_created (i := none) rfl rfl rfl (fun _ => rfl) hs
  | start d hd =>
    refine KeepsStacks.booked ?_ hs
    unfold World.start
    dsimp only
    split
    · rename_i p _
      exact keepsStacks_of_still (signals_addChild w p).still
    · exact keepsStacks_of_still fun _ => rfl
  | drive d budget hd => exact booked_of_context rfl hs
  | newHandle name => exact (posts_nameNewHandle w name).routine.booked
  | dropHandle name => exact (posts_dropHandle w name).routine.booked
  | register d i => exact (routine_cancelIfKilled w d i).booked
  | cancel i => exact (keepsStacks_of_still (signals_cancelHandle w i).still).booked hs
  | deliver d op v hd => exact ((posts_newLetter w op v).trans (posts_deliver _ _ _)).routine.booked
  | receiver d tag ops hd => exact booked_of_context rfl hs
  | requeue d op v hr hd =>
    exact ((posts_newLetter w op v).trans (posts_requeue _ _ _)).routine.booked
  | request d slot ops hr hd => exact (posts_requestInto w d slot ops).routine.booked
  | dropWait slot i hr hi =>
    exact ((posts_closeWait w i).trans (posts_forgetWait _ slot)).routine.booked
  | await slot i hr hi => exact booked_of_context rfl hs

theorem Routine.keepsStacks (h : Routine w w') : KeepsStacks w w' := keepsStacks_of_still h.still

theorem starts_record (w : World) (c : ContextId) (e : Event) :
    (w.record e).starts c = w.starts c ++ (e.startedIn? c).toList := by
  unfold starts record
  rw [Array.toList_push, List.filterMap_append]
  cases he : e.startedIn? c <;> simp [he]

theorem Noted.keepsStacks (n : Noted w v) : KeepsStacks w v :=
  keepsStacks_of_still fun d => congrArg Context.still (n.context d)

theorem booked_start (hp : Placed v) (n : Noted w v) (hd : v.Drives t l) {k : Continuation}
    {rest : List Continuation} (hk : (v.context l.context).pending = k :: rest)
    (r : Routine (v.modifyContext l.context fun x => { x with pending := rest }) w') :
    w.Booked c (w'.record (.started l.context k)) := by
  have hs : w'.starts c = w.starts c := r.toLull.starts.trans n.lull.starts
  have hr := r.keepsStacks c
  by_cases hc : c = l.context
  · subst hc
    rw [context_modifyContext_self _ (hp.loop hd.task), n.context] at hr
    rw [n.context] at hk
    refine fun _ _ => ⟨_, _, .started hk hr ?_⟩
    rw [starts_record, hs]
    simp [Event.startedIn?]
  · rw [context_modifyContext_of_ne v _ hc, n.context] at hr
    refine fun _ _ => ⟨_, _, .idle hr ?_⟩
    rw [starts_record, hs]
    simp [Event.startedIn?, Ne.symm hc]

theorem booked_caught (hp : Placed v) (n : Noted w v) (hd : v.Drives t l) {f : Fault}
    {h : Installed} {x : Context}
    (hx : ((v.taken l.context).context l.context).unwind f.name = (some h, x))
    (r : Routine ((v.taken l.context).handled l.context f h x) w') : w.Booked c w' := by
  have hlt := hp.loop hd.task
  have hs : w'.starts c = w.starts c := by
    have hcaught : ((v.taken l.context).handled l.context f h x).starts c = v.starts c :=
      (starts_record _ c _).trans (List.append_nil _)
    exact r.toLull.starts.trans (hcaught.trans n.lull.starts)
  have hr := r.keepsStacks c
  by_cases hc : c = l.context
  · subst hc
    rw [context_taken hlt, n.context] at hx
    rw [context_handled (size_taken v l.context ▸ hlt)] at hr
    intro o ho
    obtain ⟨k, hk⟩ := ho.unwind hx
    exact ⟨_, _, .caught hx hk.scopes hr hs⟩
  · rw [context_handled_of_ne _ f h x hc, context_taken_of_ne v hc, n.context] at hr
    exact fun _ _ => ⟨_, _, .idle hr hs⟩

theorem booked_fell (hp : Placed v) (n : Noted w v) (hd : v.Drives t l) {f : Fault} {x : Context}
    (hx : ((v.taken l.context).context l.context).unwind f.name = (none, x))
    (hk : KeepsStacks ((v.taken l.context).fallen l.context f x) w')
    (hs : w'.starts c = w.starts c) : w.Booked c w' := by
  have hlt := hp.loop hd.task
  have hr := hk c
  by_cases hc : c = l.context
  · subst hc
    rw [context_taken hlt, n.context] at hx
    have hfell : x.Stays (((v.taken l.context).fallen l.context f x).context l.context) := by
      refine Context.stays_of_still ?_
      rw [context_fallen, seen_self _ (size_taken v l.context ▸ hlt)]
      exact Context.notified_congr Context.still fun _ _ _ => rfl
    intro o ho
    obtain ⟨k, hk⟩ := ho.unwind hx
    exact ⟨_, _, .fell hx hk.scopes (hfell.trans hr) hs⟩
  · rw [context_fallen_of_ne v f x hc, n.context] at hr
    exact fun _ _ => ⟨_, _, .idle hr hs⟩

theorem keepsStacks_endLoop (w : World) (t : TaskId) (l : Loop) (o : Outcome) :
    KeepsStacks w (w.endLoop t l o) :=
  keepsStacks_of_still (endLoop_field Context.still w t l o fun _ _ _ _ => rfl)

theorem Exit.booked {r : Outcome} (hp : Placed v) (n : Noted w v) (hd : v.Drives t l)
    (x : v.Exit t l r w') : w.Booked c w' := by
  have hs : w'.starts c = w.starts c := by
    refine Eq.trans ?_ n.lull.starts
    unfold starts
    rw [x.kept.2]
  have hstate := fun s => n.keepsStacks.trans (routine_setRunState v l.context s).keepsStacks
  cases x with
  | killed => exact ((hstate .killed).trans (keepsStacks_endLoop _ t l _)).booked hs
  | completed => exact ((hstate .completed).trans (keepsStacks_endLoop _ t l _)).booked hs
  | failed _ hx => exact booked_fell hp n hd hx (keepsStacks_endLoop _ t l _) hs
  | @escalated f x p _ hx =>
    have hparent := keepsStacks_of_still
      (signals_escalate ((v.taken l.context).fallen l.context f x) p f).still
    exact booked_fell hp n hd hx (hparent.trans (keepsStacks_endLoop _ t l _)) hs

theorem Act.booked (hp : Placed v) (n : Noted w v) (a : Act v w') : w.Booked c w' := by
  cases a with
  | routine r =>
    exact (n.keepsStacks.trans r.keepsStacks).booked (r.toLull.starts.trans n.lull.starts)
  | @pause _ l _ _ _ r =>
    have hm : KeepsStacks v (v.modifyContext l.context fun x => { x with pauseRequested := false }) :=
      keepsStacks_modifyContext v l.context ⟨rfl, rfl, rfl⟩
    exact (n.keepsStacks.trans (hm.trans r.keepsStacks)).booked
      (r.toLull.starts.trans n.lull.starts)
  | start hd hu r hk => exact booked_start hp n hd hk r
  | caught hd hf hx r => exact booked_caught hp n hd hx r
  | exit hd x => exact x.booked hp n hd

theorem Transition.booked (hp : Placed w) (k : Transition raw w w') : w.Booked c w' := by
  rcases k.acts hp with ⟨-, k⟩ | ⟨v, n, a⟩
  · exact k.booked
  · exact a.booked (hp.effects n.effects) n

/-! ## Along a run -/

theorem Reachable.kept (h : Reachable raw admits w) (c : ContextId) :
    ∃ b o, Kept raw admits c w b o := by
  induction h with
  | start ha => exact ⟨_, _, .start ha⟩
  | next h k ha ih =>
    obtain ⟨b, o, hb⟩ := ih
    obtain ⟨e, o', he⟩ := k.booked (c := c) h.placed o hb.balanced.opened
    exact ⟨_, _, hb.next k ha he⟩

/-- When a loop completes, only what was set aside for scopes still open has not been spent. -/
theorem Reachable.completed_accounted (h : Reachable raw admits w) (k : Transition raw w w')
    (ha : admits w') (he : Ends w w' t l .completed) :
    (∃ b o, Kept raw admits l.context w' b o) ∧ ∀ b o, Kept raw admits l.context w' b o →
      b.queued = b.spent + ↑o.aside.flatten ∧ (o.pushed = [] → b.queued = b.spent) ∧
      b.started = ↑(w'.starts l.context) ∧ (w'.context l.context).pending = [] ∧
      (w'.context l.context).saved = o.aside ∧
      (w'.context l.context).scopes.map Scope.id = o.ids ∧
      ((w'.context l.context).ancestors ≠ [] → o.implicit = none) := by
  have hw := h.next k ha
  obtain ⟨-, -, -, -, hpend, -⟩ := h.outcome_truthful k he
  refine ⟨hw.kept l.context, fun b o hb => ?_⟩
  have hbal := hb.balanced
  have hq : b.queued = b.spent + ↑o.aside.flatten := by
    rw [hbal.queued, work_cons, hpend, Multiset.coe_nil, zero_add, hbal.opened.saved]
  refine ⟨hq, fun hnone => ?_, hbal.started, hpend, hbal.opened.saved, hbal.opened.scopes,
    hbal.opened.implicit⟩
  rw [hq, OpenScopes.aside, hnone]
  exact add_zero b.spent

theorem Kept.rooted (label session scope : String) (budget : Nat) (k : Option Continuation)
    (h : admits {}) (hr : admits (rooted label session scope budget k)) :
    Kept raw admits 0 (rooted label session scope budget k)
      (({} : Ledger).add { queued := ↑k.toList }) { implicit := some scope } := by
  refine (Kept.start h).next (.call (.inl rfl) ?_) hr
    (.created k (some scope) rfl rfl rfl (fun h => absurd rfl h) rfl)
  rw [← addRoot_empty]
  exact .root label session scope budget k

theorem Kept.reachable (h : Kept raw admits c w b o) : Reachable raw admits w := by
  induction h with
  | start ha => exact .start ha
  | next _ k ha _ ih => exact ih.next k ha

def paying : World := step^[3] ((rooted "order" "shop" "main" 2 (some ⟨"pay", false, []⟩)).start 0)

theorem kept_paying : Kept False (fun _ => True) 0 paying
    { queued := {⟨"pay", false, []⟩}, started := {⟨"pay", false, []⟩} }
    { implicit := some "main" } := by
  have b1 : Kept False (fun _ => True) 0 _ _ _ :=
    .rooted "order" "shop" "main" 2 (some ⟨"pay", false, []⟩) trivial trivial
  have b2 := b1.next (.call (.inl rfl) (.start 0 (by decide))) trivial (.idle ⟨rfl, rfl, rfl⟩ rfl)
  have b3 := b2.next (.pick 0 rfl (by decide)) trivial (.idle ⟨rfl, rfl, rfl⟩ rfl)
  have b4 := b3.next (.drive (t := 0) rfl rfl rfl) trivial (.idle ⟨rfl, rfl, rfl⟩ rfl)
  exact b4.next (.drive (t := 0) rfl rfl rfl) trivial (.started rfl ⟨rfl, rfl, rfl⟩ rfl)

theorem receipt_discarded : ∃ (w w' : World) (l : Loop) (b : Ledger) (o : OpenScopes),
    Reachable False (fun _ => True) w ∧ Transition False w w' ∧ Ends w w' 0 l .completed ∧
    Kept False (fun _ => True) l.context w' b o ∧ b.started = {⟨"pay", false, []⟩} ∧
    b.discarded = {.noop "receipt"} ∧ o.implicit = some "main" ∧ o.pushed = [] ∧
    b.queued = b.spent := by
  have b1 := kept_paying.next (.call (.inr ⟨0, _, _, _, rfl, rfl, rfl⟩)
    (.edit (.executeNext 0 [.noop "receipt"]))) trivial (.queued _ (by decide))
  have b2 := b1.next (.call (.inr ⟨0, _, _, _, rfl, rfl, rfl⟩) (.edit (.discard 0))) trivial
    (.discarded (by decide))
  have b3 := b2.next (.finish (t := 0) ⟨rfl, rfl, rfl⟩) trivial (.idle ⟨rfl, rfl, rfl⟩ rfl)
  have b4 := b3.next (.drive (t := 0) rfl rfl rfl) trivial (.idle ⟨rfl, rfl, rfl⟩ rfl)
  refine ⟨_, _, _, _, _, b3.reachable, .drive (t := 0) rfl rfl rfl, ⟨rfl, rfl, rfl⟩, b4, rfl, rfl, rfl,
    rfl, ?_⟩
  obtain ⟨-, hbooks⟩ := b3.reachable.completed_accounted (t := 0) (.drive rfl rfl rfl) trivial
    ⟨rfl, rfl, rfl⟩
  exact (hbooks _ _ b4).2.1 rfl

/-- The order completes inside a scope that it has entered, so that a refund is still set aside. -/
theorem refund_set_aside : ∃ (w w' : World) (l : Loop) (b : Ledger) (o : OpenScopes),
    Reachable False (fun _ => True) w ∧ Transition False w w' ∧ Ends w w' 0 l .completed ∧
    Kept False (fun _ => True) l.context w' b o ∧
    b.queued = {⟨"pay", false, []⟩, .noop "refund", .noop "receipt"} ∧
    b.started = {⟨"pay", false, []⟩} ∧ b.handedOut = {.noop "receipt"} ∧
    b.queued ≠ b.started + b.discarded + b.left + b.abandoned ∧
    o.pushed = [("inner", [.noop "refund"])] ∧
    (w'.context l.context).saved = [[.noop "refund"]] := by
  have b1 := kept_paying.next (.call (.inr ⟨0, _, _, _, rfl, rfl, rfl⟩)
    (.edit (.executeNext 0 [.noop "refund"]))) trivial (.queued _ (by decide))
  have b2 := b1.next (.call (.inr ⟨0, _, _, _, rfl, rfl, rfl⟩)
    (.edit (.executeNext 0 [.noop "receipt"]))) trivial (.queued _ (by decide))
  have b3 := b2.next (.call (.inr ⟨0, _, _, _, rfl, rfl, rfl⟩) (.edit (.popNext 0))) trivial
    (.handedOut (by decide) rfl)
  have b4 := b3.next (.call (.inr ⟨0, _, _, _, rfl, rfl, rfl⟩)
    (.edit (.pushScope 0 "inner" none))) trivial (.entered _ _ (by decide))
  have b5 := b4.next (.finish (t := 0) ⟨rfl, rfl, rfl⟩) trivial (.idle ⟨rfl, rfl, rfl⟩ rfl)
  have b6 := b5.next (.drive (t := 0) rfl rfl rfl) trivial (.idle ⟨rfl, rfl, rfl⟩ rfl)
  refine ⟨_, _, _, _, _, b5.reachable, .drive (t := 0) rfl rfl rfl, ⟨rfl, rfl, rfl⟩, b6, rfl, rfl, rfl,
    fun h => ?_, rfl, rfl⟩
  -- three continuations were queued, and one was run
  have hcard : 3 = 1 := congrArg Multiset.card h
  contradiction

end World
end SagaEngine
