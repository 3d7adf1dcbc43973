import SagaEngine.Proofs.Delegation
import SagaEngine.Proofs.Stacks

/-! A context keeps what is pending at its current level apart from the levels that are set aside, and
both apart from its scopes. Together they are a stack of runs of continuations: the calls answer as on
such a stack, and a drive loop makes no other changes. -/

namespace SagaEngine

/-- A stack of runs of continuations; `implicit` names the scope that a root starts in. -/
structure RunStack where
  top : List Continuation := []
  below : List (List Continuation) := []
  implicit : Option String := none

inductive StackCall where
  | executeNext (ks : List Continuation)
  | nextContinuation
  | discardPending
  | pushScope (id : String) (marker : Option String)
  | popScope (merge : Bool) (marker : Option String)

inductive StackAnswer where
  | done
  | popped (k : Option Continuation)
  | dropped (n : Nat)
  | underflow

structure StackReply where
  answer : StackAnswer
  pending : Nat
  depth : Nat

namespace RunStack

def depth (m : RunStack) : Nat := m.below.length + m.implicit.toList.length

def call (m : RunStack) : StackCall → StackAnswer × RunStack
  | .executeNext ks => (.done, { m with top := ks ++ m.top })
  | .nextContinuation => (.popped m.top.head?, { m with top := m.top.tail })
  | .discardPending => (.dropped m.top.length, { m with top := [] })
  | .pushScope _ _ => (.done, { m with top := [], below := m.top :: m.below })
  | .popScope _ _ => match m.below, m.implicit with
    | run :: below, _ => (.done, { m with top := run, below })
    | [], some _ => (.done, { m with implicit := none })
    | [], none => (.underflow, m)

def after (m : RunStack) : List StackCall → RunStack
  | [] => m
  | k :: ks => (m.call k).2.after ks

theorem after_append (m : RunStack) (ks ks' : List StackCall) :
    m.after (ks ++ ks') = (m.after ks).after ks' := by
  induction ks generalizing m with
  | nil => rfl
  | cons k ks ih => exact ih (m.call k).2

def run (m : ContextId → RunStack) :
    List (ContextId × StackCall) → List StackReply × (ContextId → RunStack)
  | [] => ([], m)
  | (c, k) :: calls =>
    let (a, x) := (m c).call k
    let (rs, m) := run (Function.update m c x) calls
    (⟨a, x.top.length, x.depth⟩ :: rs, m)

theorem run_cons (m : ContextId → RunStack) (c : ContextId) (k : StackCall)
    (calls : List (ContextId × StackCall)) :
    run m ((c, k) :: calls) =
      (⟨((m c).call k).1, ((m c).call k).2.top.length, ((m c).call k).2.depth⟩ ::
        (run (Function.update m c ((m c).call k).2) calls).1,
        (run (Function.update m c ((m c).call k).2) calls).2) := rfl

def callsOn (c : ContextId) (calls : List (ContextId × StackCall)) : List StackCall :=
  calls.filterMap fun p => if p.1 = c then some p.2 else none

theorem run_context (m : ContextId → RunStack) (calls : List (ContextId × StackCall))
    (c : ContextId) : (run m calls).2 c = (m c).after (callsOn c calls) := by
  induction calls generalizing m with
  | nil => rfl
  | cons p calls ih =>
    obtain ⟨d, k⟩ := p
    rw [run_cons, ih]
    unfold callsOn
    rw [List.filterMap_cons]
    by_cases hd : d = c
    · subst hd
      rw [if_pos rfl, Function.update_self]
      rfl
    · rw [if_neg hd, Function.update_of_ne (Ne.symm hd)]

/-! ## Matching pops -/

/-- The calls leave every scope that they enter, and no other. -/
inductive Matched : List StackCall → Prop where
  | nil : Matched []
  | executeNext (run : List Continuation) {ks : List StackCall} :
      Matched ks → Matched (.executeNext run :: ks)
  | nextContinuation {ks : List StackCall} : Matched ks → Matched (.nextContinuation :: ks)
  | discardPending {ks : List StackCall} : Matched ks → Matched (.discardPending :: ks)
  | scope (id : String) (marker : Option String) (merge : Bool) (marker' : Option String)
      {inner ks : List StackCall} : Matched inner → Matched ks →
      Matched (.pushScope id marker :: (inner ++ .popScope merge marker' :: ks))

theorem after_popScope {m v : RunStack} (id : String) (marker : Option String) (merge : Bool)
    (marker' : Option String) (hb : v.below = (m.call (.pushScope id marker)).2.below)
    (hi : v.implicit = (m.call (.pushScope id marker)).2.implicit) :
    (v.call (.popScope merge marker')).2 = m := by
  unfold call at hb hi ⊢
  dsimp only at hb hi ⊢
  rw [hb, hi]

theorem Matched.after {ks : List StackCall} (h : Matched ks) (m : RunStack) :
    (m.after ks).below = m.below ∧ (m.after ks).implicit = m.implicit := by
  induction h generalizing m with
  | nil => exact ⟨rfl, rfl⟩
  | executeNext run _ ih => exact ih _
  | nextContinuation _ ih => exact ih _
  | discardPending _ ih => exact ih _
  | scope id marker merge marker' _ _ inner rest =>
    obtain ⟨hb, hi⟩ := inner (m.call (.pushScope id marker)).2
    show ((m.call (.pushScope id marker)).2.after _).below = _ ∧
      ((m.call (.pushScope id marker)).2.after _).implicit = _
    rw [after_append, RunStack.after, after_popScope id marker merge marker' hb hi]
    exact rest m

theorem Matched.restored {ks : List StackCall} (h : Matched ks) (m : RunStack) (id : String)
    (marker : Option String) (merge : Bool) (marker' : Option String) :
    m.after (.pushScope id marker :: (ks ++ [.popScope merge marker'])) = m := by
  obtain ⟨hb, hi⟩ := h.after (m.call (.pushScope id marker)).2
  show (m.call (.pushScope id marker)).2.after _ = m
  rw [after_append]
  exact after_popScope id marker merge marker' hb hi

end RunStack

/-! ## The stack of a context -/

namespace Context

variable {x y : Context} {s : Scope Installed} {marker : Option String}

def runStack (x : Context) : RunStack where
  top := x.pending
  below := x.saved
  implicit := if x.saved.length < x.scopes.length then (x.scopes.map Scope.id).getLast? else none

/-- There are as many levels set aside as scopes open, or one less in the implicit scope of a root. -/
def Lockstep (x : Context) : Prop :=
  x.scopes.length = x.saved.length ∨
    x.ancestors = [] ∧ x.scopes.length = x.saved.length + 1

theorem Lockstep.depth (h : x.Lockstep) : x.scopes.length = x.runStack.depth := by
  unfold RunStack.depth runStack
  dsimp only
  rcases h with h | ⟨-, h⟩
  · rw [if_neg (by omega), h]
    rfl
  · have hne : x.scopes.map Scope.id ≠ [] := by
      intro hn
      rw [List.map_eq_nil_iff.1 hn] at h
      cases h
    rw [if_pos (by omega), List.getLast?_eq_some_getLast hne, h]
    rfl

theorem Lockstep.child (h : x.Lockstep) (ha : x.ancestors ≠ []) : x.runStack.implicit = none := by
  rcases h with h | ⟨hn, -⟩
  · exact if_neg (by omega)
  · exact absurd hn ha

theorem runStack_congr (hl : y.levels = x.levels)
    (hs : y.scopes.map Scope.id = x.scopes.map Scope.id) : y.runStack = x.runStack := by
  obtain ⟨hp, hsaved⟩ := List.cons.inj hl
  have hlen : y.scopes.length = x.scopes.length := by simpa using congrArg List.length hs
  unfold runStack
  rw [hp, hsaved, hlen, hs]

theorem runStack_table {s' : Scope Installed} {below : List (Scope Installed)}
    (hs : x.scopes = s :: below) (hi : s'.id = s.id) :
    { x with scopes := s' :: below }.runStack = x.runStack := by
  apply runStack_congr
  · rfl
  · rw [hs, List.map_cons, List.map_cons, hi]

theorem runStack_nextContinuation (x : Context) :
    x.runStack.call .nextContinuation =
      (.popped x.nextContinuation.1, x.nextContinuation.2.runStack) := by
  unfold runStack nextContinuation RunStack.call
  rcases hp : x.pending with _ | ⟨k, rest⟩
  · dsimp only
    rw [hp]
    rfl
  · rfl

theorem runStack_pushScope (x : Context) (id : String) (marker : Option String) :
    (x.pushScope id marker).runStack = (x.runStack.call (.pushScope id marker)).2 := by
  unfold runStack pushScope RunStack.call
  dsimp only
  congr 1
  rcases x.scopes with _ | ⟨s, below⟩
  · rfl
  · simp only [List.length_cons, List.map_cons, List.getLast?_cons_cons, Nat.add_lt_add_iff_right]

theorem Lockstep.popScope (h : x.Lockstep) (hx : x.popScope? marker = some (s, y)) (merge : Bool)
    (marker' : Option String) :
    x.runStack.call (.popScope merge marker') = (.done, y.runStack) := by
  unfold popScope? at hx
  rcases hs : x.scopes with _ | ⟨r, below⟩
  · rw [hs] at hx
    cases hx
  · rw [hs] at hx
    obtain ⟨-, rfl⟩ := Prod.mk.inj (Option.some.inj hx)
    unfold Lockstep at h
    unfold runStack RunStack.call
    rcases hl : x.saved with _ | ⟨level, saved⟩
    · rw [hs, hl] at h
      have hnil : below = [] := by
        apply List.eq_nil_of_length_eq_zero
        rcases h with h | ⟨-, h⟩
        · cases h
        · exact Nat.succ.inj h
      subst hnil
      rw [hs]
      rfl
    · dsimp only
      rw [hs]
      congr 2
      rcases below with _ | ⟨s', below⟩
      · rfl
      · simp only [List.length_cons, List.map_cons, List.getLast?_cons_cons,
          Nat.add_lt_add_iff_right]

theorem Lockstep.underflow (h : x.Lockstep) (hs : x.scopes = []) (merge : Bool)
    (marker' : Option String) :
    x.runStack.call (.popScope merge marker') = (.underflow, x.runStack) := by
  unfold Lockstep at h
  rw [hs] at h
  have hl : x.saved = [] := by
    apply List.eq_nil_of_length_eq_zero
    rcases h with h | ⟨-, h⟩
    · exact h.symm
    · cases h
  unfold runStack RunStack.call
  rw [hs, hl]
  rfl

theorem Fresh.lockstep (h : x.Fresh) : x.Lockstep := by
  unfold Lockstep
  rw [h.saved]
  rcases h.scopes with ⟨ha, id, hs⟩ | ⟨-, hs⟩
  · rw [hs]
    exact .inr ⟨ha, rfl⟩
  · rw [hs]
    exact .inl rfl

theorem saved_popScope (h : x.popScope? marker = some (s, y)) :
    y.saved = x.saved.tail ∧ y.ancestors = x.ancestors := by
  unfold popScope? at h
  split at h
  · cases h
  · obtain ⟨-, rfl⟩ := Prod.mk.inj (Option.some.inj h)
    split
    · rename_i hl
      exact ⟨by rw [hl]; rfl, rfl⟩
    · rename_i hl
      exact ⟨by rw [hl]; rfl, rfl⟩

theorem StackStep.lockstep (h : x.StackStep y) (hx : x.Lockstep) : y.Lockstep := by
  unfold Lockstep at hx ⊢
  cases h with
  | keep hs hl ha =>
    obtain ⟨-, hsaved⟩ := List.cons.inj hl
    rw [hs, hsaved, ha]
    exact hx
  | table hs =>
    rw [hs] at hx
    exact hx
  | queue | next | discard => exact hx
  | push id marker =>
    rcases hx with hx | ⟨ha, hx⟩
    · exact .inl (congrArg Nat.succ hx)
    · exact .inr ⟨ha, congrArg Nat.succ hx⟩
  | pop h =>
    obtain ⟨hsaved, ha⟩ := saved_popScope h
    rw [World.scopes_popScope h, List.length_cons] at hx
    rw [hsaved, ha, List.length_tail]
    rcases hx with hx | ⟨hanc, hx⟩
    · left
      omega
    · cases hl : x.saved.length with
      | zero => exact .inl (by omega)
      | succ n => exact .inr ⟨hanc, by omega⟩

theorem StackStep.after (h : x.StackStep y) (hx : x.Lockstep) :
    ∃ ks, y.runStack = x.runStack.after ks := by
  cases h with
  | keep hs hl => exact ⟨[], runStack_congr hl (congrArg (List.map Scope.id) hs)⟩
  | table hs ha => exact ⟨[], runStack_table hs ha.id⟩
  | queue ks => exact ⟨[.executeNext ks], rfl⟩
  | next hp =>
    refine ⟨[.nextContinuation], ?_⟩
    show _ = { x.runStack with top := x.pending.tail }
    rw [hp]
    rfl
  | discard => exact ⟨[.discardPending], rfl⟩
  | push id marker => exact ⟨[.pushScope id marker], runStack_pushScope x id marker⟩
  | @pop _ s marker h =>
    exact ⟨[.popScope true marker], (congrArg Prod.snd (hx.popScope h true marker)).symm⟩

end Context

namespace World

variable {w w' v : World} {raw : Prop} {admits : World → Prop} {c d : ContextId} {x : Context}
  {s s' : Scope Installed} {below : List (Scope Installed)}

def stack (w : World) (c : ContextId) : RunStack := (w.context c).runStack

def stackCall (w : World) (c : ContextId) : StackCall → StackAnswer × World
  | .executeNext ks => (.done, w.modifyContext c fun x => x.executeNext ks)
  | .nextContinuation =>
    let (k, x) := (w.context c).nextContinuation
    (.popped k, w.modifyContext c fun _ => x)
  | .discardPending =>
    (.dropped (w.context c).pending.length, w.modifyContext c Context.discardPending)
  | .pushScope id marker => (.done, (w.pushScope c id marker).2)
  | .popScope merge marker => match w.popScope c merge marker with
    | (w, .ok ()) => (.done, w)
    | (w, .error _) => (.underflow, w)

def runCalls (w : World) : List (ContextId × StackCall) → List StackReply × World
  | [] => ([], w)
  | (c, k) :: calls =>
    let (a, w) := w.stackCall c k
    let (rs, v) := w.runCalls calls
    (⟨a, (w.context c).pending.length, (w.context c).scopes.length⟩ :: rs, v)

theorem runCalls_cons (w : World) (c : ContextId) (k : StackCall)
    (calls : List (ContextId × StackCall)) :
    w.runCalls ((c, k) :: calls) =
      (⟨(w.stackCall c k).1, ((w.stackCall c k).2.context c).pending.length,
        ((w.stackCall c k).2.context c).scopes.length⟩ :: ((w.stackCall c k).2.runCalls calls).1,
        ((w.stackCall c k).2.runCalls calls).2) := rfl

/-! ## What calls do to stacks -/

theorem stack_modifyContext (hc : c < w.contexts.size) (f : Context → Context) :
    (w.modifyContext c f).stack = Function.update w.stack c (f (w.context c)).runStack := by
  funext d
  unfold stack
  by_cases hd : d = c
  · subst hd
    rw [context_modifyContext_self _ hc, Function.update_self]
  · rw [context_modifyContext_of_ne _ _ hd, Function.update_of_ne hd]

theorem stack_setTopScope (hs : (w.context c).scopes = s :: below) (hi : s'.id = s.id) :
    (w.setTopScope c s').stack = w.stack := by
  have hc : c < w.contexts.size := context_lt (s := s) (by rw [hs]; exact .head _)
  unfold setTopScope
  rw [stack_modifyContext hc, hs, List.tail_cons, Context.runStack_table hs hi]
  exact Function.update_eq_self c w.stack

theorem stack_updateScope {α : Type} (w : World) (c : ContextId)
    {f : Scope Installed → α × Scope Installed} (hf : ∀ s, (f s).2.id = s.id) :
    (w.updateScope c f).1.stack = w.stack := by
  rcases updateScope_cases w c f with ⟨o, s, below, -, hs, hu⟩ | hu
  · rw [hu]
    exact stack_setTopScope hs (hf s)
  · rw [hu]

theorem popScope_stack {marker : Option String} (hx : (w.context c).popScope? marker = some (s, x))
    (merge : Bool) :
    ∃ v, w.popScope c merge marker = (v, .ok ()) ∧
      v.stack = Function.update w.stack c x.runStack := by
  have hc := lt_of_popScope hx
  have hself : (w.modifyContext c fun _ => x).context c = x := context_modifyContext_self _ hc
  have hpop : (w.modifyContext c fun _ => x).stack = Function.update w.stack c x.runStack :=
    stack_modifyContext hc _
  unfold popScope
  rw [hx]
  dsimp only
  rw [← hpop]
  split
  · exact ⟨_, rfl, rfl⟩
  · rename_i outer below hs
    have houter := (congrArg Context.scopes hself).trans hs
    exact ⟨_, rfl, stack_setTopScope houter rfl⟩
  · refine ⟨_, rfl, ?_⟩
    unfold mergeUpward
    split
    · exact stack_updateScope _ _ fun _ => rfl
    · rfl

theorem stackCall_refines (hw : ∀ c, (w.context c).Lockstep) (hc : c < w.contexts.size)
    (k : StackCall) :
    (w.stackCall c k).1 = ((w.stack c).call k).1 ∧
      (w.stackCall c k).2.stack = Function.update w.stack c ((w.stack c).call k).2 := by
  cases k with
  | executeNext ks => exact ⟨rfl, stack_modifyContext hc _⟩
  | nextContinuation =>
    have hcall := (w.context c).runStack_nextContinuation
    rw [stack, hcall]
    exact ⟨rfl, stack_modifyContext hc _⟩
  | discardPending => exact ⟨rfl, stack_modifyContext hc _⟩
  | pushScope id marker =>
    refine ⟨rfl, (stack_modifyContext hc _).trans ?_⟩
    rw [Context.runStack_pushScope]
    rfl
  | popScope merge marker =>
    by_cases hs : (w.context c).scopes = []
    · have hcall : w.stackCall c (.popScope merge marker) = (.underflow, w) := by
        simp only [stackCall, popScope_underflow hs]
      rw [hcall, stack, (hw c).underflow hs]
      exact ⟨rfl, (Function.update_eq_self c w.stack).symm⟩
    · obtain ⟨s, x, hx⟩ := Context.popScope_of_scopes marker hs
      obtain ⟨v, hv, hstack⟩ := popScope_stack hx merge
      have hcall : w.stackCall c (.popScope merge marker) = (.done, v) := by
        simp only [stackCall, hv]
      rw [hcall, stack, (hw c).popScope hx]
      exact ⟨rfl, hstack⟩

theorem stackCall_edit (w : World) (c : ContextId) (k : StackCall) :
    Edit w (w.stackCall c k).2 := by
  cases k with
  | executeNext ks => exact .executeNext c ks
  | nextContinuation => exact .popNext c
  | discardPending => exact .discard c
  | pushScope id marker => exact .pushScope c id marker
  | popScope merge marker =>
    have he : Edit w (w.popScope c merge marker).1 := .popScope c merge marker
    unfold stackCall
    dsimp only
    split
    · rename_i v hv
      rw [hv] at he
      exact he
    · rename_i v e hv
      rw [hv] at he
      exact he

theorem runCalls_refines (calls : List (ContextId × StackCall))
    (hw : ∀ c, (w.context c).Lockstep) (hc : ∀ p ∈ calls, p.1 < w.contexts.size) :
    (w.runCalls calls).1 = (RunStack.run w.stack calls).1 ∧
      (w.runCalls calls).2.stack = (RunStack.run w.stack calls).2 := by
  induction calls generalizing w with
  | nil => exact ⟨rfl, rfl⟩
  | cons p calls ih =>
    obtain ⟨c, k⟩ := p
    have hedit := stackCall_edit w c k
    obtain ⟨ha, hs⟩ := stackCall_refines hw (hc (c, k) (.head _)) k
    have hv : ∀ d, ((w.stackCall c k).2.context d).Lockstep := fun d =>
      (hedit.stackSteps d).keeps (fun s hx => s.lockstep hx) (hw d)
    obtain ⟨hreplies, hstacks⟩ := ih hv fun p hp => hedit.edits.size ▸ hc p (.tail _ hp)
    have hself : ((w.stackCall c k).2.context c).runStack = ((w.stack c).call k).2 := by
      show (w.stackCall c k).2.stack c = _
      rw [hs, Function.update_self]
    rw [hs] at hreplies hstacks
    rw [runCalls_cons, RunStack.run_cons]
    refine ⟨?_, hstacks⟩
    rw [hreplies, ha, (hv c).depth, ← hself]
    rfl

theorem Reachable.lockstep (h : Reachable raw admits w) (c : ContextId) :
    (w.context c).Lockstep :=
  h.stack_invariant (P := Context.Lockstep) (.inl rfl) (fun _ hx => hx.lockstep)
    (fun s hx => s.lockstep hx) c

theorem Transition.stack_after (hp : Placed w) (hw : ∀ c, (w.context c).Lockstep)
    (k : Transition raw w w') (hc : c < w.contexts.size) :
    ∃ ks, w'.stack c = (w.stack c).after ks := by
  have hsteps : ∀ {x y : Context}, x.StackSteps y → x.Lockstep →
      y.Lockstep ∧ ∃ ks, y.runStack = x.runStack.after ks := by
    intro x y hxy hx
    induction hxy with
    | refl => exact ⟨hx, [], rfl⟩
    | tail _ s ih =>
      obtain ⟨hy, ks, hks⟩ := ih
      obtain ⟨ks', hks'⟩ := s.after hy
      refine ⟨s.lockstep hy, ks ++ ks', ?_⟩
      rw [hks', hks, RunStack.after_append]
  rcases k.stackSteps hp with hs | ⟨x, -, hs⟩
  · exact (hsteps (hs c) (hw c)).2
  · refine ⟨[], ?_⟩
    unfold stack
    rw [context_of_push hs, if_neg (Nat.ne_of_lt hc)]
    rfl

theorem stack_restored (hw : ∀ c, (w.context c).Lockstep) {calls : List (ContextId × StackCall)}
    (hc : ∀ p ∈ calls, p.1 < w.contexts.size) (hlt : c < w.contexts.size)
    (hm : RunStack.Matched (RunStack.callsOn c calls)) (id : String) (marker : Option String)
    (merge : Bool) (marker' : Option String) :
    (w.runCalls ((c, .pushScope id marker) ::
      (calls ++ [(c, .popScope merge marker')]))).2.stack c = w.stack c := by
  have hall : ∀ p ∈ (c, StackCall.pushScope id marker) ::
      (calls ++ [(c, .popScope merge marker')]), p.1 < w.contexts.size := by
    intro p hp
    rcases List.mem_cons.1 hp with rfl | hp
    · exact hlt
    · rcases List.mem_append.1 hp with hp | hp
      · exact hc p hp
      · rw [List.mem_singleton.1 hp]
        exact hlt
  have hon : RunStack.callsOn c ((c, StackCall.pushScope id marker) ::
      (calls ++ [(c, .popScope merge marker')])) =
      .pushScope id marker :: (RunStack.callsOn c calls ++ [.popScope merge marker']) := by
    simp [RunStack.callsOn]
  rw [(runCalls_refines _ hw hall).2, RunStack.run_context, hon]
  exact hm.restored (w.stack c) id marker merge marker'

theorem popScope_implicit (hw : (w.context c).Lockstep) (hs : (w.context c).scopes ≠ [])
    (hl : (w.context c).saved = []) (merge : Bool) (marker : Option String) :
    (w.context c).ancestors = [] ∧
      (∃ s, (w.context c).scopes = [s] ∧ (w.stack c).implicit = some s.id) ∧
      ((w.popScope c merge marker).1.stack c) = { w.stack c with implicit := none } := by
  obtain ⟨s, x, hx⟩ := Context.popScope_of_scopes marker hs
  have hscopes := scopes_popScope hx
  obtain ⟨v, hv, hstack⟩ := popScope_stack hx merge
  have hcall := congrArg Prod.snd (hw.popScope hx merge marker)
  rcases hw with hw | ⟨ha, hw⟩
  · rw [hscopes, hl] at hw
    cases hw
  · have hnil : x.scopes = [] := by
      rw [hscopes, hl] at hw
      exact List.eq_nil_of_length_eq_zero (Nat.succ.inj hw)
    rw [hnil] at hscopes
    have hi : (w.stack c).implicit = some s.id := by
      unfold stack Context.runStack
      dsimp only
      rw [hl, hscopes]
      rfl
    refine ⟨ha, ⟨s, hscopes, hi⟩, ?_⟩
    rw [hv, hstack, Function.update_self]
    change _ = x.runStack at hcall
    have hb : (w.stack c).below = [] := hl
    rw [← hcall]
    unfold RunStack.call
    dsimp only
    unfold stack at hb hi ⊢
    rw [hb, hi]

/-- The bookkeeping of levels is that of stacks of runs. -/
theorem Reachable.levels_refine (h : Reachable raw admits w) :
    (∀ c, (w.context c).scopes.length =
        (w.context c).saved.length + (w.stack c).implicit.toList.length ∧
      ((w.context c).ancestors ≠ [] → (w.stack c).implicit = none)) ∧
    (∀ calls : List (ContextId × StackCall), (∀ p ∈ calls, p.1 < w.contexts.size) →
      (w.runCalls calls).1 = (RunStack.run w.stack calls).1 ∧
        (w.runCalls calls).2.stack = (RunStack.run w.stack calls).2 ∧
        ∀ c < w.contexts.size, RunStack.Matched (RunStack.callsOn c calls) →
          ∀ id marker merge marker', (w.runCalls ((c, .pushScope id marker) ::
            (calls ++ [(c, .popScope merge marker')]))).2.stack c = w.stack c) ∧
    (∀ w', Transition raw w w' → ∀ c < w.contexts.size,
      ∃ ks, w'.stack c = (w.stack c).after ks) ∧
    (∀ c, (w.context c).scopes ≠ [] → (w.context c).saved = [] → ∀ merge marker,
      (w.context c).ancestors = [] ∧
        (∃ s, (w.context c).scopes = [s] ∧ (w.stack c).implicit = some s.id) ∧
        ((w.popScope c merge marker).1.stack c) = { w.stack c with implicit := none }) ∧
    (∀ p label k, (w.addChild p label k).2.2.stack w.contexts.size = { top := k.toList }) ∧
    ∀ label s scope budget k, (w.addRoot label s scope budget k).2.stack w.contexts.size =
      { top := k.toList, implicit := some scope } := by
  have hl := h.lockstep
  refine ⟨fun c => ⟨(hl c).depth, (hl c).child⟩, fun calls hc => ?_, ?_, ?_, ?_, ?_⟩
  · obtain ⟨hreplies, hstacks⟩ := runCalls_refines calls hl hc
    exact ⟨hreplies, hstacks, fun c hlt hm => stack_restored hl hc hlt hm⟩
  · exact fun w' k c hc => k.stack_after h.placed hl hc
  · exact fun c hs hsaved => popScope_implicit (hl c) hs hsaved
  · intro p label k
    unfold stack
    rw [context_of_push rfl, if_pos rfl]
    rfl
  · intro label s scope budget k
    unfold stack
    rw [context_of_push (list_kept _ _).2.2.2, if_pos rfl]
    rfl

theorem ship_restored : ∃ w : World, Reachable False (fun _ => True) w ∧
    (w.runCalls [(0, .executeNext [.noop "bill"]), (0, .nextContinuation),
      (0, .pushScope "charge" none), (0, .executeNext [.noop "pay", .noop "mail"]),
      (0, .nextContinuation), (0, .popScope true none), (0, .popScope true none),
      (0, .nextContinuation), (0, .popScope true none)]).1 =
      [⟨.done, 2, 1⟩, ⟨.popped (some (.noop "bill")), 1, 1⟩, ⟨.done, 0, 2⟩, ⟨.done, 2, 2⟩,
        ⟨.popped (some (.noop "pay")), 1, 2⟩, ⟨.done, 1, 1⟩, ⟨.done, 1, 0⟩,
        ⟨.popped (some (.noop "ship")), 0, 0⟩, ⟨.underflow, 0, 0⟩] := by
  have h : Reachable False (fun _ => True)
      (rooted "order" "shop" "main" 1 (some (.noop "ship"))) := .rooted _ _ _ _ _ trivial trivial
  exact ⟨_, h, (h.levels_refine.2.1 _ (by decide)).1.trans rfl⟩

end World

end SagaEngine
