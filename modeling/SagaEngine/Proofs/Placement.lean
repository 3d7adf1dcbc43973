import SagaEngine.Proofs.Effects

/-! Every task works for a context that exists, in a session that exists, and the lineage of a context
goes back to older ones. -/

namespace SagaEngine.World

variable {w w' w'' : World} {raw : Prop} {admits : World → Prop}

/-- Contexts, sessions and tasks refer to what exists. -/
structure Placed (w : World) : Prop where
  listed : ∀ c ∈ w.names.listed, c < w.contexts.size
  tasks : ∀ (t : TaskId) (task : Task) (c : ContextId),
    w.tasks[t]? = some task → task.context? = some c → c < w.contexts.size
  sessions : ∀ c < w.contexts.size, (w.context c).session < w.sessions.size
  lineage : ∀ c p rest, (w.context c).ancestors = p :: rest →
    p < c ∧ (w.context p).ancestors = rest

namespace Placed

theorem empty : Placed {} where
  listed c hc := by simp at hc
  tasks t task c ht := by simp at ht
  sessions c hc := by simp at hc
  lineage c p rest h := by
    rw [context_of_size_le (Nat.zero_le c)] at h
    cases h

theorem steady (h : Placed w) (s : Steady w w') : Placed w' where
  listed c hc := by
    rw [s.size]
    exact (s.listed c hc).elim (h.listed c) id
  tasks t task c ht hc := by
    rw [s.tasks] at ht
    rw [s.size]
    exact h.tasks t task c ht hc
  sessions c hc := by
    rw [s.size] at hc
    rw [s.session, s.sessions]
    exact h.sessions c hc
  lineage c p rest hp := by
    rw [s.ancestors] at hp ⊢
    exact h.lineage c p rest hp

theorem withTasks (h : Placed w) (tasks : Array Task) (ready : List TaskId)
    (current : Option TaskId)
    (ht : ∀ (t : TaskId) (task : Task) (c : ContextId),
      tasks[t]? = some task → task.context? = some c → c < w.contexts.size) :
    Placed { w with tasks, ready, current } := { h with tasks := ht }

theorem setTask (h : Placed w) (t : TaskId) {task : Task}
    (ht : ∀ c, task.context? = some c → c < w.contexts.size) : Placed (w.setTask t task) := by
  refine h.withTasks _ w.ready w.current ?_
  intro u task' c hu hc
  simp only [Array.set!_eq_setIfInBounds, Array.getElem?_setIfInBounds] at hu
  split at hu
  · split at hu
    · cases hu
      exact ht c hc
    · cases hu
  · exact h.tasks u task' c hu hc

theorem spawnTask (h : Placed w) {task : Task}
    (ht : ∀ c, task.context? = some c → c < w.contexts.size) : Placed (w.spawnTask task) := by
  refine h.withTasks _ _ w.current ?_
  intro u task' c hu hc
  rw [Array.getElem?_push] at hu
  split at hu
  · cases hu
    exact ht c hc
  · exact h.tasks u task' c hu hc

theorem suspend (h : Placed w) : Placed w.suspend := h.withTasks _ _ _ h.tasks

theorem yieldTask (h : Placed w) (t : TaskId) : Placed (w.yieldTask t) := h.withTasks _ _ _ h.tasks

theorem loop (h : Placed w) {t : TaskId} {l : Loop} (ht : w.tasks[t]? = some (.loop l)) :
    l.context < w.contexts.size := h.tasks t _ _ ht rfl

end Placed

theorem context_push (w : World) (x : Context) (c : ContextId) :
    (w.addContext x).2.context c = if c = w.contexts.size then x else w.context c := by
  simp only [addContext, context, Array.getD_eq_getD_getElem?, Array.getElem?_push]
  split <;> rfl

theorem context_of_push {x : Context} (h : w'.contexts = w.contexts.push x) (c : ContextId) :
    w'.context c = if c = w.contexts.size then x else w.context c := by
  rw [← context_push w x c]
  simp only [context, h, addContext]

theorem Placed.addContext (h : Placed w) {x : Context} (hs : x.session < w.sessions.size)
    (ha : ∀ p rest, x.ancestors = p :: rest →
      p < w.contexts.size ∧ (w.context p).ancestors = rest) : Placed (w.addContext x).2 where
  listed c hc := by
    simp only [World.addContext, Array.size_push]
    exact Nat.lt_succ_of_lt (h.listed c hc)
  tasks t task c ht hc := by
    simp only [World.addContext, Array.size_push]
    exact Nat.lt_succ_of_lt (h.tasks t task c ht hc)
  sessions c hc := by
    simp only [World.addContext, Array.size_push] at hc
    rw [context_push]
    split
    · exact hs
    · rename_i hne
      exact h.sessions c (Nat.lt_of_le_of_ne (Nat.le_of_lt_succ hc) hne)
  lineage c p rest hp := by
    have hold : ∀ q, q < w.contexts.size → ((w.addContext x).2.context q) = w.context q :=
      fun q hq => by rw [context_push, if_neg (Nat.ne_of_lt hq)]
    rw [context_push] at hp
    split at hp
    · rename_i hc
      obtain ⟨hlt, hrest⟩ := ha p rest hp
      exact ⟨hc ▸ hlt, by rw [hold p hlt, hrest]⟩
    · obtain ⟨hlt, hrest⟩ := h.lineage c p rest hp
      have hc : c < w.contexts.size := by
        refine Nat.lt_of_not_le fun hge => ?_
        rw [context_of_size_le hge] at hp
        cases hp
      exact ⟨hlt, by rw [hold p (Nat.lt_trans hlt hc), hrest]⟩

theorem steady_modifyContext (w : World) (c : ContextId) (f : Context → Context)
    (hf : ∀ x, (f x).session = x.session ∧ (f x).ancestors = x.ancestors) :
    Steady w (w.modifyContext c f) where
  tasks := rfl
  current := rfl
  sessions := rfl
  size := contexts_size_modifyContext ..
  session := context_modifyContext_congr _ (fun x => (hf x).1) w c
  ancestors := context_modifyContext_congr _ (fun x => (hf x).2) w c
  listed _ hc := .inl hc

theorem Placed.addLoop (h : Placed w) {c : ContextId} (hc : c < w.contexts.size) (budget : Nat)
    (counted : Bool) : Placed (w.addLoop c budget counted) :=
  h.spawnTask fun d hd => by
    cases hd
    exact hc

theorem Placed.start (h : Placed w) {c : ContextId} (hc : c < w.contexts.size) :
    Placed (w.start c) := by
  unfold World.start
  dsimp only
  split
  · rename_i p _
    have hp := h.steady (steady_modifyContext w p
      (fun x => { x with activeChildren := x.activeChildren + 1 }) fun _ => ⟨rfl, rfl⟩)
    exact hp.addLoop (by simpa [childStarted] using hc) _ _
  · exact h.addLoop hc _ _

theorem Placed.openSession (h : Placed w) (id : String) :
    Placed (w.openSession id).2 ∧ (w.openSession id).1 < (w.openSession id).2.sessions.size := by
  unfold World.openSession
  split
  · rename_i s hs
    refine ⟨h, ?_⟩
    obtain ⟨hlt, -⟩ := Array.findIdx?_eq_some_iff_getElem.1 hs
    exact hlt
  · refine ⟨{ h with sessions := ?_ }, by simp⟩
    intro c hc
    simp only [Array.size_push]
    exact Nat.lt_succ_of_lt (h.sessions c hc)

theorem steady_beginReceive {c : ContextId} {ops : List String} {i : WaitId}
    (h : w.beginReceive c ops = .ok (i, w')) : Steady w w' := by
  have hr := (posts_request w (w.context c).session ops).steady
  unfold beginReceive at h
  split at h
  · cases h
  · dsimp only at h
    split at h
    · cases h
      exact hr.trans (signals_cancelIfKilled _ c _).steady
    · cases h
      exact hr

theorem posts_newLetter (w : World) (op : String) (v : Json) : Posts w (w.newLetter op v).2 :=
  posts_of_eq rfl rfl rfl rfl rfl rfl

theorem posts_forgetWait (w : World) (slot : String) : Posts w (w.forgetWait slot) :=
  posts_of_eq rfl rfl rfl rfl rfl rfl

theorem Placed.call (h : Placed w) (k : Call raw w w') : Placed w' := by
  cases k with
  | edit e => exact h.steady e.edits.steady
  | kill c f => exact h.steady (signals_kill w c f).steady
  | clearKill c => exact h.steady (signals_clearKill w c).steady
  | root label session scope budget k =>
    obtain ⟨hw, hs⟩ := h.openSession session
    have ha := hw.addContext (x :=
      { label := (w.openSession session).2.freshLabel label, session := (w.openSession session).1,
        sliceBudget := budget, scopes := [{ id := scope }], pending := k.toList }) hs (by simp)
    exact ha.steady (edits_list _ (by simp [World.addContext])).steady
  | child p label k hp =>
    refine h.addContext (h.sessions p hp) ?_
    rintro _ _ ⟨⟩
    exact ⟨hp, rfl⟩
  | start c hc => exact h.start hc
  | drive c budget hc => exact h.addLoop hc budget false
  | newHandle name => exact h.steady (posts_nameNewHandle w name).steady
  | dropHandle name => exact h.steady (posts_dropHandle w name).steady
  | register c i => exact h.steady (signals_cancelIfKilled w c i).steady
  | cancel i => exact h.steady (signals_cancelHandle w i).steady
  | deliver c op v hc =>
    exact h.steady ((posts_newLetter w op v).trans (posts_deliver _ _ _)).steady
  | receiver c tag ops hc =>
    refine h.spawnTask ?_
    rintro _ ⟨⟩
    exact hc
  | requeue c op v hr hc =>
    exact h.steady ((posts_newLetter w op v).trans (posts_requeue _ _ _)).steady
  | request c slot ops hr hc => exact h.steady (posts_requestInto w c slot ops).steady
  | dropWait slot i hr hi =>
    exact h.steady ((posts_closeWait w i).trans (posts_forgetWait _ slot)).steady
  | await slot i hr hi =>
    refine (h.steady (posts_forgetWait w slot).steady).spawnTask ?_
    rintro _ ⟨⟩

namespace Placed

theorem setLoop (h : Placed w) (t : TaskId) {l : Loop} (hl : l.context < w.contexts.size) :
    Placed (w.setLoop t l) :=
  h.setTask t fun c hc => by
    cases hc
    exact hl

theorem endLoop (h : Placed w) (t : TaskId) {l : Loop} (hl : l.context < w.contexts.size)
    (o : Outcome) : Placed (w.endLoop t l o) := by
  have hs : Placed (w.setLoop t { l with point := .ended o }) := h.setLoop t hl
  unfold World.endLoop
  dsimp only
  split
  · exact hs.suspend.steady (signals_childFinished _ _).steady
  · exact hs.suspend

theorem effect (h : Placed w) (e : Effect w w') : Placed w' := by
  cases e with
  | work e => exact h.steady e.edits.steady
  | takeEscalated c => exact h.steady (signals_takeEscalated w c).steady
  | takePermit c => exact h.steady (signals_takePermit w c).steady
  | runState c s => exact h.steady (signals_setRunState w c s).steady
  | kill c f => exact h.steady (signals_kill w c f).steady
  | escalate c f => exact h.steady (signals_escalate w c f).steady
  | pick t => exact h.withTasks _ _ _ h.tasks
  | goto hd hl =>
    have hc := h.loop hd.task
    exact h.setLoop _ (hl.1 ▸ hc)
  | yield hd hl =>
    have hc := h.loop hd.task
    exact (h.setLoop _ (hl.1 ▸ hc)).yieldTask _
  | @park t l hd =>
    have hc := h.loop hd.task
    have hs := signals_idle w l.context t
    exact ((h.steady hs.steady).setLoop t (hs.size ▸ hc)).suspend
  | finish o hd => exact h.endLoop _ (h.loop hd.task) o
  | halt => exact h.suspend
  | receive rest' receipt ops hr hb =>
    have hc := h.loop hr.2.1
    have hs := steady_beginReceive hb
    exact (h.steady hs).setLoop _ (hs.size ▸ hc)
  | @resume t l frame rest i _ r rest' _ ht =>
    have hc := h.loop ht
    have hp : Placed (w.setLoop t { l with point := .body frame rest' }) := h.setLoop t hc
    exact hp.steady (posts_endReceive _ l.context i r).steady
  | @sleep t task i =>
    unfold sleepOn
    split
    · exact ⟨h.listed, h.tasks, h.sessions, h.lineage⟩
    · exact h.suspend
  | beginReceipt hc ht hb =>
    have hs := steady_beginReceive hb
    refine (h.steady hs).setTask _ fun c hc => ?_
    cases hc
    exact hs.size ▸ h.tasks _ _ _ ht rfl
  | refuse => exact (h.setTask _ (fun c hc => by cases hc)).suspend
  | @endReceipt t c tag i r =>
    have hr := posts_record (w.endReceive c i r).1 (e := .received tag (w.endReceive c i r).2) rfl
    have hp := h.steady ((posts_endReceive w c i r).trans hr).steady
    exact (hp.setTask t (fun c hc => by cases hc)).suspend
  | @endAwait t slot i r =>
    have hr := posts_record (w.closeWait i).2 (e := .awaited slot r) rfl
    have hp := h.steady ((posts_closeWait w i).trans hr).steady
    exact (hp.setTask t (fun c hc => by cases hc)).suspend

theorem effects (h : Placed w) (e : Effects w w') : Placed w' := by
  induction e with
  | refl => exact h
  | tail _ e ih => exact ih.effect e

theorem transition (h : Placed w) (k : Transition raw w w') : Placed w' := by
  rcases k.effects fun _ _ => h.loop with ⟨-, k⟩ | k
  · exact h.call k
  · exact h.effects k

end Placed

theorem Reachable.placed (h : Reachable raw admits w) : Placed w := by
  induction h with
  | start => exact .empty
  | next _ k _ ih => exact ih.transition k

/-- What holds at the start, and is kept by the calls and the effects, holds in every run. -/
theorem Reachable.invariant {P : World → Prop} (start : P {})
    (call : ∀ {w w' : World}, Placed w → P w → admits w' → w.Awake → Call raw w w' → P w')
    (effect : ∀ {w w' : World}, Placed w → P w → Effect w w' → P w')
    (h : Reachable raw admits w) : P w := by
  -- the worlds inside a transition need not be admitted
  have hes : ∀ {w w' : World}, Placed w → P w → Effects w w' → P w' := by
    intro w w' hw hp e
    induction e with
    | refl => exact hp
    | tail es e ih => exact effect (hw.effects es) ih e
  induction h with
  | start => exact start
  | next h k ha ih =>
    rcases k.effects fun _ _ => h.placed.loop with ⟨hw, k⟩ | k
    · exact call h.placed ih ha hw k
    · exact hes h.placed ih k

def rooted (label session scope : String) (budget : Nat) (k : Option Continuation) : World where
  sessions := #[{ id := session }]
  contexts := #[{
    label, session := 0, sliceBudget := budget, scopes := [{ id := scope }], pending := k.toList }]
  names := { listed := #[0] }

theorem addRoot_empty (label session scope : String) (budget : Nat) (k : Option Continuation) :
    ((({} : World).openSession session).2.addRoot label (({} : World).openSession session).1 scope
      budget k).2 = rooted label session scope budget k := by
  have ho : ({} : World).openSession session = (0, { sessions := #[{ id := session }] }) := by
    simp [openSession, findSession?]
  rw [ho]
  simp [addRoot, addContext, freshLabel, hasLabel, list, rooted]

theorem Reachable.rooted (label session scope : String) (budget : Nat) (k : Option Continuation)
    (h : admits {}) (hr : admits (rooted label session scope budget k)) :
    Reachable raw admits (rooted label session scope budget k) := by
  refine (Reachable.start h).next (.call (.inl rfl) ?_) hr
  rw [← addRoot_empty]
  exact .root label session scope budget k

end SagaEngine.World
