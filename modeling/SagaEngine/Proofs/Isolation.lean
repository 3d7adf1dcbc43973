import SagaEngine.Proofs.Agreement

/-! Isolation of contexts. What an operation on a context does, and what the engine does in its drive
loop, depends on nothing but its lineage, its session and the handles involved; and next to nothing of
it is seen outside the context. -/

namespace SagaEngine.World

variable {w w' v v' : World} {c d : ContextId} {t : TaskId} {l : Loop} {H : Set HandleId}

/-! ## Steps of two worlds -/

/-- Two worlds agree on a context and on task `t`, which runs in both or in neither. -/
structure Abreast (r : Naming) (t : TaskId) (c : ContextId) (H : Set HandleId) (w v : World) :
    Prop extends Alike r c H w v where
  lt : t < w.tasks.size ∧ t < v.tasks.size
  task : v.tasks[t]? = w.tasks[t]?
  current : v.current = w.current

namespace Abreast

variable {r : Naming}

theorem steady (h : Abreast r t c H w v) (ha : Alike r c H w' v') (hw : Steady w w')
    (hv : Steady v v') : Abreast r t c H w' v' where
  toAlike := ha
  lt := by
    rw [hw.tasks, hv.tasks]
    exact h.lt
  task := by
    rw [hw.tasks, hv.tasks]
    exact h.task
  current := by
    rw [hw.current, hv.current]
    exact h.current

theorem setLoop (h : Abreast r t c H w v) (l : Loop) :
    Abreast r t c H (w.setLoop t l) (v.setLoop t l) where
  toAlike := h.toAlike.unseen ⟨rfl, rfl, rfl, rfl⟩ ⟨rfl, rfl, rfl, rfl⟩
  lt := by
    rw [size_setLoop, size_setLoop]
    exact h.lt
  task := by rw [getElem?_setLoop h.lt.1, getElem?_setLoop h.lt.2]
  current := h.current

theorem suspend (h : Abreast r t c H w v) : Abreast r t c H w.suspend v.suspend where
  toAlike := h.toAlike.unseen ⟨rfl, rfl, rfl, rfl⟩ ⟨rfl, rfl, rfl, rfl⟩
  lt := h.lt
  task := h.task
  current := rfl

theorem yieldTask (h : Abreast r t c H w v) : Abreast r t c H (w.yieldTask t) (v.yieldTask t) where
  toAlike := h.toAlike.unseen ⟨rfl, rfl, rfl, rfl⟩ ⟨rfl, rfl, rfl, rfl⟩
  lt := h.lt
  task := h.task
  current := rfl

theorem modify (h : Abreast r t c H w v) (f : Context → Context)
    (hf : ∀ x, ((f x).session = x.session ∧ (f x).ancestors = x.ancestors) ∧
      (f x).registry = x.registry ∧ f (x.renamed r) = (f x).renamed r) :
    Abreast r t c H (w.modifyContext c f) (v.modifyContext c f) := by
  have hs : ∀ u : World, Steady u (u.modifyContext c f) := fun u =>
    steady_modifyContext u c f fun x => (hf x).1
  have hm : Alike r c H (w.modifyContext c f) (v.modifyContext c f) := by
    obtain ⟨⟨hses, hanc⟩, hreg, hren⟩ := hf (w.context c)
    refine h.toAlike.modify hren hanc hses fun k hk => ?_
    rw [hreg] at hk
    exact h.registered c (.head _) k hk
  exact h.steady hm (hs w) (hs v)

theorem endLoop (h : Abreast r t l.context H w v) (o : Outcome) :
    Abreast r t l.context H (w.endLoop t l o) (v.endLoop t l o) := by
  have hs := (h.setLoop { l with point := .ended o }).suspend
  have hpar := hs.field (.head _) Context.parent? fun _ => rfl
  unfold World.endLoop
  dsimp only
  rw [hpar]
  split
  · exact hs.steady (hs.childFinished (Alike.parent_mem ‹_›)) (signals_childFinished _ _).steady
      (signals_childFinished _ _).steady
  · exact hs

theorem endKilled (h : Abreast r t l.context H w v) (f : Fault) :
    Abreast r t l.context H (w.endKilled t l f) (v.endKilled t l f) :=
  (h.modify (fun x => { x with runState := .killed }) fun _ => ⟨⟨rfl, rfl⟩, rfl, rfl⟩).endLoop (.killed f)

theorem raiseIn (h : Abreast r t l.context H w v) (f : Fault) (next next' : World → World)
    (hn : ∀ w' v', Abreast r t l.context H w' v' → Abreast r t l.context H (next w') (next' v')) :
    Abreast r t l.context H (w.raiseIn t l f next) (v.raiseIn t l f next') := by
  obtain ⟨ho, ha⟩ := h.toAlike.raise f
  have hr := h.steady ha (steady_raise w l.context f) (steady_raise v l.context f)
  unfold World.raiseIn
  generalize w.raise l.context f = x at ho hr ⊢
  generalize v.raise l.context f = y at ho hr ⊢
  obtain ⟨w₁, r⟩ := x
  obtain ⟨v₁, _⟩ := y
  cases ho
  cases r with
  | none => exact hn w₁ v₁ hr
  | some o => exact hr.endLoop o

theorem finishRound (h : Abreast r t c H w v) (l : Loop) :
    Abreast r t c H (w.finishRound t l) (v.finishRound t l) := by
  unfold World.finishRound
  split
  · exact (h.setLoop _).yieldTask
  · exact h.setLoop _

theorem failContinuation (h : Abreast r t l.context H w v) (f : Fault) :
    Abreast r t l.context H (w.failContinuation t l f) (v.failContinuation t l f) := by
  have hkiller := h.field (.head _) Context.killer fun _ => rfl
  have hescalated := h.field (.head _) Context.escalated fun _ => rfl
  unfold World.failContinuation
  dsimp only
  rw [hkiller, hescalated]
  cases (w.context l.context).killer with
  | some g => exact h.endKilled g
  | none =>
    have htaken := h.modify (fun x => { x with escalated := none })
        fun _ => ⟨⟨rfl, rfl⟩, rfl, rfl⟩
    exact htaken.raiseIn _ _ _ fun _ _ hr => hr.finishRound l

theorem startContinuation (h : Abreast r t l.context H w v) (k : Continuation) :
    Abreast r t l.context H (w.startContinuation t l k) (v.startContinuation t l k) := by
  have hrec : ∀ {w v : World}, Abreast r t l.context H w v →
      Abreast r t l.context H (w.record (.started l.context k)) (v.record (.started l.context k)) :=
    fun h => { h with toAlike := h.toAlike.record _ _ }
  have hlist : Abreast r t l.context H (w.list l.context) (v.list l.context) := by
    have hw := (edits_list w (h.exist _ (.head _)).1).steady
    have hv := (edits_list v (h.exist _ (.head _)).2).steady
    exact h.steady (h.toAlike.unseen (unseen_list w _) (unseen_list v _)) hw hv
  unfold World.startContinuation
  dsimp only
  split
  · exact (hrec hlist).setLoop _
  · exact (hrec h).setLoop _

theorem round (h : Abreast r t l.context H w v) :
    Abreast r t l.context H (w.round t l) (v.round t l) := by
  have hkiller := h.field (.head _) Context.killer fun _ => rfl
  have hescalated := h.field (.head _) Context.escalated fun _ => rfl
  have hpause := h.field (.head _) Context.pauseRequested fun _ => rfl
  have hpending := h.field (.head _) Context.pending fun _ => rfl
  have hchildren := h.field (.head _) Context.activeChildren fun _ => rfl
  have hpermit := h.field (.head _) Context.permit fun _ => rfl
  unfold World.round
  dsimp only
  rw [hkiller, hescalated, hpause, hpending]
  cases (w.context l.context).killer with
  | some f => exact h.endKilled f
  | none => cases he : (w.context l.context).escalated with
    | some f =>
      have htaken := h.modify (fun x => { x with escalated := none })
        fun _ => ⟨⟨rfl, rfl⟩, rfl, rfl⟩
      exact htaken.raiseIn f (fun u => u.setLoop t { l with point := .head })
        (fun u => u.setLoop t { l with point := .head }) fun _ _ hr => hr.setLoop _
    | none =>
      dsimp only
      split
      · exact ((h.modify (fun x => { x with pauseRequested := false, runState := .paused })
          fun _ => ⟨⟨rfl, rfl⟩, rfl, rfl⟩).setLoop _).yieldTask
      · cases (w.context l.context).pending with
        | cons k rest =>
          exact (h.modify (fun x => { x with pending := rest })
            fun _ => ⟨⟨rfl, rfl⟩, rfl, rfl⟩).startContinuation k
        | nil =>
          dsimp only
          rw [runDry_eq he, runDry_eq (hescalated.trans he), hchildren, hpermit]
          split
          · exact (h.modify (fun x => { x with runState := .completed })
              fun _ => ⟨⟨rfl, rfl⟩, rfl, rfl⟩).endLoop .completed
          · split
            · exact h.modify (fun x => { x with permit := false }) fun _ => ⟨⟨rfl, rfl⟩, rfl, rfl⟩
            · exact ((h.modify (fun x => { x with idle := x.idle ++ [t] })
                fun _ => ⟨⟨rfl, rfl⟩, rfl, rfl⟩).setLoop _).suspend

theorem loopStep (h : Abreast r t l.context H w v) (hl : l.point.inEngine = true) :
    Abreast r t l.context H (w.loopStep t l) (v.loopStep t l) := by
  have hrun := h.modify (fun x => { x with runState := .running }) fun _ => ⟨⟨rfl, rfl⟩, rfl, rfl⟩
  unfold World.loopStep
  cases hp : l.point with
  | fresh => exact hrun.setLoop _
  | head => exact h.round
  | paused => exact hrun.setLoop _
  | idle => exact h.setLoop _
  | ended o => exact h.suspend
  | body frame rest =>
    rw [hp] at hl
    cases hl
  | receiving frame rest i receipt =>
    rw [hp] at hl
    cases hl

end Abreast

/-! ## Operations -/

/-- The operations on a context; `look` and `readScope` stand for whatever is read off it. -/
inductive Operation : Type → Type 1 where
  | look {α : Type} (g : Context → α) : Operation α
  | readScope {α : Type} (f : Scope Installed → α) : Operation (Except EngineError α)
  | pushScope (id : String) (marker : Option String) : Operation (Option String)
  | popScope (merge : Bool) (marker : Option String) : Operation (Except EngineError Unit)
  | installHandler (fault : String) (k : Continuation) : Operation (Except EngineError Unit)
  | installCompensation (k : Continuation) : Operation (Except EngineError Unit)
  | lookupHandler (fault : String) (erase : Bool) :
      Operation (Except EngineError (Option Installed))
  | takeCompensation (id : String) : Operation (Except EngineError (Option Installed))
  | executeNext (ks : List Continuation) : Operation Unit
  | nextContinuation : Operation (Option Continuation)
  | discardPending : Operation Unit
  | pause : Operation Unit
  | takePause : Operation Bool
  | kill (f : Fault) : Operation Unit
  | clearKill : Operation Unit
  | cancelIfKilled (h : HandleId) : Operation Unit
  | liveCount : Operation Nat
  | beginReceive (ops : List String) : Operation (Except Fault WaitId)
  | endReceive (i : Nat) : Operation (Option (Except Fault Letter))
  | start : Operation (Option Task)

namespace Operation

def run {α : Type} (op : Operation α) (w : World) (c : ContextId) : α × World :=
  match op with
  | .look g => (g (w.context c), w)
  | .readScope f => (w.readScope c f, w)
  | .pushScope id marker => w.pushScope c id marker
  | .popScope merge marker => (w.popScope c merge marker).swap
  | .installHandler fault k => (w.installHandler c fault k).swap
  | .installCompensation k => (w.installCompensation c k).swap
  | .lookupHandler fault erase => (w.lookupHandler c fault erase).swap
  | .takeCompensation id => (w.takeCompensation c id).swap
  | .executeNext ks => ((), w.modifyContext c fun x => x.executeNext ks)
  | .nextContinuation =>
    let (k, x) := (w.context c).nextContinuation
    (k, w.modifyContext c fun _ => x)
  | .discardPending => ((), w.modifyContext c Context.discardPending)
  | .pause => ((), w.modifyContext c fun x => { x with pauseRequested := true })
  | .takePause =>
    ((w.context c).pauseRequested, w.modifyContext c fun x => { x with pauseRequested := false })
  | .kill f => ((), w.kill c f)
  | .clearKill => ((), w.clearKill c)
  | .cancelIfKilled h => ((), w.cancelIfKilled c h)
  | .liveCount => ((w.context c).registry.liveCount w.handles, w)
  | .beginReceive ops => match w.beginReceive c ops with
    | .error f => (.error f, w)
    | .ok (i, w) => (.ok i, w)
  | .endReceive i =>
    let wait : WaitId := ⟨(w.context c).session, i⟩
    match w.resolution? wait with
    | none => (none, w)
    | some r => let (w, result) := w.endReceive c wait r; (some result, w)
  | .start => ((w.start c).tasks[w.tasks.size]?, w.start c)

def handle? {α : Type} : Operation α → Option HandleId
  | .cancelIfKilled h => some h
  | _ => none

def renamed {α : Type} (r : Naming) (op : Operation α) : Operation α :=
  match op with
  | .cancelIfKilled h => .cancelIfKilled (r.handle h)
  | op => op

def answer {α : Type} (r : Naming) (op : Operation α) : α → α :=
  match op with
  | .lookupHandler _ _ => Except.map (Option.map (Installed.renamed r))
  | .takeCompensation _ => Except.map (Option.map (Installed.renamed r))
  | _ => id

def Blind {α : Type} (r : Naming) (op : Operation α) : Prop :=
  match op with
  | .look g => ∀ x : Context, g (x.renamed r) = g x
  | .readScope f => ∀ s : Scope Installed, f (s.renamed r) = f s
  | _ => True

theorem renamed_same {α : Type} (op : Operation α) : op.renamed .same = op := by
  cases op <;> rfl

theorem answer_same {α : Type} (op : Operation α) (a : α) : op.answer .same a = a := by
  have hmap : ∀ a : Except EngineError (Option Installed),
      Except.map (Option.map (Installed.renamed .same)) a = a := by
    rintro (_ | _ | _) <;> rfl
  cases op with
  | lookupHandler fault erase => exact hmap a
  | takeCompensation id => exact hmap a
  | _ => rfl

theorem blind_same {α : Type} (op : Operation α) : op.Blind .same := by
  cases op with
  | look g => exact fun x => congrArg g x.renamed_same
  | readScope f => exact fun s => congrArg f s.renamed_same
  | _ => trivial

end Operation

theorem Alike.start {r : Naming} (h : Alike r c H w v) : Alike r c H (w.start c) (v.start c) := by
  have hadd : ∀ {w v : World} b k, Alike r c H w v →
      Alike r c H (w.addLoop c b k) (v.addLoop c b k) :=
    fun _ _ h => h.unseen ⟨rfl, rfl, rfl, rfl⟩ ⟨rfl, rfl, rfl, rfl⟩
  have hpar := h.field (.head _) Context.parent? fun _ => rfl
  have hbudget := h.field (.head _) Context.sliceBudget fun _ => rfl
  unfold World.start
  dsimp only
  rw [hpar, hbudget]
  split
  · rename_i p hp
    have hs : Alike r c H (w.childStarted p) (v.childStarted p) :=
      h.modify rfl rfl rfl (h.registered p (Alike.parent_mem hp))
    exact hadd _ true hs
  · exact hadd _ false h

theorem start_task (w : World) (c : ContextId) : (w.start c).tasks[w.tasks.size]? =
    some (.loop {
      context := c, budget := max (w.context c).sliceBudget 1
      counted := (w.context c).parent?.isSome }) := by
  unfold World.start
  dsimp only
  cases (w.context c).parent? with
  | none => exact Array.getElem?_push_size
  | some p => exact Array.getElem?_push_size

theorem Alike.liveCount {r : Naming} (h : Alike r c H w v) :
    (v.context c).registry.liveCount v.handles = (w.context c).registry.liveCount w.handles := by
  rw [h.self]
  refine List.countP_map.trans (List.countP_congr fun k hk => ?_)
  rw [Function.comp_apply, h.isLive (h.registered c (.head _) k hk)]

theorem Operation.agrees {α : Type} {r : Naming} (op : Operation α) (h : Alike r c H w v)
    (hp : Placed w) (hk : ∀ k, op.handle? = some k → k ∈ H) (hb : op.Blind r) :
    ((op.renamed r).run v c).1 = op.answer r (op.run w c).1 ∧
      Alike r c H (op.run w c).2 ((op.renamed r).run v c).2 := by
  have hr := h.registered c (.head _)
  cases op with
  | look g => exact ⟨h.field (.head _) g hb, h⟩
  | readScope f => exact ⟨h.readScope f hb, h⟩
  | pushScope id marker =>
    exact ⟨h.field (.head _) Context.marker fun _ => rfl, h.modify rfl rfl rfl hr⟩
  | popScope merge marker => exact h.popScope hp merge marker
  | installHandler fault k =>
    exact h.install .handler k fun x s => Scope.installHandler_map _ s fault x
  | installCompensation k =>
    exact h.install .compensation k fun x s => Scope.installCompensation_map _ s x
  | lookupHandler fault erase =>
    exact h.updateScope (fun _ he => he) _ _ fun s => Scope.lookup_map _ s fault erase
  | takeCompensation id =>
    exact h.updateScope (fun _ he => he) _ _ fun s => Scope.takeCompensation_map _ s id
  | executeNext ks => exact ⟨rfl, h.modify rfl rfl rfl hr⟩
  | nextContinuation =>
    unfold Operation.renamed Operation.run
    dsimp only
    rw [h.self, Context.nextContinuation_renamed]
    exact ⟨rfl, h.replace (bare_nextContinuation _)⟩
  | discardPending => exact ⟨rfl, h.modify rfl rfl rfl hr⟩
  | pause => exact ⟨rfl, h.modify rfl rfl rfl hr⟩
  | takePause =>
    exact ⟨h.field (.head _) Context.pauseRequested fun _ => rfl, h.modify rfl rfl rfl hr⟩
  | kill f =>
    unfold Operation.renamed Operation.run
    dsimp only
    exact ⟨rfl, h.kill (.head _) f⟩
  | clearKill => exact ⟨rfl, h.modify rfl rfl rfl hr⟩
  | cancelIfKilled k => exact ⟨rfl, h.cancelIfKilled (.head _) (hk k rfl)⟩
  | liveCount => exact ⟨h.liveCount, h⟩
  | beginReceive ops =>
    unfold Operation.renamed Operation.run
    dsimp only
    rcases h.beginReceive ops with ⟨f, hw, hv⟩ | ⟨i, w', v', hw, hv, ha⟩
    · rw [hw, hv]
      exact ⟨rfl, h⟩
    · rw [hw, hv]
      exact ⟨rfl, ha⟩
  | endReceive i =>
    have hses := h.field (.head _) Context.session fun _ => rfl
    unfold Operation.renamed Operation.run
    dsimp only
    rw [hses, h.resolution i]
    cases w.resolution? ⟨(w.context c).session, i⟩ with
    | none => exact ⟨rfl, h⟩
    | some a =>
      obtain ⟨he, ha⟩ := h.endReceive i a
      exact ⟨congrArg some he, ha⟩
  | start =>
    have hpar := h.field (.head _) Context.parent? fun _ => rfl
    have hbudget := h.field (.head _) Context.sliceBudget fun _ => rfl
    refine ⟨?_, h.start⟩
    unfold Operation.renamed Operation.run
    dsimp only
    rw [start_task, start_task, hpar, hbudget]
    rfl

/-! ## Beyond the context -/

/-- How far a change reaches that is made for a context. -/
inductive Reach where
  | home
  | scope
  | count
  | parent
deriving DecidableEq

def ownerAbove? (w : World) (c : ContextId) : Option ContextId :=
  (w.context c).ancestors.find? w.hasScope

/-- What may become of a strict ancestor `d` of `c`. -/
inductive Touched (w : World) (c d : ContextId) : Reach → Context → Prop where
  | scope {s s' : Scope Installed} {below : List (Scope Installed)} :
      w.ownerAbove? c = some d → (w.context d).scopes = s :: below → s'.id = s.id →
      Touched w c d .scope { w.context d with scopes := s' :: below }
  | count {n : Nat} {permit : Bool} {idle : List TaskId} :
      (w.context c).parent? = some d →
      Touched w c d .count { w.context d with activeChildren := n, permit, idle }
  | parent {n : Nat} {permit : Bool} {idle : List TaskId} {killer escalated : Option Fault}
      {registry : Registry} :
      (w.context c).parent? = some d →
      Touched w c d .parent { w.context d with
        activeChildren := n, permit, idle, killer, escalated, registry }

structure Confined (r : Reach) (c : ContextId) (w w' : World) : Prop where
  outside : ∀ d, d ∉ w.lineage c → w'.context d = w.context d
  above : ∀ d ∈ (w.context c).ancestors, w'.context d = w.context d ∨ Touched w c d r (w'.context d)

theorem Touched.mem {r : Reach} {x : Context} (h : Touched w c d r x) :
    d ∈ (w.context c).ancestors := by
  cases h with
  | scope ho => exact List.mem_of_find?_eq_some ho
  | count hp => exact List.mem_of_head? hp
  | parent hp => exact List.mem_of_head? hp

theorem ancestor_lt (hp : Placed w) (hd : d ∈ (w.context c).ancestors) : d < c := by
  rcases ha : (w.context c).ancestors with _ | ⟨p, rest⟩
  · rw [ha] at hd
    cases hd
  · obtain ⟨hlt, hrest⟩ := hp.lineage c p rest ha
    have hmem : d ∈ w.lineage p := by
      rw [lineage, hrest]
      exact ha ▸ hd
    exact Nat.lt_of_le_of_lt (lineage_le hp p d hmem) hlt

theorem confined_of_others {r : Reach} (hp : Placed w)
    (h : ∀ d, d ≠ c → w'.context d = w.context d ∨ Touched w c d r (w'.context d)) :
    Confined r c w w' where
  outside d hd := by
    have hne : d ≠ c := fun hdc => hd (hdc ▸ .head _)
    exact (h d hne).resolve_right fun ht => hd (.tail _ ht.mem)
  above d hd := h d (Nat.ne_of_lt (ancestor_lt hp hd))

theorem confined_home (hp : Placed w) (r : Reach) (h : ∀ d, d ≠ c → w'.context d = w.context d) :
    Confined r c w w' := confined_of_others hp fun d hd => .inl (h d hd)

theorem confined_modify (hp : Placed w) (r : Reach) (f : Context → Context) :
    Confined r c w (w.modifyContext c f) :=
  confined_home hp r fun _ hd => context_modifyContext_of_ne w f hd

theorem Confined.of_contexts {r : Reach} (h : Confined r c w w') (hv : ∀ d, v.context d = w'.context d) :
    Confined r c w v where
  outside d hd := (hv d).trans (h.outside d hd)
  above d hd := by
    rw [hv]
    exact h.above d hd

/-! ### Scopes -/

theorem updateScope_others {α : Type} {f : Scope Installed → α × Scope Installed}
    (hf : ∀ s, (f s).2.id = s.id) (hd : d ≠ c) :
    (w.updateScope c f).1.context d = w.context d ∨
      (w.context c).scopes = [] ∧ Touched w c d .scope ((w.updateScope c f).1.context d) := by
  rcases updateScope_cases w c f with ⟨o, s, below, ho, hs, hu⟩ | hu
  · rw [hu]
    unfold setTopScope
    rw [context_modifyContext', seen]
    split
    · rename_i hdo
      obtain ⟨rfl, -⟩ := hdo
      have hnil : (w.context c).scopes = [] := by
        rcases hc : (w.context c).scopes with _ | ⟨s', below'⟩
        · rfl
        · rw [scopeOwner_own hc] at ho
          exact absurd (Option.some.inj ho).symm hd
      have habove : w.ownerAbove? c = some d := by
        unfold scopeOwner? lineage at ho
        rwa [List.find?_cons, hasScope_of_nil hnil] at ho
      have ht := Touched.scope habove hs (hf s)
      rw [hs, List.tail_cons]
      exact .inr ⟨hnil, ht⟩
    · exact .inl rfl
  · rw [hu]
    exact .inl rfl

theorem confined_updateScope {α : Type} (hp : Placed w) {f : Scope Installed → α × Scope Installed}
    (hf : ∀ s, (f s).2.id = s.id) :
    Confined (if (w.context c).scopes.isEmpty then .scope else .home) c w (w.updateScope c f).1 := by
  refine confined_of_others hp fun d hd => ?_
  rcases updateScope_others hf hd with h | ⟨hs, ht⟩
  · exact .inl h
  · rw [if_pos (List.isEmpty_iff.2 hs)]
    exact .inr ht

theorem context_install (w : World) (c d : ContextId) (role : Role) (k : Continuation)
    (put : Installed → Scope Installed → Scope Installed) :
    (w.install c role k put).1.context d =
      (w.updateScope c fun s => ((), put ⟨w.history.size, k⟩ s)).1.context d := by
  unfold World.install
  dsimp only
  split
  · rename_i v hv
    rw [hv]
    rfl
  · rfl

theorem confined_install (hp : Placed w) (role : Role) (k : Continuation)
    {put : Installed → Scope Installed → Scope Installed} (hput : ∀ x s, (put x s).id = s.id) :
    Confined (if (w.context c).scopes.isEmpty then .scope else .home) c w
      (w.install c role k put).1 := by
  have hu := confined_updateScope (c := c) hp
    (f := fun s => ((), put ⟨w.history.size, k⟩ s)) fun s => hput _ s
  exact hu.of_contexts fun d => context_install w c d role k put

theorem id_takeHandler (s : Scope Installed) (fault : String) : (s.takeHandler fault).2.id = s.id := by
  unfold Scope.takeHandler
  split <;> rfl

theorem id_lookup (s : Scope Installed) (fault : String) (erase : Bool) :
    (s.lookup fault erase).2.id = s.id := by
  unfold Scope.lookup
  split
  · exact id_takeHandler s fault
  · rfl

theorem mergeUpward_eq (hp : Placed w) (hs : (w.context c).scopes = []) (s : Scope Installed) :
    w.mergeUpward c s = (w.updateScope c fun outer => ((), outer.mergeCompensations s)).1 := by
  unfold mergeUpward
  rw [updateScope_eq w c, scopeOwner_parent hp hs]
  cases (w.context c).parent? with
  | none => rfl
  | some p => exact updateScope_eq w p _

theorem Touched.of_replaced {x y : Context} (hp : Placed w) (hc : c < w.contexts.size)
    (hx : x.ancestors = (w.context c).ancestors) (hd : d ≠ c)
    (h : Touched (w.modifyContext c fun _ => x) c d .scope y) : Touched w c d .scope y := by
  have hother : ∀ e, e ≠ c → (w.modifyContext c fun _ => x).context e = w.context e := fun _ he =>
    context_modifyContext_of_ne w _ he
  have habove : (w.modifyContext c fun _ => x).ownerAbove? c = w.ownerAbove? c := by
    unfold ownerAbove?
    rw [context_modifyContext_self _ hc, hx]
    refine List.find?_congr fun e he => ?_
    unfold hasScope
    rw [hother e (Nat.ne_of_lt (ancestor_lt hp he))]
  cases h with
  | @scope s s' below ho hs hid =>
    rw [hother d hd] at hs ⊢
    exact .scope (habove ▸ ho) hs hid

theorem scopes_popScope {x y : Context} {marker : Option String} {s : Scope Installed}
    (h : x.popScope? marker = some (s, y)) : x.scopes = s :: y.scopes := by
  unfold Context.popScope? at h
  split at h
  · cases h
  · rename_i hs
    simp only [Option.some.injEq, Prod.mk.injEq] at h
    obtain ⟨rfl, rfl⟩ := h
    rw [hs]
    split <;> rfl

theorem confined_popScope (hp : Placed w) (hc : c < w.contexts.size) (merge : Bool)
    (marker : Option String) :
    Confined (if merge ∧ (w.context c).scopes.length = 1 then .scope else .home) c w
      (w.popScope c merge marker).1 := by
  unfold World.popScope
  rcases hx : (w.context c).popScope? marker with _ | ⟨s, x⟩
  · exact confined_home hp _ fun _ _ => rfl
  · have hscopes := scopes_popScope hx
    have hp' := hp.steady (edits_replaceContext w c (bare_popScope hx)).steady
    have hanc : x.ancestors = (w.context c).ancestors := by
      change x.bare.ancestors = (w.context c).bare.ancestors
      rw [bare_popScope hx]
    cases merge with
    | false => exact confined_modify hp _ _
    | true =>
      dsimp only
      rcases hs : x.scopes with _ | ⟨outer, below⟩
      · have hself : ((w.modifyContext c fun _ => x).context c).scopes = [] := by
          rw [context_modifyContext_self _ hc, hs]
        rw [mergeUpward_eq hp' hself, hscopes, hs, if_pos ⟨rfl, rfl⟩]
        refine confined_of_others hp fun d hd => ?_
        rcases updateScope_others (w := w.modifyContext c fun _ => x)
          (f := fun outer => ((), outer.mergeCompensations s)) (fun _ => rfl) hd with h | ⟨-, ht⟩
        · rw [h]
          exact .inl (context_modifyContext_of_ne w _ hd)
        · exact .inr (ht.of_replaced hp hc hanc hd)
      · refine confined_home hp _ fun d hd => ?_
        unfold setTopScope
        rw [context_modifyContext_of_ne _ _ hd, context_modifyContext_of_ne _ _ hd]

/-! ### Operations -/

theorem context_beginReceive {ops : List String} {r : WaitId × World}
    (h : w.beginReceive c ops = .ok r) (hd : d ≠ c) : r.2.context d = w.context d := by
  have hr := (posts_request w (w.context c).session ops).context d
  unfold World.beginReceive at h
  split at h
  · cases h
  · dsimp only at h
    split at h
    · cases h
      rw [context_cancelIfKilled, seen_of_ne _ hd]
      exact hr
    · cases h
      exact hr

def Operation.reach {α : Type} (x : Context) : Operation α → Reach
  | .installHandler _ _ | .installCompensation _ | .lookupHandler _ _ | .takeCompensation _ =>
    if x.scopes.isEmpty then .scope else .home
  | .popScope merge _ => if merge ∧ x.scopes.length = 1 then .scope else .home
  | .start => .count
  | _ => .home

theorem confined_start (hp : Placed w) : Confined .count c w (w.start c) := by
  unfold World.start
  dsimp only
  split
  · rename_i p hpar
    refine confined_of_others hp fun d hd => ?_
    change (w.childStarted p).context d = _ ∨ Touched w c d .count ((w.childStarted p).context d)
    unfold childStarted
    rw [context_modifyContext', seen]
    split
    · rename_i hdp
      obtain ⟨rfl, -⟩ := hdp
      exact .inr (.count hpar)
    · exact .inl rfl
  · exact confined_home hp _ fun _ _ => rfl

theorem Operation.confined {α : Type} (op : Operation α) (hp : Placed w) (hc : c < w.contexts.size) :
    Confined (op.reach (w.context c)) c w (op.run w c).2 := by
  have hsame : ∀ r, Confined r c w w := fun r => confined_home hp r fun _ _ => rfl
  cases op with
  | look g => exact hsame _
  | readScope f => exact hsame _
  | pushScope id marker => exact confined_modify hp _ _
  | popScope merge marker => exact confined_popScope hp hc merge marker
  | installHandler fault k => exact confined_install hp .handler k fun _ _ => rfl
  | installCompensation k => exact confined_install hp .compensation k fun _ _ => rfl
  | lookupHandler fault erase => exact confined_updateScope hp fun s => id_lookup s fault erase
  | takeCompensation id => exact confined_updateScope hp fun _ => rfl
  | executeNext ks => exact confined_modify hp _ _
  | nextContinuation => exact confined_modify hp _ _
  | discardPending => exact confined_modify hp _ _
  | pause => exact confined_modify hp _ _
  | takePause => exact confined_modify hp _ _
  | kill f =>
    unfold Operation.run
    dsimp only
    refine confined_home hp _ fun d hd => ?_
    exact (context_kill w c d f).trans (seen_of_ne _ hd)
  | clearKill => exact confined_modify hp _ _
  | cancelIfKilled h =>
    unfold Operation.run
    refine confined_home hp _ fun d hd => ?_
    exact (context_cancelIfKilled w c d h).trans (seen_of_ne _ hd)
  | liveCount => exact hsame _
  | beginReceive ops =>
    unfold Operation.run
    dsimp only
    cases hb : w.beginReceive c ops with
    | error f => exact hsame _
    | ok r => exact confined_home hp _ fun d hd => context_beginReceive hb hd
  | endReceive i =>
    unfold Operation.run
    dsimp only
    split
    · exact hsame _
    · exact confined_home hp _ fun d _ => (posts_endReceive w c _ _).context d
  | start => exact confined_start hp

/-! ### Steps of the drive loop -/

inductive EngineStep where
  | drive
  | finish
  | fail (f : Fault)

def EngineStep.run (k : EngineStep) (w : World) (t : TaskId) (l : Loop) : World :=
  match k with
  | .drive => w.loopStep t l
  | .finish => w.finishRound t l
  | .fail f => w.failContinuation t l f

theorem EngineStep.agrees {r : Naming} (k : EngineStep) (h : Abreast r t l.context H w v)
    (hk : k = .drive → l.point.inEngine = true) :
    Abreast r t l.context H (k.run w t l) (k.run v t l) := by
  cases k with
  | drive => exact h.loopStep (hk rfl)
  | finish => exact h.finishRound l
  | fail f => exact h.failContinuation f

def Reach.ofEnd : Option Outcome → Reach
  | none => .home
  | some (.escalated _) => .parent
  | some _ => .count

def Settles (t : TaskId) (c : ContextId) (w w' : World) : Prop :=
  ∃ l, w'.tasks[t]? = some (.loop l) ∧ Confined (Reach.ofEnd (outcome? l)) c w w'

theorem settles_home (hp : Placed w) (ht : w'.tasks[t]? = some (.loop l))
    (h : ∀ d, d ≠ c → w'.context d = w.context d) : Settles t c w w' :=
  ⟨l, ht, confined_home hp _ h⟩

theorem endLoop_others (w : World) (t : TaskId) (l : Loop) (o : Outcome) (d : ContextId) :
    (w.endLoop t l o).context d = w.context d ∨
      (w.context l.context).parent? = some d ∧ ∃ n permit idle,
        (w.endLoop t l o).context d = { w.context d with activeChildren := n, permit, idle } := by
  unfold endLoop
  dsimp only
  split
  · rename_i p _ hpar
    rw [context_childFinished, seen]
    split
    · rename_i hd
      obtain ⟨rfl, -⟩ := hd
      refine .inr ⟨hpar, ?_⟩
      unfold Context.notified
      split
      · exact ⟨_, _, _, rfl⟩
      · exact ⟨_, _, _, rfl⟩
    · exact .inl rfl
  · exact .inl rfl

theorem settles_end (hp : Placed w) (ht : t < v.tasks.size) (o : Outcome)
    (hpar : (v.context l.context).parent? = (w.context l.context).parent?)
    (h : ∀ d, d ≠ l.context → v.context d = w.context d ∨
      (∃ f, o = .escalated f) ∧ Touched w l.context d .parent (v.context d)) :
    Settles t l.context w (v.endLoop t l o) := by
  refine ⟨{ l with point := .ended o }, ?_, confined_of_others hp fun d hd => ?_⟩
  · rw [endLoop_tasks]
    exact getElem?_setLoop ht _
  -- a parent that has been handed the fault is the one that counts its children
  rcases h d hd with hv | ⟨⟨f, rfl⟩, hv⟩
  · rcases endLoop_others v t l o d with he | ⟨hd', n, permit, idle, he⟩
    · exact .inl (he.trans hv)
    · rw [he, hv]
      cases o with
      | escalated f => exact .inr (.parent (hpar ▸ hd'))
      | _ => exact .inr (.count (hpar ▸ hd'))
  · rcases endLoop_others v t l (.escalated f) d with he | ⟨hd', n, permit, idle, he⟩
    · rw [he]
      exact .inr hv
    · rw [he]
      generalize v.context d = x at hv
      cases hv with
      | parent hd' => exact .inr (.parent hd')

theorem escalatedContext_eq (x : Context) (f : Fault) : ∃ permit idle killer escalated registry,
    escalatedContext x f = { x with permit, idle, killer, escalated, registry } := by
  have hn : ∀ x : Context, ∃ permit idle, x.notified = { x with permit, idle } := fun x => by
    unfold Context.notified
    split
    · exact ⟨_, _, rfl⟩
    · exact ⟨_, _, rfl⟩
  unfold escalatedContext
  split
  · obtain ⟨permit, idle, h⟩ := hn (x.killed f).drained
    obtain ⟨permit', idle', h'⟩ := hn (x.killed f).drained.notified
    rw [h', h]
    exact ⟨_, _, _, _, _, rfl⟩
  · obtain ⟨permit, idle, h⟩ := hn (x.escalatedTo f).drained
    rw [h]
    exact ⟨_, _, _, _, _, rfl⟩

theorem raise_others (f : Fault) (hd : d ≠ c) :
    (w.raise c f).1.context d = w.context d ∨
      (∃ g, (w.raise c f).2 = some (.escalated g)) ∧
        Touched w c d .parent ((w.raise c f).1.context d) := by
  rcases hx : (w.context c).unwind f.name with ⟨_ | k, x⟩
  -- a fault that nothing handles goes up, one that is handled stays in the context
  · have hfall : (w.fallen c f x).context d = w.context d := by
      rw [context_fallen, seen_of_ne _ hd]
    have hanc : ((w.fallen c f x).context c).parent? = (w.context c).parent? :=
      congrArg List.head? ((steady_fallen hx).ancestors c)
    rcases raise_uncaught hx with hr | ⟨p, hpar, hr⟩
    · rw [hr]
      exact .inl hfall
    · rw [hr]
      rw [hanc] at hpar
      generalize w.fallen c f x = u at hfall
      dsimp only
      rw [context_escalate, seen, hfall]
      split
      · rename_i hdp
        obtain ⟨rfl, -⟩ := hdp
        obtain ⟨permit, idle, killer, escalated, registry, he⟩ := escalatedContext_eq (w.context d) f
        rw [he]
        exact .inr ⟨⟨f, rfl⟩, .parent hpar⟩
      · exact .inl rfl
  · rw [raise_caught hx]
    refine .inl ?_
    change ((w.modifyContext c fun _ => x).modifyContext c _).context d = _
    rw [context_modifyContext_of_ne _ _ hd, context_modifyContext_of_ne _ _ hd]

theorem Touched.of_parent {y : Context} (hpar : (v.context c).parent? = (w.context c).parent?)
    (hd : v.context d = w.context d) (h : Touched v c d .parent y) : Touched w c d .parent y := by
  cases h with
  | parent hp =>
    rw [hd]
    exact .parent (hpar ▸ hp)

theorem settles_raiseIn (hp : Placed w) (ht : t < w.tasks.size) (f : Fault) (next : World → World)
    (hv : ∀ d, d ≠ l.context → v.context d = w.context d) (hs : Steady w v)
    (hn : ∀ u : World, t < u.tasks.size → ∃ m, outcome? m = none ∧
      (next u).tasks[t]? = some (.loop m) ∧ ∀ d, (next u).context d = u.context d) :
    Settles t l.context w (v.raiseIn t l f next) := by
  have hr := hs.trans (steady_raise v l.context f)
  have ho : ∀ d, d ≠ l.context → (v.raise l.context f).1.context d = w.context d ∨
      (∃ g, (v.raise l.context f).2 = some (.escalated g)) ∧
        Touched w l.context d .parent ((v.raise l.context f).1.context d) := by
    intro d hd
    have hd' := raise_others (w := v) f hd
    rw [hv d hd] at hd'
    exact hd'.imp_right fun h => ⟨h.1, h.2.of_parent (congrArg List.head? (hs.ancestors _)) (hv d hd)⟩
  have hpar : ((v.raise l.context f).1.context l.context).parent? =
      (w.context l.context).parent? := congrArg List.head? (hr.ancestors l.context)
  unfold raiseIn
  generalize v.raise l.context f = r at hr ho hpar ⊢
  obtain ⟨u, _ | o⟩ := r
  · obtain ⟨m, hm, htm, hctx⟩ := hn u (hr.tasks ▸ ht)
    refine ⟨m, htm, confined_home hp _ fun d hd => (hctx d).trans ?_⟩
    exact (ho d hd).resolve_right fun h => by cases h.1.choose_spec
  · refine settles_end hp (hr.tasks ▸ ht) o hpar fun d hd => ?_
    exact (ho d hd).imp_right fun h => ⟨h.1.imp fun _ => Option.some.inj, h.2⟩

theorem finishRound_goes (w : World) (ht : t < w.tasks.size) (l : Loop) : ∃ m, outcome? m = none ∧
    (w.finishRound t l).tasks[t]? = some (.loop m) ∧
    ∀ d, (w.finishRound t l).context d = w.context d := by
  unfold finishRound
  split
  · exact ⟨{ l with slice := 0, point := .head }, rfl, getElem?_setLoop ht _, fun _ => rfl⟩
  · exact ⟨{ l with slice := l.slice + 1, point := .head }, rfl, getElem?_setLoop ht _, fun _ => rfl⟩

theorem modify_others (w : World) (c : ContextId) (f : Context → Context) :
    ∀ d, d ≠ c → (w.modifyContext c f).context d = w.context d := fun _ hd =>
  context_modifyContext_of_ne w f hd

theorem settles_modify_end (hp : Placed w) (ht : t < w.tasks.size) (o : Outcome)
    (f : Context → Context) (ha : ∀ x, (f x).ancestors = x.ancestors) :
    Settles t l.context w ((w.modifyContext l.context f).endLoop t l o) :=
  settles_end (v := w.modifyContext l.context f) hp ht o
    (congrArg List.head? (context_modifyContext_congr Context.ancestors ha w l.context l.context))
    fun d hd => .inl (modify_others w _ f d hd)

theorem settles_fail (hp : Placed w) (ht : t < w.tasks.size) (f : Fault) :
    Settles t l.context w (w.failContinuation t l f) := by
  unfold failContinuation
  dsimp only
  cases (w.context l.context).killer with
  | some g => exact settles_modify_end hp ht _ (fun x => { x with runState := .killed }) fun _ => rfl
  | none =>
    exact settles_raiseIn hp ht _ _ (modify_others w _ fun x => { x with escalated := none })
      (steady_modifyContext w _ (fun x => { x with escalated := none }) fun _ => ⟨rfl, rfl⟩)
      fun u hu => finishRound_goes u hu l

theorem settles_startContinuation (hp : Placed w) (ht : t < v.tasks.size)
    (hv : ∀ d, d ≠ l.context → v.context d = w.context d) (k : Continuation) :
    Settles t l.context w (v.startContinuation t l k) := by
  have hlist : t < (v.list l.context).tasks.size := by
    rw [(list_kept v _).2.1]
    exact ht
  unfold startContinuation
  dsimp only
  split
  · refine settles_home hp (getElem?_setLoop hlist _) fun d hd => ?_
    exact (congrArg (·.getD d default) (unseen_list v l.context).contexts).trans (hv d hd)
  · exact settles_home hp (getElem?_setLoop ht _) hv

theorem settles_round (hp : Placed w) (ht : w.tasks[t]? = some (.loop l)) :
    Settles t l.context w (w.round t l) := by
  have hlt : t < w.tasks.size := (Array.getElem?_eq_some_iff.1 ht).1
  unfold round
  dsimp only
  cases (w.context l.context).killer with
  | some g => exact settles_modify_end hp hlt _ (fun x => { x with runState := .killed }) fun _ => rfl
  | none => cases he : (w.context l.context).escalated with
    | some f =>
      exact settles_raiseIn hp hlt f (fun u => u.setLoop t { l with point := .head })
        (modify_others w _ fun x => { x with escalated := none })
        (steady_modifyContext w _ (fun x => { x with escalated := none }) fun _ => ⟨rfl, rfl⟩)
        fun u hu => ⟨{ l with point := .head }, rfl, getElem?_setLoop hu _, fun _ => rfl⟩
    | none =>
      dsimp only
      split
      · exact settles_home hp (getElem?_setLoop hlt _) (modify_others w _ _)
      · cases (w.context l.context).pending with
        | cons k rest =>
          exact settles_startContinuation
            (v := w.modifyContext l.context fun x => { x with pending := rest }) hp hlt
            (modify_others w _ _) k
        | nil =>
          dsimp only
          rw [runDry_eq he]
          split
          · exact settles_modify_end hp hlt _ (fun x => { x with runState := .completed }) fun _ => rfl
          · split
            · exact settles_home hp ht (modify_others w _ _)
            · exact settles_home hp (getElem?_setLoop hlt _) (modify_others w _ _)

theorem EngineStep.settles (k : EngineStep) (hp : Placed w) (ht : w.tasks[t]? = some (.loop l))
    (hk : k = .drive → l.point.inEngine = true) : Settles t l.context w (k.run w t l) := by
  have hlt : t < w.tasks.size := (Array.getElem?_eq_some_iff.1 ht).1
  cases k with
  | fail f => exact settles_fail hp hlt f
  | finish =>
    obtain ⟨m, -, hm, hctx⟩ := finishRound_goes w hlt l
    exact settles_home hp hm fun d _ => hctx d
  | drive =>
    have hin := hk rfl
    unfold EngineStep.run loopStep
    dsimp only
    cases hl : l.point with
    | fresh => exact settles_home hp (getElem?_setLoop hlt _) (modify_others w _ _)
    | head => exact settles_round hp ht
    | paused => exact settles_home hp (getElem?_setLoop hlt _) (modify_others w _ _)
    | idle => exact settles_home hp (getElem?_setLoop hlt _) fun _ _ => rfl
    | ended o => exact settles_home hp ht fun _ _ => rfl
    | body frame rest =>
      rw [hl] at hin
      cases hin
    | receiving frame rest i receipt =>
      rw [hl] at hin
      cases hin

/-! ## Isolation -/

theorem kill_stacks (w : World) (c d : ContextId) (f : Fault) :
    ((w.kill c f).context d).scopes = (w.context d).scopes ∧
      ((w.kill c f).context d).pending = (w.context d).pending ∧
      ((w.kill c f).context d).saved = (w.context d).saved := by
  rw [context_kill, seen]
  split
  · unfold Context.notified
    split <;> exact ⟨rfl, rfl, rfl⟩
  · exact ⟨rfl, rfl, rfl⟩

/-- What is done for a context depends on its lineage, session and handles, and stays within reach. -/
theorem Reachable.isolated {raw : Prop} {admits : World → Prop} (h : Reachable raw admits w)
    (hc : c < w.contexts.size) :
    (∀ {α : Type} (op : Operation α),
      (∀ H v, Alike .same c H w v → (∀ k, op.handle? = some k → k ∈ H) →
        (op.run v c).1 = (op.run w c).1 ∧ Alike .same c H (op.run w c).2 (op.run v c).2) ∧
      (∀ r H v, Alike r c H w v → (∀ k, op.handle? = some k → k ∈ H) → op.Blind r →
        ((op.renamed r).run v c).1 = op.answer r (op.run w c).1 ∧
          Alike r c H (op.run w c).2 ((op.renamed r).run v c).2) ∧
      Confined (op.reach (w.context c)) c w (op.run w c).2) ∧
    (∀ (k : EngineStep) (t : TaskId) (l : Loop), l.context = c → w.tasks[t]? = some (.loop l) →
      (k = .drive → l.point.inEngine = true) →
      (∀ r H v, Abreast r t c H w v → Abreast r t c H (k.run w t l) (k.run v t l)) ∧
      Settles t c w (k.run w t l)) ∧
    ∀ f d, (d ≠ c → (w.kill c f).context d = w.context d) ∧
      ((w.kill c f).context d).scopes = (w.context d).scopes ∧
      ((w.kill c f).context d).pending = (w.context d).pending ∧
      ((w.kill c f).context d).saved = (w.context d).saved := by
  have hp := h.placed
  refine ⟨fun op => ⟨fun H v ha hk => ?_, fun r H v ha hk hb => op.agrees ha hp hk hb,
    op.confined hp hc⟩, ?_, fun f d => ?_⟩
  · have hsame := op.agrees ha hp hk op.blind_same
    rw [op.renamed_same, op.answer_same] at hsame
    exact hsame
  · rintro k t l rfl ht hk
    exact ⟨fun r H v ha => k.agrees ha hk, k.settles hp ht hk⟩
  · refine ⟨fun hd => ?_, kill_stacks w c d f⟩
    exact (context_kill w c d f).trans (seen_of_ne _ hd)

def placedOrder : World := (rooted "order" "shop" "main" 2 none).start 0

def besideOrder : World :=
  ((placedOrder.addContext { label := "parcel", session := 0, sliceBudget := 1 }).2.newHandle.2).record
    (.started 1 (.noop "weigh"))

theorem order_isolated :
    (Operation.run (.installHandler "declined" (.noop "refund")) besideOrder 0).1 =
      (Operation.run (.installHandler "declined" (.noop "refund")) placedOrder 0).1 ∧
    Settles 0 0 placedOrder (placedOrder.loopStep 0 { context := 0, budget := 2, counted := false }) := by
  have hr : Reachable False (fun _ => True) placedOrder :=
    (Reachable.rooted "order" "shop" "main" 2 none trivial trivial).next
      (.call (.inl rfl) (.start 0 (by decide))) trivial
  have hline : ∀ d ∈ placedOrder.lineage 0, d = 0 := fun d hd => List.mem_singleton.1 hd
  have hsession : Session.renamed ⟨(· + 1), (· + 1)⟩ { id := "shop" } = { id := "shop" } := by
    simp [Session.renamed, Mailbox.renamed]
  -- every number is one more beside the parcel
  have ha : Alike ⟨(· + 1), (· + 1)⟩ 0 Set.univ placedOrder besideOrder := by
    refine ⟨fun d hd => ?_, fun d hd => ?_, by decide, hsession.symm, fun _ _ => rfl,
      fun _ _ _ _ he => Nat.succ.inj he, fun _ _ => trivial, fun n => ?_, fun n => ?_,
      fun _ _ _ _ => trivial, fun _ _ _ => trivial⟩
    · rw [hline d hd]
      decide
    · rw [hline d hd]
      rfl
    · exact congrArg Nat.succ (Nat.zero_add n) |>.trans (Nat.add_comm n 1)
    · exact congrArg Nat.succ (Nat.zero_add n) |>.trans (Nat.add_comm n 1)
  obtain ⟨hop, hstep, -⟩ := hr.isolated (c := 0) (by decide)
  obtain ⟨-, hinstall, -⟩ := hop (.installHandler "declined" (.noop "refund"))
  exact ⟨(hinstall _ Set.univ besideOrder ha (fun _ _ => trivial) trivial).1,
    (hstep .drive 0 _ rfl rfl fun _ => rfl).2⟩

end SagaEngine.World
