import Mathlib.Data.List.Find
import SagaEngine.Proofs.Propagation
import SagaEngine.Proofs.Tally

/-! What a loop does by itself. Its continuations see their own context and the data of the session, and
as long as no other task gets a turn the rest of the world stays as it was. Each action has a contract
that says what it does to the work of the loop, and the contracts of a program compose. -/

namespace SagaEngine.World

variable {w w' v : World} {t : TaskId} {l m : Loop} {c : ContextId} {x y : Context} {d e : Data}
  {h : Array Event}

def working (w : World) (t : TaskId) (c : ContextId) (l : Loop) (x : Context) (d : Data)
    (h : Array Event) : World :=
  { (w.modifyContext c fun _ => x).modifySession (w.context c).session
      fun s => { s with data := d } with
    tasks := w.tasks.set! t (.loop l), history := h }

theorem context_working (hc : c < w.contexts.size) : (w.working t c l x d h).context c = x :=
  context_modifyContext_self (w := w) (fun _ => x) hc

theorem context_working_of_ne {b : ContextId} (hb : b ≠ c) :
    (w.working t c l x d h).context b = w.context b :=
  context_modifyContext_of_ne w _ hb

theorem setTask_working : (w.working t c l x d h).setTask t (.loop m) = w.working t c m x d h := by
  unfold setTask working
  simp only [Array.set!_eq_setIfInBounds, Array.setIfInBounds_setIfInBounds]

theorem modifyContext_working (f : Context → Context) :
    (w.working t c l x d h).modifyContext c f = w.working t c l (f x) d h := by
  have hm := congrArg World.contexts (modifyContext_modifyContext w c (fun _ => x) f)
  unfold modifyContext working at *
  simp only at hm
  simp only [modifyContext, modifySession, hm]

theorem modifyData_working (hc : c < w.contexts.size) (hx : x.session = (w.context c).session)
    (f : Data → Data) : (w.working t c l x d h).modifyData c f = w.working t c l x (f d) h := by
  have hm := congrArg World.sessions (modifySession_modifySession w (w.context c).session
    (fun s => { s with data := d }) fun s => { s with data := f s.data })
  unfold modifyData
  rw [context_working hc, hx]
  simp only [modifySession] at hm
  simp only [modifySession, modifyContext, working, hm]

theorem handled_working {f : Fault} {k : Installed} :
    (w.working t c l x d h).handled c f k y =
      w.working t c l { y with pending := [k.continuation] } d (h.push (.caught c f k)) := by
  unfold handled
  rw [modifyContext_working, modifyContext_working]
  rfl

theorem working_self (ht : w.tasks[t]? = some (.loop l)) :
    w.working t c l (w.context c) (w.data c) w.history = w := by
  have hdata : w.sessions.modify (w.context c).session (fun s => { s with data := w.data c }) =
      w.sessions := by
    refine Array.ext_getElem? fun i => ?_
    rw [Array.getElem?_modify]
    split
    · rename_i hi
      subst hi
      cases hg : w.sessions[(w.context c).session]? <;>
        simp [data, session, Array.getD_eq_getD_getElem?, hg]
    · rfl
  have htask : w.tasks.set! t (.loop l) = w.tasks := by
    refine Array.ext_getElem? fun i => ?_
    rw [Array.set!_eq_setIfInBounds, Array.getElem?_setIfInBounds]
    split
    · rename_i hi
      subst hi
      rw [if_pos (Array.getElem?_eq_some_iff.1 ht).1, ht]
    · rfl
  simp only [working, modifyContext_self, modifySession, hdata, htask]

/-! ## Scopes of its own -/

variable {s o : Scope Installed} {below : List (Scope Installed)} {pend : List Continuation}
  {saved : List (List Continuation)}

theorem scopeOwner_own (hs : (w.context c).scopes = s :: below) : w.scopeOwner? c = some c := by
  simp [scopeOwner?, lineage, hasScope, hs]

theorem nearestScope_own (hs : (w.context c).scopes = s :: below) : w.nearestScope? c = some s := by
  simp [nearestScope?, scopeOwner_own hs, hs]

theorem setTopScope_self (hs : (w.context c).scopes = s :: below) : w.setTopScope c s = w := by
  have hself : ({ w.context c with scopes := s :: (w.context c).scopes.tail } : Context) =
      w.context c := by
    rw [hs, List.tail_cons, ← hs]
  unfold setTopScope
  rw [modifyContext_congr (g := fun _ => w.context c) hself, modifyContext_self]

theorem updateScope_working {α : Type} (hc : c < w.contexts.size) (hs : x.scopes = s :: below)
    (f : Scope Installed → α × Scope Installed) :
    (w.working t c l x d h).updateScope c f =
      (w.working t c l { x with scopes := (f s).2 :: below } d h, .ok (f s).1) := by
  have hself : ((w.working t c l x d h).context c).scopes = s :: below := by
    rw [context_working hc, hs]
  unfold updateScope
  rw [scopeOwner_own hself, nearestScope_own hself]
  dsimp only
  rw [setTopScope, modifyContext_working, hs, List.tail_cons]

theorem install_working (hc : c < w.contexts.size) (hs : x.scopes = s :: below) (role : Role)
    (k : Continuation) (put : Installed → Scope Installed → Scope Installed) :
    (w.working t c l x d h).install c role k put =
      (w.working t c l { x with scopes := put ⟨h.size, k⟩ s :: below } d
        (h.push (.installed role ⟨h.size, k⟩)), .ok ()) := by
  unfold install
  dsimp only
  rw [updateScope_working hc hs]
  rfl

theorem popScope_discard (hc : c < w.contexts.size) (hs : x.scopes = s :: below)
    (hl : x.saved = pend :: saved) :
    (w.working t c l x d h).popScope c false none =
      (w.working t c l { x with scopes := below, pending := pend, saved, marker := none } d h,
        .ok ()) := by
  unfold popScope Context.popScope?
  rw [context_working hc, hs, hl]
  dsimp only
  rw [modifyContext_working]

theorem popScope_onto (hc : c < w.contexts.size) (hs : x.scopes = s :: o :: below)
    (hl : x.saved = pend :: saved) :
    (w.working t c l x d h).popScope c true none =
      (w.working t c l
        { x with
          scopes := o.mergeCompensations s :: below
          pending := pend
          saved
          marker := none } d h, .ok ()) := by
  unfold popScope Context.popScope?
  rw [context_working hc, hs, hl]
  dsimp only
  rw [setTopScope, modifyContext_working, modifyContext_working]
  rfl

theorem popScope_last (hc : c < w.contexts.size) (hs : x.scopes = [s]) (hl : x.saved = pend :: saved) :
    (w.working t c l x d h).popScope c true none =
      ((w.working t c l { x with scopes := [], pending := pend, saved, marker := none } d
        h).mergeUpward c s, .ok ()) := by
  unfold popScope Context.popScope?
  rw [context_working hc, hs, hl]
  dsimp only
  rw [modifyContext_working]

theorem leaveScope_eq {merge : Bool} (hs : (w.context c).scopes = s :: below)
    (hp : w.popScope c merge none = (v, .ok ())) :
    w.leaveScope c merge =
      (v.modifyData c fun d => d.push "log" (.str ("leave " ++ s.id))).silent := by
  unfold leaveScope currentScopeId readScope
  rw [nearestScope_own hs]
  dsimp only [andThen]
  rw [hp]

/-! ## Scopes of its ancestors -/

theorem scopes_of_owner {o : ContextId} (ho : w.scopeOwner? c = some o) :
    ∃ s below, (w.context o).scopes = s :: below := scopes_of_hasScope (List.find?_some ho)

theorem updateScope_eq {α : Type} (w : World) (c : ContextId)
    (f : Scope Installed → α × Scope Installed) :
    (w.updateScope c f).1 = match w.scopeOwner? c with
      | some o => w.modifyContext o fun x => { x with scopes := x.scopes.modifyHead fun s => (f s).2 }
      | none => w := by
  unfold updateScope nearestScope?
  rcases ho : w.scopeOwner? c with _ | o
  · rfl
  · obtain ⟨s, below, hs⟩ := scopes_of_owner ho
    simp only [Option.bind_some, hs, List.head?_cons, setTopScope]
    refine modifyContext_congr ?_
    simp [hs]

theorem scopeOwner_parent (hp : Placed w) (hs : (w.context c).scopes = []) :
    w.scopeOwner? c = (w.context c).parent?.bind w.scopeOwner? := by
  have hno : w.hasScope c = false := hasScope_of_nil hs
  unfold scopeOwner? lineage Context.parent?
  rw [List.find?_cons, hno]
  rcases ha : (w.context c).ancestors with _ | ⟨p, rest⟩
  · rfl
  · rw [List.head?_cons, Option.bind_some, (hp.lineage c p rest ha).2]

theorem modifyContext_working_of_ne {b : ContextId} (hb : b ≠ c) (f : Context → Context) :
    (w.working t c l x d h).modifyContext b f = (w.modifyContext b f).working t c l x d h := by
  have hctx : (w.contexts.modify c fun _ => x).modify b f =
      (w.contexts.modify b f).modify c fun _ => x := by
    refine Array.ext_getElem? fun i => ?_
    simp only [Array.getElem?_modify]
    by_cases hi : b = i
    · subst hi
      simp [Ne.symm hb]
    · simp [hi]
  have hsession : (w.modifyContext b f).context c = w.context c :=
    context_modifyContext_of_ne w f hb.symm
  simp only [working, modifyContext, modifySession] at hsession ⊢
  rw [hctx, hsession]

theorem lineage_le (hp : Placed w) (c : ContextId) : ∀ o ∈ w.lineage c, o ≤ c := by
  induction c using Nat.strong_induction_on with
  | _ c ih =>
    intro o ho
    rcases List.mem_cons.1 ho with rfl | ho
    · exact Nat.le_refl _
    · rcases ha : (w.context c).ancestors with _ | ⟨p, rest⟩
      · rw [ha] at ho
        cases ho
      · obtain ⟨hlt, hrest⟩ := hp.lineage c p rest ha
        have hmem : o ∈ w.lineage p := by
          rw [lineage, hrest]
          exact ha ▸ ho
        exact Nat.le_trans (ih p hlt o hmem) (Nat.le_of_lt hlt)

theorem updateScope_working_of_lt {α : Type} {p : ContextId} (hp : Placed w) (hpc : p < c)
    (f : Scope Installed → α × Scope Installed) :
    ((w.working t c l x d h).updateScope p f).1 = (w.updateScope p f).1.working t c l x d h := by
  have hctx : ∀ o ∈ w.lineage p, (w.working t c l x d h).context o = w.context o := fun o ho =>
    context_working_of_ne (Nat.ne_of_lt (Nat.lt_of_le_of_lt (lineage_le hp p o ho) hpc))
  have howner : (w.working t c l x d h).scopeOwner? p = w.scopeOwner? p := by
    have hline : (w.working t c l x d h).lineage p = w.lineage p := by
      rw [lineage, hctx p (.head _), lineage]
    unfold scopeOwner?
    rw [hline]
    exact List.find?_congr fun o ho => by simp only [hasScope, hctx o ho]
  unfold updateScope nearestScope?
  rw [howner]
  rcases ho : w.scopeOwner? p with _ | o
  · rfl
  · have hmem : o ∈ w.lineage p := List.mem_of_find?_eq_some ho
    have hne : o ≠ c := Nat.ne_of_lt (Nat.lt_of_le_of_lt (lineage_le hp p o hmem) hpc)
    dsimp only [Option.bind_some]
    rw [hctx o hmem]
    rcases (w.context o).scopes.head? with _ | s
    · rfl
    · exact modifyContext_working_of_ne hne _

theorem mergeUpward_kept (hp : Placed w) (c : ContextId) (s : Scope Installed) :
    (w.mergeUpward c s).context c = w.context c ∧
      (w.mergeUpward c s).contexts.size = w.contexts.size ∧
      (w.mergeUpward c s).history = w.history := by
  unfold mergeUpward
  rcases hq : (w.context c).parent? with _ | p
  · exact ⟨rfl, rfl, rfl⟩
  · dsimp only
    rcases updateScope_cases w p fun outer => ((), outer.mergeCompensations s) with
      ⟨o, outer, below, ho, -, hu⟩ | hu
    · have hlt : o < c := Nat.lt_of_le_of_lt
        (lineage_le hp p o (List.mem_of_find?_eq_some ho)) (parent_lt hp hq)
      rw [hu]
      exact ⟨context_modifyContext_of_ne w _ (Nat.ne_of_gt hlt), contexts_size_modifyContext .., rfl⟩
    · rw [hu]
      exact ⟨rfl, rfl, rfl⟩

theorem mergeUpward_working (hp : Placed w) (hc : c < w.contexts.size)
    (hx : x.ancestors = (w.context c).ancestors) (s : Scope Installed) :
    (w.working t c l x d h).mergeUpward c s = (w.mergeUpward c s).working t c l x d h := by
  have hpar : x.parent? = (w.context c).parent? := congrArg List.head? hx
  unfold mergeUpward
  rw [context_working hc, hpar]
  rcases hq : (w.context c).parent? with _ | p
  · rfl
  · exact updateScope_working_of_lt hp (parent_lt hp hq) _

theorem perform_leaveScope (w : World) (c : ContextId) (merge : Bool) :
    w.perform c (.leaveScope merge) = w.leaveScope c merge := by
  unfold perform
  rfl

/-! ## Contracts -/

/-- Where a loop stands: its steps, the work of its context, the data and the length of the record. -/
structure Desk where
  name : String
  rest : List Step
  scopes : List (Scope Installed)
  pending : List Continuation
  saved : List (List Continuation)
  data : Data
  recorded : Nat

namespace Desk

def context (k : Desk) (x : Context) : Context :=
  { x with scopes := k.scopes, pending := k.pending, saved := k.saved, marker := none }

def loop (k : Desk) (l : Loop) (slice : Nat) : Loop :=
  { l with slice, point := .body ⟨k.name, false⟩ k.rest }

end Desk

def during (w : World) (t : TaskId) (l : Loop) (k : Desk) (slice : Nat) (h : Array Event) : World :=
  w.working t l.context (k.loop l slice) (k.context (w.context l.context)) k.data h

def Holds (w : World) (t : TaskId) (l : Loop) (k : Desk) (v : World) : Prop :=
  ∃ slice h, h.size = k.recorded ∧ w.history.toList <+: h.toList ∧ v = w.during t l k slice h

/-- Alone, the loop gets from work `k` to work `k'`. -/
def Works (w : World) (t : TaskId) (l : Loop) (k k' : Desk) : Prop :=
  ∀ v, w.Holds t l k v → ∃ v', Leads [t] v v' ∧ w.Holds t l k' v'

theorem Works.trans {a b k : Desk} (h : w.Works t l a b) (h' : w.Works t l b k) :
    w.Works t l a k := by
  intro v hv
  obtain ⟨v', hlead, hv'⟩ := h v hv
  obtain ⟨v'', hlead', hv''⟩ := h' v' hv'
  exact ⟨v'', hlead.trans hlead', hv''⟩

theorem holds_self {n : String} {rest : List Step} (hr : w.Runs t l ⟨n, false⟩ rest)
    (hm : (w.context l.context).marker = none) :
    w.Holds t l ⟨n, rest, (w.context l.context).scopes, (w.context l.context).pending,
      (w.context l.context).saved, w.data l.context, w.history.size⟩ w := by
  have hloop : { l with point := .body ⟨n, false⟩ rest } = l := by
    rw [← hr.2.2]
  have hctx : { w.context l.context with marker := none } = w.context l.context := by
    rw [← hm]
  refine ⟨l.slice, w.history, rfl, List.prefix_rfl, ?_⟩
  simp only [during, Desk.loop, Desk.context, hloop, hctx]
  exact (working_self hr.2.1).symm

theorem Holds.settled {k : Desk} (hv : w.Holds t l k v)
    (hk : k.context (w.context l.context) = w.context l.context) :
    ∃ slice history, w.history.toList <+: history.toList ∧
      v = { w.modifyData l.context fun _ => k.data with
        tasks := w.tasks.set! t (.loop (k.loop l slice)), history } := by
  obtain ⟨slice, h, -, hpre, rfl⟩ := hv
  refine ⟨slice, h, hpre, ?_⟩
  simp only [during, hk, working, modifyContext_self, modifyData]

theorem Holds.modifyContext {k : Desk} (hv : w.Holds t l k v) {f : Context → Context}
    (hf : ∀ x, k.context (f x) = k.context x) : (w.modifyContext l.context f).Holds t l k v := by
  have hsession : ∀ x, (f x).session = x.session := fun x => by
    change (k.context (f x)).session = (k.context x).session
    rw [hf]
  have hs := context_modifyContext_congr Context.session hsession w l.context l.context
  have hk := context_modifyContext_congr (fun x => k.context x) hf w l.context l.context
  obtain ⟨slice, h, hi, hpre, rfl⟩ := hv
  refine ⟨slice, h, hi, hpre, ?_⟩
  unfold during working
  rw [hs, hk, modifyContext_modifyContext]
  rfl

theorem loopStep_act {frame : Frame} {a : Action} {rest : List Step} {reply : Json}
    (hm : m.point = .body frame (.act a :: rest)) (hp : w.perform m.context a = (w', .ok reply))
    (t : TaskId) : w.loopStep t m = w'.passStep t m frame rest a.name reply := by
  unfold loopStep
  rw [hm]
  simp only [bodyStep, hp]

theorem loopStep_raise {frame : Frame} {rest : List Step} {f : Fault}
    (hm : m.point = .body frame (.act (.raise f) :: rest)) (w : World) (t : TaskId) :
    w.loopStep t m = w.failStep t m frame f := by
  unfold loopStep
  rw [hm]
  simp only [bodyStep, perform, Failure.toFault]

structure Engaged (w : World) (t : TaskId) (l : Loop) : Prop where
  current : w.current = some t
  task : t < w.tasks.size
  queue : t ∉ w.ready
  context : l.context < w.contexts.size
  unstopped : w.Unstopped l.context
  unpaused : (w.context l.context).pauseRequested = false

namespace Engaged

variable {k k' : Desk} {slice : Nat}

theorem context_during (he : w.Engaged t l) :
    (w.during t l k slice h).context l.context = k.context (w.context l.context) :=
  context_working he.context

theorem unstopped_during (he : w.Engaged t l) (k : Desk) (slice : Nat) (h : Array Event) :
    (w.during t l k slice h).Unstopped l.context := by
  refine ⟨?_, ?_⟩
  · rw [he.context_during]
    exact he.unstopped.killer
  · rw [he.context_during]
    exact he.unstopped.escalated

theorem task_working (he : w.Engaged t l) :
    (w.working t c m x d h).tasks[t]? = some (.loop m) := by
  simp only [working, Array.set!_eq_setIfInBounds]
  rw [Array.getElem?_setIfInBounds, if_pos rfl, if_pos he.task]

theorem leads_loopStep (he : w.Engaged t l) :
    Leads [t] (w.working t c m x d h) ((w.working t c m x d h).loopStep t m) := by
  have hstep : Leads [t] _ ((w.working t c m x d h).taskStep t) := leads_step he.current (.head _)
  unfold taskStep at hstep
  rw [he.task_working] at hstep
  exact hstep

theorem leads_during (he : w.Engaged t l) (k : Desk) (slice : Nat) (h : Array Event) :
    Leads [t] (w.during t l k slice h) ((w.during t l k slice h).loopStep t (k.loop l slice)) :=
  he.leads_loopStep

theorem leads_act (he : w.Engaged t l) {w₁ : World} {a : Action} {rest : List Step} {x₁ : Context}
    {d₁ : Data} {h₁ : Array Event} {reply : Json} (hr : k.rest = .act a :: rest)
    (hperf : (w.during t l k slice h).perform l.context a =
      (w₁.working t l.context (k.loop l slice) x₁ d₁ h₁, .ok reply)) :
    Leads [t] (w.during t l k slice h)
      (w₁.working t l.context { l with slice, point := .body ⟨k.name, false⟩ rest } x₁ d₁
        (h₁.push (.performed l.context ⟨k.name, false⟩ a.name reply))) := by
  have hpoint : (k.loop l slice).point = .body ⟨k.name, false⟩ (.act a :: rest) :=
    congrArg (Point.body _) hr
  have hstep := he.leads_during k slice h
  rw [loopStep_act hpoint hperf] at hstep
  have hpass : (w₁.working t l.context (k.loop l slice) x₁ d₁ h₁).passStep t (k.loop l slice)
      ⟨k.name, false⟩ rest a.name reply =
        w₁.working t l.context { l with slice, point := .body ⟨k.name, false⟩ rest } x₁ d₁
          (h₁.push (.performed l.context ⟨k.name, false⟩ a.name reply)) := setTask_working
  rw [hpass] at hstep
  exact hstep

theorem works_act {a : Action} (he : w.Engaged t l) (es : List Event)
    (hr : k.rest = .act a :: k'.rest) (hn : k'.name = k.name)
    (hrec : k'.recorded = k.recorded + es.length + 1)
    (hperf : ∀ slice h, h.size = k.recorded → ∃ reply,
      (w.during t l k slice h).perform l.context a =
        (w.working t l.context (k.loop l slice) (k'.context (w.context l.context)) k'.data (h ++ es),
          .ok reply)) :
    w.Works t l k k' := by
  rintro v ⟨slice, h, hsize, hpre, rfl⟩
  obtain ⟨reply, hp⟩ := hperf slice h hsize
  refine ⟨_, he.leads_act hr hp, slice,
    (h ++ es).push (.performed l.context ⟨k.name, false⟩ a.name reply), ?_, ?_, ?_⟩
  · rw [Array.size_push, ← Array.length_toList, Array.toList_appendList, List.length_append,
      Array.length_toList, hsize, hrec]
  · rw [Array.toList_push, Array.toList_appendList, List.append_assoc]
    exact hpre.trans (List.prefix_append _ _)
  · simp only [during, Desk.loop, hn]

variable {n : String} {rest : List Step} {ss : List (Scope Installed)} {ks : List Continuation}
  {kss : List (List Continuation)} {i : Nat}

theorem works_pushScope (he : w.Engaged t l) (id : String) :
    w.Works t l ⟨n, .act (.pushScope id none) :: rest, ss, ks, kss, d, i⟩
      ⟨n, rest, { id } :: ss, [], ks :: kss, d, i + 1⟩ := by
  refine he.works_act [] rfl rfl rfl fun slice h _ => ?_
  unfold perform
  exact ⟨_, Prod.ext (modifyContext_working fun x => x.pushScope id none) rfl⟩

theorem works_next (he : w.Engaged t l) (js : List Continuation) :
    w.Works t l ⟨n, .act (.next js) :: rest, ss, ks, kss, d, i⟩
      ⟨n, rest, ss, js ++ ks, kss, d, i + 1⟩ := by
  refine he.works_act [] rfl rfl rfl fun slice h _ => ?_
  unfold perform
  exact ⟨_, congrArg silent (modifyContext_working fun x => x.executeNext js)⟩

theorem works_log (he : w.Engaged t l) (e : Json) :
    w.Works t l ⟨n, .act (.log e) :: rest, ss, ks, kss, d, i⟩
      ⟨n, rest, ss, ks, kss, d.push "log" e, i + 1⟩ := by
  refine he.works_act [] rfl rfl rfl fun slice h _ => ?_
  unfold perform
  exact ⟨_, congrArg silent (modifyData_working he.context (by rfl) fun d => d.push "log" e)⟩

theorem works_entry (he : w.Engaged t l) (e : Json) :
    w.Works t l ⟨n, .act (.ifNotKilled [.log e]) :: rest, ss, ks, kss, d, i⟩
      ⟨n, rest, ss, ks, kss, d.push "log" e, i + 1⟩ := by
  refine he.works_act [] rfl rfl rfl fun slice h _ => ?_
  have hk := congrArg Option.isSome
    (he.unstopped_during ⟨n, .act (.ifNotKilled [.log e]) :: rest, ss, ks, kss, d, i⟩ slice h).killer
  unfold perform Context.isKilled
  rw [hk]
  simp only [performAll, perform]
  exact ⟨_, Prod.ext (modifyData_working he.context (by rfl) fun d => d.push "log" e) rfl⟩

theorem works_handle (he : w.Engaged t l) (s : Scope Installed) (fault : String) (j : Continuation) :
    w.Works t l ⟨n, .act (.handle fault j) :: rest, s :: ss, ks, kss, d, i⟩
      ⟨n, rest, s.installHandler fault ⟨i, j⟩ :: ss, ks, kss, d, i + 2⟩ := by
  refine he.works_act [.installed .handler ⟨i, j⟩] rfl rfl rfl fun slice h hi => ?_
  subst hi
  unfold perform
  exact ⟨_, congrArg (andThen · fun w _ => w.silent) (install_working he.context rfl .handler j
    fun x s => s.installHandler fault x)⟩

theorem works_compensation (he : w.Engaged t l) (s : Scope Installed) (j : Continuation) :
    w.Works t l ⟨n, .act (.compensation j) :: rest, s :: ss, ks, kss, d, i⟩
      ⟨n, rest, s.installCompensation ⟨i, j⟩ :: ss, ks, kss, d, i + 2⟩ := by
  refine he.works_act [.installed .compensation ⟨i, j⟩] rfl rfl rfl fun slice h hi => ?_
  subst hi
  unfold perform
  exact ⟨_, congrArg (andThen · fun w _ => w.silent) (install_working he.context rfl .compensation j
    fun x s => s.installCompensation x)⟩

theorem works_compensate (he : w.Engaged t l) (s : Scope Installed) (id : String)
    (after : List Continuation) :
    w.Works t l ⟨n, .act (.compensate id after) :: rest, s :: ss, ks, kss, d, i⟩
      ⟨n, rest, (s.takeCompensation id).2 :: ss,
        ((s.takeCompensation id).1.map Installed.continuation).toList ++ after ++ ks, kss, d,
        i + 1⟩ := by
  refine he.works_act [] rfl rfl rfl fun slice h _ => ?_
  unfold perform compensate takeCompensation during
  rw [updateScope_working he.context rfl]
  exact ⟨_, Prod.ext (modifyContext_working _) rfl⟩

theorem works_discard (he : w.Engaged t l) (s : Scope Installed) :
    w.Works t l ⟨n, .act (.leaveScope false) :: rest, s :: ss, pend, ks :: kss, d, i⟩
      ⟨n, rest, ss, ks, kss, d.push "log" (.str ("leave " ++ s.id)), i + 1⟩ := by
  refine he.works_act [] rfl rfl rfl fun slice h _ => ?_
  unfold during
  rw [perform_leaveScope, leaveScope_eq (congrArg Context.scopes (context_working he.context))
    (popScope_discard he.context rfl rfl)]
  exact ⟨_, congrArg silent (modifyData_working he.context (by rfl) _)⟩

theorem works_leave (he : w.Engaged t l) (s o : Scope Installed) :
    w.Works t l ⟨n, .act (.leaveScope true) :: rest, s :: o :: ss, pend, ks :: kss, d, i⟩
      ⟨n, rest, o.mergeCompensations s :: ss, ks, kss, d.push "log" (.str ("leave " ++ s.id)),
        i + 1⟩ := by
  refine he.works_act [] rfl rfl rfl fun slice h _ => ?_
  unfold during
  rw [perform_leaveScope, leaveScope_eq (congrArg Context.scopes (context_working he.context))
    (popScope_onto he.context rfl rfl)]
  exact ⟨_, congrArg silent (modifyData_working he.context (by rfl) _)⟩

theorem leads_leave (he : w.Engaged t l) (hp : Placed w) {s : Scope Installed}
    (hr : k.rest = .act (.leaveScope true) :: rest) (hs : k.scopes = [s]) (hl : k.saved = ks :: kss)
    (hv : w.Holds t l k v) :
    ∃ v', Leads [t] v v' ∧ (w.mergeUpward l.context s).Holds t l
      ⟨k.name, rest, [], ks, kss, k.data.push "log" (.str ("leave " ++ s.id)), k.recorded + 1⟩ v' := by
  obtain ⟨slice, h, hi, hpre, rfl⟩ := hv
  obtain ⟨hself, hsize, hhist⟩ := mergeUpward_kept hp l.context s
  have hscopes : ((w.during t l k slice h).context l.context).scopes = [s] :=
    (congrArg Context.scopes he.context_during).trans hs
  have hperf := leaveScope_eq hscopes (popScope_last he.context hs hl)
  rw [mergeUpward_working hp he.context (by rfl), modifyData_working (hsize ▸ he.context)
    (by rw [hself]; rfl)] at hperf
  have hlead := he.leads_act hr ((perform_leaveScope ..).trans hperf)
  refine ⟨_, hlead, slice, h.push (.performed l.context ⟨k.name, false⟩ "leave_scope" .null), ?_, ?_,
    ?_⟩
  · simpa using hi
  · rw [hhist, Array.toList_push]
    exact hpre.trans (List.prefix_append _ _)
  · unfold during
    rw [hself]
    rfl

theorem leads_next (he : w.Engaged t l) (slice : Nat) (h : Array Event) {next : Continuation}
    (hk : k.pending = next :: ks) (hn : next.traced = false) : ∃ slice',
      Leads [t] ((w.during t l k slice h).finishRound t (k.loop l slice))
        (w.during t l ⟨next.name, next.steps, k.scopes, ks, k.saved, k.data, k.recorded + 1⟩ slice'
          (h.push (.started l.context next))) := by
  have hhead : ∃ slice', Leads [t] ((w.during t l k slice h).finishRound t (k.loop l slice))
      (w.working t l.context { l with slice := slice', point := .head }
        (k.context (w.context l.context)) k.data h) := by
    unfold finishRound setLoop during
    split
    · have hback : Leads [t] (yieldTask _ t) ((w.during t l k slice h).setTask t
          (.loop { l with slice := 0, point := .head })) :=
        leads_yield he.current (.head _) fun u hu => List.mem_singleton.1 hu ▸ he.queue
      unfold during at hback
      rw [setTask_working] at hback ⊢
      exact ⟨0, hback⟩
    · rw [setTask_working]
      exact ⟨slice + 1, .refl _⟩
  obtain ⟨slice', hlead⟩ := hhead
  have hctx := context_working (t := t) (l := { l with slice := slice', point := .head })
    (x := k.context (w.context l.context)) (d := k.data) (h := h) he.context
  have hround : (w.working t l.context { l with slice := slice', point := .head }
      (k.context (w.context l.context)) k.data h).loopStep t { l with slice := slice', point := .head } =
        w.during t l ⟨next.name, next.steps, k.scopes, ks, k.saved, k.data, k.recorded + 1⟩ slice'
          (h.push (.started l.context next)) := by
    have hu : (w.working t l.context { l with slice := slice', point := .head }
        (k.context (w.context l.context)) k.data h).Unstopped l.context :=
      ⟨by rw [hctx]; exact he.unstopped.killer, by rw [hctx]; exact he.unstopped.escalated⟩
    have hpause := (congrArg Context.pauseRequested hctx).trans he.unpaused
    have hpend := (congrArg Context.pending hctx).trans hk
    refine (round_start (l := { l with slice := slice', point := .head }) hu hpause hpend).trans ?_
    rw [modifyContext_working]
    unfold startContinuation
    rw [hn]
    exact setTask_working
  have hstep := he.leads_loopStep (c := l.context) (m := { l with slice := slice', point := .head })
    (x := k.context (w.context l.context)) (d := k.data) (h := h)
  rw [hround] at hstep
  exact ⟨slice', hlead.trans hstep⟩

theorem works_start (he : w.Engaged t l) (next : Continuation) (hn : next.traced = false) :
    w.Works t l ⟨n, [], ss, next :: ks, kss, d, i⟩
      ⟨next.name, next.steps, ss, ks, kss, d, i + 1⟩ := by
  rintro v ⟨slice, h, hi, hpre, rfl⟩
  obtain ⟨slice', hlead⟩ := he.leads_next (k := ⟨n, [], ss, next :: ks, kss, d, i⟩) slice h rfl hn
  refine ⟨_, (he.leads_during ..).trans hlead, slice', _, by simpa using hi, ?_, rfl⟩
  rw [Array.toList_push]
  exact hpre.trans (List.prefix_append _ _)

theorem failStep_during (he : w.Engaged t l) (slice : Nat) (h : Array Event)
    {s s' : Scope Installed} {f : Fault} {j : Installed}
    (hk : k.scopes = s :: ss) (hs : s.takeHandler f.name = (some j, s')) :
    (w.during t l k slice h).failStep t (k.loop l slice) ⟨k.name, false⟩ f =
      (w.during t l { k with scopes := s' :: ss, pending := [j.continuation] } slice
        ((h.push (.raised l.context ⟨k.name, false⟩ f)).push (.caught l.context f j))).finishRound t
          (k.loop l slice) := by
  have hsame : { k.context (w.context l.context) with escalated := none } =
      k.context (w.context l.context) := by
    rw [← he.unstopped.escalated]
    rfl
  have hunwind : ((w.working t l.context (k.loop l slice) (k.context (w.context l.context)) k.data
      (h.push (.raised l.context ⟨k.name, false⟩ f))).context (k.loop l slice).context).unwind f.name =
        (some j, { k.context (w.context l.context) with scopes := s' :: ss }) :=
    (congrArg (Context.unwind · f.name) (context_working he.context)).trans
      (Context.unwind_current hk hs)
  rw [failStep_eq (l := k.loop l slice) (he.unstopped_during ..)]
  change (((w.working t l.context (k.loop l slice) (k.context (w.context l.context)) k.data
    (h.push (.raised l.context ⟨k.name, false⟩ f))).modifyContext l.context fun x =>
      { x with escalated := none }).raiseIn t (k.loop l slice) f
        fun v => v.finishRound t (k.loop l slice)) = _
  rw [modifyContext_working, hsame, raiseIn_caught hunwind]
  exact congrArg (finishRound · t (k.loop l slice)) handled_working

theorem works_raise (he : w.Engaged t l) {s s' : Scope Installed} {f : Fault} {j : Installed}
    (hs : s.takeHandler f.name = (some j, s')) (hn : j.continuation.traced = false) :
    w.Works t l ⟨n, .act (.raise f) :: rest, s :: ss, ks, kss, d, i⟩
      ⟨j.continuation.name, j.continuation.steps, s' :: ss, [], kss, d, i + 3⟩ := by
  rintro v ⟨slice, h, hi, hpre, rfl⟩
  have hstep := he.leads_during ⟨n, .act (.raise f) :: rest, s :: ss, ks, kss, d, i⟩ slice h
  have hfail := he.failStep_during (k := ⟨n, .act (.raise f) :: rest, s :: ss, ks, kss, d, i⟩)
    slice h rfl hs
  rw [loopStep_raise rfl, hfail] at hstep
  obtain ⟨slice', hlead⟩ := he.leads_next
    (k := ⟨n, .act (.raise f) :: rest, s' :: ss, [j.continuation], kss, d, i + 2⟩) slice
    ((h.push (.raised l.context ⟨n, false⟩ f)).push (.caught l.context f j)) rfl hn
  refine ⟨_, hstep.trans hlead, slice', _, ?_, ?_, rfl⟩
  · simpa using hi
  · simp only [Array.toList_push, List.append_assoc]
    exact hpre.trans (List.prefix_append _ _)

end Engaged

end SagaEngine.World
