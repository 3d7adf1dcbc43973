import SagaEngine.Proofs.Delegation
import SagaEngine.Proofs.Stacks

/-! Compensations accumulate from the inside out. When scopes are left one after the other, the scope
that is on top then has adopted what they had, the inner ones before the outer ones; and when it was
the last scope of the context, the nearest scope above has. -/

namespace SagaEngine

theorem Table.get?_merge {α : Type} {u : Table α} (hu : u.Sorted) (t : Table α) (k : String) :
    (t.merge u).get? k = (u.get? k).or (t.get? k) := by
  induction u generalizing t with
  | nil => rfl
  | cons e u ih =>
    obtain ⟨j, a⟩ := e
    obtain ⟨hj, hu⟩ := List.pairwise_cons.1 hu
    change ((t.insert j a).merge u).get? k = _
    rw [ih hu, get?_insert]
    by_cases hjk : j = k
    · have hnone : get? u k = none := get?_eq_none fun e he => hjk ▸ (hj e he).ne'
      simp [get?, hjk, hnone]
    · simp [get?, hjk]

def Context.Filed (x : Context) : Prop := ∀ s ∈ x.scopes, s.compensations.Sorted

theorem Context.StackStep.filed {x y : Context} (h : x.StackStep y) (hx : x.Filed) : y.Filed := by
  cases h with
  | keep hs =>
    intro s hm
    exact hx s (hs ▸ hm)
  | table hs ha =>
    intro r hm
    rcases List.mem_cons.1 hm with rfl | hm
    · exact ha.sorted (hx _ (hs ▸ .head _))
    · exact hx r (hs ▸ .tail _ hm)
  | queue | next | discard => exact hx
  | push id marker =>
    intro s hm
    rcases List.mem_cons.1 hm with rfl | hm
    · exact .nil
    · exact hx s hm
  | pop h =>
    intro s hm
    exact hx s (World.scopes_popScope h ▸ .tail _ hm)

def innermost? (scopes : List (Scope Installed)) (name : String) : Option Installed :=
  scopes.findSome? fun s => s.compensations.get? name

structure Adopts (inner : List (Scope Installed)) (s s' : Scope Installed) : Prop where
  id : s'.id = s.id
  handlers : s'.handlers = s.handlers
  compensations : ∀ name, s'.compensations.get? name = innermost? (inner ++ [s]) name

theorem adopts_nil (s : Scope Installed) : Adopts [] s s := by
  refine ⟨rfl, rfl, fun name => ?_⟩
  simp [innermost?]

theorem adopts_merge {s : Scope Installed} (hs : s.compensations.Sorted) (outer : Scope Installed) :
    Adopts [s] outer (outer.mergeCompensations s) := by
  refine ⟨rfl, rfl, fun name => ?_⟩
  have hm := Table.get?_merge hs outer.compensations name
  cases h : s.compensations.get? name <;> simp_all [innermost?, Scope.mergeCompensations]

theorem Adopts.congr {inner inner' : List (Scope Installed)} {s s' : Scope Installed}
    (h : Adopts inner s s') (hi : ∀ name, innermost? inner' name = innermost? inner name) :
    Adopts inner' s s' := by
  refine ⟨h.id, h.handlers, fun name => ?_⟩
  have hn := hi name
  unfold innermost? at hn
  rw [h.compensations, innermost?, innermost?, List.findSome?_append, List.findSome?_append, hn]

theorem Adopts.innermost {inner : List (Scope Installed)} {outer outer' : Scope Installed}
    (h : Adopts inner outer outer') (popped : List (Scope Installed)) (name : String) :
    innermost? (inner ++ outer :: popped) name = innermost? (outer' :: popped) name := by
  have ho := h.compensations name
  unfold innermost? at ho ⊢
  rw [List.append_cons, List.findSome?_append, ← ho, List.findSome?_cons]
  cases outer'.compensations.get? name <;> rfl

/-- What the scopes had is kept for those that are left after the last pop without merge. -/
def merged : List (Scope Installed) → List (Bool × Option String) → List (Scope Installed)
  | [], _ => []
  | s :: popped, pops => if pops.all Prod.fst then s :: popped else merged popped pops.tail

theorem merged_all {popped : List (Scope Installed)} {pops : List (Bool × Option String)}
    (h : pops.all Prod.fst = true) : merged popped pops = popped := by
  cases popped with
  | nil => rfl
  | cons s popped => exact if_pos h

theorem merged_cons {s : Scope Installed} {popped : List (Scope Installed)}
    {pops : List (Bool × Option String)} (h : pops.all Prod.fst = false) :
    merged (s :: popped) pops = merged popped pops.tail := if_neg (by simp [h])

theorem innermost_merged {merge : Bool} {s outer outer' : Scope Installed}
    (h : Adopts (if merge then [s] else []) outer outer') (marker : Option String)
    (popped : List (Scope Installed)) (pops : List (Bool × Option String)) (name : String) :
    innermost? (merged (s :: outer :: popped) ((merge, marker) :: pops)) name =
      innermost? (merged (outer' :: popped) pops) name := by
  have hi := h.innermost popped name
  cases hall : pops.all Prod.fst with
  | true =>
    have htop : merged (outer' :: popped) pops = outer' :: popped := merged_all hall
    rw [htop, ← hi]
    cases merge with
    | true =>
      rw [merged_all (by rw [List.all_cons, hall]; rfl)]
      rfl
    | false =>
      rw [merged_cons (by rw [List.all_cons]; rfl), List.tail_cons, merged_all hall]
      rfl
  | false =>
    rw [merged_cons (by rw [List.all_cons, hall, Bool.and_false]), List.tail_cons,
      merged_cons hall, merged_cons hall]

namespace World

variable {w v u : World} {raw : Prop} {admits : World → Prop} {c d o : ContextId}
  {s outer : Scope Installed} {popped rest below inner : List (Scope Installed)}
  {pops : List (Bool × Option String)}

def popScopes (w : World) (c : ContextId) :
    List (Bool × Option String) → World × Except EngineError Unit
  | [] => (w, .ok ())
  | (merge, marker) :: pops =>
    match w.popScope c merge marker with
    | (w, .ok ()) => w.popScopes c pops
    | failed => failed

theorem Reachable.filed (h : Reachable raw admits w) (c : ContextId) : (w.context c).Filed := by
  refine h.stack_invariant (P := Context.Filed) ?_ ?_ (fun k hx => k.filed hx) c
  · intro s hs
    cases hs
  · intro x hx s hs
    rcases hx.scopes with ⟨-, id, he⟩ | ⟨-, he⟩
    · rw [he] at hs
      rw [List.mem_singleton.1 hs]
      exact .nil
    · rw [he] at hs
      cases hs

/-! ## The receiver -/

/-- Context `c` has left scopes down to `rest`, and what they had has gone to one scope or is lost. -/
inductive Received (w v : World) (c : ContextId) (inner : List (Scope Installed)) :
    List (Scope Installed) → Prop where
  | own {s s' : Scope Installed} {below : List (Scope Installed)} :
      (v.context c).scopes = s' :: below → Adopts inner s s' →
      (∀ d, d ≠ c → (v.context d).scopes = (w.context d).scopes) → Received w v c inner (s :: below)
  | above {o : ContextId} {s s' : Scope Installed} {below : List (Scope Installed)} :
      w.ownerAbove? c = some o → (w.context o).scopes = s :: below →
      (v.context c).scopes = [] → (v.context o).scopes = s' :: below → Adopts inner s s' →
      (∀ d, d ≠ c → d ≠ o → (v.context d).scopes = (w.context d).scopes) → Received w v c inner []
  | lost :
      w.ownerAbove? c = none → (v.context c).scopes = [] →
      (∀ d, d ≠ c → (v.context d).scopes = (w.context d).scopes) → Received w v c inner []

theorem scopeOwner_above (hs : (w.context c).scopes = []) : w.scopeOwner? c = w.ownerAbove? c := by
  unfold scopeOwner? lineage ownerAbove?
  rw [List.find?_cons, hasScope_of_nil hs]

theorem ownerAbove_lt (hp : Placed w) (ho : w.ownerAbove? c = some o) : o < c :=
  ancestor_lt hp (List.mem_of_find?_eq_some ho)

theorem scopes_of_above (ho : w.ownerAbove? c = some o) :
    ∃ s below, (w.context o).scopes = s :: below := scopes_of_hasScope (List.find?_some ho)

theorem ownerAbove_congr (hp : Placed w) (ha : (v.context c).ancestors = (w.context c).ancestors)
    (hs : ∀ d, d ≠ c → (v.context d).scopes = (w.context d).scopes) :
    v.ownerAbove? c = w.ownerAbove? c := by
  unfold ownerAbove?
  rw [ha]
  refine List.find?_congr fun d hd => ?_
  unfold hasScope
  rw [hs d (Nat.ne_of_lt (ancestor_lt hp hd))]

theorem Received.congr (hp : Placed w) (hu : (u.context c).ancestors = (w.context c).ancestors)
    (hs : ∀ d, d ≠ c → (u.context d).scopes = (w.context d).scopes)
    {inner' : List (Scope Installed)} (hi : ∀ name, innermost? inner' name = innermost? inner name)
    (h : Received u v c inner rest) : Received w v c inner' rest := by
  have habove := ownerAbove_congr hp hu hs
  cases h with
  | own hv ha ho => exact .own hv (ha.congr hi) fun d hd => (ho d hd).trans (hs d hd)
  | above hw he hv hv' ha ho =>
    rw [habove] at hw
    have hne := Nat.ne_of_lt (ownerAbove_lt hp hw)
    refine .above hw ((hs _ hne).symm.trans he) hv hv' (ha.congr hi) fun d hd hd' => ?_
    exact (ho d hd hd').trans (hs d hd)
  | lost hw hv ho => exact .lost (habove ▸ hw) hv fun d hd => (ho d hd).trans (hs d hd)

theorem received_nothing (hs : (w.context c).scopes = []) : Received w w c [] [] := by
  cases ho : w.ownerAbove? c with
  | none => exact .lost ho hs fun _ _ => rfl
  | some o =>
    obtain ⟨outer, below, houter⟩ := scopes_of_above ho
    exact .above ho houter hs houter (adopts_nil outer) fun _ _ _ => rfl

theorem received_mergeUpward (hp : Placed w) (hs : (w.context c).scopes = [])
    (hc : s.compensations.Sorted) : Received w (w.mergeUpward c s) c [s] [] := by
  have hmerge := mergeUpward_eq hp hs s
  rw [updateScope_eq, scopeOwner_above hs] at hmerge
  rw [hmerge]
  cases ho : w.ownerAbove? c with
  | none => exact .lost ho hs fun _ _ => rfl
  | some o =>
    obtain ⟨outer, below, houter⟩ := scopes_of_above ho
    have hne := Nat.ne_of_lt (ownerAbove_lt hp ho)
    have hlt : o < w.contexts.size := context_lt (s := outer) (by rw [houter]; exact .head _)
    dsimp only
    refine .above ho houter ?_ ?_ (adopts_merge hc outer) fun d _ hd => ?_
    · rw [context_modifyContext_of_ne _ _ hne.symm, hs]
    · rw [context_modifyContext_self _ hlt, houter]
      rfl
    · rw [context_modifyContext_of_ne _ _ hd]

/-! ## Pops -/

theorem popScope_top (hs : (w.context c).scopes = s :: below) (marker : Option String) :
    ∃ x, (w.context c).popScope? marker = some (s, x) ∧ x.scopes = below := by
  obtain ⟨r, x, hx⟩ := Context.popScope_of_scopes marker (by rw [hs]; exact List.cons_ne_nil _ _)
  obtain ⟨rfl, rfl⟩ := List.cons.inj (hs.symm.trans (scopes_popScope hx))
  exact ⟨x, hx, rfl⟩

theorem popScope_above (hs : (w.context c).scopes = s :: outer :: below)
    (hc : s.compensations.Sorted) (merge : Bool) (marker : Option String) :
    ∃ v outer', w.popScope c merge marker = (v, .ok ()) ∧
      (v.context c).scopes = outer' :: below ∧ Adopts (if merge then [s] else []) outer outer' ∧
      ∀ d, d ≠ c → (v.context d).scopes = (w.context d).scopes := by
  obtain ⟨x, hx, hrest⟩ := popScope_top hs marker
  have hself : (w.modifyContext c fun _ => x).context c = x :=
    context_modifyContext_self _ (lt_of_popScope hx)
  have hother : ∀ d, d ≠ c → (w.modifyContext c fun _ => x).context d = w.context d := fun _ hd =>
    context_modifyContext_of_ne w _ hd
  unfold popScope
  rw [hx]
  dsimp only
  rw [hrest]
  cases merge with
  | false =>
    refine ⟨_, outer, rfl, ?_, adopts_nil outer, fun d hd => ?_⟩
    · rw [hself, hrest]
    · rw [hother d hd]
  | true =>
    refine ⟨_, outer.mergeCompensations s, rfl, ?_, adopts_merge hc outer, fun d hd => ?_⟩
    · unfold setTopScope
      have hlt := lt_of_popScope hx
      rw [← contexts_size_modifyContext w c fun _ => x] at hlt
      rw [context_modifyContext_self _ hlt, hself, hrest]
      rfl
    · unfold setTopScope
      rw [context_modifyContext_of_ne _ _ hd, hother d hd]

theorem popScope_received (hp : Placed w) (hs : (w.context c).scopes = [s])
    (hc : s.compensations.Sorted) (merge : Bool) (marker : Option String) :
    ∃ v, w.popScope c merge marker = (v, .ok ()) ∧
      Received w v c (if merge then [s] else []) [] := by
  obtain ⟨x, hx, hrest⟩ := popScope_top hs marker
  have hself : ((w.modifyContext c fun _ => x).context c).scopes = [] := by
    rw [context_modifyContext_self _ (lt_of_popScope hx), hrest]
  have hother : ∀ d, d ≠ c →
      ((w.modifyContext c fun _ => x).context d).scopes = (w.context d).scopes := fun d hd => by
    rw [context_modifyContext_of_ne w _ hd]
  have hsteady := (edits_replaceContext w c (bare_popScope hx)).steady
  unfold popScope
  rw [hx]
  dsimp only
  rw [hrest]
  generalize w.modifyContext c (fun _ => x) = u at hself hother hsteady
  have hcongr : ∀ {v inner}, Received u v c inner [] → Received w v c inner [] :=
    Received.congr hp (hsteady.ancestors c) hother fun _ => rfl
  cases merge with
  | false => exact ⟨u, rfl, hcongr (received_nothing hself)⟩
  | true => exact ⟨_, rfl, hcongr (received_mergeUpward (hp.steady hsteady) hself hc)⟩

/-- The scope on top in the end has, under each name, what the innermost of the scopes had there. -/
theorem compensations_accumulate (hp : Placed w) (hf : (w.context c).Filed)
    (hs : (w.context c).scopes = popped ++ rest) (hn : pops.length = popped.length)
    (hk : popped ≠ []) :
    ∃ v, w.popScopes c pops = (v, .ok ()) ∧ Received w v c (merged popped pops) rest := by
  -- on the pops: the second scope has adopted what is left of the first one
  induction pops generalizing w popped with
  | nil => exact absurd (List.length_eq_zero_iff.1 hn.symm) hk
  | cons p pops ih =>
    obtain ⟨merge, marker⟩ := p
    obtain ⟨s, popped, rfl⟩ := List.exists_cons_of_ne_nil hk
    have hc : s.compensations.Sorted := hf s (hs ▸ .head _)
    have hlen : pops.length = popped.length := Nat.succ.inj hn
    rcases popped with _ | ⟨outer, popped⟩
    · obtain rfl := List.length_eq_zero_iff.1 hlen
      have hmerged : merged [s] [(merge, marker)] = if merge then [s] else [] := by
        cases merge <;> rfl
      rw [hmerged]
      rcases rest with _ | ⟨outer, below⟩
      · obtain ⟨v, hv, hr⟩ := popScope_received hp hs hc merge marker
        exact ⟨v, by rw [popScopes, hv]; rfl, hr⟩
      · obtain ⟨v, outer', hv, hself, ha, hother⟩ := popScope_above hs hc merge marker
        exact ⟨v, by rw [popScopes, hv]; rfl, .own hself ha hother⟩
    · obtain ⟨u, outer', hu, hself, ha, hother⟩ := popScope_above hs hc merge marker
      have hsteady := (edits_popScope w c merge marker).steady
      have hsteps := stackSteps_popScope w c merge marker
      rw [hu] at hsteady hsteps
      have hfiled : (u.context c).Filed := (hsteps c).keeps (fun k hx => k.filed hx) hf
      have hstack : (u.context c).scopes = (outer' :: popped) ++ rest := hself
      obtain ⟨v, hv, hr⟩ := ih (hp.steady hsteady) hfiled hstack hlen (List.cons_ne_nil _ _)
      refine ⟨v, by rw [popScopes, hu]; exact hv, hr.congr hp (hsteady.ancestors c) hother ?_⟩
      exact innermost_merged ha marker popped pops

theorem refund_adopted : ∃ w v : World, Reachable False (fun _ => True) w ∧
    (w.context 1).scopes.length = 2 ∧
    w.popScopes 1 [(true, none), (true, none)] = (v, .ok ()) ∧ ∃ s, (v.context 0).scopes = [s] ∧
      (s.compensations.get? "charge").map Installed.continuation = some (.noop "refund") := by
  have h1 : Reachable False (fun _ => True) (rooted "order" "shop" "main" 1 none) :=
    .rooted _ _ _ _ _ trivial trivial
  have h2 := h1.next (.call (.inl rfl) (.child 0 "pay" none (by decide))) trivial
  have h3 := h2.next (.call (.inl rfl) (.edit (.pushScope 1 "charge" none))) trivial
  have h4 := h3.next (.call (.inl rfl) (.edit (.installCompensation 1 (.noop "void")))) trivial
  have h5 := h4.next (.call (.inl rfl) (.edit (.pushScope 1 "charge" none))) trivial
  have h6 := h5.next (.call (.inl rfl) (.edit (.installCompensation 1 (.noop "refund")))) trivial
  have htwo : [(true, (none : Option String)), (true, none)].length = 2 := rfl
  obtain ⟨v, hv, hr⟩ := compensations_accumulate (c := 1) h6.placed (h6.filed 1)
    (List.append_nil _).symm htwo (List.cons_ne_nil _ _)
  refine ⟨_, v, h6, rfl, hv, ?_⟩
  cases hr with
  | above ho hs _ hself ha _ =>
    obtain rfl := Option.some.inj ho
    obtain ⟨-, rfl⟩ := List.cons.inj hs
    refine ⟨_, hself, ?_⟩
    rw [ha.compensations]
    rfl
  | lost ho => cases ho

end World

end SagaEngine
