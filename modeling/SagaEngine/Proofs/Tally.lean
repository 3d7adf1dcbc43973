import Mathlib.Algebra.Ring.Nat
import SagaEngine.Proofs.Effects
import SagaEngine.Proofs.Unwinding

/-! Counting what the tables of all scopes hold. An operation on tables adds what it installs and takes
away what it gives out; a merge only moves what it merges. -/

namespace SagaEngine

namespace Table

variable {α : Type} (q : String × α → Bool)

theorem countP_insert (t : Table α) (k : String) (a : α) :
    (t.insert k a).countP q ≤ t.countP q + if q (k, a) then 1 else 0 := by
  induction t with
  | nil => simp [insert, List.countP_cons]
  | cons e t ih =>
    obtain ⟨j, b⟩ := e
    unfold insert
    split
    · simp only [List.countP_cons]
      omega
    · split
      · simp only [List.countP_cons]
        omega
      · simp only [List.countP_cons]
        omega

theorem countP_merge (t u : Table α) : (t.merge u).countP q ≤ t.countP q + u.countP q := by
  induction u generalizing t with
  | nil => simp [merge]
  | cons e u ih =>
    obtain ⟨j, b⟩ := e
    have hrest := ih (t.insert j b)
    have hhead := countP_insert q t j b
    change ((t.insert j b).merge u).countP q ≤ _
    rw [List.countP_cons]
    omega

theorem countP_erase (t : Table α) (k : String) : (t.erase k).countP q ≤ t.countP q := by
  induction t with
  | nil => simp [erase]
  | cons e t ih =>
    obtain ⟨j, b⟩ := e
    unfold erase
    split
    · rw [List.countP_cons]
      omega
    · simp only [List.countP_cons]
      omega

theorem countP_erase_found {t : Table α} {k : String} {a : α} (h : t.get? k = some a) :
    ((t.erase k).countP q + if q (k, a) then 1 else 0) ≤ t.countP q := by
  induction t with
  | nil => cases h
  | cons e t ih =>
    obtain ⟨j, b⟩ := e
    unfold get? at h
    unfold erase
    split at h
    · rename_i hj
      obtain rfl := Option.some.inj h
      have herase := countP_erase q t k
      rw [if_pos hj, List.countP_cons, hj]
      omega
    · rename_i hj
      have hrest := ih h
      rw [if_neg hj]
      simp only [List.countP_cons]
      omega

theorem countP_pos {t : Table α} {k : String} {a : α} (h : t.get? k = some a)
    (hq : q (k, a) = true) : 0 < t.countP q := by
  have he := countP_erase_found q h
  rw [if_pos hq] at he
  omega

theorem name_unique {t : Table α} (h : t.countP q ≤ 1) {j k : String} {a b : α}
    (hj : t.get? j = some a) (hk : t.get? k = some b) (ha : q (j, a) = true)
    (hb : q (k, b) = true) : j = k := by
  -- a second name would be left when the entry under the first is gone
  refine Decidable.byContradiction fun hne => ?_
  have hk' : (t.erase j).get? k = some b := by rw [get?_erase, if_neg hne, hk]
  have hpos := countP_pos q hk' hb
  have he := countP_erase_found q hj
  rw [if_pos ha] at he
  omega

end Table

def Scope.table (s : Scope Installed) : Role → Table Installed
  | .handler => s.handlers
  | .compensation => s.compensations

/-- How many of the installations that a scope holds satisfy `p`. -/
def Scope.tally (p : Role → Installed → Bool) (s : Scope Installed) : Nat :=
  (s.handlers.countP fun e => p .handler e.2) + s.compensations.countP fun e => p .compensation e.2

def Context.tally (p : Role → Installed → Bool) (x : Context) : Nat :=
  (x.scopes.map (Scope.tally p)).sum

def World.tally (w : World) (p : Role → Installed → Bool) : Nat :=
  (w.contexts.toList.map (Context.tally p)).sum

namespace Scope

variable {p : Role → Installed → Bool} {s : Scope Installed} {x : Installed}

theorem tally_installHandler (fault : String) :
    (s.installHandler fault x).tally p ≤ s.tally p + if p .handler x then 1 else 0 := by
  have h := Table.countP_insert (fun e => p .handler e.2) s.handlers fault x
  unfold installHandler tally
  dsimp only at h ⊢
  omega

theorem tally_installCompensation :
    (s.installCompensation x).tally p ≤ s.tally p + if p .compensation x then 1 else 0 := by
  have h := Table.countP_insert (fun e => p .compensation e.2) s.compensations s.id x
  unfold installCompensation tally
  dsimp only at h ⊢
  omega

theorem tally_takeHandler (fault : String) : (s.takeHandler fault).2.tally p ≤ s.tally p := by
  unfold takeHandler
  split
  · rename_i name _
    have h := Table.countP_erase (fun e => p .handler e.2) s.handlers name
    unfold tally
    dsimp only at h ⊢
    omega
  · exact Nat.le_refl _

theorem tally_takeHandler_some {fault : String} (hx : (s.takeHandler fault).1 = some x) :
    ((s.takeHandler fault).2.tally p + if p .handler x then 1 else 0) ≤ s.tally p := by
  unfold takeHandler at hx ⊢
  split at hx
  · rename_i name _
    have h := Table.countP_erase_found (fun e => p .handler e.2) hx
    unfold tally
    dsimp only at h ⊢
    omega
  · cases hx

theorem tally_lookup (fault : String) (erase : Bool) :
    (s.lookup fault erase).2.tally p ≤ s.tally p := by
  unfold lookup
  split
  · exact tally_takeHandler fault
  · exact Nat.le_refl _

theorem tally_takeCompensation (id : String) : (s.takeCompensation id).2.tally p ≤ s.tally p := by
  have h := Table.countP_erase (fun e => p .compensation e.2) s.compensations id
  unfold takeCompensation tally
  dsimp only at h ⊢
  omega

theorem tally_takeCompensation_some {id : String} (hx : (s.takeCompensation id).1 = some x) :
    ((s.takeCompensation id).2.tally p + if p .compensation x then 1 else 0) ≤ s.tally p := by
  have h := Table.countP_erase_found (fun e => p .compensation e.2) hx
  unfold takeCompensation tally
  dsimp only at h ⊢
  omega

theorem tally_merge (inner : Scope Installed) :
    (s.mergeCompensations inner).tally p ≤ s.tally p + inner.tally p := by
  have h := Table.countP_merge (fun e => p .compensation e.2) s.compensations inner.compensations
  unfold mergeCompensations tally
  dsimp only at h ⊢
  omega

theorem tally_pos {r : Role} {name : String} (h : (s.table r).get? name = some x)
    (hp : p r x = true) : 0 < s.tally p := by
  unfold tally
  cases r with
  | handler => exact Nat.add_pos_left (Table.countP_pos (fun e => p .handler e.2) h hp) _
  | compensation => exact Nat.add_pos_right _ (Table.countP_pos (fun e => p .compensation e.2) h hp)

theorem name_unique (h : s.tally p ≤ 1) {r r' : Role} {name name' : String} {y : Installed}
    (hx : (s.table r).get? name = some x) (hy : (s.table r').get? name' = some y)
    (hp : p r x = true) (hp' : p r' y = true) : r = r' ∧ name = name' := by
  have hcount := Table.name_unique (α := Installed)
  unfold tally at h
  cases r with
  | handler =>
    change s.handlers.get? name = some x at hx
    cases r' with
    | handler => exact ⟨rfl, hcount (fun e => p .handler e.2) (by omega) hx hy hp hp'⟩
    | compensation =>
      change s.compensations.get? name' = some y at hy
      have h1 := Table.countP_pos (fun e => p .handler e.2) hx hp
      have h2 := Table.countP_pos (fun e => p .compensation e.2) hy hp'
      omega
  | compensation =>
    change s.compensations.get? name = some x at hx
    cases r' with
    | handler =>
      change s.handlers.get? name' = some y at hy
      have h1 := Table.countP_pos (fun e => p .compensation e.2) hx hp
      have h2 := Table.countP_pos (fun e => p .handler e.2) hy hp'
      omega
    | compensation => exact ⟨rfl, hcount (fun e => p .compensation e.2) (by omega) hx hy hp hp'⟩

end Scope

namespace Context

variable {p : Role → Installed → Bool} {c x : Context} {fault : String}

theorem tally_unwind_none (hx : c.unwind fault = (none, x)) : x.tally p ≤ c.tally p := by
  obtain ⟨-, -, above, hsplit⟩ := unwindFrom_none (Nat.le_refl _) hx
  unfold tally
  rw [hsplit, List.map_append, List.sum_append]
  omega

theorem tally_unwind_some {h : Installed} (hx : c.unwind fault = (some h, x)) :
    (x.tally p + if p .handler h then 1 else 0) ≤ c.tally p := by
  obtain ⟨above, s, below, hsplit, -, hs, hrest⟩ := unwindFrom_some hx
  have ht := Scope.tally_takeHandler_some (p := p) ((s.takeHandler_fst fault).trans hs)
  unfold tally
  rw [hsplit, hrest]
  simp only [List.map_append, List.sum_append, List.map_cons, List.sum_cons]
  omega

end Context

namespace World

variable {w w' : World} {p : Role → Installed → Bool} {c : ContextId}

theorem sum_modify {α : Type} (n : α → Nat) (f : α → α) {l : List α} {i : Nat} {a : α}
    (h : l[i]? = some a) :
    ((l.modify i f).map n).sum + n a = (l.map n).sum + n (f a) := by
  induction l generalizing i with
  | nil => simp at h
  | cons b l ih =>
    cases i with
    | zero =>
      obtain rfl : b = a := by simpa using h
      simp only [List.modify_zero_cons, List.map_cons, List.sum_cons]
      omega
    | succ i =>
      have hrest := ih (i := i) (by simpa using h)
      simp only [List.modify_succ_cons, List.map_cons, List.sum_cons]
      omega

theorem le_sum {α : Type} (n : α → Nat) {l : List α} {i : Nat} {a : α} (h : l[i]? = some a) :
    n a ≤ (l.map n).sum := by
  induction l generalizing i with
  | nil => simp at h
  | cons b l ih =>
    rw [List.map_cons, List.sum_cons]
    cases i with
    | zero =>
      obtain rfl : b = a := by simpa using h
      exact Nat.le_add_right _ _
    | succ i => exact Nat.le_add_left_of_le (ih (i := i) (by simpa using h))

theorem index_unique_of_sum {α : Type} (n : α → Nat) {l : List α} (h : (l.map n).sum ≤ 1)
    {i j : Nat} {a b : α} (hi : l[i]? = some a) (hj : l[j]? = some b) (ha : 0 < n a)
    (hb : 0 < n b) : i = j := by
  induction l generalizing i j with
  | nil => simp at hi
  | cons d l ih =>
    rw [List.map_cons, List.sum_cons] at h
    cases i with
    | zero =>
      cases j with
      | zero => rfl
      | succ j =>
        obtain rfl : d = a := by simpa using hi
        have hrest := le_sum n (l := l) (i := j) (by simpa using hj)
        omega
    | succ i =>
      cases j with
      | zero =>
        obtain rfl : d = b := by simpa using hj
        have hrest := le_sum n (l := l) (i := i) (by simpa using hi)
        omega
      | succ j =>
        exact congrArg Nat.succ (ih (by omega) (by simpa using hi) (by simpa using hj))

theorem context_getElem (hc : c < w.contexts.size) :
    w.contexts.toList[c]? = some (w.context c) := by
  simp [context, Array.getD_eq_getD_getElem?, hc]

theorem tally_modifyContext (hc : c < w.contexts.size) (f : Context → Context) :
    (w.modifyContext c f).tally p + (w.context c).tally p =
      w.tally p + (f (w.context c)).tally p := by
  unfold tally modifyContext
  rw [Array.toList_modify]
  exact sum_modify (Context.tally p) f (context_getElem hc)

theorem tally_congr (hs : w'.contexts.size = w.contexts.size)
    (hc : ∀ c, (w'.context c).scopes = (w.context c).scopes) : w'.tally p = w.tally p := by
  unfold tally
  congr 1
  refine List.ext_getElem? fun i => ?_
  simp only [List.getElem?_map]
  rcases Nat.lt_or_ge i w.contexts.size with hi | hi
  · have hi' : i < w'.contexts.size := hs ▸ hi
    rw [context_getElem hi, context_getElem hi']
    simp only [Option.map_some, Context.tally, hc]
  · have hi' : w'.contexts.size ≤ i := hs ▸ hi
    rw [List.getElem?_eq_none (by simpa using hi'), List.getElem?_eq_none (by simpa using hi)]

theorem tally_modifyContext_le (f : Context → Context)
    (h : (f (w.context c)).tally p ≤ (w.context c).tally p) :
    (w.modifyContext c f).tally p ≤ w.tally p := by
  by_cases hc : c < w.contexts.size
  · have he := tally_modifyContext (p := p) hc f
    omega
  · refine Nat.le_of_eq (tally_congr (contexts_size_modifyContext ..) fun d => ?_)
    rw [context_modifyContext, if_neg fun hd : c = d ∧ d < _ => hc (hd.1 ▸ hd.2)]

theorem tally_addContext (x : Context) : (w.addContext x).2.tally p = w.tally p + x.tally p := by
  simp [tally, addContext]

/-! ## Operations on scopes -/

theorem context_lt {s : Scope Installed} (h : s ∈ (w.context c).scopes) : c < w.contexts.size := by
  refine Nat.lt_of_not_le fun hc => ?_
  rw [context_of_size_le hc] at h
  cases h

theorem tally_setTopScope {s t : Scope Installed} {below : List (Scope Installed)}
    (hs : (w.context c).scopes = s :: below) :
    (w.setTopScope c t).tally p + s.tally p = w.tally p + t.tally p := by
  have hc : c < w.contexts.size := context_lt (s := s) (by simp [hs])
  have h := tally_modifyContext (p := p) hc fun x => { x with scopes := t :: x.scopes.tail }
  unfold setTopScope
  simp only [Context.tally, hs, List.tail_cons, List.map_cons, List.sum_cons] at h ⊢
  omega

theorem nearestScope_some {o : ContextId} {s : Scope Installed} (ho : w.scopeOwner? c = some o)
    (hs : w.nearestScope? c = some s) : ∃ below, (w.context o).scopes = s :: below := by
  unfold nearestScope? at hs
  rw [ho] at hs
  exact List.head?_eq_some_iff.1 hs

theorem updateScope_cases {α : Type} (w : World) (c : ContextId)
    (f : Scope Installed → α × Scope Installed) :
    (∃ o s below, w.scopeOwner? c = some o ∧ (w.context o).scopes = s :: below ∧
      w.updateScope c f = (w.setTopScope o (f s).2, .ok (f s).1)) ∨
    w.updateScope c f = (w, .error (w.noScope c)) := by
  unfold updateScope
  split
  · rename_i o s ho hs
    obtain ⟨below, hscopes⟩ := nearestScope_some ho hs
    exact .inl ⟨o, s, below, ho, hscopes, rfl⟩
  · exact .inr rfl

theorem tally_updateScope {α : Type} {f : Scope Installed → α × Scope Installed} {n : Nat}
    (h : ∀ s, (f s).2.tally p ≤ s.tally p + n) :
    (w.updateScope c f).1.tally p ≤ w.tally p + n := by
  rcases updateScope_cases w c f with ⟨o, s, below, -, hs, hu⟩ | hu
  · have ht := tally_setTopScope (p := p) (t := (f s).2) hs
    have hf := h s
    rw [hu]
    dsimp only
    omega
  · rw [hu]
    exact Nat.le_add_right _ _

theorem tally_updateScope_ok {α : Type} {f : Scope Installed → α × Scope Installed} {a : α} {n : Nat}
    (h : ∀ s, (f s).1 = a → (f s).2.tally p + n ≤ s.tally p) (ha : (w.updateScope c f).2 = .ok a) :
    (w.updateScope c f).1.tally p + n ≤ w.tally p := by
  rcases updateScope_cases w c f with ⟨o, s, below, -, hs, hu⟩ | hu
  · rw [hu] at ha ⊢
    have ht := tally_setTopScope (p := p) (t := (f s).2) hs
    have hf := h s (Except.ok.inj ha)
    dsimp only
    omega
  · rw [hu] at ha
    cases ha

theorem tally_popScope (w : World) (c : ContextId) (merge : Bool) (marker : Option String) :
    (w.popScope c merge marker).1.tally p ≤ w.tally p := by
  unfold popScope
  rcases hscopes : (w.context c).scopes with _ | ⟨s, below⟩
  · simp [Context.popScope?, hscopes]
  · have hc : c < w.contexts.size := context_lt (s := s) (by simp [hscopes])
    rcases hx : (w.context c).popScope? marker with _ | ⟨t, x⟩
    · exact Nat.le_refl _
    · obtain ⟨rfl, hbelow, -⟩ := Context.popScope_some hscopes hx
      -- without the scope, and before anything is merged
      have hpop : (w.modifyContext c fun _ => x).tally p + t.tally p = w.tally p := by
        have h := tally_modifyContext (p := p) hc fun _ => x
        simp only [Context.tally, hscopes, hbelow, List.map_cons, List.sum_cons] at h
        omega
      have hmine : ((w.modifyContext c fun _ => x).context c).scopes = below := by
        rw [context_modifyContext_self _ hc, hbelow]
      dsimp only
      generalize w.modifyContext c (fun _ => x) = v at hpop hmine ⊢
      cases merge with
      | false =>
        dsimp only
        omega
      | true =>
        rw [hbelow]
        cases below with
        | nil =>
          have hm : (v.mergeUpward c t).tally p ≤ v.tally p + t.tally p := by
            unfold mergeUpward
            split
            · exact tally_updateScope fun outer => outer.tally_merge t
            · exact Nat.le_add_right _ _
          dsimp only
          omega
        | cons outer below =>
          have hset := tally_setTopScope (p := p) (t := outer.mergeCompensations t) hmine
          have hm := Scope.tally_merge (p := p) (s := outer) t
          dsimp only
          omega

end World

end SagaEngine
