import SagaEngine.Context

/-! Unwinding a stack of scopes. A fault is handled by the innermost scope that has a handler for it,
under its own name before the default one, and the scopes above that are gone. -/

namespace SagaEngine

namespace Scope

variable {α : Type}

def handlerFor? (s : Scope α) (fault : String) : Option α :=
  (s.handlers.get? fault).or (s.handlers.get? Fault.defaultHandler)

theorem takeHandler_fst (s : Scope α) (fault : String) :
    (s.takeHandler fault).1 = s.handlerFor? fault := by
  unfold takeHandler handlerName? handlerFor? Table.contains
  rcases hf : s.handlers.get? fault with _ | h
  · rcases hd : s.handlers.get? Fault.defaultHandler with _ | h
    · rfl
    · exact hd
  · exact hf

theorem handler_eq (s : Scope α) (fault : String) : s.handler? fault = s.handlerFor? fault := by
  rw [← takeHandler_fst]
  unfold handler? takeHandler
  cases s.handlerName? fault <;> rfl

theorem handlerFor_some {s : Scope α} {fault : String} {a : α} (h : s.handlerFor? fault = some a) :
    ∃ name, s.handlers.get? name = some a := by
  unfold handlerFor? at h
  rcases Option.or_eq_some_iff.1 h with h | ⟨-, h⟩
  · exact ⟨_, h⟩
  · exact ⟨_, h⟩

end Scope

def handlerOn? (fault : String) (scopes : List (Scope Installed)) : Option Installed :=
  scopes.findSome? fun s => s.handlerFor? fault

namespace Context

theorem popScope_some {c x : Context} {s t : Scope Installed} {below : List (Scope Installed)}
    (hs : c.scopes = s :: below) {marker : Option String} (h : c.popScope? marker = some (t, x)) :
    t = s ∧ x.scopes = below ∧ x.ancestors = c.ancestors := by
  unfold popScope? at h
  rw [hs] at h
  dsimp only at h
  obtain ⟨rfl, rfl⟩ := Prod.mk.inj (Option.some.inj h)
  refine ⟨rfl, ?_⟩
  split <;> exact ⟨rfl, rfl⟩

/-- Unwinding stops at the innermost scope that has a handler, and takes it. -/
theorem unwindFrom_some {fault : String} {n : Nat} {c x : Context} {h : Installed}
    (hx : unwindFrom fault n c = (some h, x)) :
    ∃ above s below, c.scopes = above ++ s :: below ∧ (∀ a ∈ above, a.handlerFor? fault = none) ∧
      s.handlerFor? fault = some h ∧ x.scopes = (s.takeHandler fault).2 :: below := by
  induction n generalizing c with
  | zero => cases hx
  | succ n ih =>
    unfold unwindFrom at hx
    rcases hs : c.scopes with _ | ⟨s, below⟩
    · simp only [hs] at hx
      cases hx
    · have hfst := s.takeHandler_fst fault
      rcases ht : s.takeHandler fault with ⟨_ | k, s'⟩
      · rw [ht] at hfst
        simp only [hs, ht] at hx
        split at hx
        · split at hx
          · rename_i t y hy
            obtain ⟨-, hbelow, -⟩ := popScope_some hs hy
            obtain ⟨above, r, rest, hsplit, hnone, hsome, hscopes⟩ := ih hx
            refine ⟨s :: above, r, rest, ?_, ?_, hsome, hscopes⟩
            · rw [← hbelow, hsplit]
              rfl
            · intro a ha
              rcases List.mem_cons.1 ha with rfl | ha
              · exact hfst.symm
              · exact hnone a ha
          · cases hx
        · cases hx
      · rw [ht] at hfst
        simp only [hs, ht] at hx
        obtain ⟨hk, rfl⟩ := Prod.mk.inj hx
        refine ⟨[], s, below, rfl, by simp, ?_, by rw [ht]⟩
        rw [← hk]
        exact hfst.symm

theorem unwindFrom_none {fault : String} {n : Nat} {c x : Context} (hn : c.scopes.length ≤ n)
    (hx : unwindFrom fault n c = (none, x)) :
    (∀ s ∈ c.scopes, s.handlerFor? fault = none) ∧ (c.ancestors ≠ [] → x.scopes = []) ∧
      ∃ above, c.scopes = above ++ x.scopes := by
  induction n generalizing c with
  | zero =>
    have hs : c.scopes = [] := List.length_eq_zero_iff.1 (Nat.le_zero.1 hn)
    obtain ⟨-, rfl⟩ := Prod.mk.inj hx
    exact ⟨by simp [hs], fun _ => hs, [], rfl⟩
  | succ n ih =>
    unfold unwindFrom at hx
    rcases hs : c.scopes with _ | ⟨s, below⟩
    · simp only [hs] at hx
      obtain ⟨-, rfl⟩ := Prod.mk.inj hx
      exact ⟨by simp, fun _ => hs, [], hs.symm⟩
    · have hfst := s.takeHandler_fst fault
      rcases ht : s.takeHandler fault with ⟨_ | k, s'⟩
      · rw [ht] at hfst
        simp only [hs, ht] at hx
        split at hx
        · split at hx
          · rename_i t y hy
            obtain ⟨-, hbelow, hanc⟩ := popScope_some hs hy
            have hlen : y.scopes.length ≤ n := by
              rw [hbelow]
              rw [hs] at hn
              exact Nat.le_of_succ_le_succ hn
            obtain ⟨hnone, hempty, above, hsplit⟩ := ih hlen hx
            refine ⟨?_, fun ha => hempty (hanc ▸ ha), s :: above, ?_⟩
            · intro a ha
              rcases List.mem_cons.1 ha with rfl | ha
              · exact hfst.symm
              · exact hnone a (hbelow ▸ ha)
            · rw [← hbelow, hsplit]
              rfl
          · rename_i hy
            simp [popScope?, hs] at hy
        · -- the floor is reached, which a context with ancestors does not have
          rename_i hfloor
          obtain ⟨-, rfl⟩ := Prod.mk.inj hx
          rw [List.length_cons] at hfloor
          have hlen : c.unwindFloor ≤ 1 := by
            unfold unwindFloor
            split <;> decide
          have hbelow : below = [] := List.length_eq_zero_iff.1 (by omega)
          subst hbelow
          refine ⟨by simpa using hfst.symm, fun ha => ?_, [], hs.symm⟩
          have : c.unwindFloor = 0 := by simp [unwindFloor, ha]
          omega
      · simp only [hs, ht] at hx
        cases (Prod.mk.inj hx).1

theorem handlerOn_eq_none {fault : String} {scopes : List (Scope Installed)} :
    handlerOn? fault scopes = none ↔ ∀ s ∈ scopes, s.handlerFor? fault = none :=
  List.findSome?_eq_none_iff

theorem handlerOn_append {fault : String} {above below : List (Scope Installed)}
    {s : Scope Installed} {h : Installed} (ha : ∀ a ∈ above, a.handlerFor? fault = none)
    (hs : s.handlerFor? fault = some h) : handlerOn? fault (above ++ s :: below) = some h := by
  unfold handlerOn?
  rw [List.findSome?_append, List.findSome?_eq_none_iff.2 ha]
  simp [hs]

theorem unwind_current {c : Context} {fault : String} {s t : Scope Installed} {h : Installed}
    {below : List (Scope Installed)} (hs : c.scopes = s :: below)
    (ht : s.takeHandler fault = (some h, t)) :
    c.unwind fault = (some h, { c with scopes := t :: below }) := by
  unfold unwind
  rw [hs, List.length_cons]
  unfold unwindFrom
  simp only [hs, ht]

theorem unwind_fst (c : Context) (fault : String) :
    (c.unwind fault).1 = handlerOn? fault c.scopes := by
  unfold unwind
  rcases hx : unwindFrom fault c.scopes.length c with ⟨_ | h, x⟩
  · obtain ⟨hnone, -⟩ := unwindFrom_none (Nat.le_refl _) hx
    exact (handlerOn_eq_none.2 hnone).symm
  · obtain ⟨above, s, below, hsplit, ha, hs, -⟩ := unwindFrom_some hx
    rw [hsplit]
    exact (handlerOn_append ha hs).symm

end Context

end SagaEngine
