import SagaEngine.Proofs.Raising
import SagaEngine.Proofs.Stacks

/-! Markers. A push answers with the marker that it replaces and keeps no copy of it, so that only its
caller can give the marker back, at the pop. A raise that leaves scopes has none to give back, and clears
the marker. -/

namespace SagaEngine

namespace Context

variable {x y z : Context} {n : Nat}

def names (x : Context) : List String := x.scopes.map Scope.id

@[simp] theorem length_names (x : Context) : x.names.length = x.scopes.length := by simp [names]

theorem StackStep.names (h : x.StackStep y) :
    (∃ id marker, y = x.pushScope id marker) ∨ y.names <:+ x.names := by
  unfold Context.names
  cases h with
  | keep hs => exact .inr (hs ▸ List.suffix_rfl)
  | @table s s' below hs ha =>
    have hids : (s' :: below).map Scope.id = x.scopes.map Scope.id := by
      rw [hs, List.map_cons, List.map_cons, ha.id]
    exact .inr (hids ▸ List.suffix_rfl)
  | queue | next | discard => exact .inr List.suffix_rfl
  | push id marker => exact .inl ⟨id, marker, rfl⟩
  | pop h =>
    right
    rw [World.scopes_popScope h]
    exact List.suffix_cons _ _

def StepsAbove (n : Nat) : Context → Context → Prop :=
  Relation.ReflTransGen fun x y => StackStep x y ∧ n < y.scopes.length

/-- Context `y` was `x` when a scope was pushed on `n` others, which has been open ever since. -/
structure Pushed (n : Nat) (x y : Context) : Prop where
  begun : ∃ z, z.saved = [] ∧ StackSteps z x
  depth : x.scopes.length = n
  names : x.names <:+ y.names
  since : ∃ id marker, StepsAbove n (x.pushScope id marker) y

theorem Pushed.step (h : Pushed n x y) (hs : y.StackStep z) (hn : n < z.scopes.length) :
    Pushed n x z := by
  obtain ⟨id, marker, hsince⟩ := h.since
  refine ⟨h.begun, h.depth, ?_, id, marker, hsince.tail ⟨hs, hn⟩⟩
  rcases hs.names with ⟨id, marker, rfl⟩ | hz
  · exact h.names.trans (List.suffix_cons _ _)
  · refine List.suffix_of_suffix_length_le h.names hz ?_
    rw [length_names, length_names, h.depth]
    exact Nat.le_of_lt hn

theorem StackSteps.pushed (hz : z.saved = []) (hroot : z.scopes.length ≤ 1) (h : StackSteps z y)
    (hn : 0 < n) (hlt : n < y.scopes.length) : ∃ x, Pushed n x y := by
  induction h with
  | refl => omega
  | @tail y y' hy s ih =>
    rcases s.names with ⟨id, marker, rfl⟩ | hle
    · rcases Nat.lt_succ_iff_lt_or_eq.1 hlt with hlt' | rfl
      · obtain ⟨x, hx⟩ := ih hlt'
        exact ⟨x, hx.step s hlt⟩
      · exact ⟨y, ⟨z, hz, hy⟩, rfl, List.suffix_cons _ _, id, marker, .refl⟩
    · have hlen := hle.length_le
      rw [length_names, length_names] at hlen
      obtain ⟨x, hx⟩ := ih (Nat.lt_of_lt_of_le hlt hlen)
      exact ⟨x, hx.step s hlt⟩

end Context

namespace World

variable {w : World} {raw : Prop} {admits : World → Prop} {c d : ContextId} {f : Fault}
  {above below : List (Scope Installed)} {s : Scope Installed} {k : Installed} {n : Nat}

theorem Reachable.begun (h : Reachable raw admits w) (c : ContextId) :
    ∃ z : Context, z.saved = [] ∧ z.scopes.length ≤ 1 ∧ z.StackSteps (w.context c) := by
  refine h.stack_invariant (P := fun y => ∃ z : Context, z.saved = [] ∧ z.scopes.length ≤ 1 ∧
    z.StackSteps y) ⟨default, rfl, Nat.zero_le _, .refl⟩ (fun x hx => ⟨x, hx.saved, ?_, .refl⟩) ?_ c
  · rcases hx.scopes with ⟨-, id, hs⟩ | ⟨-, hs⟩
    · rw [hs]
      exact Nat.le_refl _
    · rw [hs]
      exact Nat.zero_le _
  · rintro x y s ⟨z, hz, hroot, hsteps⟩
    exact ⟨z, hz, hroot, hsteps.tail s⟩

theorem marker_raise (hs : (w.context c).scopes = above ++ s :: below)
    (ha : ∀ a ∈ above, a.handlerFor? f.name = none) (hh : s.handlerFor? f.name = some k) :
    ((w.raise c f).1.context c).names = (s :: below).map Scope.id ∧
      ((w.raise c f).1.context c).marker = (if above = [] then (w.context c).marker else none) ∧
      ∀ d, d ≠ c → ((w.raise c f).1.context d).marker = (w.context d).marker := by
  have hc : c < w.contexts.size := context_lt (s := s) (by simp [hs])
  obtain ⟨t, hloses, hraise⟩ := handled_raise hs ha hh
  have ht : t.id = s.id := by cases hloses <;> rfl
  have hcontext : ∀ d, (w.raise c f).1.context d = (w.modifyContext c fun x => { x with
      scopes := t :: below
      pending := [k.continuation]
      saved := x.saved.drop above.length
      marker := if above = [] then x.marker else none }).context d := by
    rw [hraise]
    exact fun _ => rfl
  refine ⟨?_, ?_, fun d hd => ?_⟩
  · rw [hcontext, context_modifyContext_self _ hc]
    unfold Context.names
    rw [List.map_cons, List.map_cons, ht]
  · rw [hcontext, context_modifyContext_self _ hc]
  · rw [hcontext, context_modifyContext_of_ne _ _ hd]

theorem names_pushed {x : Context} (hs : (w.context c).scopes = above ++ s :: below)
    (h : x.Pushed (below.length + 1) (w.context c)) : x.names = (s :: below).map Scope.id := by
  have hsuffix : (s :: below).map Scope.id <:+ (w.context c).names := by
    unfold Context.names
    rw [hs, List.map_append]
    exact List.suffix_append _ _
  have hlen : x.names.length = ((s :: below).map Scope.id).length := by
    rw [Context.length_names, h.depth, List.length_map, List.length_cons]
  exact (List.suffix_of_suffix_length_le h.names hsuffix (Nat.le_of_eq hlen)).eq_of_length hlen

/-- A raise that leaves scopes clears the marker, whatever the push on the rest answered. -/
theorem Reachable.unwinding_clears (h : Reachable raw admits w)
    (hs : (w.context c).scopes = above ++ s :: below)
    (ha : ∀ a ∈ above, a.handlerFor? f.name = none) (hh : s.handlerFor? f.name = some k) :
    let x' := (w.raise c f).1.context c
    x'.names = (s :: below).map Scope.id ∧
      (above = [] → x'.marker = (w.context c).marker) ∧
      (above ≠ [] → x'.marker = none ∧
        (∃ x, Context.Pushed (below.length + 1) x (w.context c)) ∧
        ∀ x, Context.Pushed (below.length + 1) x (w.context c) →
          x.names = (s :: below).map Scope.id ∧ (x'.marker = x.marker ↔ x.marker = none)) ∧
      ∀ d, d ≠ c → ((w.raise c f).1.context d).marker = (w.context d).marker := by
  obtain ⟨hnames, hmarker, hothers⟩ := marker_raise hs ha hh
  refine ⟨hnames, fun hnil => ?_, fun hne => ?_, hothers⟩
  · rw [hmarker, if_pos hnil]
  · rw [if_neg hne] at hmarker
    obtain ⟨z, hz, hroot, hsteps⟩ := h.begun c
    have hlt : below.length + 1 < (w.context c).scopes.length := by
      have hpos := List.length_pos_iff.2 hne
      rw [hs, List.length_append, List.length_cons]
      omega
    refine ⟨hmarker, hsteps.pushed hz hroot (Nat.succ_pos _) hlt, fun x hx =>
      ⟨names_pushed hs hx, ?_⟩⟩
    rw [hmarker]
    exact eq_comm

theorem card_unwound : ∃ (w : World) (x : Context), Reachable False (fun _ => True) w ∧
    x.Pushed 2 (w.context 0) ∧ x.marker = some "body" ∧
    ((w.raise 0 ⟨"declined", none, .null⟩).1.context 0).names = ["receipt", "main"] ∧
    ((w.raise 0 ⟨"declined", none, .null⟩).1.context 0).marker = none := by
  have h1 : Reachable False (fun _ => True) (rooted "order" "shop" "main" 1 none) :=
    .rooted _ _ _ _ _ trivial trivial
  have h2 := h1.next (.call (.inl rfl) (.edit (.pushScope 0 "receipt" (some "body")))) trivial
  have h3 := h2.next (.call (.inl rfl) (.edit (.installHandler 0 "declined" (.noop "refund")))) trivial
  have h4 := h3.next (.call (.inl rfl) (.edit (.pushScope 0 "card" (some "aside")))) trivial
  obtain ⟨z, hz, -, hsteps⟩ := h3.begun 0
  have hpushed := Context.Pushed.mk ⟨z, hz, hsteps⟩ rfl (List.suffix_cons "card" _)
    ⟨"card", some "aside", .refl⟩
  have hcard : ∀ s ∈ [({ id := "card" } : Scope Installed)], s.handlerFor? "declined" = none := by
    simp [Scope.handlerFor?]
  obtain ⟨hnames, -, hcleared, -⟩ := h4.unwinding_clears (c := 0) (f := ⟨"declined", none, .null⟩)
    rfl hcard rfl
  exact ⟨_, _, h4, hpushed, rfl, hnames, (hcleared (List.cons_ne_nil _ _)).1⟩

/-- The order is back in its receipt, but without the marker of its body. -/
theorem marker_lost : ∃ v w' : World, Reachable False (fun _ => True) v ∧
    (v.pushScope 0 "card" (some "aside")).1 = some "body" ∧
    Transition False (v.pushScope 0 "card" (some "aside")).2 w' ∧
    (w'.context 0).names = (v.context 0).names ∧ (w'.context 0).marker ≠ some "body" := by
  have h1 : Reachable False (fun _ => True)
      (rooted "order" "shop" "main" 1 (some ⟨"buy", false, []⟩)) :=
    .rooted _ _ _ _ _ trivial trivial
  have h2 := h1.next (.call (.inl rfl) (.start 0 (by decide))) trivial
  have h3 := h2.next (.pick 0 rfl (by decide)) trivial
  have h4 := h3.next (.drive (t := 0) rfl rfl rfl) trivial
  have h5 := h4.next (.drive (t := 0) rfl rfl rfl) trivial
  have h6 := h5.next (.call (.inr ⟨0, _, _, _, rfl, rfl, rfl⟩)
    (.edit (.pushScope 0 "receipt" (some "body")))) trivial
  have h7 := h6.next (.call (.inr ⟨0, _, _, _, rfl, rfl, rfl⟩)
    (.edit (.installHandler 0 "declined" (.noop "refund")))) trivial
  exact ⟨_, _, h7, rfl, .fail (t := 0) ⟨"declined", none, .null⟩ ⟨rfl, rfl, rfl⟩, rfl,
    (nofun : (none : Option String) ≠ some "body")⟩

end World

end SagaEngine
