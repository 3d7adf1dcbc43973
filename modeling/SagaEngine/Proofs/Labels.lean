import Mathlib.Data.List.Nodup
import Mathlib.Data.List.Perm.Subperm
import SagaEngine.Proofs.Placement

/-! Labels tell contexts apart. A context gets a label that no other one has, and keeps it. -/

namespace SagaEngine.World

variable {w w' : World} {raw : Prop} {admits : World → Prop} {c d : ContextId}

def labels (w : World) : List String := w.contexts.toList.map Context.label

theorem getElem?_labels (hc : c < w.contexts.size) : w.labels[c]? = some (w.context c).label := by
  simp [labels, World.context, Array.getD, hc]

theorem hasLabel_iff (w : World) (label : String) : w.hasLabel label = true ↔ label ∈ w.labels := by
  simp [hasLabel, labels, Array.any_eq_true, Array.mem_iff_getElem]

/-! ## New labels -/

theorem numbered_injective (label : String) :
    Function.Injective fun n : Nat => label ++ "#" ++ toString n := by
  intro m n h
  have hrepr : m.repr = n.repr := (String.append_right_inj _).1 h
  have hdigits := congrArg (fun s => Nat.ofDigitChars 10 s.toList 0) hrepr
  simpa using hdigits

theorem exists_free (w : World) (label : String) (n : Nat) :
    ∃ k < w.contexts.size + 1, label ++ "#" ++ toString (n + k) ∉ w.labels := by
  by_contra hall
  simp only [not_exists, not_and, not_not] at hall
  have hsub : (List.range (w.contexts.size + 1)).map
      (fun k => label ++ "#" ++ toString (n + k)) ⊆ w.labels := by
    intro s hs
    obtain ⟨k, hk, rfl⟩ := List.mem_map.1 hs
    exact hall k (List.mem_range.1 hk)
  have hnodup : ((List.range (w.contexts.size + 1)).map
      fun k => label ++ "#" ++ toString (n + k)).Nodup :=
    List.nodup_range.map fun _ _ h => Nat.add_left_cancel (numbered_injective label h)
  have hle := (List.subperm_of_subset hnodup hsub).length_le
  simp only [labels, List.length_map, List.length_range, Array.length_toList] at hle
  omega

theorem numberedLabel_free (w : World) (label : String) (n fuel : Nat)
    (h : ∃ k < fuel, label ++ "#" ++ toString (n + k) ∉ w.labels) :
    w.numberedLabel label n fuel ∉ w.labels := by
  induction fuel generalizing n with
  | zero =>
    obtain ⟨k, hk, -⟩ := h
    cases hk
  | succ fuel ih =>
    unfold numberedLabel
    dsimp only
    split
    · rename_i hused
      obtain ⟨k, hk, hfree⟩ := h
      cases k with
      | zero => exact absurd ((w.hasLabel_iff _).1 hused) hfree
      | succ k =>
        refine ih (n + 1) ⟨k, Nat.lt_of_succ_lt_succ hk, ?_⟩
        rwa [Nat.add_assoc, Nat.add_comm 1]
    · rename_i hfree
      rwa [w.hasLabel_iff] at hfree

theorem freshLabel_free (w : World) (label : String) : w.freshLabel label ∉ w.labels := by
  unfold freshLabel
  split
  · exact w.numberedLabel_free label 2 _ (w.exists_free label 2)
  · rename_i hfree
    rwa [w.hasLabel_iff] at hfree

/-! ## What keeps the labels -/

theorem labels_congr (hs : w'.contexts.size = w.contexts.size)
    (hl : ∀ c, (w'.context c).label = (w.context c).label) : w'.labels = w.labels := by
  refine List.ext_getElem (by simp [labels, hs]) fun c hc hc' => ?_
  have h := hl c
  simp only [labels, List.length_map, Array.length_toList] at hc hc'
  simpa [labels, World.context, Array.getD, hc, hc'] using h

theorem Signals.labels (h : Signals w w') : w'.labels = w.labels :=
  labels_congr h.size fun c => (congrArg Context.label (h.still c) :)

theorem Edits.labels (h : Edits w w') : w'.labels = w.labels :=
  labels_congr h.size fun c => (congrArg Context.label (h.bare c) :)

theorem Posts.labels (h : Posts w w') : w'.labels = w.labels := by
  rw [World.labels, h.contexts]
  rfl

theorem labels_addContext (w : World) (x : Context) :
    (w.addContext x).2.labels = w.labels ++ [x.label] := by
  simp [World.labels, addContext]

theorem labels_openSession (w : World) (id : String) : (w.openSession id).2.labels = w.labels := by
  unfold openSession
  split <;> rfl

theorem labels_start (w : World) (c : ContextId) : (w.start c).labels = w.labels := by
  unfold start
  dsimp only
  split
  · exact (signals_addChild w _).labels
  · rfl

theorem labels_list (w : World) (c : ContextId) : (w.list c).labels = w.labels := by
  unfold list
  split <;> rfl

theorem labels_beginReceive {ops : List String} {i : WaitId}
    (h : w.beginReceive c ops = .ok (i, w')) : w'.labels = w.labels := by
  have hr := (posts_request w (w.context c).session ops).labels
  unfold beginReceive at h
  split at h
  · cases h
  · dsimp only at h
    split at h
    · cases h
      exact (signals_cancelIfKilled _ c _).labels.trans hr
    · cases h
      exact hr

theorem labels_endLoop (w : World) (t : TaskId) (l : Loop) (o : Outcome) :
    (w.endLoop t l o).labels = w.labels := by
  unfold endLoop
  dsimp only
  split
  · exact (signals_childFinished _ _).labels
  · rfl

theorem Effect.labels (e : Effect w w') : w'.labels = w.labels := by
  cases e with
  | work e => exact e.edits.labels
  | takeEscalated c => exact (signals_takeEscalated w c).labels
  | takePermit c => exact (signals_takePermit w c).labels
  | runState c s => exact (signals_setRunState w c s).labels
  | kill c f => exact (signals_kill w c f).labels
  | escalate c f => exact (signals_escalate w c f).labels
  | pick t => rfl
  | goto hd hl => rfl
  | yield hd hl => rfl
  | park hd => exact (signals_idle w _ _).labels
  | finish o hd => exact labels_endLoop w _ _ o
  | halt => rfl
  | receive rest' receipt ops hr hb => exact (labels_beginReceive hb :)
  | @resume t l frame rest i _ r rest' =>
    exact (posts_endReceive (w.setLoop t { l with point := .body frame rest' }) l.context i r).labels
  | sleep =>
    unfold sleepOn
    split <;> rfl
  | beginReceipt hc ht hb => exact (labels_beginReceive hb :)
  | refuse => rfl
  | @endReceipt t c tag i r => exact (posts_endReceive w c i r).labels
  | @endAwait t slot i r =>
    have h := (posts_closeWait w i).labels
    generalize (w.closeWait i).2 = v at h ⊢
    exact h

theorem Call.labels (k : Call raw w w') :
    w'.labels = w.labels ∨ ∃ label, label ∉ w.labels ∧ w'.labels = w.labels ++ [label] := by
  cases k with
  | edit e => exact .inl e.edits.labels
  | kill c f => exact .inl (signals_kill w c f).labels
  | clearKill c => exact .inl (signals_clearKill w c).labels
  | root label session scope budget k =>
    refine .inr ⟨(w.openSession session).2.freshLabel label, ?_, ?_⟩
    · rw [← labels_openSession w session]
      exact freshLabel_free _ label
    · unfold addRoot
      dsimp only
      rw [labels_list, labels_addContext, labels_openSession]
  | child p label k hp =>
    exact .inr ⟨w.freshLabel label, w.freshLabel_free label, labels_addContext w _⟩
  | start c hc => exact .inl (labels_start w c)
  | drive c budget hc => exact .inl rfl
  | newHandle name => exact .inl (posts_nameNewHandle w name).labels
  | dropHandle name => exact .inl (posts_dropHandle w name).labels
  | register c i => exact .inl (signals_cancelIfKilled w c i).labels
  | cancel i => exact .inl (signals_cancelHandle w i).labels
  | deliver c op v hc =>
    exact .inl ((posts_newLetter w op v).trans (posts_deliver _ _ _)).labels
  | receiver c tag ops hc => exact .inl rfl
  | requeue c op v hr hc =>
    exact .inl ((posts_newLetter w op v).trans (posts_requeue _ _ _)).labels
  | request c slot ops hr hc => exact .inl (posts_requestInto w c slot ops).labels
  | dropWait slot i hr hi =>
    exact .inl ((posts_closeWait w i).trans (posts_forgetWait _ slot)).labels
  | await slot i hr hi => exact .inl (posts_forgetWait w slot).labels

theorem Reachable.labels_nodup (h : Reachable raw admits w) : w.labels.Nodup := by
  refine h.invariant (P := fun w => w.labels.Nodup) List.nodup_nil (fun _ hn _ _ k => ?_)
    fun _ hn e => e.labels.symm ▸ hn
  rcases k.labels with hl | ⟨label, hfree, hl⟩
  · exact hl.symm ▸ hn
  · rw [hl]
    exact hn.append (List.nodup_singleton _) (List.disjoint_singleton.2 hfree)

theorem Reachable.label_inj (h : Reachable raw admits w) (hc : c < w.contexts.size)
    (hd : d < w.contexts.size) (hl : (w.context c).label = (w.context d).label) : c = d := by
  have hlt : c < w.labels.length := by simpa [labels] using hc
  have hget : w.labels[c]? = w.labels[d]? := by
    rw [getElem?_labels hc, getElem?_labels hd, hl]
  exact (List.getElem?_inj hlt h.labels_nodup).1 hget

end SagaEngine.World
