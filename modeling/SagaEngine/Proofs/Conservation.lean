import SagaEngine.Proofs.Waits

/-! Messages are neither lost nor doubled. Letters in queues and channels, and those that receipts have
returned, are as many as were delivered; and a letter is delivered once. -/

namespace SagaEngine

namespace Event

def isDelivery (s : SessionId) (m : Letter) : Event → Bool
  | .delivered s' m' => s' == s && m' == m
  | _ => false

def isReturn (s : SessionId) (m : Letter) : Event → Bool
  | .returned _ i (.ok m') => i.session == s && m' == m
  | _ => false

def number? : Event → Option Nat
  | .delivered _ m => some m.id
  | _ => none

end Event

namespace World

variable {w w' w'' : World} {admits : World → Prop}

def mail (w : World) : List Event := w.history.toList.filter Event.isMail

structure Conserved (w : World) : Prop where
  labelled : ∀ s, (w.mailbox s).Labelled
  counted : ∀ s m, (w.mailbox s).copies m + w.mail.countP (Event.isReturn s m) =
    w.mail.countP (Event.isDelivery s m)
  numbered : ∀ e ∈ w.mail, ∀ n, e.number? = some n → n < w.arrivals
  once : (w.mail.filterMap Event.number?).Nodup

/-! ## No traffic -/

structure Mute (w w' : World) : Prop where
  mailbox : ∀ s, w'.mailbox s = w.mailbox s
  mail : w'.mail = w.mail
  arrivals : w'.arrivals = w.arrivals

theorem Mute.refl (w : World) : Mute w w := ⟨fun _ => rfl, rfl, rfl⟩

theorem Mute.trans (h : Mute w w') (h' : Mute w' w'') : Mute w w'' where
  mailbox s := (h'.mailbox s).trans (h.mailbox s)
  mail := h'.mail.trans h.mail
  arrivals := h'.arrivals.trans h.arrivals

theorem Conserved.mute (h : Conserved w) (q : Mute w w') : Conserved w' where
  labelled s := by
    rw [q.mailbox]
    exact h.labelled s
  counted s m := by
    rw [q.mailbox, q.mail]
    exact h.counted s m
  numbered := by
    rw [q.mail, q.arrivals]
    exact h.numbered
  once := by
    rw [q.mail]
    exact h.once

theorem Edits.mute (e : Edits w w') : Mute w w' where
  mailbox := e.mailbox
  mail := by
    obtain ⟨es, he, hes⟩ := e.history
    have hf : es.filter Event.isMail = [] := List.filter_eq_nil_iff.2 fun e h => by simp [hes e h]
    rw [mail, he, List.filter_append, hf, List.append_nil]
    rfl
  arrivals := e.arrivals

theorem Signals.mute (e : Signals w w') : Mute w w' where
  mailbox := e.mailbox
  mail := by rw [mail, e.history, mail]
  arrivals := e.arrivals

theorem mute_endLoop (w : World) (t : TaskId) (l : Loop) (o : Outcome) :
    Mute w (w.endLoop t l o) := by
  have hs : Mute w (w.setLoop t { l with point := .ended o }).suspend := ⟨fun _ => rfl, rfl, rfl⟩
  unfold endLoop
  dsimp only
  split
  · exact hs.trans (signals_childFinished _ _).mute
  · exact hs

theorem mute_addContext (w : World) (x : Context) : Mute w (w.addContext x).2 :=
  ⟨fun _ => rfl, rfl, rfl⟩

theorem mute_openSession (w : World) (id : String) : Mute w (w.openSession id).2 := by
  have hbox := mailbox_openSession w id
  obtain ⟨ss, hw⟩ := openSession_eq w id
  rw [hw] at hbox ⊢
  exact ⟨hbox, rfl, rfl⟩

theorem mute_dropHandle (w : World) (name : String) : Mute w (w.dropHandle name) := by
  unfold dropHandle
  split
  · exact ⟨fun _ => rfl, rfl, rfl⟩
  · exact .refl w

/-! ## Traffic -/

theorem mail_record (w : World) (e : Event) :
    (w.record e).mail = w.mail ++ if e.isMail then [e] else [] := by
  unfold mail record
  rw [Array.toList_push, List.filter_append]
  congr 1
  cases h : e.isMail <;> simp [h]

theorem mailbox_record (w : World) (e : Event) (s : SessionId) :
    (w.record e).mailbox s = w.mailbox s := rfl

theorem mailbox_deliver {s : SessionId} (hs : s < w.sessions.size) (m : Letter) (s' : SessionId) :
    (w.deliver s m).2.mailbox s' =
      if s' = s then ((w.mailbox s).deliver m).2 else w.mailbox s' := by
  have hw := (signals_wakeServed (w.setMailbox s ((w.mailbox s).deliver m).2) s
    ((w.mailbox s).deliver m).1).mailbox s'
  refine (hw.trans (mailbox_setMailbox w s s' _)).trans ?_
  simp only [hs, and_true]

theorem mailbox_requeue {s : SessionId} (hs : s < w.sessions.size) (m : Letter) (s' : SessionId) :
    (w.requeue s m).mailbox s' =
      if s' = s then ((w.mailbox s).requeue m).2 else w.mailbox s' := by
  have hw := (signals_wakeServed (w.setMailbox s ((w.mailbox s).requeue m).2) s
    ((w.mailbox s).requeue m).1).mailbox s'
  refine (hw.trans (mailbox_setMailbox w s s' _)).trans ?_
  simp only [hs, and_true]

theorem mailbox_closeWait {i : WaitId} (hs : i.session < w.sessions.size) (s' : SessionId) :
    (w.closeWait i).2.mailbox s' =
      if s' = i.session then ((w.mailbox i.session).close i.index).2 else w.mailbox s' := by
  have hm : (w.closeWait i).2.mailbox s' =
      (w.setMailbox i.session ((w.mailbox i.session).close i.index).2).mailbox s' := by
    unfold closeWait
    dsimp only
    split <;> rfl
  rw [hm, mailbox_setMailbox]
  simp only [hs, and_true]

theorem mail_deliver (w : World) (s : SessionId) (m : Letter) :
    (w.deliver s m).2.mail = w.mail ++ [.delivered s m] := by
  have he : (w.deliver s m).2 = ((w.setMailbox s ((w.mailbox s).deliver m).2).wakeServed s
    ((w.mailbox s).deliver m).1).record (.delivered s m) := rfl
  rw [he, mail_record, (signals_wakeServed _ s _).mute.mail]
  rfl

theorem mail_requeue (w : World) (s : SessionId) (m : Letter) :
    (w.requeue s m).mail = w.mail ∧ (w.requeue s m).arrivals = w.arrivals := by
  have hm := (signals_wakeServed (w.setMailbox s ((w.mailbox s).requeue m).2) s
    ((w.mailbox s).requeue m).1).mute
  exact ⟨hm.mail, hm.arrivals⟩

theorem Conserved.deliver (h : Conserved w) {s : SessionId} (hs : s < w.sessions.size)
    (op : String) (v : Json) :
    Conserved ((w.newLetter op v).2.deliver s (w.newLetter op v).1).2 := by
  let m : Letter := ⟨w.arrivals, op, v⟩
  let u : World := { w with arrivals := w.arrivals + 1 }
  have ha := (w.mailbox s).deliver_accepts m
  have hbox : ∀ s', (u.deliver s m).2.mailbox s' =
      if s' = s then ((w.mailbox s).deliver m).2 else w.mailbox s' :=
    mailbox_deliver (w := u) hs m
  have hmail : (u.deliver s m).2.mail = w.mail ++ [.delivered s m] := mail_deliver u s m
  have harr : (u.deliver s m).2.arrivals = w.arrivals + 1 :=
    (signals_wakeServed (u.setMailbox s _) s ((w.mailbox s).deliver m).1).arrivals
  have hnew : ∀ n, n ∈ w.mail.filterMap Event.number? → n < w.arrivals := by
    intro n hn
    obtain ⟨e, he, hen⟩ := List.mem_filterMap.1 hn
    exact h.numbered e he n hen
  change Conserved (u.deliver s m).2
  refine ⟨fun s' => ?_, fun s' m' => ?_, ?_, ?_⟩
  · rw [hbox]
    split
    · exact ha.labelled (h.labelled s)
    · exact h.labelled s'
  · have hc := h.counted s' m'
    rw [hbox, hmail, List.countP_append, List.countP_append]
    simp only [List.countP_singleton, Event.isReturn, Event.isDelivery, Bool.and_eq_true, beq_iff_eq,
      Bool.false_eq_true, if_false]
    split
    · rename_i hs'
      subst hs'
      rw [ha.copies m']
      simp only [true_and, eq_comm (a := m')]
      omega
    · rename_i hne
      rw [if_neg fun he => hne he.1.symm]
      exact hc
  · rw [hmail, harr]
    intro e he n hn
    rcases List.mem_append.1 he with he | he
    · exact Nat.lt_succ_of_lt (h.numbered e he n hn)
    · rw [List.mem_singleton.1 he] at hn
      cases hn
      exact Nat.lt_succ_self _
  · rw [hmail, List.filterMap_append]
    refine List.nodup_append.2 ⟨h.once, by simp [Event.number?], fun a hx b hb => ?_⟩
    have hb' : b = w.arrivals := by simpa [Event.number?, m] using hb
    rw [hb']
    exact Nat.ne_of_lt (hnew a hx)

theorem Conserved.moved (h : Conserved w) (s : SessionId)
    (hb : ∀ s', s' ≠ s → w'.mailbox s' = w.mailbox s') (hl : (w'.mailbox s).Labelled)
    (hc : ∀ m, (w'.mailbox s).copies m = (w.mailbox s).copies m) (hm : w'.mail = w.mail)
    (ha : w'.arrivals = w.arrivals) : Conserved w' where
  labelled s' := by
    by_cases hs : s' = s
    · exact hs ▸ hl
    · rw [hb s' hs]
      exact h.labelled s'
  counted s' m := by
    rw [hm, ← h.counted]
    by_cases hs : s' = s
    · rw [hs, hc]
    · rw [hb s' hs]
  numbered := by
    rw [hm, ha]
    exact h.numbered
  once := by
    rw [hm]
    exact h.once

theorem Conserved.request (h : Conserved w) {s : SessionId} (hs : s < w.sessions.size)
    (ops : List String) : Conserved (w.request s ops).2 := by
  have hg := ((w.mailbox s).request_grants ops w.handles.size).2
  rw [request_eq]
  have hbox := fun s' => mailbox_setMailbox { w with handles := w.handles.push {} } s s'
    ((w.mailbox s).request ops w.handles.size).2
  refine h.moved s (fun s' hne => ?_) ?_ (fun m => ?_) rfl rfl
  · rw [hbox, if_neg fun hs => hne hs.1]
    rfl
  · rw [hbox, if_pos ⟨rfl, hs⟩]
    exact hg.labelled (h.labelled s)
  · rw [hbox, if_pos ⟨rfl, hs⟩]
    exact hg.copies (h.labelled s) m

theorem resolution_holding {i : WaitId} {x : Wait} {r : Except (Option Letter) Letter}
    (hx : w.waitRecord? i = some x) (hr : w.resolution? i = some r) (m : Letter) :
    x.channel = .holding m ↔ r = .ok m ∨ r = .error (some m) := by
  obtain ⟨k, ch, ops⟩ := x
  simp only [resolution?, hx] at hr
  dsimp only
  cases hk : w.handles.isCancelled k <;> cases ch <;> simp only [hk] at hr <;> cases hr <;> simp

theorem mail_closeWait (w : World) (i : WaitId) :
    (w.closeWait i).2.mail = w.mail ∧ (w.closeWait i).2.arrivals = w.arrivals := by
  unfold closeWait
  dsimp only
  split
  · exact ⟨rfl, rfl⟩
  · exact ⟨rfl, rfl⟩

theorem Conserved.failed (h : Conserved w) (c : ContextId) (i : WaitId) (f : Fault) :
    Conserved (w.record (.returned c i (.error f))) := by
  have hm := mail_record w (.returned c i (.error f))
  refine ⟨h.labelled, fun s m => ?_, ?_, ?_⟩
  · rw [hm, List.countP_append, List.countP_append]
    exact h.counted s m
  · rw [hm]
    intro e he n hn
    rcases List.mem_append.1 he with he | he
    · exact h.numbered e he n hn
    · rw [List.mem_singleton.1 he] at hn
      cases hn
  · rw [hm, List.filterMap_append]
    change (w.mail.filterMap Event.number? ++ []).Nodup
    rw [List.append_nil]
    exact h.once

theorem Conserved.succeeded (h : Conserved w) {i : WaitId} {x : Wait} {m : Letter}
    (hx : w.waitRecord? i = some x) (hm : x.channel = .holding m) (c : ContextId) :
    Conserved ((w.closeWait i).2.record (.returned c i (.ok m))) := by
  have hs := session_of_record hx
  have hbox := mailbox_closeWait hs
  have hmail : ((w.closeWait i).2.record (.returned c i (.ok m))).mail =
      w.mail ++ [.returned c i (.ok m)] := by
    rw [mail_record, (mail_closeWait w i).1]
    rfl
  refine ⟨fun s => ?_, fun s m' => ?_, ?_, ?_⟩
  · rw [mailbox_record, hbox]
    split
    · exact (h.labelled _).close _
    · exact h.labelled s
  · have hc := h.counted s m'
    rw [mailbox_record, hbox, hmail, List.countP_append, List.countP_append]
    simp only [List.countP_singleton, Event.isReturn, Event.isDelivery, Bool.and_eq_true, beq_iff_eq,
      Bool.false_eq_true, if_false]
    split
    · rename_i hsi
      subst hsi
      have hx' : (w.mailbox i.session).waits[i.index]? = some x := hx
      have hcl := Mailbox.copies_close hx' m'
      simp only [hm, Channel.holding.injEq] at hcl
      simp only [true_and]
      omega
    · rename_i hne
      rw [if_neg fun he => hne he.1.symm]
      exact hc
  · rw [hmail]
    intro e he n hn
    rcases List.mem_append.1 he with he | he
    · exact (mail_closeWait w i).2 ▸ h.numbered e he n hn
    · rw [List.mem_singleton.1 he] at hn
      cases hn
  · rw [hmail, List.filterMap_append]
    change (w.mail.filterMap Event.number? ++ []).Nodup
    rw [List.append_nil]
    exact h.once

theorem Conserved.endReceive (h : Conserved w) {i : WaitId} {x : Wait}
    {r : Except (Option Letter) Letter} (hx : w.waitRecord? i = some x)
    (hr : w.resolution? i = some r) (c : ContextId) : Conserved (w.endReceive c i r).1 := by
  have hs := session_of_record hx
  have hh := resolution_holding hx hr
  have hx' : (w.mailbox i.session).waits[i.index]? = some x := hx
  have hcl := Mailbox.copies_close hx'
  have hbox := mailbox_closeWait hs
  obtain ⟨hmail, harr⟩ := mail_closeWait w i
  have hlab : ((w.closeWait i).2.mailbox i.session).Labelled := by
    rw [hbox, if_pos rfl]
    exact (h.labelled _).close _
  unfold World.endReceive
  rcases r with (_ | m) | m
  · -- nothing was held
    refine Conserved.failed (h.moved i.session (fun s hs => ?_) hlab (fun m => ?_) hmail harr) c i _
    · rw [hbox, if_neg hs]
    · have hm := hcl m
      rw [if_neg fun hc => by simpa using (hh m).1 hc] at hm
      rw [hbox, if_pos rfl]
      exact hm
  · -- what was held is put back
    have hs' : i.session < (w.closeWait i).2.sessions.size := (posts_closeWait w i).sessions ▸ hs
    have hreq := mailbox_requeue hs' m
    have ha := ((w.closeWait i).2.mailbox i.session).requeue_accepts m
    obtain ⟨hmail', harr'⟩ := mail_requeue (w.closeWait i).2 i.session m
    refine Conserved.failed (w := (w.closeWait i).2.requeue i.session m)
      (h.moved i.session (fun s hs => ?_) ?_ (fun m' => ?_) (hmail'.trans hmail)
        (harr'.trans harr)) c i _
    · rw [hreq, if_neg hs, hbox, if_neg hs]
    · rw [hreq, if_pos rfl]
      exact ha.labelled hlab
    · have hm := hcl m'
      rw [(hh m).2 (.inr rfl)] at hm
      simp only [Channel.holding.injEq] at hm
      rw [hreq, if_pos rfl, ha.copies m', hbox, if_pos rfl, ← hm]
      simp only [eq_comm (a := m')]
  · exact h.succeeded hx ((hh m).2 (.inl rfl)) c

/-! ## Runs -/

theorem mute_beginReceive {c : ContextId} {ops : List String} {i : WaitId}
    (hs : (w.context c).session < w.sessions.size) (h : w.beginReceive c ops = .ok (i, w')) :
    Mute (w.request (w.context c).session ops).2 w' := by
  obtain ⟨-, -, rfl⟩ := beginReceive_ok hs h
  exact (signals_cancelIfKilled _ c _).mute

theorem Call.mute_or_delivers (hp : Placed w) (k : Call False w w') :
    Mute w w' ∨ ∃ s op v, s < w.sessions.size ∧
      w' = ((w.newLetter op v).2.deliver s (w.newLetter op v).1).2 := by
  cases k with
  | edit e => exact .inl e.edits.mute
  | kill c f => exact .inl (signals_kill w c f).mute
  | clearKill c => exact .inl (signals_clearKill w c).mute
  | root label session scope budget k =>
    have hlist := edits_list ((w.openSession session).2.addContext
      { label := (w.openSession session).2.freshLabel label, session := (w.openSession session).1,
        sliceBudget := budget, scopes := [{ id := scope }], pending := k.toList }).2
      (c := (w.openSession session).2.contexts.size) (by simp [addContext])
    exact .inl ((mute_openSession w session).trans
      (.trans (mute_addContext (w.openSession session).2 _) hlist.mute))
  | child p label k => exact .inl (mute_addContext w _)
  | start c =>
    unfold World.start
    dsimp only
    split
    · exact .inl ⟨fun _ => rfl, rfl, rfl⟩
    · exact .inl ⟨fun _ => rfl, rfl, rfl⟩
  | drive c budget => exact .inl ⟨fun _ => rfl, rfl, rfl⟩
  | newHandle name => exact .inl ((mute_dropHandle w name).trans ⟨fun _ => rfl, rfl, rfl⟩)
  | dropHandle name => exact .inl (mute_dropHandle w name)
  | register c k => exact .inl (signals_cancelIfKilled w c k).mute
  | cancel k => exact .inl (signals_cancelHandle w k).mute
  | deliver c op v hc => exact .inr ⟨_, op, v, hp.sessions c hc, rfl⟩
  | receiver c tag ops => exact .inl ⟨fun _ => rfl, rfl, rfl⟩
  | requeue c op v hr => exact hr.elim
  | request c slot ops hr => exact hr.elim
  | dropWait slot i hr => exact hr.elim
  | await slot i hr => exact hr.elim

theorem Call.conserved (h : Conserved w) (hp : Placed w) (k : Call False w w') : Conserved w' := by
  rcases k.mute_or_delivers hp with q | ⟨s, op, v, hs, rfl⟩
  · exact h.mute q
  · exact h.deliver hs op v

theorem Effect.conserved (h : Conserved w) (hp : Placed w) (hl : Linked w) (e : Effect w w') :
    Conserved w' := by
  have hrec : ∀ {t : TaskId} {task : Task} {i : WaitId}, w.tasks[t]? = some task →
      task.wait? = some i → ∃ x, w.waitRecord? i = some x := by
    intro t task i ht hi
    obtain ⟨x, hx, -⟩ := hl.opened t i ((waitOf_eq ht).trans hi)
    exact ⟨x, hx⟩
  cases e with
  | work e => exact h.mute e.edits.mute
  | takeEscalated c => exact h.mute (signals_takeEscalated w c).mute
  | takePermit c => exact h.mute (signals_takePermit w c).mute
  | runState c s => exact h.mute (signals_setRunState w c s).mute
  | kill c f => exact h.mute (signals_kill w c f).mute
  | escalate c f => exact h.mute (signals_escalate w c f).mute
  | pick t => exact h.mute ⟨fun _ => rfl, rfl, rfl⟩
  | goto => exact h.mute ⟨fun _ => rfl, rfl, rfl⟩
  | yield => exact h.mute ⟨fun _ => rfl, rfl, rfl⟩
  | park => exact h.mute ⟨fun _ => rfl, rfl, rfl⟩
  | finish o => exact h.mute (mute_endLoop w _ _ o)
  | halt => exact h.mute ⟨fun _ => rfl, rfl, rfl⟩
  | receive rest' receipt ops hr hb =>
    have hs := hp.sessions _ (hp.loop hr.2.1)
    exact ((h.request hs ops).mute (mute_beginReceive hs hb)).mute ⟨fun _ => rfl, rfl, rfl⟩
  | @resume t l frame rest i receipt r rest' _ ht hpt hr =>
    obtain ⟨x, hx⟩ := hrec (i := i) ht (by simp [Task.wait?, hpt])
    have hv : Conserved (w.setLoop t { l with point := .body frame rest' }) :=
      h.mute ⟨fun _ => rfl, rfl, rfl⟩
    exact hv.endReceive (i := i) hx hr l.context
  | @sleep t task i =>
    unfold sleepOn
    split
    · exact h.mute ⟨fun _ => rfl, rfl, rfl⟩
    · exact h.mute ⟨fun _ => rfl, rfl, rfl⟩
  | @beginReceipt t c tag ops i v hc ht hb =>
    have hs := hp.sessions _ (hp.tasks t _ c ht rfl)
    exact ((h.request hs ops).mute (mute_beginReceive hs hb)).mute ⟨fun _ => rfl, rfl, rfl⟩
  | refuse => exact h.mute ⟨fun _ => rfl, rfl, rfl⟩
  | @endReceipt t c tag i r hc ht hr =>
    obtain ⟨x, hx⟩ := hrec ht rfl
    have hm : Mute (w.endReceive c i r).1 (((w.endReceive c i r).1.record
        (.received tag (w.endReceive c i r).2)).setTask t .done).suspend := by
      refine ⟨fun _ => rfl, ?_, rfl⟩
      exact (mail_record _ _).trans (List.append_nil _)
    exact (h.endReceive hx hr c).mute hm
  | endAwait hc ht => exact absurd ht (hl.received _ _ _)

theorem Conserved.empty : Conserved {} where
  labelled _ := .empty
  counted s m := rfl
  numbered e he := by cases he
  once := .nil

theorem Reachable.conserved (h : Reachable False admits w) : Conserved w := by
  have hw : Linked w ∧ Conserved w := by
    refine h.invariant (P := fun w => Linked w ∧ Conserved w) ⟨.empty, .empty⟩ ?_ ?_
    · intro w w' hp hi _ _ k
      exact ⟨hi.1.unwaiting k.unwaiting, k.conserved hi.2 hp⟩
    · intro w w' hp hi e
      exact ⟨hi.1.effect hp e, e.conserved hi.2 hp hi.1⟩
  exact hw.2

/-! ## Steps that move no message -/

theorem mute_finishRound (w : World) (t : TaskId) (l : Loop) : Mute w (w.finishRound t l) := by
  unfold finishRound
  split
  · exact ⟨fun _ => rfl, rfl, rfl⟩
  · exact ⟨fun _ => rfl, rfl, rfl⟩

theorem mute_endKilled (w : World) (t : TaskId) (l : Loop) (f : Fault) :
    Mute w (w.endKilled t l f) :=
  (signals_setRunState w l.context .killed).mute.trans (mute_endLoop _ t l _)

theorem mute_raise (w : World) (c : ContextId) (f : Fault) : Mute w (w.raise c f).1 := by
  rcases hx : (w.context c).unwind f.name with ⟨_ | k, x⟩
  · have ha : Work w (w.modifyContext c fun _ => x) := .abandon c f.name hx
    have hf : Mute w (w.fallen c f x) :=
      (ha.edits.mute.trans (signals_kill _ c f).mute).trans (signals_setRunState _ c _).mute
    rcases raise_uncaught hx with hr | ⟨p, -, hr⟩
    · rw [hr]
      exact hf
    · rw [hr]
      generalize w.fallen c f x = v at hf
      exact hf.trans (signals_escalate v p f).mute
  · have hc : Work w (w.raise c f).1 := by
      rw [raise_caught hx]
      exact .caught c f hx
    exact hc.edits.mute

theorem mute_failStep (w : World) (t : TaskId) (l : Loop) (frame : Frame) (f : Fault) :
    Mute w (w.failStep t l frame f) := by
  have hr : Work w (w.record (.raised l.context frame f)) := .note _ rfl
  refine hr.edits.mute.trans ?_
  unfold failStep failContinuation
  generalize w.record (.raised l.context frame f) = v
  dsimp only
  split
  · exact mute_endKilled v t l _
  · have hv : Mute v (v.modifyContext l.context fun x => { x with escalated := none }) :=
      (signals_takeEscalated v l.context).mute
    generalize v.modifyContext l.context (fun x => { x with escalated := none }) = u at hv ⊢
    have hu := mute_raise u l.context ((v.context l.context).escalated.getD f)
    generalize u.raise l.context ((v.context l.context).escalated.getD f) = r at hu
    obtain ⟨u', _ | o⟩ := r
    · exact (hv.trans hu).trans (mute_finishRound u' t l)
    · exact (hv.trans hu).trans (mute_endLoop u' t l o)

theorem mute_passStep (w : World) (t : TaskId) (l : Loop) (frame : Frame) (rest : List Step)
    (name : String) (reply : Json) : Mute w (w.passStep t l frame rest name reply) := by
  have hr : Work w (w.record (.performed l.context frame name reply)) := .note _ rfl
  exact hr.edits.mute.trans ⟨fun _ => rfl, rfl, rfl⟩

theorem mute_receiveStep (w : World) (t : TaskId) (l : Loop) (frame : Frame) (rest : List Step)
    (receipt : Receipt) (f : Fault) :
    Mute w (w.receiveStep t l frame rest receipt (.error f)) := by
  unfold receiveStep
  dsimp only
  split
  · exact mute_passStep ..
  · exact mute_failStep ..

def receives? (w : World) (t : TaskId) : Option ContextId :=
  match w.tasks[t]? with
  | some (.receiver c _ _) => some c
  | some (.loop l) => match l.point with
    | .body _ (.receive _ _ _ _ :: _) => some l.context
    | _ => none
  | _ => none

theorem beginReceive_interrupted {c : ContextId} {f : Fault}
    (h : (w.context c).interruption? = some f) (ops : List String) :
    w.beginReceive c ops = .error f := by
  simp only [beginReceive, h]

theorem mute_refused {t : TaskId} {c : ContextId} {f : Fault} (ht : w.receives? t = some c)
    (h : (w.context c).interruption? = some f) : Mute w (w.taskStep t) := by
  unfold receives? at ht
  unfold taskStep
  split at ht
  · rename_i tag ops he
    cases ht
    rw [he]
    dsimp only [receiverStep]
    rw [beginReceive_interrupted h]
    have hr : Work w (w.record (.received tag (.error f))) := .note _ rfl
    exact hr.edits.mute.trans ⟨fun _ => rfl, rfl, rfl⟩
  · rename_i l he
    split at ht
    · rename_i frame ops key name catches rest hp
      cases ht
      rw [he]
      dsimp only [loopStep]
      rw [hp]
      dsimp only [bodyStep]
      have hm : (w.mention ops).beginReceive l.context ops = .error f :=
        beginReceive_interrupted (w := w.mention ops) h ops
      rw [hm]
      exact (edits_mention w ops).mute.trans (mute_receiveStep ..)
    · cases ht
  · cases ht

/-! ## Interrupted receipts -/

def PutBack (w w' : World) (i : WaitId) (m : Letter) : Prop :=
  (w'.mailbox i.session).queue m.operation = m :: (w.mailbox i.session).queue m.operation ∨
    ∃ j x, j ≠ i ∧ j.session = i.session ∧ w'.waitRecord? j = some x ∧ x.channel = .holding m ∧
      m.operation ∈ x.operations

theorem putBack_endReceive (h : Conserved w) {i : WaitId} {x : Wait} {m : Letter}
    {u : Option Letter} (hx : w.waitRecord? i = some x) (hm : x.channel = .holding m)
    (hr : w.resolution? i = some (.error u)) (c : ContextId) :
    PutBack w (w.endReceive c i (.error u)).1 i m := by
  have hcons := (h.endReceive hx hr c).labelled i.session
  obtain rfl : u = some m := by
    rcases (resolution_holding hx hr m).1 hm with hu | hu
    · cases hu
    · exact Except.error.inj hu
  have hs := session_of_record hx
  have hs' : i.session < (w.closeWait i).2.sessions.size := (posts_closeWait w i).sessions ▸ hs
  have hbox : (w.endReceive c i (.error (some m))).1.mailbox i.session =
      (((w.mailbox i.session).close i.index).2.requeue m).2 := by
    have hreq := mailbox_requeue hs' m i.session
    rw [if_pos rfl, mailbox_closeWait hs, if_pos rfl] at hreq
    simp only [World.endReceive, mailbox_record]
    exact hreq
  have ha := ((w.mailbox i.session).close i.index).2.requeue_accepts m
  rw [← hbox] at ha
  generalize (((w.mailbox i.session).close i.index).2.requeue m).1 = served at ha
  cases ha with
  | @handed j y _ hy hc _ _ hw =>
    have hj : i.index ≠ j := by
      rintro rfl
      change (((w.mailbox i.session).waits.modify i.index fun x =>
        { x with channel := .closed })[i.index]?) = some y at hy
      rw [Mailbox.getElem?_modify_channel, if_pos rfl] at hy
      obtain ⟨z, -, rfl⟩ := Option.map_eq_some_iff.1 hy
      cases hc
    have hz : ((w.endReceive c i (.error (some m))).1.mailbox i.session).waits[j]? =
        some { y with channel := .holding m } := by
      rw [hw, Mailbox.getElem?_modify_channel, if_pos rfl, hy]
      rfl
    refine .inr ⟨⟨i.session, j⟩, _, fun he => hj ?_, rfl, hz, rfl, hcons.held j _ m hz rfl⟩
    exact congrArg WaitId.index he.symm
  | queued hq => exact .inl ((Mailbox.queue_insert hq m.operation).trans (if_pos rfl))

theorem putBack_taskStep (h : Conserved w) (hl : Linked w) {t : TaskId} {i : WaitId} {x : Wait}
    {m : Letter} {u : Option Letter} (ht : w.waitOf? t = some i) (hx : w.waitRecord? i = some x)
    (hm : x.channel = .holding m) (hr : w.resolution? i = some (.error u)) :
    PutBack w (w.taskStep t) i m := by
  have hmute : ∀ {v v' : World}, PutBack w v i m → Mute v v' → PutBack w v' i m := by
    intro v v' hv hq
    refine hv.imp (fun hv => ?_) fun ⟨j, y, hj, hs, hy, hym⟩ => ⟨j, y, hj, hs, ?_, hym⟩
    · rw [hq.mailbox]
      exact hv
    · rw [waitRecord_congr (hq.mailbox _)]
      exact hy
  obtain ⟨task, htask, hw⟩ : ∃ task, w.tasks[t]? = some task ∧ task.wait? = some i :=
    Option.bind_eq_some_iff.1 ht
  unfold taskStep
  rw [htask]
  cases task with
  | loop l =>
    cases hp : l.point with
    | receiving frame rest j receipt =>
      obtain rfl : j = i := by simpa [Task.wait?, hp] using hw
      dsimp only [loopStep]
      rw [hp]
      dsimp only
      rw [hr]
      have hv : Conserved (w.setLoop t { l with point := .body frame rest }) :=
        h.mute ⟨fun _ => rfl, rfl, rfl⟩
      exact hmute (putBack_endReceive hv (i := j) hx hm hr l.context) (mute_receiveStep ..)
    | _ => simp [Task.wait?, hp] at hw
  | receiving c tag j =>
    obtain rfl : j = i := Option.some.inj hw
    dsimp only
    rw [hr]
    refine hmute (putBack_endReceive h hx hm hr c) ⟨fun _ => rfl, ?_, rfl⟩
    exact (mail_record _ _).trans (List.append_nil _)
  | awaiting slot j => exact absurd htask (hl.received t slot j)
  | receiver => cases hw
  | done => cases hw

/-! ## Places -/

/-- A position in a queue, the channel of a wait, or a receipt by its position in the record. -/
inductive Place where
  | queue (s : SessionId) (op : String) (k : Nat)
  | channel (i : WaitId)
  | receipt (n : Nat)

def Keeps (w : World) (m : Letter) : Place → Prop
  | .queue s op k => ((w.mailbox s).queue op)[k]? = some m
  | .channel i => ∃ x, w.waitRecord? i = some x ∧ x.channel = .holding m
  | .receipt n => ∃ c i, w.history[n]? = some (.returned c i (.ok m))

/-- The place is one where a letter of the session may be. -/
def Suits (w : World) (s : SessionId) (m : Letter) : Place → Prop
  | .queue s' op _ => s' = s ∧ op = m.operation
  | .channel i => i.session = s ∧ (∃ x, w.waitRecord? i = some x ∧ m.operation ∈ x.operations) ∧
      ∃ t, ∀ u, w.waitOf? u = some i ↔ u = t
  | .receipt n => ∃ c i, w.history[n]? = some (.returned c i (.ok m)) ∧ i.session = s

theorem countP_mail {p : Event → Bool} (hp : ∀ e, p e = true → e.isMail = true) (w : World) :
    w.mail.countP p = w.history.toList.countP p := by
  rw [mail, List.countP_filter]
  refine List.countP_congr fun e _ => ?_
  simp only [Bool.and_eq_true, and_iff_left_iff_imp]
  exact hp e

theorem isMail_of_isReturn {s : SessionId} {m : Letter} (e : Event)
    (h : e.isReturn s m = true) : e.isMail = true := by
  unfold Event.isReturn at h
  split at h
  · rfl
  · cases h

theorem mem_mail {s : SessionId} {m : Letter} :
    Event.delivered s m ∈ w.mail ↔ Event.delivered s m ∈ w.history := by
  simp [mail, List.mem_filter, Event.isMail]

theorem Conserved.number_once (h : Conserved w) (n : Nat) :
    (w.mail.countP fun e => e.number? == some n) ≤ 1 := by
  rw [← List.count_filterMap]
  exact List.nodup_iff_count.1 h.once n

theorem Conserved.deliveries_le (h : Conserved w) (s : SessionId) (m : Letter) :
    w.mail.countP (Event.isDelivery s m) ≤ 1 := by
  refine Nat.le_trans (List.countP_mono_left fun e _ he => ?_) (h.number_once m.id)
  unfold Event.isDelivery at he
  split at he
  · simp only [Bool.and_eq_true, beq_iff_eq] at he
    rw [he.2]
    exact beq_self_eq_true _
  · cases he

theorem Conserved.same_session (h : Conserved w) {s s' : SessionId} {m : Letter}
    (hs : Event.delivered s m ∈ w.mail) (hs' : 0 < w.mail.countP (Event.isDelivery s' m)) :
    s' = s := by
  obtain ⟨e, he, hd⟩ := List.countP_pos_iff.1 hs'
  unfold Event.isDelivery at hd
  split at hd
  · simp only [Bool.and_eq_true, beq_iff_eq] at hd
    rw [hd.1, hd.2] at he
    obtain ⟨n, hn⟩ := List.mem_iff_getElem?.1 hs
    obtain ⟨n', hn'⟩ := List.mem_iff_getElem?.1 he
    have hnn := index_unique_of_countP (h.number_once m.id) hn (by simp [Event.number?]) hn'
      (by simp [Event.number?])
    rw [hnn, hn'] at hn
    cases hn
    rfl
  · cases hd

section

variable {s : SessionId} {m : Letter}

theorem Conserved.shares (h : Conserved w) (hd : Event.delivered s m ∈ w.history) :
    ((w.mailbox s).queue m.operation).count m +
      ((w.mailbox s).waits.toList.countP fun x => x.channel == .holding m) +
      w.history.toList.countP (Event.isReturn s m) = 1 := by
  have hone : w.mail.countP (Event.isDelivery s m) = 1 := by
    refine Nat.le_antisymm (h.deliveries_le s m) (List.countP_pos_iff.2 ⟨_, mem_mail.2 hd, ?_⟩)
    simp [Event.isDelivery]
  have hsum := h.counted s m
  rwa [hone, Mailbox.copies, countP_mail isMail_of_isReturn] at hsum

theorem Conserved.session_eq (h : Conserved w) (hd : Event.delivered s m ∈ w.history)
    {s' : SessionId}
    (hs' : 0 < (w.mailbox s').copies m ∨ 0 < w.mail.countP (Event.isReturn s' m)) : s' = s := by
  refine h.same_session (mem_mail.2 hd) ?_
  rw [← h.counted]
  rcases hs' with hs' | hs'
  · exact Nat.add_pos_left hs' _
  · exact Nat.add_pos_right _ hs'

theorem Conserved.in_queue (h : Conserved w) (hd : Event.delivered s m ∈ w.history)
    {s' : SessionId} {op : String} {k : Nat} (hk : w.Keeps m (.queue s' op k)) :
    s' = s ∧ op = m.operation ∧ 0 < ((w.mailbox s).queue m.operation).count m := by
  have hop := (h.labelled s').queued op m (List.mem_of_getElem? hk)
  subst hop
  have hpos : 0 < ((w.mailbox s').queue m.operation).count m :=
    List.count_pos_iff.2 (List.mem_of_getElem? hk)
  obtain rfl := h.session_eq hd (.inl (Nat.add_pos_left hpos _))
  exact ⟨rfl, rfl, hpos⟩

theorem Conserved.in_channel (h : Conserved w) (hd : Event.delivered s m ∈ w.history)
    {i : WaitId} (hk : w.Keeps m (.channel i)) : i.session = s ∧
      0 < (w.mailbox s).waits.toList.countP fun x => x.channel == .holding m := by
  obtain ⟨x, hx, hm⟩ := hk
  have hpos : 0 < (w.mailbox i.session).waits.toList.countP fun x => x.channel == .holding m :=
    countP_pos_of_index (i := i.index) (a := x) (by rw [Array.getElem?_toList]; exact hx)
      (by simpa using hm)
  obtain rfl := h.session_eq hd (.inl (Nat.add_pos_right _ hpos))
  exact ⟨rfl, hpos⟩

theorem Conserved.in_receipt (h : Conserved w) (hd : Event.delivered s m ∈ w.history)
    {n : Nat} {c : ContextId} {i : WaitId} (hn : w.history[n]? = some (.returned c i (.ok m))) :
    i.session = s ∧ 0 < w.history.toList.countP (Event.isReturn s m) := by
  have hpos : 0 < w.history.toList.countP (Event.isReturn i.session m) :=
    countP_pos_of_index (i := n) (a := .returned c i (.ok m)) (by simpa using hn)
      (by simp [Event.isReturn])
  obtain rfl := h.session_eq hd (.inr (by rwa [countP_mail isMail_of_isReturn]))
  exact ⟨rfl, hpos⟩

theorem Conserved.exists_place (h : Conserved w) (hd : Event.delivered s m ∈ w.history) :
    ∃ p, w.Keeps m p := by
  -- one of the three counts is not zero
  have hsum := h.shares hd
  by_cases hq : 0 < ((w.mailbox s).queue m.operation).count m
  · obtain ⟨k, hk⟩ := List.mem_iff_getElem?.1 (List.count_pos_iff.1 hq)
    exact ⟨.queue s m.operation k, hk⟩
  · by_cases hc : 0 < (w.mailbox s).waits.toList.countP fun x => x.channel == .holding m
    · obtain ⟨k, x, hx, hm⟩ := exists_index_of_countP hc
      rw [Array.getElem?_toList] at hx
      exact ⟨.channel ⟨s, k⟩, x, hx, by simpa using hm⟩
    · have hr : 0 < w.history.toList.countP (Event.isReturn s m) := by omega
      obtain ⟨n, e, hn, he⟩ := exists_index_of_countP hr
      unfold Event.isReturn at he
      split at he
      · rename_i c i m'
        simp only [Bool.and_eq_true, beq_iff_eq] at he
        exact ⟨.receipt n, c, i, by rw [← he.2]; simpa using hn⟩
      · cases he

theorem Conserved.place_unique (h : Conserved w) (hd : Event.delivered s m ∈ w.history)
    {p q : Place} (hp : w.Keeps m p) (hq : w.Keeps m q) : p = q := by
  have hsum := h.shares hd
  cases p with
  | queue s₁ op₁ k₁ =>
    obtain ⟨rfl, rfl, hpos⟩ := h.in_queue hd hp
    cases q with
    | queue s₂ op₂ k₂ =>
      obtain ⟨rfl, rfl, -⟩ := h.in_queue hd hq
      have hle : ((w.mailbox s₂).queue m.operation).count m ≤ 1 := by omega
      rw [index_unique_of_countP hle hp (beq_self_eq_true m) hq (beq_self_eq_true m)]
    | channel j =>
      have hother := (h.in_channel hd hq).2
      omega
    | receipt n =>
      obtain ⟨c, j, hn⟩ := hq
      have hother := (h.in_receipt hd hn).2
      omega
  | channel i =>
    obtain ⟨hi, hpos⟩ := h.in_channel hd hp
    cases q with
    | queue s₂ op₂ k₂ =>
      have hother := (h.in_queue hd hq).2.2
      omega
    | channel j =>
      obtain ⟨hj, -⟩ := h.in_channel hd hq
      obtain ⟨x, hx, hxm⟩ := hp
      obtain ⟨y, hy, hym⟩ := hq
      unfold waitRecord? at hx hy
      rw [hi] at hx
      rw [hj] at hy
      have hle : ((w.mailbox s).waits.toList.countP fun x => x.channel == .holding m) ≤ 1 := by
        omega
      have hidx := index_unique_of_countP hle (i := i.index) (a := x)
        (by rw [Array.getElem?_toList]; exact hx) (by simpa using hxm) (j := j.index) (b := y)
        (by rw [Array.getElem?_toList]; exact hy) (by simpa using hym)
      rw [wait_ext (hi.trans hj.symm) hidx]
    | receipt n =>
      obtain ⟨c, j, hn⟩ := hq
      have hother := (h.in_receipt hd hn).2
      omega
  | receipt n =>
    obtain ⟨c, i, hn⟩ := hp
    obtain ⟨hi, hpos⟩ := h.in_receipt hd hn
    cases q with
    | queue s₂ op₂ k₂ =>
      have hother := (h.in_queue hd hq).2.2
      omega
    | channel j =>
      have hother := (h.in_channel hd hq).2
      omega
    | receipt n' =>
      obtain ⟨c', j, hn'⟩ := hq
      obtain ⟨hj, -⟩ := h.in_receipt hd hn'
      have hle : w.history.toList.countP (Event.isReturn s m) ≤ 1 := by omega
      rw [index_unique_of_countP hle (i := n) (a := .returned c i (.ok m)) (by simpa using hn)
        (by simp [Event.isReturn, hi]) (j := n') (b := .returned c' j (.ok m)) (by simpa using hn')
        (by simp [Event.isReturn, hj])]

theorem Conserved.place_suits (h : Conserved w) (hl : Linked w)
    (hd : Event.delivered s m ∈ w.history) {p : Place} (hp : w.Keeps m p) : w.Suits s m p := by
  cases p with
  | queue s' op k =>
    obtain ⟨hs, hop, -⟩ := h.in_queue hd hp
    exact ⟨hs, hop⟩
  | channel i =>
    obtain ⟨hs, -⟩ := h.in_channel hd hp
    obtain ⟨x, hx, hm⟩ := hp
    refine ⟨hs, ⟨x, hx, (h.labelled _).held _ x m hx hm⟩, ?_⟩
    obtain ⟨t, ht⟩ := hl.awaited i x hx (by simp [hm])
    exact ⟨t, fun u => ⟨fun hu => hl.alone u t i hu ht, fun hu => hu ▸ ht⟩⟩
  | receipt n =>
    obtain ⟨c, i, hn⟩ := hp
    exact ⟨c, i, hn, (h.in_receipt hd hn).1⟩

theorem Conserved.place (h : Conserved w) (hl : Linked w) (hd : Event.delivered s m ∈ w.history) :
    (∃ p, w.Keeps m p ∧ ∀ q, w.Keeps m q → q = p) ∧ ∀ p, w.Keeps m p → w.Suits s m p := by
  obtain ⟨p, hp⟩ := h.exists_place hd
  exact ⟨⟨p, hp, fun q hq => h.place_unique hd hq hp⟩, fun q hq => h.place_suits hl hd hq⟩

end

/-- A message that was delivered is in one place at every moment. -/
theorem Reachable.messages_conserved (h : Reachable False (fun _ => True) w) :
    (∀ s m, Event.delivered s m ∈ w.history →
      (∃ p, w.Keeps m p ∧ ∀ q, w.Keeps m q → q = p) ∧ ∀ p, w.Keeps m p → w.Suits s m p) ∧
    (∀ t i x m u, w.waitOf? t = some i → w.waitRecord? i = some x → x.channel = .holding m →
      w.resolution? i = some (.error u) → PutBack w (w.taskStep t) i m) ∧
    ∀ t c f, w.receives? t = some c → (w.context c).interruption? = some f →
      ∀ s, (w.taskStep t).mailbox s = w.mailbox s :=
  ⟨fun _ _ hd => h.conserved.place h.linked hd,
    fun _ _ _ _ _ ht hx hm hr => putBack_taskStep h.conserved h.linked ht hx hm hr,
    fun _ _ _ ht hf s => (mute_refused ht hf).mailbox s⟩

theorem payment_put_back : ∃ (w v : World) (m : Letter) (i : WaitId),
    Reachable False (fun _ => True) w ∧ Transition False w v ∧
    (w.Keeps m (.channel i) ∧ ∀ p, w.Keeps m p → p = .channel i) ∧ PutBack w v i m ∧
    v.Keeps m (.queue 0 "paid" 0) ∧ ∀ p, v.Keeps m p → p = .queue 0 "paid" 0 := by
  have h1 : Reachable False (fun _ => True) (rooted "order" "shop" "main" 1 none) :=
    .rooted _ _ _ _ _ trivial trivial
  have h2 := h1.next (.call (.inl rfl) (.receiver 0 "till" ["paid"] (by decide))) trivial
  have h3 := h2.next (.pick 0 rfl (by decide)) trivial
  have h4 := h3.next (.beginReceipt (t := 0) rfl rfl) trivial
  have h5 := h4.next (.sleep (t := 0) rfl rfl rfl rfl) trivial
  have h6 := h5.next (.call (.inl rfl) (.deliver 0 "paid" .null (by decide))) trivial
  have h7 := h6.next (.call (.inl rfl) (.kill 0 ⟨"closed", none, .null⟩)) trivial
  have h8 := h7.next (.pick 0 rfl (by decide)) trivial
  have h9 := h8.next (.endReceipt (t := 0) rfl rfl rfl) trivial
  obtain ⟨hplace, hback, -⟩ := h8.messages_conserved
  obtain ⟨⟨p, -, hp⟩, -⟩ := hplace 0 ⟨0, "paid", .null⟩ (Array.mem_of_getElem? (i := 0) rfl)
  obtain ⟨⟨q, -, hq⟩, -⟩ :=
    h9.messages_conserved.1 0 ⟨0, "paid", .null⟩ (Array.mem_of_getElem? (i := 0) rfl)
  refine ⟨_, _, ⟨0, "paid", .null⟩, ⟨0, 0⟩, h8, .endReceipt (t := 0) rfl rfl rfl,
    ⟨⟨_, rfl, rfl⟩, fun r hr => ?_⟩,
    hback 0 _ _ _ _ rfl rfl rfl rfl, rfl, fun r hr => ?_⟩
  · rw [hp r hr, hp (.channel ⟨0, 0⟩) ⟨_, rfl, rfl⟩]
  · rw [hq r hr, hq (.queue 0 "paid" 0) rfl]

end World

end SagaEngine
