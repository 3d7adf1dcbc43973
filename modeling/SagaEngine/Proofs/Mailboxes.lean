import SagaEngine.Proofs.Conservation
import SagaEngine.Proofs.Eager

/-! No match is missed: a mailbox does not keep a message for an operation that a live wait lists. The
mailboxes of an engine change by calls alone, so that all that holds of mailboxes after any calls holds
in every reachable world. -/

namespace SagaEngine

namespace Mailbox

variable {mb : Mailbox} {op : String}

/-! ## Queues and waits -/

structure Unmatched (mb : Mailbox) (op : String) : Prop where
  entries : ∀ i ∈ mb.entries op, mb.isLive i = false
  waits : ∀ (i : Nat) (x : Wait), mb.waits[i]? = some x → op ∈ x.operations → mb.isLive i = false

theorem unmatched_iff (h : Entered mb) : mb.Unmatched op ↔ ∀ i, ¬mb.Awaits op i := by
  constructor
  · rintro hu i ⟨x, hx, hc, hop⟩
    have hl := hu.waits i x hx hop
    rw [isLive_iff.2 ⟨x, hx, hc⟩] at hl
    cases hl
  · intro hn
    refine ⟨fun i hi => ?_, fun i x hx hop => ?_⟩
    · apply Bool.eq_false_iff.2
      intro hl
      exact hn i (h.awaits hi hl)
    · apply Bool.eq_false_iff.2
      intro hl
      obtain ⟨y, hy, hc⟩ := isLive_iff.1 hl
      rw [hx] at hy
      cases hy
      exact hn i ⟨x, hx, hc, hop⟩

theorem Entered.unmatched (h : Entered mb) (hq : mb.queue op ≠ []) : mb.Unmatched op := by
  apply (unmatched_iff h).2
  intro i hi
  exact hq (h.idle op i hi)

/-- Whatever was called so far, no live wait lists an operation that has a message queued. -/
theorem queued_unmatched (calls : List Call) (op : String)
    (hq : (run act {} calls).2.queue op ≠ []) : (run act {} calls).2.Unmatched op :=
  (run_entered calls).unmatched hq

theorem payment_unmatched :
    let calls := [.request ["paid", "refund"] 0, .request ["shipped"] 1, .close 0,
      .deliver ⟨0, "paid", .null⟩]
    (run act {} calls).2.queue "paid" ≠ [] ∧ (run act {} calls).2.entries "refund" = [0] ∧
      (run act {} calls).2.isLive 1 = true ∧ (run act {} calls).2.Unmatched "paid" := by
  intro calls
  have hq : (run act {} calls).2.queue "paid" ≠ [] := by decide
  exact ⟨hq, rfl, rfl, queued_unmatched calls "paid" hq⟩

/-! ## Calls -/

def after (mb : Mailbox) (calls : List Call) : Mailbox := calls.foldl (fun mb c => (mb.act c).2) mb

theorem after_append (mb : Mailbox) (calls calls' : List Call) :
    mb.after (calls ++ calls') = (mb.after calls).after calls' := List.foldl_append

theorem run_after (mb : Mailbox) (calls : List Call) : (run act mb calls).2 = mb.after calls := by
  induction calls using List.reverseRecOn with
  | nil => rfl
  | append_singleton calls c ih =>
    rw [run_append, after_append, ← ih]
    rfl

end Mailbox

namespace World

variable {w w' w'' : World} {raw : Prop} {admits : World → Prop}

def Mails (w w' : World) : Prop := ∀ s, ∃ calls, w'.mailbox s = (w.mailbox s).after calls

theorem mails_of_eq (h : ∀ s, w'.mailbox s = w.mailbox s) : Mails w w' := fun s => ⟨[], h s⟩

theorem mails_of_sessions (h : w'.sessions = w.sessions) : Mails w w' :=
  mails_of_eq fun s => by rw [mailbox, session, h, mailbox, session]

theorem Mails.trans (h : Mails w w') (h' : Mails w' w'') : Mails w w'' := by
  intro s
  obtain ⟨calls, hc⟩ := h s
  obtain ⟨calls', hc'⟩ := h' s
  exact ⟨calls ++ calls', by rw [hc', hc, Mailbox.after_append]⟩

theorem Mute.mails (q : Mute w w') : Mails w w' := mails_of_eq q.mailbox

theorem mails_setMailbox (w : World) (s : SessionId) (c : Mailbox.Call) :
    Mails w (w.setMailbox s ((w.mailbox s).act c).2) := by
  intro s'
  rw [mailbox_setMailbox]
  split
  · rename_i hs
    exact ⟨[c], hs.1 ▸ rfl⟩
  · exact ⟨[], rfl⟩

theorem mails_deliver (w : World) (s : SessionId) (m : Letter) : Mails w (w.deliver s m).2 := by
  have hw := (signals_wakeServed (w.setMailbox s ((w.mailbox s).deliver m).2) s
    ((w.mailbox s).deliver m).1).mute
  exact (mails_setMailbox w s (.deliver m)).trans (mails_of_eq hw.mailbox)

theorem mails_requeue (w : World) (s : SessionId) (m : Letter) : Mails w (w.requeue s m) := by
  have hw := (signals_wakeServed (w.setMailbox s ((w.mailbox s).requeue m).2) s
    ((w.mailbox s).requeue m).1).mute
  exact (mails_setMailbox w s (.requeue m)).trans hw.mails

theorem mails_request (w : World) (s : SessionId) (ops : List String) :
    Mails w (w.request s ops).2 := by
  have hh : Mails w { w with handles := w.handles.push {} } := mails_of_sessions rfl
  rw [request_eq]
  exact hh.trans (mails_setMailbox _ s (.request ops w.handles.size))

theorem mails_closeWait (w : World) (i : WaitId) : Mails w (w.closeWait i).2 := by
  refine (mails_setMailbox w i.session (.close i.index)).trans (mails_of_eq fun s => ?_)
  unfold closeWait
  dsimp only
  split <;> rfl

theorem mails_endReceive (w : World) (c : ContextId) (i : WaitId)
    (r : Except (Option Letter) Letter) : Mails w (w.endReceive c i r).1 := by
  have hclose := mails_closeWait w i
  unfold endReceive
  generalize (w.closeWait i).2 = v at hclose
  rcases r with (_ | m) | m
  · exact hclose.trans (mails_of_eq (mailbox_record v _))
  · have hput := hclose.trans (mails_requeue v i.session m)
    dsimp only
    generalize v.requeue i.session m = u at hput ⊢
    exact hput.trans (mails_of_eq (mailbox_record u _))
  · exact hclose.trans (mails_of_eq (mailbox_record v _))

theorem mails_beginReceive {c : ContextId} {ops : List String} {i : WaitId}
    (hs : (w.context c).session < w.sessions.size) (h : w.beginReceive c ops = .ok (i, w')) :
    Mails w w' := (mails_request w _ ops).trans (mute_beginReceive hs h).mails

theorem Call.mails (k : Call raw w w') : Mails w w' := by
  have hletter : ∀ op v, Mails w (w.newLetter op v).2 := fun _ _ => mails_of_sessions rfl
  cases k with
  | edit e => exact e.edits.mute.mails
  | kill c f => exact (signals_kill w c f).mute.mails
  | clearKill c => exact (signals_clearKill w c).mute.mails
  | root label session scope budget k =>
    have hl := edits_list ((w.openSession session).2.addContext
      { label := (w.openSession session).2.freshLabel label, session := (w.openSession session).1,
        sliceBudget := budget, scopes := [{ id := scope }], pending := k.toList }).2
      (c := (w.openSession session).2.contexts.size) (by simp [addContext])
    exact ((mute_openSession w session).trans
      (.trans (mute_addContext (w.openSession session).2 _) hl.mute)).mails
  | child p label k => exact (mute_addContext w _).mails
  | start c =>
    unfold World.start
    dsimp only
    split
    · exact mails_of_sessions rfl
    · exact mails_of_sessions rfl
  | drive c budget => exact mails_of_sessions rfl
  | newHandle name => exact (mute_dropHandle w name).mails.trans (mails_of_sessions rfl)
  | dropHandle name => exact (mute_dropHandle w name).mails
  | register c h => exact (signals_cancelIfKilled w c h).mute.mails
  | cancel h => exact (signals_cancelHandle w h).mute.mails
  | deliver c op v => exact (hletter op v).trans (mails_deliver _ _ _)
  | receiver c tag ops => exact mails_of_sessions rfl
  | requeue c op v => exact (hletter op v).trans (mails_requeue _ _ _)
  | request c slot ops =>
    have hr := mails_request w (w.context c).session ops
    unfold requestInto
    dsimp only
    split
    · rename_i i _
      have hclose := hr.trans (mails_closeWait _ i)
      generalize ((w.request (w.context c).session ops).2.closeWait i).2 = v at hclose ⊢
      exact hclose.trans (mails_of_sessions rfl)
    · exact hr.trans (mails_of_sessions rfl)
  | dropWait slot i => exact (mails_closeWait w i).trans (mails_of_sessions rfl)
  | await slot i => exact mails_of_sessions rfl

theorem Effect.mails (hp : Placed w) (e : Effect w w') : Mails w w' := by
  cases e with
  | work e => exact e.edits.mute.mails
  | takeEscalated c => exact (signals_takeEscalated w c).mute.mails
  | takePermit c => exact (signals_takePermit w c).mute.mails
  | runState c s => exact (signals_setRunState w c s).mute.mails
  | kill c f => exact (signals_kill w c f).mute.mails
  | escalate c f => exact (signals_escalate w c f).mute.mails
  | pick t => exact mails_of_sessions rfl
  | goto => exact mails_of_sessions rfl
  | yield => exact mails_of_sessions rfl
  | park => exact mails_of_sessions rfl
  | finish o => exact (mute_endLoop w _ _ o).mails
  | halt => exact mails_of_sessions rfl
  | receive rest' receipt ops hr hb =>
    have hs := hp.sessions _ (hp.loop hr.2.1)
    exact (mails_beginReceive hs hb).trans (mails_of_sessions rfl)
  | @resume t l frame rest i receipt r rest' =>
    have hloop : Mails w (w.setLoop t { l with point := .body frame rest' }) :=
      mails_of_sessions rfl
    exact hloop.trans (mails_endReceive _ l.context i r)
  | sleep =>
    unfold sleepOn
    split
    · exact mails_of_sessions rfl
    · exact mails_of_sessions rfl
  | beginReceipt _ ht hb =>
    have hs := hp.sessions _ (hp.tasks _ _ _ ht rfl)
    exact (mails_beginReceive hs hb).trans (mails_of_sessions rfl)
  | refuse => exact mails_of_sessions rfl
  | @endReceipt t c tag i r =>
    exact (mails_endReceive w c i r).trans (mails_of_sessions rfl)
  | @endAwait t slot i r =>
    have hclose := mails_closeWait w i
    generalize (w.closeWait i).2 = v at hclose ⊢
    exact hclose.trans (mails_of_sessions rfl)

theorem Reachable.mailbox_run (h : Reachable raw admits w) (s : SessionId) :
    ∃ calls, w.mailbox s = (Mailbox.run Mailbox.act {} calls).2 := by
  have hm : Mails {} w := by
    refine h.invariant (P := Mails {}) (mails_of_sessions rfl) ?_ ?_
    · intro w w' _ hw _ _ k
      exact hw.trans k.mails
    · intro w w' hp hw e
      exact hw.trans (e.mails hp)
  obtain ⟨calls, hc⟩ := hm s
  exact ⟨calls, hc.trans (Mailbox.run_after {} calls).symm⟩

theorem Reachable.unmatched (h : Reachable raw admits w) {s : SessionId} {op : String}
    (hq : (w.mailbox s).queue op ≠ []) : (w.mailbox s).Unmatched op := by
  obtain ⟨calls, hc⟩ := h.mailbox_run s
  rw [hc] at hq ⊢
  exact (Mailbox.run_entered calls).unmatched hq

end World

end SagaEngine
