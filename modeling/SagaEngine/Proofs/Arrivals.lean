import SagaEngine.Proofs.Mailboxes

/-! The order of arrival. Messages are queued in the order in which they came, and what an interrupted
wait gives back goes to the front. Where two waits give back what they held, the one that came first may
end up behind the other; nothing else disturbs the order. -/

namespace SagaEngine

namespace Mailbox

variable {mb mb' : Mailbox} {m a b : Letter} {R R' : Letter → Letter → Prop}

def Holds (mb : Mailbox) (m : Letter) : Prop :=
  ∃ (i : Nat) (x : Wait), mb.waits[i]? = some x ∧ x.channel = .holding m

/-- A message in front of an earlier one, or held while that is queued, is related to it. -/
structure Orderly (R : Letter → Letter → Prop) (mb : Mailbox) : Prop where
  queued : ∀ op, (mb.queue op).Pairwise fun a b => b.id < a.id → R a b
  held : ∀ a b, mb.Holds a → b ∈ mb.queue a.operation → b.id < a.id → R a b

theorem Orderly.empty : Orderly R {} where
  queued _ := .nil
  held a b h := by
    obtain ⟨i, x, hx, -⟩ := h
    simp at hx

theorem Orderly.mono (h : Orderly R mb) (hR : ∀ a b, R a b → R' a b) : Orderly R' mb where
  queued op := (h.queued op).imp fun hab hlt => hR _ _ (hab hlt)
  held a b ha hb hlt := hR a b (h.held a b ha hb hlt)

theorem Holds.of_modify {i : Nat} {ch : Channel}
    (hw : mb'.waits = mb.waits.modify i fun x => { x with channel := ch }) (h : mb'.Holds a) :
    ch = .holding a ∨ mb.Holds a := by
  obtain ⟨j, x, hx, hc⟩ := h
  rw [hw, getElem?_modify_channel] at hx
  split at hx
  · obtain ⟨y, -, rfl⟩ := Option.map_eq_some_iff.1 hx
    exact .inl hc
  · exact .inr ⟨j, x, hx, hc⟩

theorem Holds.of_push {y : Wait} (hw : mb'.waits = mb.waits.push y) (h : mb'.Holds a) :
    y.channel = .holding a ∨ mb.Holds a := by
  obtain ⟨j, x, hx, hc⟩ := h
  rw [hw, Array.getElem?_push] at hx
  split at hx
  · exact .inl (Option.some.inj hx ▸ hc)
  · exact .inr ⟨j, x, hx, hc⟩

theorem Holds.copies (h : mb.Holds m) :
    0 < mb.waits.toList.countP fun x => x.channel == .holding m := by
  obtain ⟨i, x, hx, hc⟩ := h
  exact countP_pos_of_index (i := i) (a := x) (by simpa using hx) (by simpa using hc)

theorem Holds.close {i : Nat} (h : (mb.close i).2.Holds a) : mb.Holds a :=
  (Holds.of_modify rfl h).resolve_left (by simp)

theorem Orderly.keep (h : Orderly R mb) (hq : ∀ op, mb'.queue op = mb.queue op)
    (hh : ∀ a, mb'.Holds a → mb.Holds a) : Orderly R mb' where
  queued op := hq op ▸ h.queued op
  held a b ha hb := h.held a b (hh a ha) (hq _ ▸ hb)

theorem Orderly.close (h : Orderly R mb) (i : Nat) : Orderly R (mb.close i).2 :=
  h.keep (fun _ => rfl) fun _ => Holds.close

theorem Orderly.deliver (h : Orderly R mb) (e : Entered mb) {served : Option Nat}
    (acc : mb.Accepts m true served mb')
    (hnew : ∀ a, mb.Holds a ∨ a ∈ mb.queue a.operation → a.id < m.id) : Orderly R mb' := by
  cases acc with
  | @handed i x _ hx hch hi hq hw hl =>
    obtain ⟨y, hy, hop⟩ := e.listed _ _ hi
    obtain rfl := Option.some.inj (hx.symm.trans hy)
    have hnone : mb.queue m.operation = [] := e.idle _ i ⟨x, hx, hch, hop⟩
    refine ⟨fun op => queue_congr hq op ▸ h.queued op, fun a b ha hb => ?_⟩
    rw [queue_congr hq] at hb
    rcases ha.of_modify hw with hm | ha
    · obtain rfl := Channel.holding.inj hm
      rw [hnone] at hb
      cases hb
    · exact h.held a b ha hb
  | queued hq hw hl =>
    have hback : ∀ {a}, mb.Holds a ∨ a ∈ mb.queue a.operation → ¬m.id < a.id := fun ha =>
      Nat.not_lt.2 (Nat.le_of_lt (hnew _ ha))
    refine ⟨fun op => ?_, fun a b ha hb hlt => ?_⟩
    · rw [queue_insert hq]
      split
      · refine List.pairwise_append.2 ⟨h.queued _, List.pairwise_singleton _ _, fun a ha b hb => ?_⟩
        obtain rfl := List.mem_singleton.1 hb
        have hop := e.queued _ a ha
        exact fun hlt => absurd hlt (hback (.inr (hop ▸ ha)))
      · exact h.queued op
    · have ha' : mb.Holds a := by
        obtain ⟨i, x, hx, hc⟩ := ha
        exact ⟨i, x, hw ▸ hx, hc⟩
      rw [queue_insert hq] at hb
      split at hb
      · rename_i hop
        rcases List.mem_append.1 hb with hb | hb
        · exact h.held a b ha' (hop ▸ hb) hlt
        · obtain rfl := List.mem_singleton.1 hb
          exact absurd hlt (hback (.inl ha'))
      · exact h.held a b ha' hb hlt

theorem Orderly.grants (h : Orderly R mb) (e : Labelled mb) {ops : List String} {hd : HandleId}
    (g : mb.Grants ops hd mb') : Orderly R mb' := by
  cases g with
  | @held op m rest _ _ hm hq hw hl =>
    have hown : m.operation = op := e.queued op m (hm ▸ .head _)
    have hpair := h.queued op
    rw [hm, List.pairwise_cons] at hpair
    have hsub : ∀ {op' b}, b ∈ mb'.queue op' → b ∈ mb.queue op' := fun {op' b} hb => by
      rw [queue_insert hq] at hb
      split at hb
      · rename_i ho
        exact ho ▸ hm ▸ .tail _ hb
      · exact hb
    refine ⟨fun op' => ?_, fun a b ha hb => ?_⟩
    · rw [queue_insert hq]
      split
      · exact hpair.2
      · exact h.queued op'
    · rcases ha.of_push hw with hc | ha
      · obtain rfl := Channel.holding.inj hc
        rw [queue_insert hq, if_pos hown.symm] at hb
        exact hpair.1 b hb
      · exact h.held a b ha (hsub hb)
  | entered hch _ hq hw hl =>
    refine h.keep (queue_congr hq) fun a ha => (ha.of_push hw).resolve_left fun hc => ?_
    rw [hch] at hc
    split at hc <;> cases hc

theorem Orderly.putBack (h : Orderly R mb) {i : Nat} (hm : mb.Holds m) {served : Option Nat}
    (acc : (mb.close i).2.Accepts m false served mb')
    (hR : m ∈ mb'.queue m.operation → ∀ a, mb'.Holds a → R a m) : Orderly R mb' := by
  have hc := h.close i
  cases acc with
  | handed hx hch hi hq hw hl =>
    refine ⟨fun op => queue_congr hq op ▸ hc.queued op, fun a b ha hb => ?_⟩
    rw [queue_congr hq] at hb
    rcases ha.of_modify hw with he | ha
    · obtain rfl := Channel.holding.inj he
      exact h.held m b hm hb
    · exact hc.held a b ha hb
  | queued hq hw hl =>
    have hqueue : ∀ op, mb'.queue op = if m.operation = op then m :: mb.queue m.operation
      else mb.queue op := queue_insert hq
    refine ⟨fun op => ?_, fun a b ha hb hlt => ?_⟩
    · rw [hqueue]
      split
      · exact List.pairwise_cons.2 ⟨fun b hb => h.held m b hm hb, h.queued _⟩
      · exact h.queued op
    · have ha' : mb.Holds a := by
        obtain ⟨j, x, hx, hch⟩ := ha
        exact Holds.close ⟨j, x, hw ▸ hx, hch⟩
      rw [hqueue] at hb
      split at hb
      · rename_i hop
        rcases List.mem_cons.1 hb with rfl | hb
        · exact hR (by rw [hqueue, if_pos rfl]; exact .head _) a ha
        · exact h.held a b ha' (hop ▸ hb) hlt
      · exact h.held a b ha' hb hlt

/-- What one transition does to a mailbox. A message that comes in has the number `n`. -/
inductive Moves (n : Nat) (mb mb' : Mailbox) : Prop where
  | none : mb' = mb → Moves n mb mb'
  | deliver {m : Letter} {served : Option Nat} :
      m.id = n → mb.Accepts m true served mb' → Moves n mb mb'
  | request {ops : List String} {hd : HandleId} : mb.Grants ops hd mb' → Moves n mb mb'
  | close (i : Nat) : mb' = (mb.close i).2 → Moves n mb mb'
  | putBack {i : Nat} {m : Letter} {served : Option Nat} :
      mb.Holds m → (mb.close i).2.Accepts m false served mb' → Moves n mb mb'

theorem Moves.front {n : Nat} (k : Moves n mb mb') (hm : m ∉ mb.queue m.operation)
    (hid : m.id < n) (hq : m ∈ mb'.queue m.operation) :
    mb'.queue m.operation = m :: mb.queue m.operation := by
  have hsame : mb'.queue m.operation = mb.queue m.operation →
      mb'.queue m.operation = m :: mb.queue m.operation := fun he => absurd (he ▸ hq) hm
  cases k with
  | none he => exact hsame (he ▸ rfl)
  | deliver hn acc =>
    cases acc with
    | handed _ _ _ he => exact hsame (queue_congr he _)
    | queued he =>
      rw [queue_insert he] at hq
      split at hq
      · rename_i hop
        rcases List.mem_append.1 hq with hq | hq
        · exact absurd (hop ▸ hq) hm
        · obtain rfl := List.mem_singleton.1 hq
          exact absurd hid (hn ▸ Nat.lt_irrefl _)
      · exact absurd hq hm
  | request g =>
    cases g with
    | @held op _ rest _ _ hqueue he =>
      rw [queue_insert he] at hq
      split at hq
      · rename_i hop
        exact absurd (hop ▸ hqueue ▸ .tail _ hq) hm
      · exact absurd hq hm
    | entered _ _ he => exact hsame (queue_congr he _)
  | close i he => exact hsame (he ▸ rfl)
  | @putBack i m' _ _ acc =>
    cases acc with
    | handed _ _ _ he => exact hsame (queue_congr he _)
    | queued he =>
      have hqueue := queue_insert he m.operation
      by_cases hop : m'.operation = m.operation
      · rw [hqueue, if_pos hop] at hq
        rcases List.mem_cons.1 hq with rfl | hq
        · exact hqueue.trans (if_pos rfl)
        · exact absurd (hop ▸ hq) hm
      · exact hsame (hqueue.trans (if_neg hop))

end Mailbox

namespace World

variable {w w' w'' v : World} {s : SessionId} {m a b : Letter}

/-! ## One transition -/

theorem mute_round (w : World) (t : TaskId) (l : Loop) : Mute w (w.round t l) := by
  have hstill : ∀ {v u : World}, u.sessions = v.sessions → u.history = v.history →
      u.arrivals = v.arrivals → Mute v u := fun hs hh ha =>
    ⟨fun _ => by simp only [mailbox, session, hs], by simp only [mail, hh], ha⟩
  unfold round
  dsimp only
  split
  · exact mute_endKilled w t l _
  · rename_i f _ _
    have htake : Mute w (w.modifyContext l.context fun x => { x with escalated := none }) :=
      hstill rfl rfl rfl
    generalize w.modifyContext l.context (fun x => { x with escalated := none }) = v at htake ⊢
    have hraise := htake.trans (mute_raise v l.context f)
    generalize v.raise l.context f = r at hraise
    obtain ⟨u, _ | o⟩ := r
    · exact hraise.trans (hstill rfl rfl rfl)
    · exact hraise.trans (mute_endLoop u t l o)
  · rename_i he
    split
    · exact hstill rfl rfl rfl
    · split
      · rename_i k rest _
        have hstart : ∀ v : World, Mute v ((v.record (.started l.context k)).setLoop t
            { l with point := .body ⟨k.name, k.traced⟩ k.steps }) := fun v =>
          ⟨fun _ => rfl, (mail_record v _).trans (List.append_nil _), rfl⟩
        have hnext : Mute w (w.modifyContext l.context fun x => { x with pending := rest }) :=
          hstill rfl rfl rfl
        unfold startContinuation
        dsimp only
        split
        · refine hnext.trans (.trans ?_ (hstart _))
          unfold list
          split
          · exact .refl _
          · exact hstill rfl rfl rfl
        · exact hnext.trans (hstart _)
      · rw [runDry_eq he]
        split
        · exact (signals_setRunState w l.context .completed).mute.trans (mute_endLoop _ t l _)
        · split
          · exact hstill rfl rfl rfl
          · exact hstill rfl rfl rfl

theorem mute_loopStep (w : World) (t : TaskId) {l : Loop} (h : l.point.inEngine = true) :
    Mute w (w.loopStep t l) := by
  unfold loopStep
  cases hp : l.point with
  | head => exact mute_round w t l
  | body | receiving => simp [hp, Point.inEngine] at h
  | fresh | paused | idle | ended => exact ⟨fun _ => rfl, rfl, rfl⟩

theorem Mute.moves (q : Mute w w') (s : SessionId) :
    Mailbox.Moves w.arrivals (w.mailbox s) (w'.mailbox s) := .none (q.mailbox s)

theorem moves_request {c : ContextId} {ops : List String} {i : WaitId}
    (hs : (w.context c).session < w.sessions.size) (h : w.beginReceive c ops = .ok (i, w'))
    (s : SessionId) : Mailbox.Moves w.arrivals (w.mailbox s) (w'.mailbox s) := by
  have hg := ((w.mailbox (w.context c).session).request_grants ops w.handles.size).2
  rw [(mute_beginReceive hs h).mailbox, request_eq, mailbox_setMailbox]
  split
  · rename_i he
    rw [he.1]
    exact .request hg
  · exact .none rfl

theorem moves_endReceive {i : WaitId} {x : Wait} {r : Except (Option Letter) Letter}
    (hx : w.waitRecord? i = some x) (hr : w.resolution? i = some r) (c : ContextId)
    (s : SessionId) :
    Mailbox.Moves w.arrivals (w.mailbox s) ((w.endReceive c i r).1.mailbox s) := by
  have hs := session_of_record hx
  have hbox := mailbox_closeWait hs s
  have hclosed : Mailbox.Moves w.arrivals (w.mailbox s) ((w.closeWait i).2.mailbox s) := by
    rw [hbox]
    split
    · rename_i he
      rw [he]
      exact .close i.index rfl
    · exact .none rfl
  rcases r with (_ | m) | m
  · simp only [World.endReceive, mailbox_record]
    exact hclosed
  · have hs' : i.session < (w.closeWait i).2.sessions.size := (posts_closeWait w i).sessions ▸ hs
    have hreq := mailbox_requeue hs' m s
    rw [mailbox_closeWait hs, if_pos rfl] at hreq
    simp only [World.endReceive, mailbox_record]
    rw [hreq]
    split
    · rename_i he
      rw [he]
      have hm := (resolution_holding hx hr m).2 (.inr rfl)
      exact .putBack ⟨i.index, x, hx, hm⟩ (Mailbox.requeue_accepts _ m)
    · rename_i he
      rw [hbox, if_neg he]
      exact .none rfl
  · simp only [World.endReceive, mailbox_record]
    exact hclosed

theorem Call.moves (hp : Placed w) (k : Call False w w') (s : SessionId) :
    Mailbox.Moves w.arrivals (w.mailbox s) (w'.mailbox s) := by
  rcases k.mute_or_delivers hp with q | ⟨s', op, v, hs, rfl⟩
  · exact q.moves s
  · rw [mailbox_deliver (w := (w.newLetter op v).2) hs]
    split
    · rename_i he
      rw [he]
      exact .deliver rfl (Mailbox.deliver_accepts (w.mailbox s') (w.newLetter op v).1)
    · exact .none rfl

theorem Transition.moves (hp : Placed w) (hl : Linked w) (k : Transition False w w')
    (s : SessionId) : Mailbox.Moves w.arrivals (w.mailbox s) (w'.mailbox s) := by
  have hrec : ∀ {t : TaskId} {task : Task} {i : WaitId}, w.tasks[t]? = some task →
      task.wait? = some i → ∃ x, w.waitRecord? i = some x := by
    intro t task i ht hi
    obtain ⟨x, hx, -⟩ := hl.opened t i ((waitOf_eq ht).trans hi)
    exact ⟨x, hx⟩
  cases k with
  | call _ k => exact k.moves hp s
  | pick => exact .none rfl
  | pass rest' name reply hr => exact (mute_passStep w _ _ _ rest' name reply).moves s
  | finish hr => exact (mute_finishRound w _ _).moves s
  | fail f hr => exact (mute_failStep w _ _ _ f).moves s
  | pauseBody => exact .none rfl
  | receive rest' receipt ops hr hb =>
    exact moves_request (hp.sessions _ (hp.loop hr.2.1)) hb s
  | @resume t l frame rest i receipt r rest' _ ht hpt hr =>
    obtain ⟨x, hx⟩ := hrec (i := i) ht (by simp [Task.wait?, hpt])
    exact moves_endReceive (w := w.setLoop t { l with point := .body frame rest' }) hx hr l.context s
  | drive _ _ hin => exact (mute_loopStep w _ hin).moves s
  | sleep =>
    unfold sleepOn
    split <;> exact .none rfl
  | @beginReceipt t c tag ops hc ht =>
    unfold receiverStep
    split
    · exact .none rfl
    · rename_i i v hb
      exact moves_request (hp.sessions _ (hp.tasks t _ c ht rfl)) hb s
  | @endReceipt t c tag i r hc ht hr =>
    obtain ⟨x, hx⟩ := hrec ht rfl
    exact moves_endReceive hx hr c s
  | endAwait _ ht => exact absurd ht (hl.received _ _ _)
  | halt => exact .none rfl

/-! ## Every run -/

theorem Conserved.was_delivered (h : Conserved w) (hc : 0 < (w.mailbox s).copies m) :
    Event.delivered s m ∈ w.mail := by
  have hpos : 0 < w.mail.countP (Event.isDelivery s m) :=
    h.counted s m ▸ Nat.lt_of_lt_of_le hc (Nat.le_add_right _ _)
  obtain ⟨e, he, hd⟩ := List.countP_pos_iff.1 hpos
  unfold Event.isDelivery at hd
  split at hd
  · simp only [Bool.and_eq_true, beq_iff_eq] at hd
    exact hd.1 ▸ hd.2 ▸ he
  · cases hd

theorem Conserved.copies_of_queued (h : Conserved w) {op : String}
    (hm : m ∈ (w.mailbox s).queue op) :
    m.operation = op ∧ ((w.mailbox s).queue op).count m ≤ (w.mailbox s).copies m := by
  obtain rfl := (h.labelled s).queued op m hm
  exact ⟨rfl, Nat.le_add_right _ _⟩

theorem Conserved.copies_le (h : Conserved w) (s : SessionId) (m : Letter) :
    (w.mailbox s).copies m ≤ 1 :=
  Nat.le_trans (Nat.le_add_right _ _) (h.counted s m ▸ h.deliveries_le s m)

theorem Conserved.id_lt (h : Conserved w)
    (hm : (w.mailbox s).Holds m ∨ m ∈ (w.mailbox s).queue m.operation) : m.id < w.arrivals := by
  refine h.numbered _ (h.was_delivered (s := s) ?_) m.id rfl
  rcases hm with hm | hm
  · exact Nat.lt_of_lt_of_le hm.copies (Nat.le_add_left _ _)
  · exact Nat.lt_of_lt_of_le (List.count_pos_iff.2 hm) (Nat.le_add_right _ _)

theorem Conserved.not_queued (h : Conserved w) (hm : (w.mailbox s).Holds m) :
    m ∉ (w.mailbox s).queue m.operation := fun hq => by
  have hle := h.copies_le s m
  have hheld := hm.copies
  have hqueued := List.count_pos_iff.2 hq
  unfold Mailbox.copies at hle
  omega

theorem Conserved.numbers_differ (h : Conserved w) (s : SessionId) (op : String) :
    ((w.mailbox s).queue op).Pairwise fun a b => a.id ≠ b.id := by
  have hnodup : ((w.mailbox s).queue op).Nodup := by
    refine List.nodup_iff_count.2 fun m => ?_
    by_cases hm : m ∈ (w.mailbox s).queue op
    · exact Nat.le_trans (h.copies_of_queued hm).2 (h.copies_le s m)
    · rw [List.count_eq_zero.2 hm]
      exact Nat.zero_le 1
  have hmail : ∀ m ∈ (w.mailbox s).queue op, Event.delivered s m ∈ w.mail := fun m hm => by
    refine h.was_delivered ?_
    exact Nat.lt_of_lt_of_le (List.count_pos_iff.2 hm) (h.copies_of_queued hm).2
  refine List.Pairwise.imp_of_mem (fun {a b} ha hb hne hid => hne ?_) hnodup
  obtain ⟨j, hj⟩ := List.mem_iff_getElem?.1 (hmail a ha)
  obtain ⟨k, hk⟩ := List.mem_iff_getElem?.1 (hmail b hb)
  have hjk := index_unique_of_countP (h.number_once a.id) hj (by simp [Event.number?]) hk
    (by simp [Event.number?, hid])
  rw [hjk, hk] at hj
  cases hj
  rfl

/-- On the way to this world a wait gave back `b` while another one held `a`. -/
def Overtook (w : World) (s : SessionId) (a b : Letter) : Prop :=
  ∃ v v' : World, Reachable False (fun _ => True) v ∧ Transition False v v' ∧
    Relation.ReflTransGen (Transition False) v' w ∧ (v.mailbox s).Holds b ∧
    b ∈ (v'.mailbox s).queue b.operation ∧ (v'.mailbox s).Holds a

theorem Overtook.later (h : Overtook w s a b) (k : Transition False w w') : Overtook w' s a b := by
  obtain ⟨v, v', hv, hk, hr, hb⟩ := h
  exact ⟨v, v', hv, hk, hr.tail k, hb⟩

theorem Reachable.entered {raw : Prop} {admits : World → Prop} (h : Reachable raw admits w)
    (s : SessionId) : (w.mailbox s).Entered := by
  obtain ⟨calls, hc⟩ := h.mailbox_run s
  rw [hc]
  exact Mailbox.run_entered calls

theorem Reachable.orderly (h : Reachable False (fun _ => True) w) (s : SessionId) :
    (w.mailbox s).Orderly (Overtook w s) := by
  induction h with
  | start => exact .empty
  | @next w w' h k _ ih =>
    have hlater := ih.mono fun a b hab => Overtook.later hab k
    rcases k.moves h.placed h.linked s with he | ⟨hn, acc⟩ | g | ⟨i, he⟩ | ⟨hm, acc⟩
    · exact he ▸ hlater
    · exact hlater.deliver (h.entered s) acc fun a ha => hn ▸ h.conserved.id_lt ha
    · exact hlater.grants (h.conserved.labelled s) g
    · exact he ▸ hlater.close i
    · exact hlater.putBack hm acc fun hq a ha => ⟨w, w', h, k, .refl, hm, hq, ha⟩

/-- Messages are queued in the order of arrival, but where two waits give back what they held. -/
theorem Reachable.arrival_order (h : Reachable False (fun _ => True) w) (s : SessionId) :
    (∀ op, ((w.mailbox s).queue op).Pairwise fun a b =>
      a.id < b.id ∨ b.id < a.id ∧ Overtook w s a b) ∧
    ∀ w' m, Transition False w w' → (w.mailbox s).Holds m →
      m ∈ (w'.mailbox s).queue m.operation →
      (w'.mailbox s).queue m.operation = m :: (w.mailbox s).queue m.operation := by
  have hc := h.conserved
  refine ⟨fun op => ?_, fun w' m k hm hq => (k.moves h.placed h.linked s).front
    (hc.not_queued hm) (hc.id_lt (.inl hm)) hq⟩
  refine (((h.orderly s).queued op).and (h.conserved.numbers_differ s op)).imp ?_
  rintro a b ⟨hab, hne⟩
  exact (Nat.lt_or_gt_of_ne hne).imp_right fun hlt => ⟨hlt, hab hlt⟩

theorem payments_reversed : ∃ w, Reachable False (fun _ => True) w ∧
    (w.mailbox 0).queue "paid" = [⟨1, "paid", .null⟩, ⟨0, "paid", .null⟩] := by
  have h1 : Reachable False (fun _ => True) (rooted "order" "shop" "main" 1 none) :=
    .rooted _ _ _ _ _ trivial trivial
  have h2 := h1.next (.call (.inl rfl) (.receiver 0 "first" ["paid"] (by decide))) trivial
  have h3 := h2.next (.call (.inl rfl) (.receiver 0 "second" ["paid"] (by decide))) trivial
  have h4 := h3.next (.pick 0 rfl (by decide)) trivial
  have h5 := h4.next (.beginReceipt (t := 0) rfl rfl) trivial
  have h6 := h5.next (.sleep (t := 0) rfl rfl rfl rfl) trivial
  have h7 := h6.next (.pick 1 rfl (by decide)) trivial
  have h8 := h7.next (.beginReceipt (t := 1) rfl rfl) trivial
  have h9 := h8.next (.sleep (t := 1) rfl rfl rfl rfl) trivial
  have h10 := h9.next (.call (.inl rfl) (.deliver 0 "paid" .null (by decide))) trivial
  have h11 := h10.next (.call (.inl rfl) (.deliver 0 "paid" .null (by decide))) trivial
  have h12 := h11.next (.call (.inl rfl) (.kill 0 ⟨"stop", none, .null⟩)) trivial
  have h13 := h12.next (.pick 0 rfl (by decide)) trivial
  have h14 := h13.next (.endReceipt (t := 0) rfl rfl rfl) trivial
  have h15 := h14.next (.pick 1 rfl (by decide)) trivial
  have h16 := h15.next (.endReceipt (t := 1) rfl rfl rfl) trivial
  exact ⟨_, h16, rfl⟩

/-- So not every run keeps the order of arrival. -/
theorem arrival_order_broken : ∃ w, Reachable False (fun _ => True) w ∧
    ¬∀ s op, ((w.mailbox s).queue op).Pairwise fun a b => a.id < b.id := by
  obtain ⟨w, h, hq⟩ := payments_reversed
  refine ⟨w, h, fun hall => ?_⟩
  have hpair := hall 0 "paid"
  rw [hq] at hpair
  exact absurd hpair (by decide)

theorem payments_crossed : ∃ w, Reachable False (fun _ => True) w ∧
    (w.mailbox 0).queue "paid" = [⟨1, "paid", .null⟩, ⟨0, "paid", .null⟩] ∧
    Overtook w 0 ⟨1, "paid", .null⟩ ⟨0, "paid", .null⟩ := by
  obtain ⟨w, h, hq⟩ := payments_reversed
  have hpair := (h.arrival_order 0).1 "paid"
  rw [hq] at hpair
  refine ⟨w, h, hq, ?_⟩
  rcases (List.pairwise_cons.1 hpair).1 _ (.head _) with hlt | ⟨-, hover⟩
  · exact absurd hlt (by decide)
  · exact hover

end World

end SagaEngine
