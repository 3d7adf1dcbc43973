import SagaEngine.Proofs.Mail
import SagaEngine.Proofs.Placement

/-! Waits and the tasks in them. As long as messages are awaited only by receiving them for a context,
every wait that is not closed belongs to one task, and every wait has a handle of its own. -/

namespace SagaEngine

def Wait.shape (x : Wait) : HandleId × List String × Bool :=
  (x.handle, x.operations, x.channel == .closed)

namespace World

variable {w w' w'' : World} {admits : World → Prop}

def waitOf? (w : World) (t : TaskId) : Option WaitId := w.tasks[t]?.bind Task.wait?

structure Linked (w : World) : Prop where
  opened : ∀ t i, w.waitOf? t = some i → ∃ x, w.waitRecord? i = some x ∧ x.channel ≠ .closed
  awaited : ∀ i x, w.waitRecord? i = some x → x.channel ≠ .closed → ∃ t, w.waitOf? t = some i
  alone : ∀ t u i, w.waitOf? t = some i → w.waitOf? u = some i → t = u
  received : ∀ (t : TaskId) slot i, w.tasks[t]? ≠ some (.awaiting slot i)
  handled : ∀ i x, w.waitRecord? i = some x → x.handle < w.handles.size
  apart : ∀ i j x y,
    w.waitRecord? i = some x → w.waitRecord? j = some y → x.handle = y.handle → i = j
  named : ∀ name h, w.names.handles.get? name = some h →
    h < w.handles.size ∧ ∀ i x, w.waitRecord? i = some x → x.handle ≠ h

/-! ## Changes that leave waits alone -/

/-- No task enters or leaves a wait. -/
structure Unwaiting (w w' : World) : Prop where
  shape : ∀ i, (w'.waitRecord? i).map Wait.shape = (w.waitRecord? i).map Wait.shape
  waitOf : ∀ t, w'.waitOf? t = w.waitOf? t
  received : ∀ (t : TaskId) slot i,
    w'.tasks[t]? = some (.awaiting slot i) → w.tasks[t]? = some (.awaiting slot i)
  handles : w.handles.size ≤ w'.handles.size
  named : ∀ name h, w'.names.handles.get? name = some h →
    w.names.handles.get? name = some h ∨ w.handles.size ≤ h ∧ h < w'.handles.size

theorem Unwaiting.trans (h : Unwaiting w w') (h' : Unwaiting w' w'') : Unwaiting w w'' where
  shape i := (h'.shape i).trans (h.shape i)
  waitOf t := (h'.waitOf t).trans (h.waitOf t)
  received t slot i hi := h.received t slot i (h'.received t slot i hi)
  handles := Nat.le_trans h.handles h'.handles
  named name i hi := by
    rcases h'.named name i hi with hi | ⟨hle, hlt⟩
    · exact (h.named name i hi).imp_right fun hb => ⟨hb.1, Nat.lt_of_lt_of_le hb.2 h'.handles⟩
    · exact .inr ⟨Nat.le_trans h.handles hle, hlt⟩

theorem shape_eq {x y : Wait} (h : x.shape = y.shape) :
    x.handle = y.handle ∧ x.operations = y.operations ∧
      (x.channel = .closed ↔ y.channel = .closed) := by
  simp only [Wait.shape, Prod.mk.injEq] at h
  refine ⟨h.1, h.2.1, ?_⟩
  have hc := h.2.2
  rw [Bool.eq_iff_iff, beq_iff_eq, beq_iff_eq] at hc
  exact hc

theorem Unwaiting.record (h : Unwaiting w w') {i : WaitId} {x : Wait}
    (hx : w'.waitRecord? i = some x) :
    ∃ y, w.waitRecord? i = some y ∧ y.handle = x.handle ∧
      (y.channel = .closed ↔ x.channel = .closed) := by
  have hs := h.shape i
  rw [hx] at hs
  obtain ⟨y, hy, he⟩ := Option.map_eq_some_iff.1 hs.symm
  exact ⟨y, hy, (shape_eq he).1, (shape_eq he).2.2⟩

theorem Unwaiting.record' (h : Unwaiting w w') {i : WaitId} {y : Wait}
    (hy : w.waitRecord? i = some y) :
    ∃ x, w'.waitRecord? i = some x ∧ (y.channel = .closed ↔ x.channel = .closed) := by
  have hs := h.shape i
  rw [hy] at hs
  obtain ⟨x, hx, he⟩ := Option.map_eq_some_iff.1 hs
  obtain ⟨z, hz, -, hc⟩ := h.record hx
  rw [hy] at hz
  cases hz
  exact ⟨x, hx, hc⟩

theorem Linked.unwaiting (h : Linked w) (u : Unwaiting w w') : Linked w' where
  opened t i ht := by
    rw [u.waitOf] at ht
    obtain ⟨y, hy, hc⟩ := h.opened t i ht
    obtain ⟨x, hx, hxy⟩ := u.record' hy
    exact ⟨x, hx, fun hx => hc (hxy.2 hx)⟩
  awaited i x hx hc := by
    obtain ⟨y, hy, -, hxy⟩ := u.record hx
    obtain ⟨t, ht⟩ := h.awaited i y hy fun hy => hc (hxy.1 hy)
    exact ⟨t, (u.waitOf t).trans ht⟩
  alone t v i ht hv := by
    rw [u.waitOf] at ht hv
    exact h.alone t v i ht hv
  received t slot i ht := h.received t slot i (u.received t slot i ht)
  handled i x hx := by
    obtain ⟨y, hy, hh, -⟩ := u.record hx
    exact hh ▸ Nat.lt_of_lt_of_le (h.handled i y hy) u.handles
  apart i j x y hx hy hh := by
    obtain ⟨x', hx', hhx, -⟩ := u.record hx
    obtain ⟨y', hy', hhy, -⟩ := u.record hy
    exact h.apart i j x' y' hx' hy' (hhx.trans (hh.trans hhy.symm))
  named name k hk := by
    rcases u.named name k hk with hk | ⟨hle, hlt⟩
    · obtain ⟨hlt, hne⟩ := h.named name k hk
      refine ⟨Nat.lt_of_lt_of_le hlt u.handles, fun i x hx => ?_⟩
      obtain ⟨y, hy, hh, -⟩ := u.record hx
      exact hh ▸ hne i y hy
    · refine ⟨hlt, fun i x hx he => ?_⟩
      obtain ⟨y, hy, hh, -⟩ := u.record hx
      exact absurd (h.handled i y hy) (Nat.not_lt_of_le (hh.trans he ▸ hle))

theorem waitRecord_congr {i : WaitId} (h : w'.mailbox i.session = w.mailbox i.session) :
    w'.waitRecord? i = w.waitRecord? i := by
  unfold waitRecord?
  rw [h]

theorem waitOf_congr (h : w'.tasks = w.tasks) (t : TaskId) : w'.waitOf? t = w.waitOf? t := by
  unfold waitOf?
  rw [h]

theorem Edits.unwaiting (e : Edits w w') : Unwaiting w w' where
  shape i := by rw [waitRecord_congr (e.mailbox _)]
  waitOf := waitOf_congr e.tasks
  received t slot i hi := e.tasks ▸ hi
  handles := Nat.le_of_eq (by rw [e.handles])
  named name h hh := .inl (e.named ▸ hh)

theorem Signals.mailbox (e : Signals w w') (s : SessionId) : w'.mailbox s = w.mailbox s := by
  unfold World.mailbox World.session
  rw [e.sessions]

theorem Signals.unwaiting (e : Signals w w') : Unwaiting w w' where
  shape i := by rw [waitRecord_congr (e.mailbox _)]
  waitOf := waitOf_congr e.tasks
  received t slot i hi := e.tasks ▸ hi
  handles := Nat.le_of_eq e.handles.symm
  named name h hh := .inl (e.names ▸ hh)

theorem unwaiting_withTasks (w : World) {tasks : Array Task} (ready : List TaskId)
    (current : Option TaskId) (ht : ∀ t : TaskId, tasks[t]?.bind Task.wait? = w.waitOf? t)
    (hr : ∀ (t : TaskId) slot i, tasks[t]? = some (.awaiting slot i) →
      w.tasks[t]? = some (.awaiting slot i)) : Unwaiting w { w with tasks, ready, current } where
  shape _ := rfl
  waitOf := ht
  received := hr
  handles := Nat.le_refl _
  named _ _ := .inl

theorem unwaiting_suspend (w : World) : Unwaiting w w.suspend :=
  unwaiting_withTasks w w.ready none (fun _ => rfl) fun _ _ _ => id

theorem unwaiting_yieldTask (w : World) (t : TaskId) : Unwaiting w (w.yieldTask t) :=
  unwaiting_withTasks w _ none (fun _ => rfl) fun _ _ _ => id

theorem getElem?_setTask {w : World} (t u : TaskId) (task : Task) :
    (w.setTask t task).tasks[u]? =
      if u = t ∧ t < w.tasks.size then some task else w.tasks[u]? := by
  unfold setTask
  simp only [Array.set!_eq_setIfInBounds, Array.getElem?_setIfInBounds]
  by_cases hu : u = t
  · subst hu
    by_cases ht : u < w.tasks.size
    · simp [ht]
    · simp [ht]
  · rw [if_neg (Ne.symm hu), if_neg fun h => hu h.1]

theorem getElem?_setLoop {w : World} {t : TaskId} (ht : t < w.tasks.size) (l : Loop) :
    (w.setLoop t l).tasks[t]? = some (.loop l) := (getElem?_setTask t t _).trans (if_pos ⟨rfl, ht⟩)

theorem size_setLoop (w : World) (t : TaskId) (l : Loop) :
    (w.setLoop t l).tasks.size = w.tasks.size := Array.size_setIfInBounds

theorem waitOf_setTask {w : World} {t : TaskId} {old : Task} (h : w.tasks[t]? = some old)
    (task : Task) (u : TaskId) :
    (w.setTask t task).waitOf? u = if u = t then task.wait? else w.waitOf? u := by
  obtain ⟨hlt, -⟩ := Array.getElem?_eq_some_iff.1 h
  unfold waitOf?
  rw [getElem?_setTask]
  by_cases hu : u = t
  · rw [if_pos ⟨hu, hlt⟩, if_pos hu]
    rfl
  · rw [if_neg fun h => hu h.1, if_neg hu]

theorem waitOf_eq {t : TaskId} {task : Task} (h : w.tasks[t]? = some task) :
    w.waitOf? t = task.wait? := by
  unfold waitOf?
  rw [h]
  rfl

theorem unwaiting_setTask {w : World} {t : TaskId} {old task : Task} (h : w.tasks[t]? = some old)
    (hw : task.wait? = old.wait?) (ha : ∀ slot i, task ≠ .awaiting slot i) :
    Unwaiting w (w.setTask t task) := by
  refine unwaiting_withTasks w _ _ (fun u => ?_) fun u slot i hu => ?_
  · refine (waitOf_setTask h task u).trans ?_
    split
    · rename_i hu
      rw [hw, hu, waitOf_eq h]
    · rfl
  · change (w.setTask t task).tasks[u]? = _ at hu
    rw [getElem?_setTask] at hu
    split at hu
    · exact absurd (Option.some.inj hu) (ha slot i)
    · exact hu

theorem unwaiting_spawnTask (w : World) {task : Task} (hw : task.wait? = none) :
    Unwaiting w (w.spawnTask task) := by
  have ha : ∀ slot i, task ≠ .awaiting slot i := by
    rintro slot i rfl
    cases hw
  refine unwaiting_withTasks w _ _ (fun u => ?_) fun u slot i hu => ?_
  · unfold waitOf?
    rw [Array.getElem?_push]
    split
    · rename_i hu
      rw [hu, Array.getElem?_eq_none (Nat.le_refl _)]
      exact hw
    · rfl
  · rw [Array.getElem?_push] at hu
    split at hu
    · exact absurd (Option.some.inj hu) (ha slot i)
    · exact hu

theorem unwaiting_setLoop {t : TaskId} {l l' : Loop} (h : Drives w t l)
    (hb : (Task.loop l').wait? = none) : Unwaiting w (w.setLoop t l') :=
  unwaiting_setTask h.task (hb.trans h.awake.symm) fun _ _ => by simp

theorem wait_of_isBusy {l : Loop} (h : l.point.isBusy = true) : (Task.loop l).wait? = none := by
  unfold Task.wait?
  cases hp : l.point <;> simp_all [Point.isBusy]

theorem unwaiting_endLoop {t : TaskId} {l : Loop} (h : Drives w t l) (o : Outcome) :
    Unwaiting w (w.endLoop t l o) := by
  have hs : Unwaiting w (w.setLoop t { l with point := .ended o }).suspend :=
    (unwaiting_setLoop h rfl).trans (unwaiting_suspend _)
  unfold endLoop
  dsimp only
  split
  · exact hs.trans (signals_childFinished _ _).unwaiting
  · exact hs

/-! ## Mail -/

theorem mailbox_setMailbox (w : World) (s s' : SessionId) (mb : Mailbox) :
    (w.setMailbox s mb).mailbox s' =
      if s' = s ∧ s < w.sessions.size then mb else w.mailbox s' := by
  unfold mailbox setMailbox
  rw [session_modifySession]
  by_cases hs : s = s'
  · subst hs
    by_cases hlt : s < w.sessions.size
    · simp [hlt]
    · simp [hlt]
  · rw [if_neg fun h => hs h.1, if_neg fun h => hs h.1.symm]

theorem waitRecord_setMailbox (w : World) (s : SessionId) (mb : Mailbox) (i : WaitId) :
    (w.setMailbox s mb).waitRecord? i =
      if i.session = s ∧ s < w.sessions.size then mb.waits[i.index]? else w.waitRecord? i := by
  unfold waitRecord?
  rw [mailbox_setMailbox]
  split <;> rfl

theorem unwaiting_setMailbox (w : World) {s : SessionId} {mb : Mailbox}
    (h : ∀ j : Nat, mb.waits[j]?.map Wait.shape = (w.mailbox s).waits[j]?.map Wait.shape) :
    Unwaiting w (w.setMailbox s mb) where
  shape i := by
    rw [waitRecord_setMailbox]
    split
    · rename_i hi
      rw [h, ← hi.1]
      rfl
    · rfl
  waitOf _ := rfl
  received _ _ _ := id
  handles := Nat.le_refl _
  named _ _ := .inl

theorem shape_accepts {mb mb' : Mailbox} {m : Letter} {back : Bool} {i : Option Nat}
    (h : mb.Accepts m back i mb') (j : Nat) :
    mb'.waits[j]?.map Wait.shape = mb.waits[j]?.map Wait.shape := by
  cases h with
  | handed hx hc _ _ hw =>
    rw [hw, Mailbox.getElem?_modify_channel]
    split
    · rename_i hij
      rw [← hij, hx]
      simp only [Option.map_some, Wait.shape, hc]
      rfl
    · rfl
  | queued _ hw => rw [hw]

theorem signals_wakeServed (w : World) (s : SessionId) (served : Option Nat) :
    Signals w (w.wakeServed s served) := by
  unfold wakeServed
  split
  · exact signals_wakeSleeper w _
  · exact .refl w

theorem unwaiting_record (w : World) (e : Event) : Unwaiting w (w.record e) where
  shape _ := rfl
  waitOf _ := rfl
  received _ _ _ := id
  handles := Nat.le_refl _
  named _ _ := .inl

theorem unwaiting_deliver (w : World) (s : SessionId) (m : Letter) :
    Unwaiting w (w.deliver s m).2 := by
  have ha := (w.mailbox s).deliver_accepts m
  unfold deliver
  generalize (w.mailbox s).deliver m = r at ha
  exact ((unwaiting_setMailbox w (shape_accepts ha)).trans
    (signals_wakeServed _ s r.1).unwaiting).trans (unwaiting_record _ _)

theorem unwaiting_requeue (w : World) (s : SessionId) (m : Letter) :
    Unwaiting w (w.requeue s m) := by
  have ha := (w.mailbox s).requeue_accepts m
  unfold requeue
  generalize (w.mailbox s).requeue m = r at ha
  exact (unwaiting_setMailbox w (shape_accepts ha)).trans (signals_wakeServed _ s r.1).unwaiting

/-! ## Entering and leaving a wait -/

structure Enters (w w' : World) (t : TaskId) (i : WaitId) : Prop where
  free : w.waitOf? t = none
  waitOf : ∀ u, w'.waitOf? u = if u = t then some i else w.waitOf? u
  fresh : w.waitRecord? i = none
  record : ∃ x, w'.waitRecord? i = some x ∧ x.handle = w.handles.size ∧ x.channel ≠ .closed
  others : ∀ j, j ≠ i → w'.waitRecord? j = w.waitRecord? j
  received : ∀ (t : TaskId) slot i,
    w'.tasks[t]? = some (.awaiting slot i) → w.tasks[t]? = some (.awaiting slot i)
  handles : w'.handles.size = w.handles.size + 1
  named : w'.names.handles = w.names.handles

namespace Enters

variable {t : TaskId} {i : WaitId}

theorem record_cases (e : Enters w w' t i) {j : WaitId} {x : Wait}
    (hx : w'.waitRecord? j = some x) :
    j = i ∧ x.handle = w.handles.size ∨ j ≠ i ∧ w.waitRecord? j = some x := by
  by_cases hj : j = i
  · subst hj
    obtain ⟨z, hz, hzh, -⟩ := e.record
    rw [hz] at hx
    cases hx
    exact .inl ⟨rfl, hzh⟩
  · exact .inr ⟨hj, e.others j hj ▸ hx⟩

theorem ne_of_waitOf (e : Enters w w' t i) (h : Linked w) {u : TaskId} {j : WaitId}
    (hu : w.waitOf? u = some j) : j ≠ i := by
  rintro rfl
  obtain ⟨x, hx, -⟩ := h.opened u j hu
  rw [e.fresh] at hx
  cases hx

theorem handle_lt (e : Enters w w' t i) {k : HandleId} (hk : k < w.handles.size) :
    k < w'.handles.size := by
  rw [e.handles]
  exact Nat.lt_succ_of_lt hk

end Enters

theorem Linked.enters (h : Linked w) {t : TaskId} {i : WaitId} (e : Enters w w' t i) :
    Linked w' where
  opened u j hu := by
    rw [e.waitOf] at hu
    split at hu
    · cases hu
      obtain ⟨z, hz, -, hzc⟩ := e.record
      exact ⟨z, hz, hzc⟩
    · rw [e.others j (e.ne_of_waitOf h hu)]
      exact h.opened u j hu
  awaited j x hx hc := by
    rcases e.record_cases hx with ⟨rfl, -⟩ | ⟨hj, hx⟩
    · exact ⟨t, by rw [e.waitOf, if_pos rfl]⟩
    · obtain ⟨u, hu⟩ := h.awaited j x hx hc
      refine ⟨u, ?_⟩
      rw [e.waitOf, if_neg, hu]
      rintro rfl
      rw [e.free] at hu
      cases hu
  alone u v j hu hv := by
    rw [e.waitOf] at hu hv
    split at hu
    · cases hu
      split at hv
      · rename_i hut hvt
        exact hut.trans hvt.symm
      · exact absurd rfl (e.ne_of_waitOf h hv)
    · split at hv
      · cases hv
        exact absurd rfl (e.ne_of_waitOf h hu)
      · exact h.alone u v j hu hv
  received u slot j hu := h.received u slot j (e.received u slot j hu)
  handled j x hx := by
    rcases e.record_cases hx with ⟨-, hxh⟩ | ⟨-, hx⟩
    · rw [e.handles, hxh]
      exact Nat.lt_succ_self _
    · exact e.handle_lt (h.handled j x hx)
  -- the handle of the new wait is larger than all others
  apart j k x y hx hy hh := by
    rcases e.record_cases hx with ⟨rfl, hxh⟩ | ⟨-, hx⟩
    · rcases e.record_cases hy with ⟨rfl, -⟩ | ⟨-, hy⟩
      · rfl
      · have hb := h.handled k y hy
        rw [← hh, hxh] at hb
        exact absurd hb (Nat.lt_irrefl _)
    · rcases e.record_cases hy with ⟨-, hyh⟩ | ⟨-, hy⟩
      · have hb := h.handled j x hx
        rw [hh, hyh] at hb
        exact absurd hb (Nat.lt_irrefl _)
      · exact h.apart j k x y hx hy hh
  named name k hk := by
    rw [e.named] at hk
    obtain ⟨hk', hkn⟩ := h.named name k hk
    refine ⟨e.handle_lt hk', fun j x hx => ?_⟩
    rcases e.record_cases hx with ⟨-, hxh⟩ | ⟨-, hx⟩
    · rw [hxh]
      exact (Nat.ne_of_lt hk').symm
    · exact hkn j x hx

structure Closes (w w' : World) (i : WaitId) : Prop where
  record : ∀ x, w'.waitRecord? i = some x →
    x.channel = .closed ∧ ∃ y, w.waitRecord? i = some y ∧ y.handle = x.handle
  others : ∀ j, j ≠ i → (w'.waitRecord? j).map Wait.shape = (w.waitRecord? j).map Wait.shape
  handles : w'.handles.size = w.handles.size
  named : w'.names.handles = w.names.handles

structure Leaves (w w' : World) (t : TaskId) (i : WaitId) : Prop extends Closes w w' i where
  inside : w.waitOf? t = some i
  waitOf : ∀ u, w'.waitOf? u = if u = t then none else w.waitOf? u
  received : ∀ (t : TaskId) slot i,
    w'.tasks[t]? = some (.awaiting slot i) → w.tasks[t]? = some (.awaiting slot i)

theorem Linked.leaves (h : Linked w) {t : TaskId} {i : WaitId} (e : Leaves w w' t i) :
    Linked w' := by
  -- no wait is new, and handles stay with their waits
  have hold : ∀ {j : WaitId} {x : Wait}, w'.waitRecord? j = some x →
      ∃ y, w.waitRecord? j = some y ∧ y.handle = x.handle := by
    intro j x hx
    by_cases hj : j = i
    · subst hj
      exact (e.record x hx).2
    · have hs := e.others j hj
      rw [hx] at hs
      obtain ⟨y, hy, he⟩ := Option.map_eq_some_iff.1 hs.symm
      exact ⟨y, hy, (shape_eq he).1⟩
  refine ⟨fun u j hu => ?_, fun j x hx hc => ?_, fun u v j hu hv => ?_,
    fun u slot j hu => h.received u slot j (e.received u slot j hu), fun j x hx => ?_,
    fun j k x y hx hy hh => ?_, fun name k hk => ?_⟩
  · rw [e.waitOf] at hu
    split at hu
    · cases hu
    · rename_i hut
      have hj : j ≠ i := by
        rintro rfl
        exact hut (h.alone u t j hu e.inside)
      obtain ⟨y, hy, hc⟩ := h.opened u j hu
      have hs := e.others j hj
      rw [hy] at hs
      obtain ⟨x, hx, he⟩ := Option.map_eq_some_iff.1 hs
      exact ⟨x, hx, fun hxc => hc ((shape_eq he).2.2.1 hxc)⟩
  · by_cases hj : j = i
    · subst hj
      exact absurd (e.record x hx).1 hc
    · have hs := e.others j hj
      rw [hx] at hs
      obtain ⟨y, hy, he⟩ := Option.map_eq_some_iff.1 hs.symm
      obtain ⟨u, hu⟩ := h.awaited j y hy fun hyc => hc ((shape_eq he).2.2.1 hyc)
      refine ⟨u, ?_⟩
      rw [e.waitOf, if_neg, hu]
      rintro rfl
      rw [e.inside] at hu
      exact hj (Option.some.inj hu).symm
  · rw [e.waitOf] at hu hv
    split at hu
    · cases hu
    · split at hv
      · cases hv
      · exact h.alone u v j hu hv
  · obtain ⟨y, hy, he⟩ := hold hx
    rw [e.handles, ← he]
    exact h.handled j y hy
  · obtain ⟨x', hx', hhx⟩ := hold hx
    obtain ⟨y', hy', hhy⟩ := hold hy
    exact h.apart j k x' y' hx' hy' (hhx.trans (hh.trans hhy.symm))
  · rw [e.named] at hk
    obtain ⟨hlt, hkn⟩ := h.named name k hk
    refine ⟨e.handles ▸ hlt, fun j x hx => ?_⟩
    obtain ⟨y, hy, he⟩ := hold hx
    exact he ▸ hkn j y hy

/-! ## Receiving -/

theorem wait_ext {i j : WaitId} (hs : i.session = j.session) (hx : i.index = j.index) : i = j := by
  cases i
  cases j
  cases hs
  cases hx
  rfl

theorem session_of_record {i : WaitId} {x : Wait} (h : w.waitRecord? i = some x) :
    i.session < w.sessions.size := by
  refine Nat.lt_of_not_le fun hle => ?_
  have hs : w.session i.session = default := by
    simp [session, Array.getD_eq_getD_getElem?, hle]
  unfold waitRecord? mailbox at h
  rw [hs] at h
  cases h

theorem request_eq (w : World) (s : SessionId) (ops : List String) :
    w.request s ops = (⟨s, (w.mailbox s).waits.size⟩,
      { w with handles := w.handles.push {} }.setMailbox s
        ((w.mailbox s).request ops w.handles.size).2) := by
  obtain ⟨hi, -⟩ := (w.mailbox s).request_grants ops w.handles.size
  rw [← hi]
  rfl

theorem grants_waits {mb mb' : Mailbox} {ops : List String} {h : HandleId}
    (g : mb.Grants ops h mb') :
    ∃ ch, mb'.waits = mb.waits.push ⟨h, ch, ops⟩ ∧ ch ≠ .closed := by
  cases g with
  | held _ _ _ hw => exact ⟨_, hw, by simp⟩
  | entered hc _ _ hw =>
    refine ⟨_, hw, ?_⟩
    rw [hc]
    split <;> simp

theorem request_record {s : SessionId} (hs : s < w.sessions.size) (ops : List String) :
    ∃ x, (w.request s ops).2.waitRecord? (w.request s ops).1 = some x ∧
      x.handle = w.handles.size ∧ x.channel ≠ .closed ∧ x.operations = ops := by
  obtain ⟨ch, hw, hc⟩ := grants_waits ((w.mailbox s).request_grants ops w.handles.size).2
  rw [request_eq]
  refine ⟨⟨w.handles.size, ch, ops⟩, ?_, rfl, hc, rfl⟩
  dsimp only
  rw [waitRecord_setMailbox, if_pos ⟨rfl, hs⟩, hw, Array.getElem?_push_size]

theorem beginReceive_ok {c : ContextId} {ops : List String} {i : WaitId}
    (hs : (w.context c).session < w.sessions.size) (h : w.beginReceive c ops = .ok (i, w')) :
    (w.context c).interruption? = none ∧ i = (w.request (w.context c).session ops).1 ∧
      w' = (w.request (w.context c).session ops).2.cancelIfKilled c w.handles.size := by
  obtain ⟨x, hx, hh, -⟩ := request_record hs ops
  unfold beginReceive at h
  split at h
  · cases h
  · rename_i hn
    have hw : (w.request (w.context c).session ops).2.waitHandle?
        (w.request (w.context c).session ops).1 = some w.handles.size := by
      unfold waitHandle?
      rw [hx, ← hh]
      rfl
    generalize w.request (w.context c).session ops = r at hw h
    obtain ⟨j, v⟩ := r
    dsimp only at hw h
    rw [hw] at h
    cases h
    exact ⟨hn, rfl, rfl⟩

theorem enters_receive {t : TaskId} {old task : Task} {c : ContextId} {ops : List String}
    {i : WaitId} (hs : (w.context c).session < w.sessions.size) (ht : w.tasks[t]? = some old)
    (ho : old.wait? = none) (hb : w.beginReceive c ops = .ok (i, w')) (hi : task.wait? = some i)
    (ha : ∀ slot j, task ≠ .awaiting slot j) : Enters w (w'.setTask t task) t i := by
  obtain ⟨-, rfl, rfl⟩ := beginReceive_ok hs hb
  have hp := posts_request w (w.context c).session ops
  have hsig := signals_cancelIfKilled (w.request (w.context c).session ops).2 c w.handles.size
  obtain ⟨x, hx, hh, hc, -⟩ := request_record hs ops
  have htasks := hsig.tasks.trans hp.tasks
  generalize (w.request (w.context c).session ops).2.cancelIfKilled c w.handles.size = v
    at hsig htasks ⊢
  refine ⟨(waitOf_eq ht).trans ho, fun u => ?_, ?_, ⟨x, ?_, hh, hc⟩, fun j hj => ?_,
    fun u slot j hu => ?_, ?_, ?_⟩
  · rw [waitOf_setTask (htasks ▸ ht), hi, waitOf_congr htasks]
  · rw [request_eq]
    exact Array.getElem?_eq_none (Nat.le_refl _)
  · exact (waitRecord_congr (hsig.mailbox _)).trans hx
  · refine (waitRecord_congr (hsig.mailbox _)).trans ?_
    rw [request_eq] at hj ⊢
    dsimp only at hj ⊢
    rw [waitRecord_setMailbox]
    split
    · rename_i hjs
      obtain ⟨ch, hw, -⟩ := grants_waits
        ((w.mailbox (w.context c).session).request_grants ops w.handles.size).2
      have hne : j.index ≠ (w.mailbox (w.context c).session).waits.size := by
        intro he
        exact hj (wait_ext hjs.1 he)
      rw [hw, Array.getElem?_push, if_neg hne, ← hjs.1]
      rfl
    · rfl
  · rw [getElem?_setTask] at hu
    split at hu
    · exact absurd (Option.some.inj hu) (ha slot j)
    · exact htasks ▸ hu
  · refine hsig.handles.trans ?_
    rw [request_eq]
    exact Array.size_push _
  · rw [show (World.setTask _ t task).names.handles = _ from congrArg Names.handles hsig.names,
      request_eq]
    rfl

/-! ## The end of a receipt -/

theorem Closes.unwaiting {i : WaitId} (h : Closes w w' i) (u : Unwaiting w' w'')
    (hh : w''.handles.size = w'.handles.size) (hn : w''.names.handles = w'.names.handles) :
    Closes w w'' i where
  record x hx := by
    obtain ⟨y, hy, he, hc⟩ := u.record hx
    obtain ⟨hyc, z, hz, hzy⟩ := h.record y hy
    exact ⟨hc.1 hyc, z, hz, hzy.trans he⟩
  others j hj := (u.shape j).trans (h.others j hj)
  handles := hh.trans h.handles
  named := hn.trans h.named

theorem Closes.recorded {i : WaitId} (h : Closes w w' i) (e : Event) : Closes w (w'.record e) i :=
  h.unwaiting (unwaiting_record w' e) rfl rfl

theorem record_closeWait {i : WaitId} {x : Wait} (hx : w.waitRecord? i = some x) (j : WaitId) :
    (w.closeWait i).2.waitRecord? j =
      if j = i then some { x with channel := .closed } else w.waitRecord? j := by
  have hs := session_of_record hx
  have hj : (w.closeWait i).2.waitRecord? j =
      (w.setMailbox i.session ((w.mailbox i.session).close i.index).2).waitRecord? j := by
    unfold closeWait
    dsimp only
    split <;> rfl
  rw [hj, waitRecord_setMailbox]
  change (if _ then ((w.mailbox i.session).waits.modify i.index fun x =>
    { x with channel := .closed })[j.index]? else _) = _
  rw [Mailbox.getElem?_modify_channel]
  by_cases he : j = i
  · subst he
    rw [if_pos ⟨rfl, hs⟩, if_pos rfl, if_pos rfl]
    change (w.waitRecord? j).map _ = _
    rw [hx]
    rfl
  · rw [if_neg he]
    split
    · rename_i hjs
      rw [if_neg, ← hjs.1]
      · rfl
      · intro hidx
        exact he (wait_ext hjs.1 hidx.symm)
    · rfl

theorem closes_closeWait {i : WaitId} {x : Wait} (hx : w.waitRecord? i = some x) :
    Closes w (w.closeWait i).2 i := by
  refine ⟨fun y hy => ?_, fun j hj => ?_, ?_, ?_⟩
  · rw [record_closeWait hx, if_pos rfl] at hy
    cases hy
    exact ⟨rfl, x, hx, rfl⟩
  · rw [record_closeWait hx, if_neg hj]
  · unfold closeWait
    dsimp only
    split
    · simp [finishHandle, Handles.finish, setMailbox, modifySession]
    · rfl
  · unfold closeWait
    dsimp only
    split <;> rfl

theorem requeue_handles (w : World) (s : SessionId) (m : Letter) :
    (w.requeue s m).handles.size = w.handles.size ∧ (w.requeue s m).names = w.names := by
  have hsig := signals_wakeServed (w.setMailbox s ((w.mailbox s).requeue m).2) s
    ((w.mailbox s).requeue m).1
  exact ⟨hsig.handles, hsig.names⟩

theorem closes_endReceive {i : WaitId} {x : Wait} (hx : w.waitRecord? i = some x) (c : ContextId)
    (r : Except (Option Letter) Letter) : Closes w (w.endReceive c i r).1 i := by
  have hc := closes_closeWait hx
  unfold endReceive
  generalize (w.closeWait i).2 = v at hc
  split
  · exact hc.recorded _
  · dsimp only
    split
    · rename_i m
      obtain ⟨hh, hn⟩ := requeue_handles v i.session m
      have hv : Closes w (v.requeue i.session m) i :=
        hc.unwaiting (unwaiting_requeue v i.session m) hh (congrArg Names.handles hn)
      exact hv.recorded _
    · exact hc.recorded _

/-! ## Runs -/

theorem unwaiting_dropHandle (w : World) (name : String) : Unwaiting w (w.dropHandle name) := by
  unfold dropHandle
  split
  · refine ⟨fun _ => rfl, fun _ => rfl, fun _ _ _ => id, ?_, fun n h hh => .inl ?_⟩
    · simp [finishHandle, Handles.finish]
    · dsimp only at hh
      rw [Table.get?_erase] at hh
      split at hh
      · cases hh
      · exact hh
  · exact (Signals.refl w).unwaiting

theorem unwaiting_nameNewHandle (w : World) (name : String) :
    Unwaiting w (w.nameNewHandle name) := by
  refine (unwaiting_dropHandle w name).trans
    ⟨fun _ => rfl, fun _ => rfl, fun _ _ _ => id, ?_, fun n h hh => ?_⟩
  · simp [nameNewHandle, newHandle]
  · simp only [nameNewHandle, newHandle, Table.get?_insert] at hh
    split at hh
    · cases hh
      exact .inr ⟨Nat.le_refl _, by simp [nameNewHandle, newHandle]⟩
    · exact .inl hh

theorem unwaiting_addContext (w : World) (x : Context) : Unwaiting w (w.addContext x).2 where
  shape _ := rfl
  waitOf _ := rfl
  received _ _ _ := id
  handles := Nat.le_refl _
  named _ _ := .inl

theorem mailbox_openSession (w : World) (id : String) (s : SessionId) :
    (w.openSession id).2.mailbox s = w.mailbox s := by
  unfold openSession
  split
  · rfl
  · unfold mailbox session
    simp only [Array.getD_eq_getD_getElem?, Array.getElem?_push]
    split
    · rename_i hs
      rw [hs, Array.getElem?_eq_none (Nat.le_refl _)]
      rfl
    · rfl

theorem openSession_eq (w : World) (id : String) :
    ∃ sessions, (w.openSession id).2 = { w with sessions } := by
  unfold openSession
  split
  · exact ⟨w.sessions, rfl⟩
  · exact ⟨_, rfl⟩

theorem unwaiting_openSession (w : World) (id : String) : Unwaiting w (w.openSession id).2 := by
  have hbox := mailbox_openSession w id
  obtain ⟨ss, hw⟩ := openSession_eq w id
  rw [hw] at hbox ⊢
  exact ⟨fun i => by rw [waitRecord_congr (hbox _)], fun _ => rfl, fun _ _ _ h => h, Nat.le_refl _,
    fun _ _ => .inl⟩

theorem Call.unwaiting (k : Call False w w') : Unwaiting w w' := by
  cases k with
  | edit e => exact e.edits.unwaiting
  | kill c f => exact (signals_kill w c f).unwaiting
  | clearKill c => exact (signals_clearKill w c).unwaiting
  | root label session scope budget k =>
    have hl := edits_list ((w.openSession session).2.addContext
      { label := (w.openSession session).2.freshLabel label, session := (w.openSession session).1,
        sliceBudget := budget, scopes := [{ id := scope }], pending := k.toList }).2
      (c := (w.openSession session).2.contexts.size) (by simp [addContext])
    exact ((unwaiting_openSession w session).trans (unwaiting_addContext _ _)).trans hl.unwaiting
  | child p label k => exact unwaiting_addContext w _
  | start c =>
    unfold World.start
    dsimp only
    split
    · rename_i p _
      have hs := signals_addChild w p
      exact hs.unwaiting.trans (unwaiting_spawnTask _ rfl)
    · exact unwaiting_spawnTask w rfl
  | drive c budget => exact unwaiting_spawnTask w rfl
  | newHandle name => exact unwaiting_nameNewHandle w name
  | dropHandle name => exact unwaiting_dropHandle w name
  | register c h => exact (signals_cancelIfKilled w c h).unwaiting
  | cancel h => exact (signals_cancelHandle w h).unwaiting
  | deliver c op v =>
    have hn : Unwaiting w (w.newLetter op v).2 :=
      ⟨fun _ => rfl, fun _ => rfl, fun _ _ _ => id, Nat.le_refl _, fun _ _ => .inl⟩
    exact hn.trans (unwaiting_deliver _ _ _)
  | receiver c tag ops => exact unwaiting_spawnTask w rfl
  | requeue c op v hr => exact hr.elim
  | request c slot ops hr => exact hr.elim
  | dropWait slot i hr => exact hr.elim
  | await slot i hr => exact hr.elim

theorem Linked.empty : Linked {} where
  opened t i ht := by cases ht
  awaited i x hx := by cases hx
  alone t u i ht := by cases ht
  received t slot i ht := by cases ht
  handled i x hx := by cases hx
  apart i j x y hx := by cases hx
  named name h hh := by cases hh

theorem leaves_resume {t : TaskId} {old : Task} {i : WaitId} (h : Linked w)
    (ht : w.tasks[t]? = some old) (ho : old.wait? = some i) (task : Task) (hn : task.wait? = none)
    (c : ContextId) (r : Except (Option Letter) Letter) :
    Leaves w ((w.setTask t task).endReceive c i r).1 t i := by
  have hw : w.waitOf? t = some i := (waitOf_eq ht).trans ho
  obtain ⟨x, hx, -⟩ := h.opened t i hw
  have hc : Closes (w.setTask t task) ((w.setTask t task).endReceive c i r).1 i :=
    closes_endReceive (w := w.setTask t task) hx c r
  have hp := posts_endReceive (w.setTask t task) c i r
  refine ⟨⟨hc.record, hc.others, hc.handles, hc.named⟩, hw, fun u => ?_, fun u slot j hu => ?_⟩
  · rw [waitOf_congr hp.tasks, waitOf_setTask ht, hn]
  · rw [hp.tasks, getElem?_setTask] at hu
    split at hu
    · cases hu
      cases hn
    · exact hu

theorem leaves_endReceipt {t : TaskId} {old : Task} {i : WaitId} (h : Linked w)
    (ht : w.tasks[t]? = some old) (ho : old.wait? = some i) (c : ContextId)
    (r : Except (Option Letter) Letter) (e : Event) :
    Leaves w ((((w.endReceive c i r).1.record e).setTask t .done).suspend) t i := by
  have hw : w.waitOf? t = some i := (waitOf_eq ht).trans ho
  obtain ⟨x, hx, -⟩ := h.opened t i hw
  have hc := (closes_endReceive hx c r).recorded e
  have htasks : ((w.endReceive c i r).1.record e).tasks = w.tasks := (posts_endReceive w c i r).tasks
  generalize (w.endReceive c i r).1.record e = v at hc htasks
  have ht' : v.tasks[t]? = some old := htasks ▸ ht
  refine ⟨⟨hc.record, hc.others, hc.handles, hc.named⟩, hw, fun u => ?_, fun u slot j hu => ?_⟩
  · refine (waitOf_setTask ht' .done u).trans ?_
    rw [waitOf_congr htasks]
    rfl
  · change (v.setTask t .done).tasks[u]? = _ at hu
    rw [getElem?_setTask] at hu
    split at hu
    · cases hu
    · exact htasks ▸ hu

theorem Effect.waits (h : Linked w) (hp : Placed w) (e : Effect w w') :
    Unwaiting w w' ∨ (∃ t i, Enters w w' t i) ∨ ∃ t i, Leaves w w' t i := by
  cases e with
  | work e => exact .inl e.edits.unwaiting
  | takeEscalated c => exact .inl (signals_takeEscalated w c).unwaiting
  | takePermit c => exact .inl (signals_takePermit w c).unwaiting
  | runState c s => exact .inl (signals_setRunState w c s).unwaiting
  | kill c f => exact .inl (signals_kill w c f).unwaiting
  | escalate c f => exact .inl (signals_escalate w c f).unwaiting
  | pick t => exact .inl (unwaiting_withTasks w _ _ (fun _ => rfl) fun _ _ _ => id)
  | goto hd _ hb => exact .inl (unwaiting_setLoop hd (wait_of_isBusy hb))
  | @yield t l l' hd _ hb =>
    exact .inl ((unwaiting_setLoop hd (wait_of_isBusy hb)).trans (unwaiting_yieldTask _ t))
  | @park t l hd =>
    have hs := signals_idle w l.context t
    have hl : Unwaiting (w.modifyContext l.context fun x => { x with idle := x.idle ++ [t] })
        ((w.modifyContext l.context fun x => { x with idle := x.idle ++ [t] }).setLoop t
          { l with point := .idle }) := unwaiting_setLoop (hd.steady hs.steady) rfl
    exact .inl ((hs.unwaiting.trans hl).trans (unwaiting_suspend _))
  | finish o hd => exact .inl (unwaiting_endLoop hd o)
  | halt => exact .inl (unwaiting_suspend w)
  | receive rest' receipt ops hr hb =>
    have hs := hp.sessions _ (hp.loop hr.2.1)
    exact .inr (.inl ⟨_, _, enters_receive hs hr.2.1 hr.drives.awake hb rfl (by simp)⟩)
  | @resume t l frame rest i receipt r rest' _ ht hpt =>
    have ho : (Task.loop l).wait? = some i := by simp [Task.wait?, hpt]
    exact .inr (.inr ⟨t, i, leaves_resume h ht ho _ rfl l.context r⟩)
  | @sleep t task i hc ht =>
    refine .inl ?_
    unfold sleepOn
    split
    · exact ⟨fun _ => rfl, fun _ => rfl, fun _ _ _ => id, by simp, fun _ _ => .inl⟩
    · exact unwaiting_suspend w
  | @beginReceipt t c tag ops i v hc ht hb =>
    have hs := hp.sessions _ (hp.tasks t _ c ht rfl)
    exact .inr (.inl ⟨t, i, enters_receive hs ht rfl hb rfl (by simp)⟩)
  | @refuse t c tag ops hc ht =>
    have hd : Unwaiting w (w.setTask t .done) := unwaiting_setTask ht rfl (by simp)
    exact .inl (hd.trans (unwaiting_suspend _))
  | endReceipt hc ht => exact .inr (.inr ⟨_, _, leaves_endReceipt h ht rfl _ _ _⟩)
  | endAwait hc ht => exact absurd ht (h.received _ _ _)

theorem Linked.effect (h : Linked w) (hp : Placed w) (e : Effect w w') : Linked w' := by
  rcases e.waits h hp with hu | ⟨t, i, he⟩ | ⟨t, i, hl⟩
  · exact h.unwaiting hu
  · exact h.enters he
  · exact h.leaves hl

theorem Reachable.linked (h : Reachable False admits w) : Linked w :=
  h.invariant .empty (fun _ hl _ _ k => hl.unwaiting k.unwaiting) fun hp hl e => hl.effect hp e

end World

end SagaEngine
