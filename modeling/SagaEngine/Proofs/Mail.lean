import SagaEngine.Proofs.Effects

/-! Where the letters of a mailbox are. A delivery puts a letter in one place, a request moves it,
and only closing the wait that holds it takes it out. -/

namespace SagaEngine

section Counting

variable {α : Type} {p : α → Bool}

theorem countP_modify (f : α → α) {l : List α} {i : Nat} {a : α} (h : l[i]? = some a) :
    (l.modify i f).countP p + (if p a then 1 else 0) = l.countP p + if p (f a) then 1 else 0 := by
  induction l generalizing i with
  | nil => cases h
  | cons b l ih =>
    cases i with
    | zero =>
      obtain rfl : b = a := Option.some.inj h
      simp only [List.modify_zero_cons, List.countP_cons]
      omega
    | succ i =>
      simp only [List.modify_succ_cons, List.countP_cons]
      have := ih h
      omega

theorem exists_index_of_countP {l : List α} (h : 0 < l.countP p) :
    ∃ (i : Nat) (a : α), l[i]? = some a ∧ p a = true := by
  obtain ⟨a, ha, hp⟩ := List.countP_pos_iff.1 h
  obtain ⟨i, hi⟩ := List.mem_iff_getElem?.1 ha
  exact ⟨i, a, hi, hp⟩

theorem countP_pos_of_index {l : List α} {i : Nat} {a : α} (h : l[i]? = some a) (hp : p a = true) :
    0 < l.countP p := List.countP_pos_iff.2 ⟨a, List.mem_of_getElem? h, hp⟩

theorem index_unique_of_countP {l : List α} (h : l.countP p ≤ 1) {i j : Nat} {a b : α}
    (hi : l[i]? = some a) (ha : p a = true) (hj : l[j]? = some b) (hb : p b = true) : i = j := by
  induction l generalizing i j with
  | nil => cases hi
  | cons c l ih =>
    rw [List.countP_cons] at h
    cases i with
    | zero =>
      obtain rfl : c = a := Option.some.inj hi
      cases j with
      | zero => rfl
      | succ j =>
        have := countP_pos_of_index (l := l) hj hb
        rw [if_pos ha] at h
        omega
    | succ i =>
      cases j with
      | zero =>
        obtain rfl : c = b := Option.some.inj hj
        have := countP_pos_of_index (l := l) hi ha
        rw [if_pos hb] at h
        omega
      | succ j => exact congrArg Nat.succ (ih (by omega) hi hj)

end Counting

theorem head_of_dropWhile {α : Type} {p : α → Bool} {a : α} {l rest : List α}
    (h : l.dropWhile p = a :: rest) : p a = false := by
  have hd := List.head_dropWhile_not p (l := l) (by simp [h])
  simpa only [h, List.head_cons] using hd

theorem mem_dropWhile {α : Type} {p : α → Bool} {a : α} {l : List α} (h : a ∈ l)
    (hp : p a = false) : a ∈ l.dropWhile p := by
  induction l with
  | nil => cases h
  | cons b l ih =>
    rw [List.dropWhile_cons]
    split
    · rename_i hb
      rcases List.mem_cons.1 h with rfl | h
      · rw [hp] at hb
        cases hb
      · exact ih h
    · exact h

namespace Table

variable {α : Type}

theorem mem_insert {t : Table α} {k : String} {a : α} {e : String × α} (h : e ∈ t.insert k a) :
    e = (k, a) ∨ e ∈ t := by
  induction t with
  | nil => exact .inl (List.mem_singleton.1 h)
  | cons b t ih =>
    obtain ⟨j, b⟩ := b
    unfold insert at h
    split at h
    · rcases List.mem_cons.1 h with h | h
      · exact .inl h
      · exact .inr (.tail _ h)
    · split at h
      · exact (List.mem_cons.1 h)
      · rcases List.mem_cons.1 h with h | h
        · exact .inr (h ▸ .head _)
        · exact (ih h).imp_right (.tail _)

theorem mem_erase {t : Table α} {k : String} {e : String × α} (h : e ∈ t.erase k) : e ∈ t := by
  induction t with
  | nil => exact h
  | cons b t ih =>
    obtain ⟨j, b⟩ := b
    unfold erase at h
    split at h
    · exact .tail _ (ih h)
    · rcases List.mem_cons.1 h with h | h
      · exact h ▸ .head _
      · exact .tail _ (ih h)

theorem mem_of_get? {t : Table α} {k : String} {a : α} (h : t.get? k = some a) : (k, a) ∈ t := by
  induction t with
  | nil => cases h
  | cons b t ih =>
    obtain ⟨j, b⟩ := b
    unfold get? at h
    split at h
    · rename_i hj
      rw [← hj, ← Option.some.inj h]
      exact .head _
    · exact .tail _ (ih h)

end Table

namespace Mailbox

variable {mb mb' : Mailbox} {m : Letter}

def Lists (mb : Mailbox) (op : String) (i : Nat) : Prop := ∃ ws, (op, ws) ∈ mb.waiters ∧ i ∈ ws

theorem Lists.setWaiters {op op' : String} {ws : List Nat} {i : Nat}
    (h : (mb.setWaiters op ws).Lists op' i) : mb.Lists op' i ∨ op' = op ∧ i ∈ ws := by
  obtain ⟨ws', he, hi⟩ := h
  unfold Mailbox.setWaiters at he
  dsimp only at he
  split at he
  · exact .inl ⟨ws', Table.mem_erase he, hi⟩
  · rcases Table.mem_insert he with he | he
    · cases he
      exact .inr ⟨rfl, hi⟩
    · exact .inl ⟨ws', he, hi⟩

theorem Lists.prune {op : String} {i : Nat} (h : mb.prune.Lists op i) : mb.Lists op i := by
  obtain ⟨ws, he, hi⟩ := h
  obtain ⟨⟨op', ws'⟩, he', hx⟩ := List.mem_filterMap.1 he
  dsimp only at hx
  split at hx
  · cases hx
  · cases hx
    exact ⟨ws', he', (List.mem_filter.1 hi).1⟩

theorem isLive_iff {i : Nat} :
    mb.isLive i = true ↔ ∃ x, mb.waits[i]? = some x ∧ x.channel = .awaiting := by
  unfold isLive
  cases mb.waits[i]? with
  | none => simp
  | some x => simp

/-- A letter that comes in is handed to a live wait on its operation, or joins the queue. -/
inductive Accepts (mb : Mailbox) (m : Letter) (back : Bool) : Option Nat → Mailbox → Prop where
  | handed {i : Nat} {x : Wait} {mb' : Mailbox} :
      mb.waits[i]? = some x → x.channel = .awaiting → mb.Lists m.operation i →
      mb'.queues = mb.queues →
      mb'.waits = mb.waits.modify i (fun x => { x with channel := .holding m }) →
      (∀ op j, mb'.Lists op j → mb.Lists op j) → Accepts mb m back (some i) mb'
  | queued {mb' : Mailbox} :
      mb'.queues = mb.queues.insert m.operation
        (if back then mb.queue m.operation ++ [m] else m :: mb.queue m.operation) →
      mb'.waits = mb.waits →
      (∀ op j, mb'.Lists op j → mb.Lists op j) → Accepts mb m back none mb'

theorem claim_spec (mb : Mailbox) (op : String) :
    (mb.claim op).2.queues = mb.queues ∧ (mb.claim op).2.waits = mb.waits ∧
      (∀ op' j, (mb.claim op).2.Lists op' j → mb.Lists op' j) ∧
      ∀ i, (mb.claim op).1 = some i → mb.isLive i = true ∧ mb.Lists op i := by
  unfold claim
  cases hw : mb.waiters.get? op with
  | none => exact ⟨rfl, rfl, fun _ _ h => h, fun i h => by cases h⟩
  | some ws =>
    have hmem := Table.mem_of_get? hw
    have hsub := List.dropWhile_sublist (l := ws) fun w => !mb.isLive w
    dsimp only
    split
    · refine ⟨rfl, rfl, fun op' j h => ?_, fun i h => by cases h⟩
      exact h.setWaiters.elim id fun h => absurd h.2 (List.not_mem_nil)
    · rename_i i rest hd
      rw [hd] at hsub
      refine ⟨rfl, rfl, fun op' j h => ?_, fun j h => ?_⟩
      · rcases h.setWaiters with h | ⟨rfl, hj⟩
        · exact h
        · exact ⟨ws, hmem, hsub.subset (.tail _ hj)⟩
      · obtain rfl : i = j := Option.some.inj h
        exact ⟨by simpa using head_of_dropWhile hd, ws, hmem, hsub.subset (.head _)⟩

theorem hand_cases (mb : Mailbox) (m : Letter) :
    (∃ i mb', mb.hand m = (some i, mb') ∧ ∀ back, mb.Accepts m back (some i) mb') ∨
      ∃ mb', mb.hand m = (none, mb') ∧ mb'.queues = mb.queues ∧ mb'.waits = mb.waits ∧
        ∀ op j, mb'.Lists op j → mb.Lists op j := by
  obtain ⟨hq, hw, hl, hc⟩ := claim_spec mb m.operation
  unfold hand
  generalize mb.claim m.operation = r at hq hw hl hc
  obtain ⟨_ | i, mb'⟩ := r
  · exact .inr ⟨mb', rfl, hq, hw, hl⟩
  · obtain ⟨hlive, hi⟩ := hc i rfl
    obtain ⟨x, hx, hch⟩ := isLive_iff.1 hlive
    have hm := congrArg (fun xs => xs.modify i fun x => { x with channel := .holding m }) hw
    exact .inl ⟨i, _, rfl, fun back => .handed hx hch hi hq hm hl⟩

theorem queue_congr (h : mb'.queues = mb.queues) (op : String) : mb'.queue op = mb.queue op := by
  unfold queue
  rw [h]

theorem deliver_accepts (mb : Mailbox) (m : Letter) :
    mb.Accepts m true (mb.deliver m).1 (mb.deliver m).2 := by
  unfold deliver
  rcases hand_cases mb m with ⟨i, mb', he, ha⟩ | ⟨mb', he, hq, hw, hl⟩
  · rw [he]
    exact ha true
  · rw [he]
    refine .queued ?_ hw hl
    change mb'.queues.insert m.operation (mb'.queue m.operation ++ [m]) = _
    rw [hq, queue_congr hq]
    rfl

theorem requeue_accepts (mb : Mailbox) (m : Letter) :
    mb.Accepts m false (mb.requeue m).1 (mb.requeue m).2 := by
  unfold requeue
  rcases hand_cases mb m with ⟨i, mb', he, ha⟩ | ⟨mb', he, hq, hw, hl⟩
  · rw [he]
    exact ha false
  · rw [he]
    refine .queued ?_ hw hl
    change mb'.queues.insert m.operation (m :: mb'.queue m.operation) = _
    rw [hq, queue_congr hq]
    rfl

def first? (mb : Mailbox) (ops : List String) : Option (String × Letter) :=
  ops.findSome? fun op => (mb.queue op).head?.map (op, ·)

theorem takeFirst_eq (mb : Mailbox) (ops : List String) :
    mb.takeFirst ops =
      (mb.first? ops).map fun p => (p.2, mb.setQueue p.1 (mb.queue p.1).tail) := by
  induction ops with
  | nil => rfl
  | cons op ops ih =>
    unfold takeFirst first?
    rw [List.findSome?_cons]
    cases hq : mb.queue op with
    | nil => exact ih
    | cons m rest => simp [hq]

theorem first?_some {ops : List String} {op : String} (h : mb.first? ops = some (op, m)) :
    op ∈ ops ∧ ∃ rest, mb.queue op = m :: rest := by
  obtain ⟨op', hop, he⟩ := List.exists_of_findSome?_eq_some h
  obtain ⟨m', hm, he⟩ := Option.map_eq_some_iff.1 he
  cases he
  exact ⟨hop, List.head?_eq_some_iff.1 hm⟩

/-- A request holds the head of the first queue that is not empty, or is entered and waits. -/
inductive Grants (mb : Mailbox) (ops : List String) (h : HandleId) : Mailbox → Prop where
  | held {op : String} {m : Letter} {rest : List Letter} {mb' : Mailbox} :
      mb.first? ops = some (op, m) → mb.queue op = m :: rest →
      mb'.queues = mb.queues.insert op rest → mb'.waits = mb.waits.push ⟨h, .holding m, ops⟩ →
      (∀ op j, mb'.Lists op j → mb.Lists op j) → Grants mb ops h mb'
  | entered {channel : Channel} {mb' : Mailbox} :
      channel = (if ops.isEmpty then .abandoned else .awaiting) → mb.first? ops = none →
      mb'.queues = mb.queues → mb'.waits = mb.waits.push ⟨h, channel, ops⟩ →
      (∀ op j, mb'.Lists op j → mb.Lists op j ∨ op ∈ ops ∧ j = mb.waits.size) →
      Grants mb ops h mb'

theorem enterAll_spec (ops : List String) (mb : Mailbox) (i : Nat) :
    (ops.foldl (fun mb op => mb.enter i op) mb).queues = mb.queues ∧
      (ops.foldl (fun mb op => mb.enter i op) mb).waits = mb.waits ∧
      ∀ op j, (ops.foldl (fun mb op => mb.enter i op) mb).Lists op j →
        mb.Lists op j ∨ op ∈ ops ∧ j = i := by
  induction ops generalizing mb with
  | nil => exact ⟨rfl, rfl, fun _ _ => .inl⟩
  | cons op ops ih =>
    obtain ⟨hq, hw, hl⟩ := ih (mb.enter i op)
    refine ⟨hq, hw, fun op' j h => ?_⟩
    rcases hl op' j h with ⟨ws, he, hj⟩ | ⟨hop, hj⟩
    · rcases Table.mem_insert he with he | he
      · cases he
        rcases List.mem_append.1 hj with hj | hj
        · cases hg : mb.waiters.get? op with
          | none =>
            rw [hg] at hj
            cases hj
          | some ws =>
            rw [hg] at hj
            exact .inl ⟨ws, Table.mem_of_get? hg, hj⟩
        · exact .inr ⟨.head _, List.mem_singleton.1 hj⟩
      · exact .inl ⟨ws, he, hj⟩
    · exact .inr ⟨.tail _ hop, hj⟩

theorem request_found {ops : List String} {op : String} (hf : mb.first? ops = some (op, m))
    (h : HandleId) :
    mb.request ops h = (mb.waits.size, { mb.prune.setQueue op (mb.queue op).tail with
      waits := mb.waits.push ⟨h, .holding m, ops⟩ }) := by
  have hp : mb.prune.first? ops = some (op, m) := hf
  unfold request
  dsimp only
  rw [takeFirst_eq, hp]
  rfl

theorem request_missed {ops : List String} (hf : mb.first? ops = none) (h : HandleId) :
    mb.request ops h = (mb.waits.size,
      ops.foldl (fun mb' op => mb'.enter mb.waits.size op) { mb.prune with
        waits := mb.waits.push ⟨h, if ops.isEmpty then .abandoned else .awaiting, ops⟩ }) := by
  have hp : mb.prune.first? ops = none := hf
  unfold request
  dsimp only
  rw [takeFirst_eq, hp]
  rfl

theorem request_grants (mb : Mailbox) (ops : List String) (h : HandleId) :
    (mb.request ops h).1 = mb.waits.size ∧ mb.Grants ops h (mb.request ops h).2 := by
  cases hf : mb.first? ops with
  | none =>
    rw [request_missed hf]
    obtain ⟨hq, hw, hl⟩ := enterAll_spec ops { mb.prune with
      waits := mb.waits.push ⟨h, if ops.isEmpty then .abandoned else .awaiting, ops⟩ } mb.waits.size
    exact ⟨rfl, .entered rfl hf hq hw fun op j hj => (hl op j hj).imp_left Lists.prune⟩
  | some p =>
    obtain ⟨op, m⟩ := p
    obtain ⟨-, rest, hq⟩ := first?_some hf
    rw [request_found hf, hq]
    exact ⟨rfl, .held hf hq rfl rfl fun _ _ => Lists.prune⟩

/-! ## Copies of a letter -/

structure Labelled (mb : Mailbox) : Prop where
  queued : ∀ op, ∀ m ∈ mb.queue op, m.operation = op
  held : ∀ (i : Nat) (x : Wait) (m : Letter),
    mb.waits[i]? = some x → x.channel = .holding m → m.operation ∈ x.operations
  listed : ∀ op i, mb.Lists op i → ∃ x, mb.waits[i]? = some x ∧ op ∈ x.operations

def copies (mb : Mailbox) (m : Letter) : Nat :=
  (mb.queue m.operation).count m + mb.waits.toList.countP fun x => x.channel == .holding m

theorem queue_insert {op : String} {q : List Letter} (h : mb'.queues = mb.queues.insert op q)
    (op' : String) : mb'.queue op' = if op = op' then q else mb.queue op' := by
  unfold queue
  rw [h, Table.get?_insert]
  split <;> rfl

theorem getElem?_modify_channel {xs : Array Wait} (i j : Nat) (ch : Channel) :
    (xs.modify i fun x => { x with channel := ch })[j]? =
      if i = j then xs[j]?.map fun x => { x with channel := ch } else xs[j]? := by
  simp [Array.getElem?_modify]

theorem Labelled.empty : Labelled {} where
  queued op m hm := by simp [queue] at hm
  held i x m hx := by simp at hx
  listed op i h := by
    obtain ⟨ws, he, -⟩ := h
    cases he

theorem Labelled.modify {i : Nat} {ch : Channel} (h : Labelled mb)
    (hq : mb'.queues = mb.queues)
    (hw : mb'.waits = mb.waits.modify i fun x => { x with channel := ch })
    (hl : ∀ op j, mb'.Lists op j → mb.Lists op j)
    (hc : ∀ m x, ch = .holding m → mb.waits[i]? = some x → m.operation ∈ x.operations) :
    Labelled mb' where
  queued op m hm := h.queued op m (queue_congr hq op ▸ hm)
  held j x m hx hm := by
    rw [hw, getElem?_modify_channel] at hx
    split at hx
    · rename_i hij
      subst hij
      obtain ⟨y, hy, rfl⟩ := Option.map_eq_some_iff.1 hx
      exact hc m y hm hy
    · exact h.held j x m hx hm
  listed op j hj := by
    obtain ⟨x, hx, hop⟩ := h.listed op j (hl op j hj)
    rw [hw, getElem?_modify_channel, hx]
    split
    · exact ⟨_, rfl, hop⟩
    · exact ⟨x, rfl, hop⟩

theorem Accepts.labelled {back : Bool} {i : Option Nat} (h : Labelled mb)
    (a : mb.Accepts m back i mb') : Labelled mb' := by
  cases a with
  | handed hx _ hi hq hw hl =>
    refine h.modify hq hw hl fun m' y hm hy => ?_
    cases hm
    obtain ⟨z, hz, hop⟩ := h.listed _ _ hi
    rw [hz] at hy
    cases hy
    exact hop
  | queued hq hw hl =>
    refine ⟨fun op m' hm => ?_, fun j x m' hx => h.held j x m' (hw ▸ hx), fun op j hj => ?_⟩
    · rw [queue_insert hq] at hm
      split at hm
      · rename_i hop
        have hm' : m' = m ∨ m' ∈ mb.queue m.operation := by
          cases back with
          | true => simpa [or_comm] using hm
          | false => simpa using hm
        rcases hm' with rfl | hm'
        · exact hop
        · exact hop ▸ h.queued _ m' hm'
      · exact h.queued op m' hm
    · rw [hw]
      exact h.listed op j (hl op j hj)

theorem Grants.labelled {ops : List String} {hd : HandleId} (h : Labelled mb)
    (g : mb.Grants ops hd mb') : Labelled mb' := by
  have hpush : ∀ {y : Wait} {op : String} {j : Nat}, mb'.waits = mb.waits.push y →
      mb.Lists op j → ∃ x, mb'.waits[j]? = some x ∧ op ∈ x.operations := by
    intro y op j hw hj
    obtain ⟨x, hx, hop⟩ := h.listed op j hj
    refine ⟨x, ?_, hop⟩
    obtain ⟨hlt, -⟩ := Array.getElem?_eq_some_iff.1 hx
    rw [hw, Array.getElem?_push, if_neg (Nat.ne_of_lt hlt), hx]
  cases g with
  | @held op m rest _ hf hm hq hw hl =>
    have hown := h.queued op
    rw [hm] at hown
    obtain ⟨hop, -⟩ := first?_some hf
    refine ⟨fun op' m' hm' => ?_, fun j x m' hx hc => ?_, fun op' j hj => hpush hw (hl op' j hj)⟩
    · rw [queue_insert hq] at hm'
      split at hm'
      · rename_i he
        exact he ▸ hown m' (.tail _ hm')
      · exact h.queued op' m' hm'
    · rw [hw, Array.getElem?_push] at hx
      split at hx
      · cases hx
        cases hc
        exact hown m (.head _) ▸ hop
      · exact h.held j x m' hx hc
  | entered hch _ hq hw hl =>
    refine ⟨fun op' m' hm' => h.queued op' m' (queue_congr hq op' ▸ hm'), fun j x m' hx hc => ?_,
      fun op' j hj => ?_⟩
    · rw [hw, Array.getElem?_push] at hx
      split at hx
      · cases hx
        dsimp only at hc
        rw [hch] at hc
        split at hc <;> cases hc
      · exact h.held j x m' hx hc
    · rcases hl op' j hj with hj | ⟨hop, rfl⟩
      · exact hpush hw hj
      · rw [hw, Array.getElem?_push_size]
        exact ⟨_, rfl, hop⟩

theorem Labelled.close (h : Labelled mb) (i : Nat) : Labelled (mb.close i).2 :=
  h.modify rfl rfl (fun _ _ => id) fun _ _ hm => by cases hm

theorem Accepts.copies {back : Bool} {i : Option Nat} (a : mb.Accepts m back i mb') (m' : Letter) :
    mb'.copies m' = mb.copies m' + if m' = m then 1 else 0 := by
  unfold Mailbox.copies
  cases a with
  | @handed i x _ hx hch hi hq hw hl =>
    have hc := countP_modify (p := fun x : Wait => x.channel == .holding m')
      (fun x => { x with channel := .holding m }) (l := mb.waits.toList) (i := i) (a := x)
      (by simpa using hx)
    rw [queue_congr hq, hw, Array.toList_modify]
    simp only [hch, beq_iff_eq, Channel.holding.injEq, reduceCtorEq, if_false] at hc
    simp only [eq_comm (a := m')]
    omega
  | queued hq hw hl =>
    rw [hw, queue_insert hq]
    by_cases hop : m.operation = m'.operation
    · rw [if_pos hop, ← hop]
      have hc : (if back then mb.queue m.operation ++ [m] else m :: mb.queue m.operation).count m' =
          (mb.queue m.operation).count m' + if m' = m then 1 else 0 := by
        simp only [eq_comm (a := m')]
        cases back with
        | true => simp [List.count_append, List.count_singleton]
        | false => simp [List.count_cons]
      rw [hc]
      omega
    · rw [if_neg hop, if_neg fun h : m' = m => hop (h ▸ rfl)]
      rfl

theorem Grants.copies {ops : List String} {hd : HandleId} (h : Labelled mb)
    (g : mb.Grants ops hd mb') (m' : Letter) : mb'.copies m' = mb.copies m' := by
  unfold Mailbox.copies
  cases g with
  | @held op m rest _ _ hm hq hw hl =>
    have hown : m.operation = op := h.queued op m (hm ▸ .head _)
    rw [hw, queue_insert hq, Array.toList_push, List.countP_append]
    simp only [List.countP_singleton, beq_iff_eq, Channel.holding.injEq]
    by_cases ho : op = m'.operation
    · rw [if_pos ho, ← ho, hm, List.count_cons]
      simp only [beq_iff_eq]
      omega
    · have hne : m ≠ m' := fun he => ho (by rw [← he, hown])
      rw [if_neg ho, if_neg hne]
      rfl
  | entered hch _ hq hw hl =>
    rw [hw, queue_congr hq, Array.toList_push, List.countP_append]
    simp only [List.countP_singleton, beq_iff_eq, hch]
    split <;> simp_all

theorem copies_close {i : Nat} {x : Wait} (hx : mb.waits[i]? = some x) (m' : Letter) :
    (mb.close i).2.copies m' + (if x.channel = .holding m' then 1 else 0) = mb.copies m' := by
  have hc := countP_modify (p := fun x : Wait => x.channel == .holding m')
    (fun x => { x with channel := .closed }) (l := mb.waits.toList) (i := i) (a := x)
    (by simpa using hx)
  simp only [beq_iff_eq, reduceCtorEq, if_false] at hc
  unfold Mailbox.copies Mailbox.close setChannel
  simp only [Array.toList_modify, queue] at hc ⊢
  omega

end Mailbox

end SagaEngine
