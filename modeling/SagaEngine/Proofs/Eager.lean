import Mathlib.Data.List.Induction
import Mathlib.Logic.Function.Basic
import SagaEngine.Proofs.Entries

/-! A mailbox that keeps no entries. It has a queue for each operation and a list of the waits that
are outstanding, which a wait leaves as soon as it is served or goes away. A mailbox that prunes its
entries late does the same, call by call. -/

namespace SagaEngine

def Channel.isOutstanding : Channel → Bool
  | .awaiting | .abandoned => true
  | .holding _ | .closed => false

namespace Mailbox

inductive Call where
  | deliver (m : Letter)
  | requeue (m : Letter)
  | request (ops : List String) (handle : HandleId)
  | close (i : Nat)
deriving DecidableEq

structure Reply where
  answer : Option Bool := none
  resolved : Option (Nat × Letter) := none
deriving DecidableEq

def letter? (mb : Mailbox) (i : Nat) : Option Letter :=
  match mb.waits[i]? with
  | some ⟨_, .holding m, _⟩ => some m
  | _ => none

def act (mb : Mailbox) : Call → Reply × Mailbox
  | .deliver m => (⟨some (mb.deliver m).1.isSome, (mb.deliver m).1.map (·, m)⟩, (mb.deliver m).2)
  | .requeue m => (⟨none, (mb.requeue m).1.map (·, m)⟩, (mb.requeue m).2)
  | .request ops h =>
    let (i, mb) := mb.request ops h
    (⟨none, (mb.letter? i).map (i, ·)⟩, mb)
  | .close i => ({}, (mb.close i).2)

/-! ## The eager mailbox -/

/-- `waits` are the outstanding waits in the order of request, each with what it asked for. -/
@[ext] structure Eager where
  queues : String → List Letter := fun _ => []
  waits : List (Nat × List String) := []
  requests : Nat := 0

namespace Eager

def oldest? (e : Eager) (op : String) : Option Nat :=
  (e.waits.find? fun x => x.2.contains op).map Prod.fst

def leave (e : Eager) (i : Nat) : Eager := { e with waits := e.waits.filter fun x => x.1 != i }

def setQueue (e : Eager) (op : String) (q : List Letter) : Eager :=
  { e with queues := Function.update e.queues op q }

def accept (e : Eager) (m : Letter) (queue : List Letter) : Option Nat × Eager :=
  match e.oldest? m.operation with
  | some i => (some i, e.leave i)
  | none => (none, e.setQueue m.operation queue)

def first? (e : Eager) (ops : List String) : Option (String × Letter) :=
  ops.findSome? fun op => (e.queues op).head?.map (op, ·)

def request (e : Eager) (ops : List String) : Option Letter × Eager :=
  match e.first? ops with
  | some (op, m) =>
    (some m, { e.setQueue op (e.queues op).tail with requests := e.requests + 1 })
  | none =>
    (none, { e with waits := e.waits ++ [(e.requests, ops)], requests := e.requests + 1 })

def act (e : Eager) : Call → Reply × Eager
  | .deliver m =>
    let (i, e) := e.accept m (e.queues m.operation ++ [m])
    (⟨some i.isSome, i.map (·, m)⟩, e)
  | .requeue m =>
    let (i, e) := e.accept m (m :: e.queues m.operation)
    (⟨none, i.map (·, m)⟩, e)
  | .request ops _ => (⟨none, (e.request ops).1.map (e.requests, ·)⟩, (e.request ops).2)
  | .close i => ({}, e.leave i)

end Eager

/-! ## The mailbox seen as an eager one -/

variable {mb mb' : Mailbox} {m : Letter}

def outstanding? (mb : Mailbox) (i : Nat) : Option (Nat × List String) :=
  (mb.waits[i]?.filter fun x => x.channel.isOutstanding).map fun x => (i, x.operations)

def eager (mb : Mailbox) : Eager where
  queues := mb.queue
  waits := (List.range mb.waits.size).filterMap mb.outstanding?
  requests := mb.waits.size

theorem outstanding_some {i : Nat} {p : Nat × List String} (h : mb.outstanding? i = some p) :
    p.1 = i ∧ ∃ x, mb.waits[i]? = some x ∧ x.channel.isOutstanding = true ∧ x.operations = p.2 := by
  obtain ⟨x, hx, rfl⟩ := Option.map_eq_some_iff.1 h
  obtain ⟨hx, ho⟩ := Option.filter_eq_some_iff.1 hx
  exact ⟨rfl, x, hx, ho, rfl⟩

theorem mem_eager_waits {i : Nat} {ops : List String} :
    (i, ops) ∈ mb.eager.waits ↔
      ∃ x, mb.waits[i]? = some x ∧ x.channel.isOutstanding = true ∧ x.operations = ops := by
  constructor
  · intro h
    obtain ⟨j, -, hj⟩ := List.mem_filterMap.1 h
    obtain ⟨rfl, hx⟩ := outstanding_some hj
    exact hx
  · rintro ⟨x, hx, ho, rfl⟩
    obtain ⟨hlt, -⟩ := Array.getElem?_eq_some_iff.1 hx
    refine List.mem_filterMap.2 ⟨i, List.mem_range.2 hlt, ?_⟩
    rw [outstanding?, hx, Option.filter_some, if_pos ho]
    rfl

theorem eager_ordered (mb : Mailbox) : mb.eager.waits.Pairwise fun p q => p.1 < q.1 := by
  refine List.Pairwise.filterMap _ (fun i j hij p hp q hq => ?_) List.pairwise_lt_range
  rw [(outstanding_some hp).1, (outstanding_some hq).1]
  exact hij

theorem outstanding_filter (mb : Mailbox) (i j : Nat) :
    (mb.outstanding? j).filter (fun p => p.1 != i) = if i = j then none else mb.outstanding? j := by
  cases hj : mb.outstanding? j with
  | none => simp
  | some p =>
    rw [Option.filter_some, (outstanding_some hj).1]
    by_cases hij : i = j
    · simp [hij]
    · simp [hij, Ne.symm hij]

theorem eager_modify {i : Nat} {ch : Channel}
    (hw : mb'.waits = mb.waits.modify i fun x => { x with channel := ch })
    (hch : ch.isOutstanding = false) :
    mb'.eager.waits = (mb.eager.leave i).waits ∧ mb'.eager.requests = mb.eager.requests := by
  have hsize : mb'.waits.size = mb.waits.size := by rw [hw, Array.size_modify]
  refine ⟨?_, hsize⟩
  unfold eager Eager.leave
  dsimp only
  rw [hsize, List.filter_filterMap]
  refine List.filterMap_congr fun j _ => ?_
  rw [outstanding_filter]
  unfold outstanding?
  rw [hw, getElem?_modify_channel]
  split
  · cases mb.waits[j]? with
    | none => rfl
    | some x => simp [Option.filter_some, hch]
  · rfl

theorem eager_push {x : Wait} (hw : mb'.waits = mb.waits.push x) :
    mb'.eager.waits = mb.eager.waits ++
        (if x.channel.isOutstanding then [(mb.waits.size, x.operations)] else []) ∧
      mb'.eager.requests = mb.eager.requests + 1 := by
  have hsize : mb'.waits.size = mb.waits.size + 1 := by rw [hw, Array.size_push]
  refine ⟨?_, hsize⟩
  unfold eager
  dsimp only
  rw [hsize, List.range_succ, List.filterMap_append]
  congr 1
  · refine List.filterMap_congr fun j hj => ?_
    unfold outstanding?
    rw [hw, Array.getElem?_push, if_neg (Nat.ne_of_lt (List.mem_range.1 hj))]
  · have hlast : mb'.outstanding? mb.waits.size =
        if x.channel.isOutstanding then some (mb.waits.size, x.operations) else none := by
      unfold outstanding?
      rw [hw, Array.getElem?_push_size, Option.filter_some]
      split <;> rfl
    rw [List.filterMap_cons, hlast]
    cases x.channel.isOutstanding with
    | false => rfl
    | true => rfl

theorem least_find? {β : Type} {l : List (Nat × β)} (h : l.Pairwise fun a b => a.1 < b.1)
    (p : Nat × β → Bool) :
    Least (fun i => ∃ b, (i, b) ∈ l ∧ p (i, b) = true) ((l.find? p).map Prod.fst) := by
  cases hf : l.find? p with
  | none =>
    rintro i ⟨b, hb, hp⟩
    exact List.find?_eq_none.1 hf (i, b) hb hp
  | some a =>
    obtain ⟨ha, before, after, rfl, hnot⟩ := List.find?_eq_some_iff_append.1 hf
    refine ⟨⟨a.2, List.mem_append_right _ (.head _), ha⟩, ?_⟩
    rintro j ⟨b, hb, hp⟩
    rcases List.mem_append.1 hb with hb | hb
    · have hno := hnot _ hb
      rw [hp] at hno
      cases hno
    · rcases List.mem_cons.1 hb with rfl | hb
      · exact Nat.le_refl _
      · have hafter := (List.pairwise_append.1 h).2.1
        exact Nat.le_of_lt ((List.pairwise_cons.1 hafter).1 _ hb)

theorem Entered.awaits_iff (h : Entered mb) {op : String} {i : Nat} :
    mb.Awaits op i ↔ ∃ ops, (i, ops) ∈ mb.eager.waits ∧ ops.contains op = true := by
  constructor
  · rintro ⟨x, hx, hc, hop⟩
    have hout : x.channel.isOutstanding = true := by rw [hc]; rfl
    exact ⟨_, mem_eager_waits.2 ⟨x, hx, hout, rfl⟩, List.contains_iff_mem.2 hop⟩
  · rintro ⟨ops, hi, hop⟩
    obtain ⟨x, hx, hout, rfl⟩ := mem_eager_waits.1 hi
    have hmem := List.contains_iff_mem.1 hop
    refine ⟨x, hx, ?_, hmem⟩
    cases hc : x.channel with
    | awaiting => rfl
    | abandoned =>
      -- such a wait asked for nothing
      rw [h.abandoned i x hx hc] at hmem
      cases hmem
    | _ =>
      rw [hc] at hout
      cases hout

theorem Entered.oldest_least (h : Entered mb) (op : String) :
    Least (mb.Awaits op) (mb.eager.oldest? op) := by
  have hleast := least_find? mb.eager_ordered fun x => x.2.contains op
  have hiff : mb.Awaits op = fun i => ∃ ops, (i, ops) ∈ mb.eager.waits ∧ ops.contains op = true :=
    funext fun i => propext h.awaits_iff
  rw [hiff]
  exact hleast

theorem update_queue {op : String} {q : List Letter} (h : mb'.queues = mb.queues.insert op q) :
    mb'.queue = Function.update mb.queue op q := by
  funext op'
  rw [queue_insert h, Function.update_apply]
  simp only [eq_comm]

theorem Accepts.eager {back : Bool} {served : Option Nat} (h : Entered mb)
    (a : mb.Accepts m back served mb') (hs : served = (mb.claim m.operation).1) :
    mb.eager.accept m (if back then mb.queue m.operation ++ [m] else m :: mb.queue m.operation) =
      (served, mb'.eager) := by
  have ho : mb.eager.oldest? m.operation = served :=
    (h.oldest_least m.operation).unique (hs ▸ h.claim_least m.operation)
  unfold Eager.accept
  rw [ho]
  cases a with
  | handed _ _ _ hq hw _ =>
    obtain ⟨hwaits, hrequests⟩ := eager_modify hw rfl
    have hqueues : mb.queue = mb'.queue := funext fun op => (queue_congr hq op).symm
    exact congrArg (Prod.mk _) (Eager.ext hqueues hwaits.symm hrequests.symm)
  | queued hq hw _ =>
    have hwaits : mb'.eager.waits = mb.eager.waits := by
      unfold Mailbox.eager outstanding?
      rw [hw]
    have hsize : mb'.waits.size = mb.waits.size := by rw [hw]
    exact congrArg (Prod.mk _) (Eager.ext (update_queue hq).symm hwaits.symm hsize.symm)

theorem Grants.eager {ops : List String} {hd : HandleId} (g : mb.Grants ops hd mb') :
    mb.eager.request ops = (mb'.letter? mb.waits.size, mb'.eager) := by
  have hf : mb.eager.first? ops = mb.first? ops := rfl
  unfold Eager.request
  rw [hf]
  cases g with
  | @held op m rest _ hfirst hm hq hw _ =>
    have hl : mb'.letter? mb.waits.size = some m := by
      rw [letter?, hw, Array.getElem?_push_size]
    have ht : (mb.eager.queues op).tail = rest := congrArg List.tail hm
    obtain ⟨hwaits, hrequests⟩ := eager_push hw
    simp only [Channel.isOutstanding, Bool.false_eq_true, if_false, List.append_nil] at hwaits
    rw [hfirst, hl]
    dsimp only
    rw [ht]
    exact congrArg (Prod.mk _) (Eager.ext (update_queue hq).symm hwaits.symm hrequests.symm)
  | entered hc hfirst hq hw _ =>
    have hl : mb'.letter? mb.waits.size = none := by
      rw [letter?, hw, Array.getElem?_push_size, hc]
      cases ops <;> rfl
    have ho : (if ops.isEmpty then Channel.abandoned else .awaiting).isOutstanding = true := by
      cases ops <;> rfl
    obtain ⟨hwaits, hrequests⟩ := eager_push hw
    rw [hc, if_pos ho] at hwaits
    have hqueues : mb.queue = mb'.queue := funext fun op => (queue_congr hq op).symm
    rw [hfirst, hl]
    exact congrArg (Prod.mk _) (Eager.ext hqueues hwaits.symm hrequests.symm)

theorem Entered.act_eager (h : Entered mb) (c : Call) :
    mb.eager.act c = ((mb.act c).1, (mb.act c).2.eager) := by
  cases c with
  | deliver m =>
    have ha := (deliver_accepts mb m).eager h (deliver_claim mb m).1
    exact congrArg (fun r : Option Nat × Eager =>
      (Reply.mk (some r.1.isSome) (r.1.map (·, m)), r.2)) ha
  | requeue m =>
    have ha := (requeue_accepts mb m).eager h (requeue_claim mb m).1
    exact congrArg (fun r : Option Nat × Eager => (Reply.mk none (r.1.map (·, m)), r.2)) ha
  | request ops hd =>
    obtain ⟨hi, hg⟩ := request_grants mb ops hd
    simp only [Eager.act, Mailbox.act, hg.eager, hi]
    rfl
  | close i =>
    obtain ⟨hwaits, hrequests⟩ := @eager_modify mb (mb.close i).2 i .closed rfl rfl
    exact congrArg (Prod.mk _) (Eager.ext rfl hwaits.symm hrequests.symm)

theorem Entered.act (h : Entered mb) (c : Call) : Entered (mb.act c).2 := by
  cases c with
  | deliver m => exact h.deliver m
  | requeue m => exact h.requeue m
  | request ops hd => exact h.request ops hd
  | close i => exact h.close i

/-! ## Runs -/

def run {σ : Type} (act : σ → Call → Reply × σ) (s : σ) (calls : List Call) : List Reply × σ :=
  calls.foldl (fun r c => (r.1 ++ [(act r.2 c).1], (act r.2 c).2)) ([], s)

theorem run_append {σ : Type} (act : σ → Call → Reply × σ) (s : σ) (calls : List Call) (c : Call) :
    run act s (calls ++ [c]) = ((run act s calls).1 ++ [(act (run act s calls).2 c).1],
      (act (run act s calls).2 c).2) := by
  unfold run
  rw [List.foldl_append]
  rfl

def resolved (replies : List Reply) : List (Nat × Letter) := replies.filterMap Reply.resolved

theorem resolved_append (replies : List Reply) (r : Reply) :
    resolved (replies ++ [r]) = resolved replies ++ r.resolved.toList := by
  unfold resolved
  rw [List.filterMap_append, List.filterMap_cons]
  cases r.resolved <;> rfl

theorem run_entered (calls : List Call) : Entered (run act {} calls).2 := by
  induction calls using List.reverseRecOn with
  | nil => exact .empty
  | append_singleton calls c ih =>
    rw [run_append]
    exact ih.act c

theorem run_eager (calls : List Call) :
    run Eager.act {} calls = ((run act {} calls).1, (run act {} calls).2.eager) := by
  induction calls using List.reverseRecOn with
  | nil => rfl
  | append_singleton calls c ih =>
    rw [run_append, run_append, ih, (run_entered calls).act_eager]

structure Faithful (calls : List Call) (sent : List (Nat × Letter)) (mb : Mailbox) : Prop where
  once : (sent.map Prod.fst).Nodup
  given : ∀ p ∈ sent, ∃ x, mb.waits[p.1]? = some x ∧ p.2.operation ∈ x.operations ∧
    (x.channel = .holding p.2 ∨ x.channel = .closed)
  held : ∀ (i : Nat) (x : Wait) (m : Letter), mb.waits[i]? = some x → x.channel = .holding m →
    (i, m) ∈ sent
  closed : ∀ (i : Nat) (x : Wait), mb.waits[i]? = some x → x.channel = .closed →
    .close i ∈ calls

section Faithful

variable {calls : List Call} {sent : List (Nat × Letter)} {i : Nat} {x : Wait}

theorem Faithful.later (h : Faithful calls sent mb) (c : Call) :
    Faithful (calls ++ [c]) sent mb where
  once := h.once
  given := h.given
  held := h.held
  closed i x hx hc := List.mem_append_left _ (h.closed i x hx hc)

theorem Faithful.congr (h : Faithful calls sent mb)
    (hw : ∀ j : Nat, mb'.waits[j]? = mb.waits[j]?) : Faithful calls sent mb' where
  once := h.once
  given p hp := hw p.1 ▸ h.given p hp
  held i x m hx := h.held i x m (hw i ▸ hx)
  closed i x hx := h.closed i x (hw i ▸ hx)

theorem Faithful.fresh (h : Faithful calls sent mb)
    (hi : ∀ y, mb.waits[i]? = some y → y.channel = .awaiting) : ∀ p ∈ sent, p.1 ≠ i := by
  rintro p hp rfl
  obtain ⟨y, hy, -, hc⟩ := h.given p hp
  rw [hi y hy] at hc
  rcases hc with hc | hc <;> cases hc

theorem Faithful.give (h : Faithful calls sent mb)
    (hi : ∀ y, mb.waits[i]? = some y → y.channel = .awaiting)
    (hw : ∀ j, mb'.waits[j]? = if i = j then some x else mb.waits[j]?)
    (hx : x.channel = .holding m) (hm : m.operation ∈ x.operations) :
    Faithful calls (sent ++ [(i, m)]) mb' where
  once := by
    rw [List.map_append, List.nodup_append]
    refine ⟨h.once, List.pairwise_singleton _ _, fun j hj k hk => ?_⟩
    obtain ⟨p, hp, rfl⟩ := List.mem_map.1 hj
    rw [List.mem_singleton.1 hk]
    exact h.fresh hi p hp
  given p hp := by
    rcases List.mem_append.1 hp with hp | hp
    · rw [hw, if_neg (h.fresh hi p hp).symm]
      exact h.given p hp
    · cases List.mem_singleton.1 hp
      rw [hw, if_pos rfl]
      exact ⟨x, rfl, hm, .inl hx⟩
  held j y m' hy hc := by
    rw [hw] at hy
    split at hy
    · rename_i hij
      cases hy
      rw [hx] at hc
      cases hc
      exact List.mem_append_right _ (hij ▸ .head _)
    · exact List.mem_append_left _ (h.held j y m' hy hc)
  closed j y hy hc := by
    rw [hw] at hy
    split at hy
    · cases hy
      rw [hx] at hc
      cases hc
    · exact h.closed j y hy hc

theorem Faithful.set (h : Faithful calls sent mb)
    (hw : ∀ j, mb'.waits[j]? = if i = j then some x else mb.waits[j]?)
    (hi : ∀ y, mb.waits[i]? = some y → x.channel = .closed ∧ x.operations = y.operations)
    (hx : ∀ m, x.channel ≠ .holding m) (hc : x.channel = .closed → .close i ∈ calls) :
    Faithful calls sent mb' where
  once := h.once
  given p hp := by
    obtain ⟨y, hy, hop, hch⟩ := h.given p hp
    rw [hw]
    split
    · rename_i hij
      obtain ⟨hclosed, hops⟩ := hi y (hij ▸ hy)
      exact ⟨x, rfl, hops ▸ hop, .inr hclosed⟩
    · exact ⟨y, hy, hop, hch⟩
  held j y m' hy hh := by
    rw [hw] at hy
    split at hy
    · cases hy
      exact absurd hh (hx m')
    · exact h.held j y m' hy hh
  closed j y hy hh := by
    rw [hw] at hy
    split at hy
    · rename_i hij
      cases hy
      exact hij ▸ hc hh
    · exact h.closed j y hy hh

theorem getElem?_modify_some {xs : Array Wait} {y : Wait} (hy : xs[i]? = some y) (ch : Channel)
    (j : Nat) :
    (xs.modify i fun x => { x with channel := ch })[j]? =
      if i = j then some { y with channel := ch } else xs[j]? := by
  rw [getElem?_modify_channel]
  split
  · rename_i hij
    rw [← hij, hy]
    rfl
  · rfl

theorem Faithful.accepts {back : Bool} {served : Option Nat} (h : Faithful calls sent mb)
    (hl : Labelled mb) (a : mb.Accepts m back served mb') :
    Faithful calls (sent ++ (served.map (·, m)).toList) mb' := by
  cases a with
  | @handed i y _ hy hc hi _ hw _ =>
    obtain ⟨z, hz, hop⟩ := hl.listed m.operation i hi
    rw [hy] at hz
    cases hz
    have hset := getElem?_modify_some hy (.holding m)
    rw [← hw] at hset
    refine h.give (fun z hz => ?_) hset rfl hop
    rw [hy] at hz
    cases hz
    exact hc
  | queued _ hw _ =>
    rw [Option.map_none, Option.toList_none, List.append_nil]
    exact h.congr fun j => by rw [hw]

theorem Faithful.grants {ops : List String} {hd : HandleId} (h : Faithful calls sent mb)
    (hl : Labelled mb) (g : mb.Grants ops hd mb') :
    Faithful calls (sent ++ ((mb'.letter? mb.waits.size).map (mb.waits.size, ·)).toList) mb' := by
  have hnew : mb.waits[mb.waits.size]? = none := Array.getElem?_eq_none (Nat.le_refl _)
  have hset : ∀ {y : Wait}, mb'.waits = mb.waits.push y →
      ∀ j, mb'.waits[j]? = if mb.waits.size = j then some y else mb.waits[j]? := by
    intro y hw j
    rw [hw, Array.getElem?_push]
    simp only [eq_comm]
  cases g with
  | @held op m rest _ hf hm _ hw _ =>
    obtain ⟨hop, -⟩ := first?_some hf
    have hown : m.operation = op := hl.queued op m (hm ▸ .head _)
    have hletter : mb'.letter? mb.waits.size = some m := by rw [letter?, hset hw, if_pos rfl]
    rw [hletter]
    exact h.give (by simp) (hset hw) rfl (hown ▸ hop)
  | entered hc _ _ hw _ =>
    have hletter : mb'.letter? mb.waits.size = none := by
      rw [letter?, hset hw, if_pos rfl, hc]
      cases ops <;> rfl
    rw [hletter, Option.map_none, Option.toList_none, List.append_nil]
    refine h.set (hset hw) (by simp) (fun m => ?_) fun hclosed => ?_
    · rw [hc]
      split <;> simp
    · rw [hc] at hclosed
      split at hclosed <;> cases hclosed

theorem Faithful.close (h : Faithful calls sent mb) (i : Nat) :
    Faithful (calls ++ [.close i]) sent (mb.close i).2 := by
  cases hy : mb.waits[i]? with
  | none =>
    refine (h.later _).congr fun j => (getElem?_modify_channel i j .closed).trans ?_
    split
    · rename_i hij
      rw [← hij, hy]
      rfl
    · rfl
  | some y =>
    refine (h.later _).set (getElem?_modify_some hy .closed) (fun z hz => ?_) (by simp) (by simp)
    rw [hy] at hz
    cases hz
    exact ⟨rfl, rfl⟩

theorem Faithful.act (h : Faithful calls sent mb) (hl : Labelled mb) (c : Call) :
    Faithful (calls ++ [c]) (sent ++ (mb.act c).1.resolved.toList) (mb.act c).2 := by
  cases c with
  | deliver m => exact (h.later _).accepts hl (deliver_accepts mb m)
  | requeue m => exact (h.later _).accepts hl (requeue_accepts mb m)
  | request ops hd =>
    obtain ⟨hi, hg⟩ := request_grants mb ops hd
    have hgrant := (h.later (.request ops hd)).grants hl hg
    rw [← hi] at hgrant
    exact hgrant
  | close i =>
    rw [show (mb.act (.close i)).1.resolved = none from rfl, Option.toList_none, List.append_nil]
    exact h.close i

end Faithful

theorem run_faithful (calls : List Call) :
    Faithful calls (resolved (run act {} calls).1) (run act {} calls).2 := by
  induction calls using List.reverseRecOn with
  | nil => exact ⟨.nil, by simp [resolved, run], by simp [run], by simp [run]⟩
  | append_singleton calls c ih =>
    rw [run_append, resolved_append]
    exact ih.act (run_entered calls).toLabelled c

/-- The mailbox that prunes late answers as the eager one, and gives a wait one message at most. -/
theorem run_refines_eager (calls : List Call) :
    let mb := (run act {} calls).2
    let e := (run Eager.act {} calls).2
    let given := resolved (run act {} calls).1
    (run act {} calls).1 = (run Eager.act {} calls).1 ∧
    (∀ op, mb.queue op = e.queues op ∧ mb.queued op = (e.queues op).length) ∧
    (∀ i ops, (i, ops) ∈ e.waits ↔
      ∃ x, mb.waits[i]? = some x ∧ x.channel.isOutstanding = true ∧ x.operations = ops) ∧
    (given.map Prod.fst).Nodup ∧
    (∀ i m, (i, m) ∈ given → ∃ x, mb.waits[i]? = some x ∧ m.operation ∈ x.operations ∧
      (x.channel = .holding m ∨ x.channel = .closed)) ∧
    ∀ i x, mb.waits[i]? = some x →
      (∀ m, x.channel = .holding m → (i, m) ∈ given) ∧
      (x.channel = .closed → .close i ∈ calls) ∧
      (x.operations ≠ [] → x.channel ≠ .closed → i ∉ given.map Prod.fst →
        x.channel = .awaiting ∧ ∀ op ∈ x.operations, i ∈ mb.entries op ∧ mb.queue op = []) := by
  intro mb e given
  have hentered : Entered mb := run_entered calls
  have hfaithful : Faithful calls given mb := run_faithful calls
  have heager : e = mb.eager := congrArg Prod.snd (run_eager calls)
  refine ⟨(congrArg Prod.fst (run_eager calls)).symm, fun op => ?_, fun i ops => ?_,
    hfaithful.once, fun i m hm => hfaithful.given (i, m) hm, fun i x hx =>
    ⟨fun m => hfaithful.held i x m hx, hfaithful.closed i x hx, fun hops hopen hnot => ?_⟩⟩
  · rw [heager]
    exact ⟨rfl, rfl⟩
  · rw [heager]
    exact mem_eager_waits
  · have hawaits : x.channel = .awaiting := by
      cases hc : x.channel with
      | awaiting => rfl
      | holding m => exact absurd (List.mem_map_of_mem (hfaithful.held i x m hx hc)) hnot
      | abandoned => exact absurd (hentered.abandoned i x hx hc) hops
      | closed => exact absurd hc hopen
    refine ⟨hawaits, fun op hop => ?_⟩
    have hon : mb.Awaits op i := ⟨x, hx, hawaits, hop⟩
    exact ⟨hentered.present op i hon, hentered.idle op i hon⟩

/-- A wait that spans two operations is served once: a later message on the other is queued. -/
example :
    let cancel : Letter := ⟨0, "cancel", .null⟩
    let confirm : Letter := ⟨1, "confirm", .null⟩
    run act {} [.request ["confirm", "cancel"] 0, .deliver cancel, .close 0, .deliver confirm] =
      ([{}, ⟨some true, some (0, cancel)⟩, {}, ⟨some false, none⟩],
        ⟨[("confirm", [confirm])], [], #[⟨0, .closed, ["confirm", "cancel"]⟩]⟩) := by
  decide

end Mailbox

end SagaEngine
