import Mathlib.Algebra.BigOperators.Group.Finset.Basic
import Mathlib.Algebra.Ring.Nat
import Mathlib.Data.List.TakeWhile
import SagaEngine.Proofs.Eager

/-! How many entries of waits a mailbox keeps. Entries of waits that are over stay for a while, but the
live ones are exactly what the outstanding waits have asked for, in the order of their requests and as
often as they have asked; and a request leaves no others. -/

namespace SagaEngine.Mailbox

variable {mb mb' : Mailbox} {m : Letter} {op : String}

/-! ## What outstanding waits ask for -/

namespace Eager

def asked (e : Eager) (op : String) : List Nat :=
  e.waits.flatMap fun p => List.replicate (p.2.count op) p.1

def demand (e : Eager) : Nat := (e.waits.map fun p => p.2.length).sum

theorem mem_asked {e : Eager} {i : Nat} :
    i ∈ e.asked op ↔ ∃ ops, (i, ops) ∈ e.waits ∧ op ∈ ops := by
  unfold asked
  rw [List.mem_flatMap]
  constructor
  · rintro ⟨⟨j, ops⟩, hp, hi⟩
    obtain ⟨hn, rfl⟩ := List.mem_replicate.1 hi
    exact ⟨ops, hp, List.count_pos_iff.1 (Nat.pos_of_ne_zero hn)⟩
  · rintro ⟨ops, hp, hop⟩
    exact ⟨(i, ops), hp, List.mem_replicate.2 ⟨Nat.ne_of_gt (List.count_pos_iff.2 hop), rfl⟩⟩

theorem asked_leave (e : Eager) (i : Nat) (op : String) :
    (e.leave i).asked op = (e.asked op).filter (· != i) := by
  unfold leave asked
  dsimp only
  induction e.waits with
  | nil => rfl
  | cons p ps ih =>
    rw [List.flatMap_cons, List.filter_append, ← ih, List.filter_cons, List.filter_replicate]
    split
    · rw [List.flatMap_cons]
    · rfl

theorem sum_asked {e : Eager} {keys : List String} (hn : keys.Nodup)
    (hk : ∀ p ∈ e.waits, ∀ op ∈ p.2, op ∈ keys) :
    (keys.map fun op => (e.asked op).length).sum = e.demand := by
  unfold asked demand
  generalize e.waits = waits at hk ⊢
  induction waits with
  | nil => simp
  | cons p ps ih =>
    obtain ⟨hp, hps⟩ := List.forall_mem_cons.1 hk
    have hcounts : (keys.map fun op => p.2.count op).sum = p.2.length := by
      rw [← List.sum_toFinset _ hn]
      have hcard : ∑ op ∈ keys.toFinset, (p.2 : Multiset String).count op = _ :=
        Multiset.sum_count_eq_card fun op hop => List.mem_toFinset.2 (hp op hop)
      simpa only [Multiset.coe_count, Multiset.coe_card] using hcard
    simp only [List.flatMap_cons, List.length_append, List.length_replicate, List.map_cons,
      List.sum_cons]
    rw [List.sum_map_add, hcounts, ih hps]

end Eager

/-! ## The live entries -/

theorem filter_claim {p : Nat → Bool}
    (hp : ∀ i, p i = true → mb.isLive i = true ∧ (mb.claim op).1 ≠ some i) (op' : String) :
    ((mb.claim op).2.entries op').filter p = (mb.entries op').filter p := by
  obtain ⟨hfirst, hentries⟩ := claim_front mb op
  rw [hentries]
  split
  · rename_i ho
    subst ho
    have hdead : ((mb.entries op).takeWhile fun i => !mb.isLive i).filter p = [] := by
      refine List.filter_eq_nil_iff.2 fun i hi hpi => ?_
      have hover := List.mem_takeWhile_imp hi
      rw [(hp i hpi).1] at hover
      cases hover
    have hfront : (mb.front op).tail.filter p = (mb.front op).filter p := by
      cases hf : mb.front op with
      | nil => rfl
      | cons i rest =>
        rw [hf] at hfirst
        rw [List.tail_cons, List.filter_cons_of_neg fun hpi => (hp i hpi).2 hfirst]
    rw [hfront, ← List.takeWhile_append_dropWhile (p := fun i => !mb.isLive i) (l := mb.entries op),
      List.filter_append, hdead, List.nil_append]
    rfl
  · rfl

def Exact (mb : Mailbox) : Prop :=
  ∀ op, (mb.entries op).filter mb.isLive = mb.eager.asked op

theorem Exact.empty : Exact {} := fun _ => rfl

theorem isLive_modify {i : Nat} {ch : Channel} (hch : ch ≠ .awaiting)
    (hw : mb'.waits = mb.waits.modify i fun x => { x with channel := ch }) (j : Nat) :
    mb'.isLive j = (mb.isLive j && j != i) := by
  unfold isLive
  rw [hw, getElem?_modify_channel]
  by_cases h : i = j
  · subst h
    rw [if_pos rfl, bne_self_eq_false, Bool.and_false]
    cases mb.waits[i]? with
    | none => rfl
    | some x => exact beq_eq_false_iff_ne.2 hch
  · rw [if_neg h, bne_iff_ne.2 (Ne.symm h), Bool.and_true]

theorem Exact.modify (h : Exact mb) {i : Nat} {ch : Channel} (hch : ch.isOutstanding = false)
    (hw : mb'.waits = mb.waits.modify i fun x => { x with channel := ch })
    (he : ∀ op, (mb'.entries op).filter mb'.isLive = (mb.entries op).filter mb'.isLive) :
    Exact mb' := by
  intro op
  have hlive : mb'.isLive = fun j => mb.isLive j && j != i := by
    refine funext (isLive_modify ?_ hw)
    rintro rfl
    cases hch
  have hwaits : mb'.eager.asked op = (mb.eager.leave i).asked op := by
    unfold Eager.asked
    rw [(eager_modify hw hch).1]
  rw [he, hwaits, Eager.asked_leave, ← h op, List.filter_filter, hlive]
  exact List.filter_congr fun j _ => Bool.and_comm _ _

theorem Accepts.exact {back : Bool} {served : Option Nat} (h : Exact mb)
    (a : mb.Accepts m back served mb') (hs : served = (mb.claim m.operation).1)
    (hw : mb'.waiters = (mb.claim m.operation).2.waiters) : Exact mb' := by
  cases a with
  | @handed i _ _ _ _ _ _ hm _ =>
    refine h.modify rfl hm fun op => ?_
    rw [entries_congr hw]
    refine filter_claim (fun j hj => ?_) op
    rw [isLive_modify (by simp) hm, Bool.and_eq_true] at hj
    refine ⟨hj.1, fun hfound => ?_⟩
    rw [← hs] at hfound
    simp [Option.some.inj hfound] at hj
  | queued _ hm _ =>
    intro op
    have hlive : mb'.isLive = mb.isLive := by
      unfold isLive
      rw [hm]
    have hwaits : mb'.eager.asked op = mb.eager.asked op := by
      unfold Eager.asked Mailbox.eager outstanding?
      rw [hm]
    rw [hwaits, ← h op, hlive, entries_congr hw]
    exact filter_claim (fun j hj => ⟨hj, by simp [← hs]⟩) op

/-! ## Requests -/

/-- All entries are what the outstanding waits ask for, and only operations with entries are kept. -/
structure Pruned (mb : Mailbox) : Prop where
  entries_eq : ∀ op, mb.entries op = mb.eager.asked op
  occupied : ∀ x ∈ mb.waiters, x.2 ≠ []

theorem Pruned.isLive (h : Pruned mb) (he : Entered mb) {op : String} {i : Nat}
    (hi : i ∈ mb.entries op) : mb.isLive i = true := by
  rw [h.entries_eq, Eager.mem_asked] at hi
  obtain ⟨ops, hwait, hop⟩ := hi
  exact (he.awaits_iff.2 ⟨ops, hwait, List.contains_iff_mem.2 hop⟩).isLive

theorem Pruned.exact (h : Pruned mb) (he : Entered mb) : Exact mb := fun op =>
  (List.filter_eq_self.2 fun _ hi => h.isLive he hi).trans (h.entries_eq op)

theorem occupied_prune (mb : Mailbox) : ∀ x ∈ mb.prune.waiters, x.2 ≠ [] := by
  intro x hx
  rw [waiters_prune] at hx
  obtain ⟨⟨op, ws⟩, -, hx⟩ := List.mem_filterMap.1 hx
  obtain ⟨live, hlive, rfl⟩ := Option.map_eq_some_iff.1 hx
  unfold living at hlive
  split at hlive
  · cases hlive
  · rename_i hne
    cases hlive
    exact fun hnil => hne (List.isEmpty_iff.2 hnil)

theorem occupied_enterAll (ops : List String) (i : Nat) (h : ∀ x ∈ mb.waiters, x.2 ≠ []) :
    ∀ x ∈ (ops.foldl (fun mb op => mb.enter i op) mb).waiters, x.2 ≠ [] := by
  induction ops generalizing mb with
  | nil => exact h
  | cons op ops ih =>
    refine ih fun x hx => ?_
    rcases Table.mem_insert hx with rfl | hx
    · exact List.append_ne_nil_of_right_ne_nil _ (List.cons_ne_nil i [])
    · exact h x hx

theorem asked_push {x : Wait} (hw : mb'.waits = mb.waits.push x) (op : String) :
    mb'.eager.asked op = mb.eager.asked op ++
      if x.channel.isOutstanding then List.replicate (x.operations.count op) mb.waits.size
      else [] := by
  unfold Eager.asked
  rw [(eager_push hw).1, List.flatMap_append]
  split
  · exact congrArg _ (List.flatMap_singleton _ _)
  · rfl

theorem Exact.request (h : Exact mb) (he : Entered mb) (ops : List String) (hd : HandleId) :
    Pruned (mb.request ops hd).2 := by
  cases hf : mb.first? ops with
  | some p =>
    rw [request_found hf]
    refine ⟨fun op => ?_, occupied_prune mb⟩
    rw [asked_push rfl, if_neg (by simp [Channel.isOutstanding]), List.append_nil, ← h op]
    exact entries_prune he.sorted op
  | none =>
    rw [request_missed hf]
    obtain ⟨-, hw, -⟩ := enterAll_spec ops { mb.prune with
      waits := mb.waits.push ⟨hd, if ops.isEmpty then .abandoned else .awaiting, ops⟩ }
      mb.waits.size
    refine ⟨fun op => ?_, occupied_enterAll ops mb.waits.size (occupied_prune mb)⟩
    have hout : (if ops.isEmpty then Channel.abandoned else .awaiting).isOutstanding = true := by
      cases ops <;> rfl
    rw [asked_push hw, if_pos hout, ← h op]
    exact (entries_enterAll ops _ mb.waits.size op).trans
      (congrArg (· ++ _) (entries_prune he.sorted op))

theorem Exact.act (h : Exact mb) (he : Entered mb) (c : Call) : Exact (mb.act c).2 := by
  cases c with
  | deliver m => exact (deliver_accepts mb m).exact h (deliver_claim mb m).1 (deliver_claim mb m).2
  | requeue m => exact (requeue_accepts mb m).exact h (requeue_claim mb m).1 (requeue_claim mb m).2
  | request ops hd => exact (h.request he ops hd).exact (he.request ops hd)
  | close i => exact @Exact.modify mb (mb.close i).2 h i .closed rfl rfl fun _ => rfl

theorem run_exact (calls : List Call) : Exact (run act {} calls).2 := by
  induction calls using List.reverseRecOn with
  | nil => exact .empty
  | append_singleton calls c ih =>
    rw [run_append]
    exact ih.act (run_entered calls) c

theorem nodup_keys {α : Type} {t : Table α} (h : t.Sorted) : (t.map Prod.fst).Nodup :=
  (List.pairwise_map.2 h).imp ne_of_lt

theorem entries_of_mem (h : mb.waiters.Sorted) {x : String × List Nat} (hx : x ∈ mb.waiters) :
    mb.entries x.1 = x.2 := by
  rw [entries, Table.get?_of_mem (nodup_keys h) hx]
  rfl

theorem Pruned.waiterCount (h : Pruned mb) (he : Entered mb) :
    mb.waiterCount = mb.eager.demand := by
  have hkeys : ∀ p ∈ mb.eager.waits, ∀ op ∈ p.2, op ∈ mb.waiters.map Prod.fst := by
    intro p hp op hop
    have hi : p.1 ∈ mb.entries op := by
      rw [h.entries_eq]
      exact Eager.mem_asked.2 ⟨p.2, hp, hop⟩
    obtain ⟨ws, hws, -⟩ := lists_of_mem_entries hi
    exact List.mem_map_of_mem hws
  have hlengths : (mb.waiters.map fun x => x.2.length) =
      (mb.waiters.map Prod.fst).map fun op => (mb.eager.asked op).length := by
    rw [List.map_map]
    refine List.map_congr_left fun x hx => ?_
    rw [Function.comp_apply, ← h.entries_eq, entries_of_mem he.sorted hx]
  calc mb.waiterCount
      = (mb.waiters.map fun x => x.2.length).sum := by
        rw [Mailbox.waiterCount, List.sum_eq_foldl, List.foldl_map]
    _ = mb.eager.demand := by
        rw [hlengths, Eager.sum_asked (nodup_keys he.sorted) hkeys]

/-- Right after a request there is one entry for each operation that an outstanding wait lists. -/
theorem request_occupancy (calls : List Call) (ops : List String) (hd : HandleId) :
    let mb := (run act {} (calls ++ [.request ops hd])).2
    let e := (run Eager.act {} (calls ++ [.request ops hd])).2
    mb.waiterCount = (e.waits.map fun p => p.2.length).sum ∧
      (∀ op, mb.entries op = e.waits.flatMap fun p => List.replicate (p.2.count op) p.1) ∧
      (∀ x ∈ mb.waiters, x.2 ≠ [] ∧ ∀ i ∈ x.2, mb.isLive i = true) ∧
      e.waits.Pairwise (fun p q => p.1 < q.1) ∧
      ∀ i ops', (i, ops') ∈ e.waits ↔
        ∃ x, mb.waits[i]? = some x ∧ x.channel.isOutstanding = true ∧ x.operations = ops' := by
  intro mb e
  have hentered : Entered mb := run_entered _
  have heager : e = mb.eager := congrArg Prod.snd (run_eager _)
  have hpruned : Pruned mb := by
    unfold mb
    rw [run_append]
    exact (run_exact calls).request (run_entered calls) ops hd
  rw [heager]
  refine ⟨hpruned.waiterCount hentered, hpruned.entries_eq, fun x hx => ⟨hpruned.occupied x hx,
    fun i hi => ?_⟩, mb.eager_ordered, fun i ops' => mem_eager_waits⟩
  rw [← entries_of_mem hentered.sorted hx] at hi
  exact hpruned.isLive hentered hi

/-- A wait that was served under one of its operations stays entered under the other until the next
request. -/
example :
    let calls := [Call.request ["confirm", "cancel"] 0, .deliver ⟨0, "cancel", .null⟩]
    (run act {} calls).2.waiterCount = 1 ∧
      (run act {} (calls ++ [.request ["refund"] 1])).2.waiters = [("refund", [1])] := by
  decide

end SagaEngine.Mailbox
