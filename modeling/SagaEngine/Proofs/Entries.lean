import Mathlib.Data.String.Basic
import SagaEngine.Proofs.Mail

/-! The entries of waits under the operations of a mailbox. Entries of waits that are over may stay
for long, but those of the waits that are not over are all there, in the order of the requests; so
what a claim finds is the oldest wait on its operation. -/

namespace SagaEngine

namespace Table

variable {α β : Type} {t : Table α}

def Sorted (t : Table α) : Prop := t.Pairwise fun a b => a.1 < b.1

theorem Sorted.insert (h : Sorted t) (k : String) (a : α) : Sorted (t.insert k a) := by
  induction t with
  | nil => exact List.pairwise_singleton _ _
  | cons e t ih =>
    obtain ⟨j, b⟩ := e
    obtain ⟨hj, ht⟩ := List.pairwise_cons.1 h
    unfold Table.insert
    split
    · rename_i hjk
      subst hjk
      exact List.pairwise_cons.2 ⟨hj, ht⟩
    · rename_i hjk
      split
      · rename_i hlt
        refine List.pairwise_cons.2 ⟨fun e he => ?_, h⟩
        rcases List.mem_cons.1 he with rfl | he
        · exact hlt
        · exact hlt.trans (hj e he)
      · rename_i hlt
        refine List.pairwise_cons.2 ⟨fun e he => ?_, ih ht⟩
        rcases mem_insert he with rfl | he
        · exact lt_of_le_of_ne (not_lt.1 hlt) hjk
        · exact hj e he

theorem erase_sublist (t : Table α) (k : String) : (t.erase k).Sublist t := by
  induction t with
  | nil => exact .slnil
  | cons e t ih =>
    obtain ⟨j, b⟩ := e
    unfold erase
    split
    · exact ih.cons _
    · exact ih.cons_cons _

theorem Sorted.erase (h : Sorted t) (k : String) : Sorted (t.erase k) :=
  List.Pairwise.sublist (erase_sublist t k) h

theorem get?_eq_none {k : String} (h : ∀ e ∈ t, e.1 ≠ k) : t.get? k = none := by
  induction t with
  | nil => rfl
  | cons e t ih =>
    obtain ⟨j, b⟩ := e
    unfold get?
    rw [if_neg (h (j, b) (.head _))]
    exact ih fun e he => h e (.tail _ he)

section FilterMap

variable {g : α → Option β}

theorem Sorted.filterMap (h : Sorted t) :
    Sorted (t.filterMap fun e => (g e.2).map (e.1, ·)) := by
  refine List.Pairwise.filterMap _ (fun a b hab c hc d hd => ?_) h
  rw [Option.map_eq_some_iff] at hc hd
  obtain ⟨_, -, rfl⟩ := hc
  obtain ⟨_, -, rfl⟩ := hd
  exact hab

theorem Sorted.get?_filterMap (h : Sorted t) (k : String) :
    get? (t.filterMap fun e => (g e.2).map (e.1, ·)) k = (t.get? k).bind g := by
  induction t with
  | nil => rfl
  | cons e t ih =>
    obtain ⟨j, a⟩ := e
    obtain ⟨hj, ht⟩ := List.pairwise_cons.1 h
    have hrest := ih ht
    rw [List.filterMap_cons]
    by_cases hjk : j = k
    · have hnone : get? t k = none := get?_eq_none fun e he => hjk ▸ (hj e he).ne'
      rw [hnone] at hrest
      cases hg : g a with
      | none => simpa [get?, hjk, hg] using hrest
      | some b => simp [get?, hjk, hg]
    · cases hg : g a with
      | none => simpa [get?, hjk] using hrest
      | some b => simpa [get?, hjk] using hrest

end FilterMap

end Table

namespace Mailbox

variable {mb mb' : Mailbox}

def entries (mb : Mailbox) (op : String) : List Nat := (mb.waiters.get? op).getD []

theorem lists_of_mem_entries {op : String} {i : Nat} (h : i ∈ mb.entries op) : mb.Lists op i := by
  unfold entries at h
  cases hg : mb.waiters.get? op with
  | none =>
    rw [hg] at h
    cases h
  | some ws =>
    rw [hg] at h
    exact ⟨ws, Table.mem_of_get? hg, h⟩

theorem entries_setWaiters (mb : Mailbox) (op : String) (ws : List Nat) (op' : String) :
    (mb.setWaiters op ws).entries op' = if op = op' then ws else mb.entries op' := by
  unfold setWaiters entries
  dsimp only
  cases ws with
  | nil =>
    rw [List.isEmpty_nil, if_pos rfl, Table.get?_erase]
    split <;> rfl
  | cons i ws =>
    rw [if_neg (by simp), Table.get?_insert]
    split <;> rfl

theorem entries_enter (mb : Mailbox) (i : Nat) (op op' : String) :
    (mb.enter i op).entries op' = if op = op' then mb.entries op ++ [i] else mb.entries op' := by
  unfold enter entries
  rw [Table.get?_insert]
  split <;> rfl

theorem entries_enterAll (ops : List String) (mb : Mailbox) (i : Nat) (op : String) :
    (ops.foldl (fun mb op => mb.enter i op) mb).entries op =
      mb.entries op ++ List.replicate (ops.count op) i := by
  induction ops generalizing mb with
  | nil => simp
  | cons op' ops ih =>
    rw [List.foldl_cons, ih, entries_enter, List.count_cons]
    by_cases h : op' = op
    · subst h
      simp [List.replicate_succ]
    · simp [h]

theorem sorted_enterAll (ops : List String) (mb : Mailbox) (i : Nat) (h : mb.waiters.Sorted) :
    (ops.foldl (fun mb op => mb.enter i op) mb).waiters.Sorted := by
  induction ops generalizing mb with
  | nil => exact h
  | cons op ops ih => exact ih (mb.enter i op) (h.insert op _)

theorem sorted_setWaiters {op : String} {ws : List Nat} (h : mb.waiters.Sorted) :
    (mb.setWaiters op ws).waiters.Sorted := by
  unfold setWaiters
  dsimp only
  split
  · exact h.erase op
  · exact h.insert op ws

def living (mb : Mailbox) (ws : List Nat) : Option (List Nat) :=
  if (ws.filter mb.isLive).isEmpty then none else some (ws.filter mb.isLive)

theorem waiters_prune (mb : Mailbox) :
    mb.prune.waiters = mb.waiters.filterMap fun e => (mb.living e.2).map (e.1, ·) := by
  unfold prune living
  refine List.filterMap_congr fun e _ => ?_
  dsimp only
  split <;> rfl

theorem sorted_prune (h : mb.waiters.Sorted) : mb.prune.waiters.Sorted := by
  rw [waiters_prune]
  exact h.filterMap

theorem entries_prune (h : mb.waiters.Sorted) (op : String) :
    mb.prune.entries op = (mb.entries op).filter mb.isLive := by
  unfold entries
  rw [waiters_prune, h.get?_filterMap]
  cases mb.waiters.get? op with
  | none => rfl
  | some ws =>
    dsimp only [living, Option.bind_some, Option.getD_some]
    split
    · rename_i he
      exact (List.isEmpty_iff.1 he).symm
    · rfl

/-! ## Claims -/

def front (mb : Mailbox) (op : String) : List Nat :=
  (mb.entries op).dropWhile fun i => !mb.isLive i

theorem claim_front (mb : Mailbox) (op : String) :
    (mb.claim op).1 = (mb.front op).head? ∧
      ∀ op', (mb.claim op).2.entries op' = if op = op' then (mb.front op).tail
        else mb.entries op' := by
  unfold claim front
  cases hg : mb.waiters.get? op with
  | none =>
    have he : mb.entries op = [] := by rw [entries, hg]; rfl
    rw [he]
    refine ⟨rfl, fun op' => ?_⟩
    dsimp only
    split
    · rename_i h
      rw [← h, he]
      rfl
    · rfl
  | some ws =>
    have he : mb.entries op = ws := by rw [entries, hg]; rfl
    rw [he]
    dsimp only
    split
    · rename_i hd
      rw [hd]
      exact ⟨rfl, entries_setWaiters mb op []⟩
    · rename_i i rest hd
      rw [hd]
      exact ⟨rfl, entries_setWaiters mb op rest⟩

theorem sorted_claim (h : mb.waiters.Sorted) (op : String) : (mb.claim op).2.waiters.Sorted := by
  unfold claim
  split
  · exact h
  · split
    · exact sorted_setWaiters h
    · exact sorted_setWaiters h

def Awaits (mb : Mailbox) (op : String) (i : Nat) : Prop :=
  ∃ x, mb.waits[i]? = some x ∧ x.channel = .awaiting ∧ op ∈ x.operations

/-- The waits that can be served are entered under all their operations, the oldest first. -/
structure Entered (mb : Mailbox) : Prop extends Labelled mb where
  sorted : mb.waiters.Sorted
  ordered : ∀ op, (mb.entries op).Pairwise (· ≤ ·)
  present : ∀ op i, mb.Awaits op i → i ∈ mb.entries op
  idle : ∀ op i, mb.Awaits op i → mb.queue op = []
  abandoned : ∀ (i : Nat) (x : Wait), mb.waits[i]? = some x → x.channel = .abandoned →
    x.operations = []

theorem Awaits.isLive {op : String} {i : Nat} (h : mb.Awaits op i) : mb.isLive i = true := by
  obtain ⟨x, hx, hc, -⟩ := h
  exact isLive_iff.2 ⟨x, hx, hc⟩

theorem Entered.awaits (h : Entered mb) {op : String} {i : Nat} (hi : i ∈ mb.entries op)
    (hl : mb.isLive i = true) : mb.Awaits op i := by
  obtain ⟨x, hx, hop⟩ := h.listed op i (lists_of_mem_entries hi)
  obtain ⟨y, hy, hc⟩ := isLive_iff.1 hl
  rw [hx] at hy
  cases hy
  exact ⟨x, hx, hc, hop⟩

theorem Entered.mem_front (h : Entered mb) {op : String} {i : Nat} (hi : mb.Awaits op i) :
    i ∈ mb.front op :=
  mem_dropWhile (h.present op i hi) (by rw [hi.isLive]; rfl)

def Least (P : Nat → Prop) : Option Nat → Prop
  | none => ∀ i, ¬P i
  | some i => P i ∧ ∀ j, P j → i ≤ j

theorem Least.unique {P : Nat → Prop} {a b : Option Nat} (ha : Least P a) (hb : Least P b) :
    a = b := by
  cases a with
  | none =>
    cases b with
    | none => rfl
    | some j => exact absurd hb.1 (ha j)
  | some i =>
    cases b with
    | none => exact absurd ha.1 (hb i)
    | some j => exact congrArg some (Nat.le_antisymm (ha.2 j hb.1) (hb.2 i ha.1))

theorem Entered.claim_least (h : Entered mb) (op : String) :
    Least (mb.Awaits op) (mb.claim op).1 := by
  rw [(claim_front mb op).1]
  have hsub : (mb.front op).Sublist (mb.entries op) := List.dropWhile_sublist _
  have hord := (h.ordered op).sublist hsub
  cases hf : mb.front op with
  | nil =>
    intro i hi
    have hmem := h.mem_front hi
    rw [hf] at hmem
    cases hmem
  | cons i rest =>
    have hlive : mb.isLive i = true := by simpa using head_of_dropWhile hf
    rw [hf] at hsub hord
    refine ⟨h.awaits (hsub.subset (.head _)) hlive, fun j hj => ?_⟩
    have hmem := h.mem_front hj
    rw [hf] at hmem
    rcases List.mem_cons.1 hmem with rfl | hmem
    · exact Nat.le_refl _
    · exact (List.pairwise_cons.1 hord).1 j hmem

theorem claim_sublist (mb : Mailbox) (op op' : String) :
    ((mb.claim op).2.entries op').Sublist (mb.entries op') := by
  rw [(claim_front mb op).2]
  split
  · rename_i h
    subst h
    have hfront : (mb.front op).Sublist (mb.entries op) := List.dropWhile_sublist _
    exact (List.tail_sublist _).trans hfront
  · exact .refl _

theorem Entered.claim_kept (h : Entered mb) {op op' : String} {i : Nat} (hi : mb.Awaits op' i)
    (hne : (mb.claim op).1 ≠ some i) : i ∈ (mb.claim op).2.entries op' := by
  obtain ⟨hfirst, hentries⟩ := claim_front mb op
  rw [hentries]
  split
  · rename_i ho
    subst ho
    have hmem := h.mem_front hi
    rw [hfirst] at hne
    cases hf : mb.front op with
    | nil =>
      rw [hf] at hmem
      cases hmem
    | cons j rest =>
      rw [hf] at hmem hne
      exact (List.mem_cons.1 hmem).resolve_left fun hij => hne (congrArg some hij.symm)
  · exact h.present op' i hi

/-! ## What keeps the entries -/

theorem Entered.empty : Entered {} where
  toLabelled := .empty
  sorted := .nil
  ordered _ := .nil
  present op i h := by
    obtain ⟨x, hx, -⟩ := h
    simp at hx
  idle _ _ _ := rfl
  abandoned i x hx := by simp at hx

theorem entries_congr (h : mb'.waiters = mb.waiters) (op : String) :
    mb'.entries op = mb.entries op := by
  unfold entries
  rw [h]

theorem Entered.shrink (h : Entered mb) (hl : Labelled mb') (hs : mb'.waiters.Sorted)
    (he : ∀ op, (mb'.entries op).Sublist (mb.entries op))
    (ha : ∀ op i, mb'.Awaits op i → mb.Awaits op i ∧
      (i ∈ mb.entries op → i ∈ mb'.entries op) ∧ (mb.queue op = [] → mb'.queue op = []))
    (hb : ∀ (i : Nat) (x : Wait), mb'.waits[i]? = some x → x.channel = .abandoned →
      mb.waits[i]? = some x) : Entered mb' where
  toLabelled := hl
  sorted := hs
  ordered op := (h.ordered op).sublist (he op)
  present op i hi := by
    obtain ⟨hi, hmem, -⟩ := ha op i hi
    exact hmem (h.present op i hi)
  idle op i hi := by
    obtain ⟨hi, -, hq⟩ := ha op i hi
    exact hq (h.idle op i hi)
  abandoned i x hx hc := h.abandoned i x (hb i x hx hc) hc

theorem getElem?_setChannel {xs : Array Wait} {i j : Nat} {ch : Channel} {x : Wait}
    (hx : (xs.modify i fun x => { x with channel := ch })[j]? = some x) (hc : x.channel ≠ ch) :
    j ≠ i ∧ xs[j]? = some x := by
  rw [getElem?_modify_channel] at hx
  split at hx
  · obtain ⟨y, -, rfl⟩ := Option.map_eq_some_iff.1 hx
    exact absurd rfl hc
  · rename_i hij
    exact ⟨Ne.symm hij, hx⟩

theorem Accepts.entered {m : Letter} {back : Bool} {served : Option Nat} (h : Entered mb)
    (a : mb.Accepts m back served mb') (hs : served = (mb.claim m.operation).1)
    (hw : mb'.waiters = (mb.claim m.operation).2.waiters) : Entered mb' := by
  have hlabels := a.labelled h.toLabelled
  have hsorted : mb'.waiters.Sorted := hw ▸ sorted_claim h.sorted m.operation
  have hsub : ∀ op, (mb'.entries op).Sublist (mb.entries op) := fun op =>
    entries_congr hw op ▸ claim_sublist mb m.operation op
  have hkept : ∀ {op j}, mb.Awaits op j → served ≠ some j → j ∈ mb'.entries op := by
    intro op j hj hne
    rw [entries_congr hw]
    exact h.claim_kept hj (hs ▸ hne)
  cases a with
  | @handed i _ _ _ _ _ hq hm _ =>
    refine h.shrink hlabels hsorted hsub ?_ fun j x hx hc => ?_
    · rintro op j ⟨x, hx, hc, hop⟩
      rw [hm] at hx
      obtain ⟨hne, hx⟩ := getElem?_setChannel hx (by simp [hc])
      have hj : mb.Awaits op j := ⟨x, hx, hc, hop⟩
      exact ⟨hj, fun _ => hkept hj fun he => hne (Option.some.inj he).symm,
        fun h => (queue_congr hq op).trans h⟩
    · rw [hm] at hx
      exact (getElem?_setChannel hx (by simp [hc])).2
  | queued hq hm _ =>
    have hleast := h.claim_least m.operation
    rw [← hs] at hleast
    refine h.shrink hlabels hsorted hsub ?_ fun j x hx _ => hm ▸ hx
    rintro op j ⟨x, hx, hc, hop⟩
    rw [hm] at hx
    have hj : mb.Awaits op j := ⟨x, hx, hc, hop⟩
    -- no wait is left on the operation whose queue grows
    have hne : m.operation ≠ op := fun ho => hleast j (ho ▸ hj)
    refine ⟨hj, fun _ => hkept hj (by simp), fun hnil => ?_⟩
    rwa [queue_insert hq, if_neg hne]

theorem hand_claim (mb : Mailbox) (m : Letter) (queue : Mailbox → List Letter)
    {r : Option Nat × Mailbox} (hr : r = match mb.hand m with
      | (some i, mb) => (some i, mb)
      | (none, mb) => (none, mb.setQueue m.operation (queue mb))) :
    r.1 = (mb.claim m.operation).1 ∧ r.2.waiters = (mb.claim m.operation).2.waiters := by
  subst hr
  unfold hand
  rcases mb.claim m.operation with ⟨_ | i, mb'⟩
  · exact ⟨rfl, rfl⟩
  · exact ⟨rfl, rfl⟩

theorem deliver_claim (mb : Mailbox) (m : Letter) :
    (mb.deliver m).1 = (mb.claim m.operation).1 ∧
      (mb.deliver m).2.waiters = (mb.claim m.operation).2.waiters :=
  mb.hand_claim m (fun mb => mb.queue m.operation ++ [m]) rfl

theorem requeue_claim (mb : Mailbox) (m : Letter) :
    (mb.requeue m).1 = (mb.claim m.operation).1 ∧
      (mb.requeue m).2.waiters = (mb.claim m.operation).2.waiters :=
  mb.hand_claim m (fun mb => m :: mb.queue m.operation) rfl

theorem Entered.deliver (h : Entered mb) (m : Letter) : Entered (mb.deliver m).2 :=
  (deliver_accepts mb m).entered h (deliver_claim mb m).1 (deliver_claim mb m).2

theorem Entered.requeue (h : Entered mb) (m : Letter) : Entered (mb.requeue m).2 :=
  (requeue_accepts mb m).entered h (requeue_claim mb m).1 (requeue_claim mb m).2

theorem Entered.close (h : Entered mb) (i : Nat) : Entered (mb.close i).2 := by
  refine h.shrink (h.toLabelled.close i) h.sorted (fun _ => .refl _) ?_ ?_
  · rintro op j ⟨x, hx, hc, hop⟩
    exact ⟨⟨x, (getElem?_setChannel hx (by simp [hc])).2, hc, hop⟩, id, id⟩
  · intro j x hx hc
    exact (getElem?_setChannel hx (by simp [hc])).2

theorem Entered.found (h : Entered mb) {ops : List String} {op : String} {m : Letter}
    (hf : mb.first? ops = some (op, m)) (hd : HandleId) : Entered (mb.request ops hd).2 := by
  have hl := (request_grants mb ops hd).2.labelled h.toLabelled
  rw [request_found hf] at hl ⊢
  have hpush : ∀ {j : Nat} {x : Wait}, (mb.waits.push ⟨hd, .holding m, ops⟩)[j]? = some x →
      x.channel ≠ .holding m → mb.waits[j]? = some x := by
    intro j x hx hc
    rw [Array.getElem?_push] at hx
    split at hx
    · cases hx
      exact absurd rfl hc
    · exact hx
  refine h.shrink hl (sorted_prune h.sorted) (fun op' => ?_) ?_ ?_
  · exact (entries_prune h.sorted op').symm ▸ List.filter_sublist
  · rintro op' j ⟨x, hx, hc, hop⟩
    have hj : mb.Awaits op' j := ⟨x, hpush hx (by simp [hc]), hc, hop⟩
    refine ⟨hj, fun hmem => ?_, fun hnil => ?_⟩
    · exact (entries_prune h.sorted op').symm ▸ List.mem_filter.2 ⟨hmem, hj.isLive⟩
    · -- the queue that the message is taken from was not empty
      obtain ⟨-, rest, hq⟩ := first?_some hf
      have hne : op ≠ op' := by
        rintro rfl
        rw [hq] at hnil
        cases hnil
      exact (queue_insert rfl op').trans ((if_neg hne).trans hnil)
  · exact fun j x hx hc => hpush hx (by simp [hc])

theorem Entered.append (h : Entered mb) {x : Wait} (hl : Labelled mb') (hs : mb'.waiters.Sorted)
    (hq : mb'.queues = mb.queues) (hw : mb'.waits = mb.waits.push x)
    (he : ∀ op, mb'.entries op = (mb.entries op).filter mb.isLive ++
      List.replicate (x.operations.count op) mb.waits.size)
    (hidle : ∀ op ∈ x.operations, mb.queue op = [])
    (hx : x.channel = .abandoned → x.operations = []) : Entered mb' := by
  have hsplit : ∀ {j : Nat} {y : Wait}, mb'.waits[j]? = some y →
      (j = mb.waits.size ∧ y = x) ∨ mb.waits[j]? = some y := by
    intro j y hy
    rw [hw, Array.getElem?_push] at hy
    split at hy
    · rename_i hj
      exact .inl ⟨hj, (Option.some.inj hy).symm⟩
    · exact .inr hy
  refine ⟨hl, hs, fun op => ?_, ?_, ?_, ?_⟩
  · rw [he]
    refine List.pairwise_append.2 ⟨(h.ordered op).sublist List.filter_sublist, ?_, ?_⟩
    · exact List.pairwise_replicate.2 (.inr (Nat.le_refl _))
    · intro i hi j hj
      obtain ⟨hi, -⟩ := List.mem_filter.1 hi
      obtain ⟨y, hy, -⟩ := h.listed op i (lists_of_mem_entries hi)
      obtain ⟨hlt, -⟩ := Array.getElem?_eq_some_iff.1 hy
      rw [(List.mem_replicate.1 hj).2]
      exact Nat.le_of_lt hlt
  · rintro op j ⟨y, hy, hc, hop⟩
    rw [he, List.mem_append]
    rcases hsplit hy with ⟨rfl, rfl⟩ | hy
    · have hpos := List.count_pos_iff.2 hop
      exact .inr (List.mem_replicate.2 ⟨by omega, rfl⟩)
    · have hj : mb.Awaits op j := ⟨y, hy, hc, hop⟩
      exact .inl (List.mem_filter.2 ⟨h.present op j hj, hj.isLive⟩)
  · rintro op j ⟨y, hy, hc, hop⟩
    rw [queue_congr hq]
    rcases hsplit hy with ⟨rfl, rfl⟩ | hy
    · exact hidle op hop
    · exact h.idle op j ⟨y, hy, hc, hop⟩
  · intro j y hy hc
    rcases hsplit hy with ⟨-, rfl⟩ | hy
    · exact hx hc
    · exact h.abandoned j y hy hc

theorem Entered.missed (h : Entered mb) {ops : List String} (hf : mb.first? ops = none)
    (hd : HandleId) : Entered (mb.request ops hd).2 := by
  have hl := (request_grants mb ops hd).2.labelled h.toLabelled
  rw [request_missed hf] at hl ⊢
  obtain ⟨hq, hw, -⟩ := enterAll_spec ops { mb.prune with
    waits := mb.waits.push ⟨hd, if ops.isEmpty then .abandoned else .awaiting, ops⟩ } mb.waits.size
  refine h.append hl (sorted_enterAll ops _ _ (sorted_prune h.sorted)) hq hw (fun op => ?_) ?_ ?_
  · exact (entries_enterAll ops _ mb.waits.size op).trans
      (congrArg (· ++ _) (entries_prune h.sorted op))
  · intro op hop
    have hnone := List.findSome?_eq_none_iff.1 hf op hop
    exact List.head?_eq_none_iff.1 (Option.map_eq_none_iff.1 hnone)
  · intro hc
    dsimp only at hc
    split at hc
    · rename_i hnil
      exact List.isEmpty_iff.1 hnil
    · cases hc

theorem Entered.request (h : Entered mb) (ops : List String) (hd : HandleId) :
    Entered (mb.request ops hd).2 := by
  cases hf : mb.first? ops with
  | none => exact h.missed hf hd
  | some p => exact h.found hf hd

end Mailbox

end SagaEngine
