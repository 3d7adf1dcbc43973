import SagaEngine.Checkout
import SagaEngine.Proofs.Solo

/-! The checkout program settles all that it begins. Wherever it is started, either everything is done and
the scope around it can undo it, or everything is undone and the scope around it does not know of it. -/

namespace SagaEngine

theorem Table.insert_insert {α : Type} (m : Table α) (k : String) (x y : α) :
    (m.insert k x).insert k y = m.insert k y := by
  induction m with
  | nil => simp [Table.insert]
  | cons e m ih => grind [Table.insert]

namespace Data

variable {d : Data} {key : String} {items : List Json}

def items? (d : Data) (key : String) : Option (List Json) :=
  match d.get? key with
  | none => some []
  | some (.arr items) => some items
  | some _ => none

theorem push_eq (h : d.items? key = some items) (v : Json) :
    d.push key v = d.insert key (.arr (items ++ [v])) := by
  unfold items? at h
  unfold push
  rcases hg : d.get? key with _ | old
  · simp only [hg, Option.some.injEq] at h ⊢
    rw [← h]
    rfl
  · cases old with
    | arr stored =>
      simp only [hg, Option.some.injEq] at h ⊢
      rw [h]
    | _ => simp only [hg, reduceCtorEq] at h

theorem items_insert (d : Data) (key : String) (items : List Json) :
    items? (d.insert key (.arr items)) key = some items := by
  unfold items?
  rw [Table.get?_insert, if_pos rfl]

theorem foldl_push (h : d.items? key = some items) (v : Json) (vs : List Json) :
    (v :: vs).foldl (fun d v => push d key v) d = d.insert key (.arr (items ++ v :: vs)) := by
  induction vs generalizing d items v with
  | nil => exact push_eq h v
  | cons u vs ih =>
    have hpush := push_eq h v
    have hrest := ih (d := d.push key v) (hpush ▸ items_insert d key _) u
    rw [List.foldl_cons, hrest, hpush, Table.insert_insert, List.append_assoc]
    rfl

end Data

/-! ## The scopes of a checkout -/

namespace Checkout

def ordering (k a : Installed) : Scope Installed :=
  ⟨checkoutScope, [(paymentDeclined, k)], [(checkoutScope, a)]⟩

def reserving (k a b : Installed) : Scope Installed :=
  ⟨checkoutScope, [(paymentDeclined, k)], [(checkoutScope, a), (reserveScope, b)]⟩

def refused (a b : Installed) : Scope Installed :=
  ⟨checkoutScope, [], [(checkoutScope, a), (reserveScope, b)]⟩

def undoing (s : Scope Installed) (a b : Installed) : Scope Installed :=
  { s with compensations := (s.compensations.insert checkoutScope a).insert reserveScope b }

def entries : Bool → List Json
  | false => [.str "reserve stock", .str "leave reserve", .str "charge card", .str "leave checkout"]
  | true => [.str "reserve stock", .str "leave reserve", .str "payment declined",
      .str "release stock", .str "leave checkout"]

theorem ordering_merge (k a b : Installed) :
    (ordering k a).mergeCompensations (({ id := reserveScope } : Scope Installed).installCompensation b) =
      reserving k a b := by
  have hne : checkoutScope ≠ reserveScope := by decide
  have hlt : ¬reserveScope < checkoutScope := by decide
  simp [Scope.mergeCompensations, Scope.installCompensation, ordering, reserving, Table.merge,
    Table.insert, hne, hlt]

theorem takeHandler_reserving (k a b : Installed) :
    (reserving k a b).takeHandler paymentDeclined = (some k, refused a b) := by
  simp [Scope.takeHandler, Scope.handlerName?, reserving, refused, Table.get?, Table.erase,
    Table.contains]

theorem takeCompensation_refused (a b : Installed) :
    (refused a b).takeCompensation reserveScope =
      (some b, ⟨checkoutScope, [], [(checkoutScope, a)]⟩) := by
  have hne : checkoutScope ≠ reserveScope := by decide
  simp [Scope.takeCompensation, refused, Table.get?, Table.erase, hne]

end Checkout

namespace World

open Checkout

variable {w v : World} {t : TaskId} {l : Loop} {n : String} {ss : List (Scope Installed)}
  {ks pend : List Continuation} {kss : List (List Continuation)} {d : Data} {i : Nat}
  {k a b : Installed}

/-! ## The continuations of a checkout -/

theorem works_program (he : w.Engaged t l) (decline : Bool) :
    w.Works t l ⟨"checkout", (program decline).steps, ss, ks, kss, d, i⟩
      ⟨"checkout", [], ordering ⟨i + 1, onDeclined⟩ ⟨i + 3, refund⟩ :: ss,
        [reserveStock, charge decline, leave true], ks :: kss, d, i + 6⟩ := by
  refine .trans (he.works_pushScope checkoutScope) ?_
  refine .trans (he.works_handle _ paymentDeclined onDeclined) ?_
  refine .trans (he.works_compensation _ refund) ?_
  exact he.works_next [reserveStock, charge decline, leave true]

theorem works_reserveStock (he : w.Engaged t l) :
    w.Works t l ⟨n, [], ordering k a :: ss, reserveStock :: ks, kss, d, i⟩
      ⟨"leave_scope", [], reserving k a ⟨i + 3, releaseStock⟩ :: ss, ks, kss,
        (d.push "log" (.str "reserve stock")).push "log" (.str "leave reserve"), i + 8⟩ := by
  refine .trans (he.works_start reserveStock rfl) ?_
  refine .trans (he.works_pushScope reserveScope) ?_
  refine .trans (he.works_log (.str "reserve stock")) ?_
  refine .trans (he.works_compensation _ releaseStock) ?_
  refine .trans (he.works_next [leave true]) ?_
  refine .trans (he.works_start (leave true) rfl) ?_
  rw [← ordering_merge]
  exact he.works_leave _ (ordering k a)

theorem works_charge (he : w.Engaged t l) :
    w.Works t l ⟨n, [], ss, charge false :: ks, kss, d, i⟩
      ⟨"charge", [], ss, ks, kss, d.push "log" (.str "charge card"), i + 2⟩ :=
  .trans (he.works_start (charge false) rfl) (he.works_log (.str "charge card"))

theorem works_decline (he : w.Engaged t l) (hk : k.continuation = onDeclined)
    (hb : b.continuation = releaseStock) :
    w.Works t l ⟨n, [], reserving k a b :: ss, charge true :: pend, ks :: kss, d, i⟩
      ⟨"leave_scope", [], ss, ks, kss,
        ((d.push "log" (.str "payment declined")).push "log" (.str "release stock")).push "log"
          (.str "leave checkout"), i + 10⟩ := by
  refine .trans (he.works_start (charge true) rfl) ?_
  refine .trans (he.works_raise (takeHandler_reserving k a b) (hk ▸ rfl)) ?_
  rw [hk]
  refine .trans (he.works_log (.str "payment declined")) ?_
  refine .trans (he.works_compensate _ reserveScope [leave false]) ?_
  rw [takeCompensation_refused, Option.map_some, hb]
  refine .trans (he.works_start releaseStock rfl) ?_
  refine .trans (he.works_entry (.str "release stock")) ?_
  refine .trans (he.works_start (leave false) rfl) ?_
  exact he.works_discard _

theorem works_accepted (he : w.Engaged t l) (ss : List (Scope Installed)) (ks : List Continuation)
    (kss : List (List Continuation)) (d : Data) (i : Nat) :
    ∃ k a b, a.continuation = refund ∧ b.continuation = releaseStock ∧
      w.Works t l ⟨"checkout", (program false).steps, ss, ks, kss, d, i⟩
        ⟨"leave_scope", (leave true).steps, reserving k a b :: ss, [], ks :: kss,
          ((d.push "log" (.str "reserve stock")).push "log" (.str "leave reserve")).push "log"
            (.str "charge card"), i + 17⟩ := by
  refine ⟨⟨i + 1, onDeclined⟩, ⟨i + 3, refund⟩, ⟨i + 9, releaseStock⟩, rfl, rfl, ?_⟩
  refine .trans (works_program he false) ?_
  refine .trans (works_reserveStock he) ?_
  refine .trans (works_charge he) ?_
  exact he.works_start (leave true) rfl

theorem works_refused (he : w.Engaged t l) :
    w.Works t l ⟨"checkout", (program true).steps, ss, ks, kss, d, i⟩
      ⟨"leave_scope", [], ss, ks, kss,
        ((((d.push "log" (.str "reserve stock")).push "log" (.str "leave reserve")).push "log"
          (.str "payment declined")).push "log" (.str "release stock")).push "log"
            (.str "leave checkout"), i + 24⟩ := by
  refine .trans (works_program he true) ?_
  refine .trans (works_reserveStock he) ?_
  exact works_decline he rfl rfl

/-! ## All or nothing -/

/-- The nearest scope around context `c` can undo a checkout. -/
def undoable (w : World) (c : ContextId) (a b : Installed) : World :=
  match w.scopeOwner? c with
  | some o => w.modifyContext o fun x => { x with scopes := x.scopes.modifyHead (undoing · a b) }
  | none => w

theorem undoable_kept (w : World) (c : ContextId) (a b : Installed) :
    (w.undoable c a b).tasks = w.tasks ∧ (w.undoable c a b).history = w.history := by
  unfold undoable
  split
  · exact ⟨rfl, rfl⟩
  · exact ⟨rfl, rfl⟩

theorem undoable_congr {α : Type} (g : Context → α) (hg : ∀ x scopes, g { x with scopes } = g x)
    (w : World) (c e : ContextId) (a b : Installed) :
    g ((w.undoable c a b).context e) = g (w.context e) := by
  unfold undoable
  split
  · exact context_modifyContext_congr g (fun x => hg x _) w _ e
  · rfl

theorem undoable_own {o : Scope Installed} {below : List (Scope Installed)} {c : ContextId}
    (hs : (w.context c).scopes = o :: below) (a b : Installed) :
    w.undoable c a b = w.modifyContext c fun x =>
      { x with scopes := x.scopes.modifyHead (undoing · a b) } := by
  unfold undoable
  rw [scopeOwner_own hs]

theorem mergeUpward_reserving (hp : Placed w) {c : ContextId} (hs : (w.context c).scopes = [])
    (k a b : Installed) : w.mergeUpward c (reserving k a b) = w.undoable c a b := by
  unfold mergeUpward undoable
  rw [scopeOwner_parent hp hs]
  rcases (w.context c).parent? with _ | p
  · rfl
  · exact updateScope_eq w p _

theorem leads_accepted (he : w.Engaged t l) (hp : Placed w) {ss : List (Scope Installed)}
    (hs : (w.context l.context).scopes = ss)
    (hv : w.Holds t l ⟨n, (leave true).steps, reserving k a b :: ss, [], ks :: kss, d, i⟩ v) :
    ∃ v', Leads [t] v v' ∧ (w.undoable l.context a b).Holds t l
      ⟨n, [], ((w.undoable l.context a b).context l.context).scopes, ks, kss,
        d.push "log" (.str "leave checkout"), i + 1⟩ v' := by
  rcases ss with _ | ⟨o, below⟩
  · obtain ⟨hself, -⟩ := mergeUpward_kept hp l.context (reserving k a b)
    rw [← mergeUpward_reserving hp hs k a b, hself, hs]
    exact he.leads_leave hp rfl rfl rfl hv
  · obtain ⟨v', hlead, hv'⟩ := he.works_leave (reserving k a b) o v hv
    refine ⟨v', hlead, ?_⟩
    rw [undoable_own hs, context_modifyContext_self _ he.context, hs]
    exact hv'.modifyContext fun x => rfl

/-- Wherever a checkout is started, it is done and can be undone, or it leaves nothing behind. -/
theorem checkout_all_or_nothing (hp : Placed w) (decline : Bool)
    (hr : w.Runs t l ⟨"checkout", false⟩ (program decline).steps) (hq : t ∉ w.ready)
    (hu : w.Unstopped l.context) (hpause : (w.context l.context).pauseRequested = false)
    (hm : (w.context l.context).marker = none) {items : List Json}
    (hlog : (w.data l.context).items? "log" = some items) :
    ∃ slice history a b, a.continuation = refund ∧ b.continuation = releaseStock ∧
      w.history.toList <+: history.toList ∧
      Leads [t] w { (if decline then w else w.undoable l.context a b).modifyData l.context fun _ =>
          (w.data l.context).insert "log" (.arr (items ++ entries decline)) with
        tasks := w.tasks.set! t (.loop { l with slice, point := .body ⟨"leave_scope", false⟩ [] })
        history } := by
  have he : w.Engaged t l :=
    ⟨hr.1, (Array.getElem?_eq_some_iff.1 hr.2.1).1, hq, hp.loop hr.2.1, hu, hpause⟩
  have hunmarked : ∀ x : Context, x.marker = none → { x with marker := none } = x := by
    rintro ⟨⟩ rfl
    rfl
  have hstart := holds_self hr hm
  cases decline with
  | true =>
    obtain ⟨v, hlead, hv⟩ := works_refused he w hstart
    obtain ⟨slice, history, hpre, rfl⟩ := hv.settled (hunmarked _ hm)
    have hdata := Data.foldl_push hlog (.str "reserve stock") [.str "leave reserve",
      .str "payment declined", .str "release stock", .str "leave checkout"]
    refine ⟨slice, history, ⟨0, refund⟩, ⟨0, releaseStock⟩, rfl, rfl, hpre, ?_⟩
    rw [entries, ← hdata]
    exact hlead
  | false =>
    obtain ⟨k, a, b, ha, hb, hworks⟩ := works_accepted he (w.context l.context).scopes
      (w.context l.context).pending (w.context l.context).saved (w.data l.context) w.history.size
    obtain ⟨v, hlead, hv⟩ := hworks w hstart
    obtain ⟨v', hlead', hv'⟩ := leads_accepted he hp rfl hv
    -- the scope that has changed may be one of the context itself, which is otherwise as it was
    have hkept := fun {α : Type} (g : Context → α) hg =>
      undoable_congr g hg w l.context l.context a b
    rw [← hkept Context.pending fun _ _ => rfl, ← hkept Context.saved fun _ _ => rfl] at hv'
    have hmark := (hkept Context.marker fun _ _ => rfl).trans hm
    obtain ⟨slice, history, hpre, rfl⟩ := hv'.settled (hunmarked _ hmark)
    obtain ⟨htasks, hhist⟩ := undoable_kept w l.context a b
    have hdata := Data.foldl_push hlog (.str "reserve stock") [.str "leave reserve",
      .str "charge card", .str "leave checkout"]
    rw [htasks] at hlead'
    refine ⟨slice, history, a, b, ha, hb, hhist ▸ hpre, ?_⟩
    rw [entries, ← hdata]
    exact hlead.trans hlead'

theorem purchase_settled : ∃ (w : World) (l : Loop), Reachable False (fun _ => True) w ∧
    w.Runs 0 l ⟨"checkout", false⟩ (program false).steps ∧ w.scopeOwner? l.context = some 0 ∧
    ∃ slice history a b, a.continuation = refund ∧ b.continuation = releaseStock ∧
      w.history.toList <+: history.toList ∧
      Leads [0] w { (w.undoable l.context a b).modifyData l.context fun _ =>
          (w.data l.context).insert "log" (.arr (entries false)) with
        tasks := w.tasks.set! 0 (.loop { l with slice, point := .body ⟨"leave_scope", false⟩ [] })
        history } := by
  have h1 : Reachable False (fun _ => True) (rooted "shop" "store" "main" 1 none) :=
    .rooted _ _ _ _ _ trivial trivial
  have h2 := h1.next (.call (.inl rfl) (.child 0 "cart" (some (program false)) (by decide))) trivial
  have h3 := h2.next (.call (.inl rfl) (.start 1 (by decide))) trivial
  have h4 := h3.next (.pick 0 rfl (by decide)) trivial
  have h5 := h4.next (.drive (t := 0) rfl rfl rfl) trivial
  have h6 := h5.next (.drive (t := 0) rfl rfl rfl) trivial
  have hlog : Data.items? [] "log" = some [] := rfl
  have hlast := checkout_all_or_nothing (t := 0) h6.placed false ⟨rfl, rfl, rfl⟩ (by decide) ⟨rfl, rfl⟩
    rfl rfl hlog
  exact ⟨_, _, h6, ⟨rfl, rfl, rfl⟩, rfl, hlast⟩

end World

end SagaEngine
