import SagaEngine.Proofs.Mail

/-! Names. Handles and installed continuations have numbers, by how many there were before them. The
numbers only tell them apart: what is done to scopes, contexts and mailboxes comes out the same, but for
the numbers, when others are used. -/

namespace SagaEngine

/-- What one world calls the handles and the installed continuations of another. -/
structure Naming where
  handle : HandleId → HandleId
  serial : Nat → Nat

protected def Naming.same : Naming := ⟨id, id⟩

/-! ## Tables and scopes -/

section
variable {α β : Type} (g : α → β)

namespace Table

def mapValues (t : Table α) : Table β := t.map fun e => (e.1, g e.2)

theorem get?_mapValues (t : Table α) (k : String) : (t.mapValues g).get? k = (t.get? k).map g := by
  induction t with
  | nil => rfl
  | cons e t ih =>
    change (if e.1 = k then some (g e.2) else (mapValues g t).get? k) =
      (if e.1 = k then some e.2 else get? t k).map g
    rw [ih]
    split <;> rfl

theorem contains_mapValues (t : Table α) (k : String) : (t.mapValues g).contains k = t.contains k := by
  unfold contains
  rw [get?_mapValues, Option.isSome_map]

theorem insert_mapValues (t : Table α) (k : String) (a : α) :
    (t.mapValues g).insert k (g a) = (t.insert k a).mapValues g := by
  induction t with
  | nil => rfl
  | cons e t ih =>
    change insert ((e.1, g e.2) :: mapValues g t) k (g a) = mapValues g (insert (e :: t) k a)
    unfold insert
    rw [ih]
    split
    · rfl
    · split <;> rfl

theorem erase_mapValues (t : Table α) (k : String) :
    (t.mapValues g).erase k = (t.erase k).mapValues g := by
  induction t with
  | nil => rfl
  | cons e t ih =>
    change erase ((e.1, g e.2) :: mapValues g t) k = mapValues g (erase (e :: t) k)
    unfold erase
    rw [ih]
    split <;> rfl

theorem merge_mapValues (t u : Table α) :
    (t.mapValues g).merge (u.mapValues g) = (t.merge u).mapValues g := by
  induction u generalizing t with
  | nil => rfl
  | cons e u ih =>
    change merge ((t.mapValues g).insert e.1 (g e.2)) (mapValues g u) = _
    rw [insert_mapValues, ih]
    rfl

theorem mapValues_id (t : Table α) : t.mapValues (fun a => a) = t := List.map_id t

end Table

namespace Scope

def map (s : Scope α) : Scope β where
  id := s.id
  handlers := s.handlers.mapValues g
  compensations := s.compensations.mapValues g

theorem installHandler_map (s : Scope α) (fault : String) (k : α) :
    (s.map g).installHandler fault (g k) = (s.installHandler fault k).map g := by
  unfold installHandler map
  dsimp only
  rw [Table.insert_mapValues]

theorem installCompensation_map (s : Scope α) (k : α) :
    (s.map g).installCompensation (g k) = (s.installCompensation k).map g := by
  unfold installCompensation map
  dsimp only
  rw [Table.insert_mapValues]

theorem handlerName?_map (s : Scope α) (fault : String) :
    (s.map g).handlerName? fault = s.handlerName? fault := by
  unfold handlerName? map
  dsimp only
  rw [Table.contains_mapValues, Table.contains_mapValues]

theorem handler?_map (s : Scope α) (fault : String) :
    (s.map g).handler? fault = (s.handler? fault).map g := by
  unfold handler?
  rw [handlerName?_map]
  cases s.handlerName? fault with
  | none => rfl
  | some name => exact Table.get?_mapValues g s.handlers name

theorem takeHandler_map (s : Scope α) (fault : String) :
    (s.map g).takeHandler fault =
      ((s.takeHandler fault).1.map g, (s.takeHandler fault).2.map g) := by
  unfold takeHandler
  rw [handlerName?_map]
  cases s.handlerName? fault with
  | none => rfl
  | some name =>
    unfold map
    dsimp only
    rw [Table.get?_mapValues, Table.erase_mapValues]

theorem lookup_map (s : Scope α) (fault : String) (erase : Bool) :
    (s.map g).lookup fault erase =
      ((s.lookup fault erase).1.map g, (s.lookup fault erase).2.map g) := by
  unfold lookup
  cases erase with
  | false => rw [handler?_map]; rfl
  | true => exact takeHandler_map g s fault

theorem takeCompensation_map (s : Scope α) (id : String) :
    (s.map g).takeCompensation id =
      ((s.takeCompensation id).1.map g, (s.takeCompensation id).2.map g) := by
  unfold takeCompensation map
  dsimp only
  rw [Table.get?_mapValues, Table.erase_mapValues]

theorem mergeCompensations_map (s inner : Scope α) :
    (s.map g).mergeCompensations (inner.map g) = (s.mergeCompensations inner).map g := by
  unfold mergeCompensations map
  dsimp only
  rw [Table.merge_mapValues]

theorem map_id (s : Scope α) : s.map (fun a => a) = s := by
  unfold map
  rw [Table.mapValues_id, Table.mapValues_id]

end Scope

end

variable {r : Naming}

def Installed.renamed (r : Naming) (x : Installed) : Installed := { x with serial := r.serial x.serial }

def Scope.renamed (r : Naming) (s : Scope Installed) : Scope Installed := s.map (Installed.renamed r)

theorem Scope.renamed_same (s : Scope Installed) : s.renamed .same = s := s.map_id

/-! ## Contexts -/

namespace Context

def renamed (r : Naming) (x : Context) : Context :=
  { x with
    scopes := x.scopes.map (Scope.renamed r)
    registry := ⟨x.registry.entries.map r.handle⟩ }

theorem popScope?_renamed (x : Context) (marker : Option String) :
    (x.renamed r).popScope? marker =
      (x.popScope? marker).map fun p => (p.1.renamed r, p.2.renamed r) := by
  unfold popScope? renamed
  dsimp only
  cases x.scopes with
  | nil => rfl
  | cons s below =>
    cases x.saved with
    | nil => rfl
    | cons level saved => rfl

theorem nextContinuation_renamed (x : Context) :
    (x.renamed r).nextContinuation = (x.nextContinuation.1, x.nextContinuation.2.renamed r) := by
  have hpending : (x.renamed r).pending = x.pending := rfl
  unfold nextContinuation
  rw [hpending]
  cases x.pending with
  | nil => rfl
  | cons k rest => rfl

theorem unwindFrom_renamed (fault : String) (n : Nat) (x : Context) :
    unwindFrom fault n (x.renamed r) =
      ((unwindFrom fault n x).1.map (Installed.renamed r), (unwindFrom fault n x).2.renamed r) := by
  induction n generalizing x with
  | zero => rfl
  | succ n ih =>
    have hscopes : (x.renamed r).scopes = x.scopes.map (Scope.renamed r) := rfl
    unfold unwindFrom
    rw [hscopes]
    cases hs : x.scopes with
    | nil => rfl
    | cons s below =>
      have htake := s.takeHandler_map (Installed.renamed r) fault
      change (s.renamed r).takeHandler fault = _ at htake
      have hlen : (List.map (Scope.renamed r) (s :: below)).length = (s :: below).length :=
        List.length_map _
      have hfloor : (x.renamed r).unwindFloor = x.unwindFloor := rfl
      rw [hlen, hfloor, popScope?_renamed, List.map_cons]
      dsimp only
      rw [htake]
      rcases s.takeHandler fault with ⟨_ | k, s'⟩
      · dsimp only [Option.map_none]
        split
        · cases x.popScope? none with
          | none => rfl
          | some p => exact ih p.2
        · rfl
      · rfl

theorem unwind_renamed (fault : String) (x : Context) :
    (x.renamed r).unwind fault =
      ((x.unwind fault).1.map (Installed.renamed r), (x.unwind fault).2.renamed r) := by
  have hlen : (x.renamed r).scopes.length = x.scopes.length := List.length_map _
  unfold unwind
  rw [hlen]
  exact unwindFrom_renamed fault _ x

theorem renamed_same (x : Context) : x.renamed .same = x := by
  have hscopes : x.scopes.map (Scope.renamed .same) = x.scopes := by
    rw [List.map_congr_left fun s _ => s.renamed_same, List.map_id']
  have hentries : x.registry.entries.map Naming.same.handle = x.registry.entries := List.map_id _
  unfold renamed
  rw [hscopes, hentries]

end Context

/-! ## Mailboxes -/

def Wait.renamed (r : Naming) (x : Wait) : Wait := { x with handle := r.handle x.handle }

namespace Mailbox

def renamed (r : Naming) (mb : Mailbox) : Mailbox := { mb with waits := mb.waits.map (Wait.renamed r) }

theorem waits_renamed (mb : Mailbox) (i : Nat) :
    (mb.renamed r).waits[i]? = mb.waits[i]?.map (Wait.renamed r) := Array.getElem?_map

theorem isLive_renamed (mb : Mailbox) : (mb.renamed r).isLive = mb.isLive := by
  funext i
  unfold isLive
  rw [waits_renamed]
  cases mb.waits[i]? with
  | none => rfl
  | some x => rfl

theorem prune_renamed (mb : Mailbox) : (mb.renamed r).prune = mb.prune.renamed r := by
  unfold prune
  rw [isLive_renamed]
  rfl

theorem setChannel_renamed (mb : Mailbox) (i : Nat) (ch : Channel) :
    (mb.renamed r).setChannel i ch = (mb.setChannel i ch).renamed r := by
  have hwaits : (mb.waits.map (Wait.renamed r)).modify i (fun x => { x with channel := ch }) =
      (mb.waits.modify i fun x => { x with channel := ch }).map (Wait.renamed r) := by
    apply Array.ext_getElem?
    intro j
    rw [Array.getElem?_modify, Array.getElem?_map, Array.getElem?_map, Array.getElem?_modify]
    split
    · cases mb.waits[j]? <;> rfl
    · rfl
  unfold setChannel renamed
  dsimp only
  rw [hwaits]

theorem claim_renamed (mb : Mailbox) (op : String) :
    (mb.renamed r).claim op = ((mb.claim op).1, (mb.claim op).2.renamed r) := by
  have hw : (mb.renamed r).waiters = mb.waiters := rfl
  unfold claim
  rw [hw, isLive_renamed]
  cases mb.waiters.get? op with
  | none => rfl
  | some ws =>
    dsimp only
    cases ws.dropWhile fun i => !mb.isLive i with
    | nil => rfl
    | cons i rest => rfl

theorem hand_renamed (mb : Mailbox) (m : Letter) :
    (mb.renamed r).hand m = ((mb.hand m).1, (mb.hand m).2.renamed r) := by
  unfold hand
  rw [claim_renamed]
  rcases mb.claim m.operation with ⟨_ | i, mb'⟩
  · rfl
  · dsimp only
    rw [setChannel_renamed]

theorem requeue_renamed (mb : Mailbox) (m : Letter) :
    (mb.renamed r).requeue m = ((mb.requeue m).1, (mb.requeue m).2.renamed r) := by
  unfold requeue
  rw [hand_renamed]
  rcases mb.hand m with ⟨_ | i, mb'⟩
  · rfl
  · rfl

theorem close_renamed (mb : Mailbox) (i : Nat) :
    (mb.renamed r).close i = ((mb.close i).1, (mb.close i).2.renamed r) := by
  unfold close
  rw [waits_renamed, setChannel_renamed]
  rcases mb.waits[i]? with _ | ⟨h, ch, ops⟩
  · rfl
  · cases ch <;> rfl

theorem enterAll_renamed (ops : List String) (mb : Mailbox) (i : Nat) :
    ops.foldl (fun mb op => mb.enter i op) (mb.renamed r) =
      (ops.foldl (fun mb op => mb.enter i op) mb).renamed r := by
  induction ops generalizing mb with
  | nil => rfl
  | cons op ops ih => exact ih (mb.enter i op)

theorem request_renamed (mb : Mailbox) (ops : List String) (h : HandleId) :
    (mb.renamed r).request ops (r.handle h) =
      ((mb.request ops h).1, (mb.request ops h).2.renamed r) := by
  have hsize : (mb.renamed r).waits.size = mb.waits.size := Array.size_map
  have hpush : ∀ ch, (mb.renamed r).waits.push ⟨r.handle h, ch, ops⟩ =
      (mb.waits.push ⟨h, ch, ops⟩).map (Wait.renamed r) := fun ch => by
    rw [Array.map_push]
    rfl
  cases hf : mb.first? ops with
  | some p =>
    obtain ⟨op, m⟩ := p
    have hf' : (mb.renamed r).first? ops = some (op, m) := hf
    rw [request_found hf, request_found hf', hsize, hpush, prune_renamed]
    rfl
  | none =>
    have hf' : (mb.renamed r).first? ops = none := hf
    rw [request_missed hf, request_missed hf', hsize, hpush, prune_renamed]
    exact congrArg (Prod.mk _) (enterAll_renamed ops { mb.prune with
      waits := mb.waits.push ⟨h, if ops.isEmpty then .abandoned else .awaiting, ops⟩ } mb.waits.size)

end Mailbox

def Session.renamed (r : Naming) (s : Session) : Session := { s with mailbox := s.mailbox.renamed r }

end SagaEngine
