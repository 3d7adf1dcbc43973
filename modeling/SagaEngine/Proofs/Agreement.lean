import SagaEngine.Proofs.Naming
import SagaEngine.Proofs.Scripts
import SagaEngine.Proofs.Signals
import SagaEngine.Proofs.Solo

/-! Worlds that agree on a context, its ancestors, its session and the handles involved, but for the
numbers of handles and of installed continuations, which depend on what all other contexts have done.
The operations of the engine on that context, and what the engine does in its drive loop, keep the
agreement. -/

namespace SagaEngine

namespace Mailbox

variable {H : Set HandleId} {mb mb' : Mailbox}

def Within (H : Set HandleId) (mb : Mailbox) : Prop :=
  ∀ (i : Nat) (x : Wait), mb.waits[i]? = some x → x.handle ∈ H

theorem Within.of_waits (h : Within H mb) (hw : mb'.waits = mb.waits) : Within H mb' := fun i x hx =>
  h i x (hw ▸ hx)

theorem Within.setChannel (h : Within H mb) (i : Nat) (ch : Channel) :
    Within H (mb.setChannel i ch) := by
  intro j x hx
  have hm : (mb.waits.modify i fun y => { y with channel := ch })[j]? = some x := hx
  rw [Array.getElem?_modify] at hm
  split at hm
  · obtain ⟨y, hy, rfl⟩ := Option.map_eq_some_iff.1 hm
    exact h j y hy
  · exact h j x hm

theorem Within.push (h : Within H mb) {y : Wait} (hy : y.handle ∈ H)
    (hw : mb'.waits = mb.waits.push y) : Within H mb' := by
  intro i x hx
  rw [hw, Array.getElem?_push] at hx
  split at hx
  · cases hx
    exact hy
  · exact h i x hx

theorem Within.requeue (h : Within H mb) (m : Letter) : Within H (mb.requeue m).2 := by
  have hc : Within H (mb.claim m.operation).2 := h.of_waits (claim_spec mb m.operation).2.1
  unfold Mailbox.requeue hand
  rcases hx : mb.claim m.operation with ⟨_ | i, mb'⟩
  · rw [hx] at hc
    exact hc.of_waits rfl
  · rw [hx] at hc
    exact hc.setChannel i _

theorem Within.request (h : Within H mb) (ops : List String) {k : HandleId} (hk : k ∈ H) :
    Within H (mb.request ops k).2 := by
  cases (mb.request_grants ops k).2 with
  | held _ _ _ hw _ => exact h.push hk hw
  | entered _ _ _ hw _ => exact h.push hk hw

end Mailbox

namespace World

variable {r : Naming} {w w' v v' : World} {c d : ContextId} {H : Set HandleId}

/-! ## Agreement -/

/-- Two worlds agree, under a naming, on a lineage, on its session and on the handles of `H`. -/
structure Alike (r : Naming) (c : ContextId) (H : Set HandleId) (w v : World) : Prop where
  exist : ∀ d ∈ w.lineage c, d < w.contexts.size ∧ d < v.contexts.size
  context : ∀ d ∈ w.lineage c, v.context d = (w.context d).renamed r
  seated : (w.context c).session < w.sessions.size ∧ (w.context c).session < v.sessions.size
  session : v.session (w.context c).session = (w.session (w.context c).session).renamed r
  handle : ∀ h ∈ H, v.handles[r.handle h]? = w.handles[h]?
  apart : ∀ h ∈ H, ∀ k ∈ H, r.handle h = r.handle k → h = k
  fresh : ∀ h, w.handles.size ≤ h → h ∈ H
  nextHandle : ∀ n, r.handle (w.handles.size + n) = v.handles.size + n
  nextSerial : ∀ n, r.serial (w.history.size + n) = v.history.size + n
  registered : ∀ d ∈ w.lineage c, ∀ h ∈ (w.context d).registry.entries, h ∈ H
  waited : (w.mailbox (w.context c).session).Within H

structure Unseen (w w' : World) : Prop where
  contexts : w'.contexts = w.contexts
  sessions : w'.sessions = w.sessions
  handles : w'.handles = w.handles
  numbers : w'.history.size = w.history.size

theorem unseen_wakeSleeper (w : World) (h : HandleId) : Unseen w (w.wakeSleeper h) := by
  rw [wakeSleeper_eq]
  cases w.sleeper? h with
  | none => exact ⟨rfl, rfl, rfl, rfl⟩
  | some t =>
    change Unseen w (w.wake t)
    rw [wake_eq]
    exact ⟨rfl, rfl, rfl, rfl⟩

theorem unseen_list (w : World) (c : ContextId) : Unseen w (w.list c) := by
  unfold World.list
  split <;> exact ⟨rfl, rfl, rfl, rfl⟩

theorem mem_lineage (hs : Signals w w') (hd : d ∈ w.lineage c) : d ∈ w'.lineage c := by
  unfold lineage
  rw [hs.ancestors]
  exact hd

namespace Alike

theorem self (h : Alike r c H w v) : v.context c = (w.context c).renamed r := h.context c (.head _)

theorem field {α : Type} (h : Alike r c H w v) (hd : d ∈ w.lineage c) (g : Context → α)
    (hg : ∀ x : Context, g (x.renamed r) = g x) :
    g (v.context d) = g (w.context d) := (congrArg g (h.context d hd)).trans (hg _)

theorem mailbox (h : Alike r c H w v) :
    v.mailbox (w.context c).session = (w.mailbox (w.context c).session).renamed r :=
  congrArg Session.mailbox h.session

theorem unseen (h : Alike r c H w v) (hw : Unseen w w') (hv : Unseen v v') : Alike r c H w' v' := by
  obtain ⟨hc, hs, hh, hn⟩ := hw
  obtain ⟨hc', hs', hh', hn'⟩ := hv
  have hctx : ∀ d, w'.context d = w.context d := fun d => congrArg (·.getD d default) hc
  have hctx' : ∀ d, v'.context d = v.context d := fun d => congrArg (·.getD d default) hc'
  have hses : ∀ s, w'.session s = w.session s := fun s => congrArg (·.getD s default) hs
  have hses' : ∀ s, v'.session s = v.session s := fun s => congrArg (·.getD s default) hs'
  have hline : w'.lineage c = w.lineage c := by
    unfold World.lineage
    rw [hctx]
  refine ⟨?_, ?_, ?_, ?_, ?_, h.apart, ?_, ?_, ?_, ?_, ?_⟩
  · rw [hline, hc, hc']
    exact h.exist
  · intro d hd
    rw [hline] at hd
    rw [hctx, hctx']
    exact h.context d hd
  · rw [hctx, hs, hs']
    exact h.seated
  · rw [hctx, hses, hses']
    exact h.session
  · rw [hh, hh']
    exact h.handle
  · rw [hh]
    exact h.fresh
  · rw [hh, hh']
    exact h.nextHandle
  · rw [hn, hn']
    exact h.nextSerial
  · intro d hd
    rw [hline] at hd
    rw [hctx]
    exact h.registered d hd
  · unfold World.mailbox
    rw [hctx, hses]
    exact h.waited

theorem record (h : Alike r c H w v) (e e' : Event) : Alike r c H (w.record e) (v.record e') :=
  { h with
    nextSerial := fun n => by
      change r.serial ((w.history.push e).size + n) = (v.history.push e').size + n
      rw [Array.size_push, Array.size_push, Nat.add_assoc, Nat.add_assoc]
      exact h.nextSerial (1 + n) }

theorem wakeSleeper (h : Alike r c H w v) (k i : HandleId) :
    Alike r c H (w.wakeSleeper k) (v.wakeSleeper i) :=
  h.unseen (unseen_wakeSleeper w k) (unseen_wakeSleeper v i)

theorem modify (h : Alike r c H w v) {f g : Context → Context}
    (hg : g ((w.context d).renamed r) = (f (w.context d)).renamed r)
    (ha : (f (w.context d)).ancestors = (w.context d).ancestors)
    (hs : (f (w.context d)).session = (w.context d).session)
    (hr : ∀ k ∈ (f (w.context d)).registry.entries, k ∈ H) :
    Alike r c H (w.modifyContext d f) (v.modifyContext d g) := by
  have hanc : ((w.modifyContext d f).context c).ancestors = (w.context c).ancestors := by
    rw [context_modifyContext]
    split
    · rename_i hc
      rw [← hc.1, ha]
    · rfl
  have hses : ((w.modifyContext d f).context c).session = (w.context c).session := by
    rw [context_modifyContext]
    split
    · rename_i hc
      rw [← hc.1, hs]
    · rfl
  -- `d` may be `c` itself or any other context, also one that is not in the lineage
  have hline : (w.modifyContext d f).lineage c = w.lineage c := congrArg (List.cons c) hanc
  refine { h with exist := ?_, context := ?_, seated := ?_, session := ?_, registered := ?_,
                  waited := ?_ }
  · rw [hline, contexts_size_modifyContext, contexts_size_modifyContext]
    exact h.exist
  · intro e he
    rw [hline] at he
    rw [context_modifyContext, context_modifyContext, h.context e he]
    by_cases hde : d = e
    · subst hde
      rw [if_pos ⟨rfl, (h.exist d he).2⟩, if_pos ⟨rfl, (h.exist d he).1⟩, hg]
    · rw [if_neg fun hc => hde hc.1, if_neg fun hc => hde hc.1]
  · rw [hses]
    exact h.seated
  · rw [hses]
    exact h.session
  · intro e he k hk
    rw [hline] at he
    rw [context_modifyContext] at hk
    split at hk
    · rename_i hc
      rw [← hc.1] at hk
      exact hr k hk
    · exact h.registered e he k hk
  · rw [hses]
    exact h.waited

theorem replace (h : Alike r c H w v) {x : Context} (hx : x.bare = (w.context c).bare) :
    Alike r c H (w.modifyContext c fun _ => x) (v.modifyContext c fun _ => x.renamed r) := by
  have hkept : x.ancestors = (w.context c).ancestors ∧ x.session = (w.context c).session ∧
      x.registry = (w.context c).registry := by
    change x.bare.ancestors = (w.context c).bare.ancestors ∧
      x.bare.session = (w.context c).bare.session ∧ x.bare.registry = (w.context c).bare.registry
    rw [hx]
    exact ⟨rfl, rfl, rfl⟩
  obtain ⟨ha, hs, hr⟩ := hkept
  refine h.modify rfl ha hs fun k hk => ?_
  rw [hr] at hk
  exact h.registered c (.head _) k hk

theorem withHandles (h : Alike r c H w v) (hs ks : Handles) (hle : w.handles.size ≤ hs.size)
    (hn : ∀ n, r.handle (hs.size + n) = ks.size + n) (hk : ∀ i ∈ H, ks[r.handle i]? = hs[i]?) :
    Alike r c H (w.withHandles hs) (v.withHandles ks) :=
  { h with
    handle := hk
    fresh := fun i hi => h.fresh i (Nat.le_trans hle hi)
    nextHandle := hn }

theorem modifyHandle (h : Alike r c H w v) {k : HandleId} (hk : k ∈ H) (f : Handle → Handle) :
    Alike r c H (w.withHandles (w.handles.modify k f))
      (v.withHandles (v.handles.modify (r.handle k) f)) := by
  refine h.withHandles _ _ ?_ ?_ fun i hi => ?_
  · rw [Array.size_modify]
  · rw [Array.size_modify, Array.size_modify]
    exact h.nextHandle
  · rw [Array.getElem?_modify, Array.getElem?_modify, h.handle i hi]
    by_cases hki : k = i
    · rw [if_pos hki, if_pos (congrArg r.handle hki)]
    · rw [if_neg hki, if_neg fun he => hki (h.apart k hk i hi he)]

theorem isLive (h : Alike r c H w v) {k : HandleId} (hk : k ∈ H) :
    v.handles.isLive (r.handle k) = w.handles.isLive k := by
  unfold Handles.isLive
  rw [h.handle k hk]

theorem cancelHandle (h : Alike r c H w v) {k : HandleId} (hk : k ∈ H) :
    Alike r c H (w.cancelHandle k).2 (v.cancelHandle (r.handle k)).2 := by
  have hlive := h.isLive hk
  have hm := h.modifyHandle hk fun x => { x with finished := true, cancelled := true }
  rw [cancelHandle_eq, cancelHandle_eq, hlive]
  unfold Handles.cancel
  rw [hlive]
  split
  · exact hm.wakeSleeper k _
  · exact h

theorem cancelHandles (ks : List HandleId) (hk : ∀ k ∈ ks, k ∈ H) (h : Alike r c H w v) :
    Alike r c H (w.cancelHandles ks) (v.cancelHandles (ks.map r.handle)) := by
  induction ks generalizing w v with
  | nil => exact h
  | cons k ks ih =>
    have hhead := h.cancelHandle (hk k (.head _))
    exact ih (fun i hi => hk i (.tail _ hi)) hhead

/-! ### Signals -/

theorem notify (h : Alike r c H w v) (hd : d ∈ w.lineage c) :
    Alike r c H (w.notify d) (v.notify d) := by
  have hr := h.registered d hd
  have hidle := h.field hd Context.idle fun _ => rfl
  unfold World.notify
  rw [hidle]
  split
  · rename_i t idle _
    have hm : Alike r c H (w.modifyContext d fun x => { x with idle })
        (v.modifyContext d fun x => { x with idle }) := h.modify rfl rfl rfl hr
    rw [wake_eq, wake_eq]
    exact hm.unseen ⟨rfl, rfl, rfl, rfl⟩ ⟨rfl, rfl, rfl, rfl⟩
  · exact h.modify rfl rfl rfl hr

theorem cancelRegistered (h : Alike r c H w v) (hd : d ∈ w.lineage c) :
    Alike r c H (w.cancelRegistered d) (v.cancelRegistered d) := by
  have hc := h.cancelHandles _ (h.registered d hd)
  rw [cancelRegistered_eq, cancelRegistered_eq, h.context d hd]
  exact hc.modify rfl rfl rfl fun k hk => by cases hk

theorem kill (h : Alike r c H w v) (hd : d ∈ w.lineage c) (f : Fault) :
    Alike r c H (w.kill d f) (v.kill d f) := by
  have hk : Alike r c H (w.modifyContext d fun x => { x with killer := x.killer.or (some f) })
      (v.modifyContext d fun x => { x with killer := x.killer.or (some f) }) :=
    h.modify rfl rfl rfl (h.registered d hd)
  have hs := signals_modifyContext w d (fun x => { x with killer := x.killer.or (some f) })
    fun _ => rfl
  have hd' := mem_lineage hs hd
  have hr := hk.cancelRegistered hd'
  exact hr.notify (mem_lineage (signals_cancelRegistered _ d) hd')

theorem escalate (h : Alike r c H w v) (hd : d ∈ w.lineage c) (f : Fault) :
    Alike r c H (w.escalate d f) (v.escalate d f) := by
  have hstate := h.field hd Context.runState fun _ => rfl
  unfold World.escalate
  dsimp only
  rw [hstate]
  split
  · exact (h.kill hd f).notify (mem_lineage (signals_kill w d f) hd)
  · have he : Alike r c H (w.modifyContext d fun x => { x with escalated := x.escalated.or (some f) })
        (v.modifyContext d fun x => { x with escalated := x.escalated.or (some f) }) :=
      h.modify rfl rfl rfl (h.registered d hd)
    have hs := signals_modifyContext w d (fun x => { x with escalated := x.escalated.or (some f) })
      fun _ => rfl
    have hd' := mem_lineage hs hd
    have hr := he.cancelRegistered hd'
    exact hr.notify (mem_lineage (signals_cancelRegistered _ d) hd')

theorem childFinished (h : Alike r c H w v) (hd : d ∈ w.lineage c) :
    Alike r c H (w.childFinished d) (v.childFinished d) := by
  have hm : Alike r c H (w.modifyContext d fun x => { x with activeChildren := x.activeChildren - 1 })
      (v.modifyContext d fun x => { x with activeChildren := x.activeChildren - 1 }) :=
    h.modify rfl rfl rfl (h.registered d hd)
  have hs := signals_modifyContext w d (fun x => { x with activeChildren := x.activeChildren - 1 })
    fun _ => rfl
  exact hm.notify (mem_lineage hs hd)

theorem prune (h : Alike r c H w v) (hd : d ∈ w.lineage c) :
    ((w.context d).renamed r).registry.prune v.handles =
      ⟨((w.context d).registry.prune w.handles).entries.map r.handle⟩ := by
  have hp : ∀ ks : List HandleId, (∀ k ∈ ks, k ∈ H) →
      ((ks.map r.handle).dropWhile fun k => !v.handles.isLive k) =
        (ks.dropWhile fun k => !w.handles.isLive k).map r.handle := by
    intro ks hks
    induction ks with
    | nil => rfl
    | cons k ks ih =>
      rw [List.map_cons, List.dropWhile_cons, List.dropWhile_cons, h.isLive (hks k (.head _)),
        ih fun i hi => hks i (.tail _ hi)]
      split <;> rfl
  exact congrArg Registry.mk (hp _ (h.registered d hd))

theorem cancelIfKilled (h : Alike r c H w v) (hd : d ∈ w.lineage c) {k : HandleId} (hk : k ∈ H) :
    Alike r c H (w.cancelIfKilled d k) (v.cancelIfKilled d (r.handle k)) := by
  have hin : ∀ i ∈ ((w.context d).registry.prune w.handles).entries, i ∈ H := fun i hi =>
    h.registered d hd i ((List.dropWhile_sublist _).subset hi)
  have hp : Alike r c H (w.modifyContext d fun x => { x with registry := x.registry.prune w.handles })
      (v.modifyContext d fun x => { x with registry := x.registry.prune v.handles }) := by
    refine h.modify ?_ rfl rfl hin
    rw [h.prune hd]
    rfl
  have hs := signals_modifyContext w d (fun x => { x with registry := x.registry.prune w.handles })
    fun _ => rfl
  have hd' := mem_lineage hs hd
  have hkilled := hp.field hd' Context.isKilled fun _ => rfl
  have hregister : ∀ x : Context, (x.renamed r).registry.register (r.handle k) =
      ⟨(x.registry.register k).entries.map r.handle⟩ := fun x => by
    unfold Registry.register
    rw [List.map_append]
    rfl
  unfold World.cancelIfKilled
  dsimp only
  rw [hkilled]
  split
  · exact hp.cancelHandle hk
  · refine hp.modify ?_ rfl rfl fun i hi => ?_
    · rw [hregister]
      rfl
    rcases List.mem_append.1 hi with hi | hi
    · exact hp.registered d hd' i hi
    · cases List.mem_singleton.1 hi
      exact hk

/-! ### Messages -/

theorem setMailbox (h : Alike r c H w v) {mb : Mailbox} (hmb : mb.Within H) :
    Alike r c H (w.setMailbox (w.context c).session mb)
      (v.setMailbox (w.context c).session (mb.renamed r)) := by
  have hsize : ∀ (u : World) mb, (u.setMailbox (w.context c).session mb).sessions.size =
      u.sessions.size := fun u _ => Array.size_modify
  have hnew : (w.setMailbox (w.context c).session mb).session (w.context c).session =
      { w.session (w.context c).session with mailbox := mb } :=
    (session_modifySession w _ _ _).trans (if_pos ⟨rfl, h.seated.1⟩)
  have hnew' : (v.setMailbox (w.context c).session (mb.renamed r)).session (w.context c).session =
      { v.session (w.context c).session with mailbox := mb.renamed r } :=
    (session_modifySession v _ _ _).trans (if_pos ⟨rfl, h.seated.2⟩)
  refine { h with seated := ?_, session := ?_, waited := ?_ }
  · rw [hsize, hsize]
    exact h.seated
  · change (v.setMailbox (w.context c).session (mb.renamed r)).session (w.context c).session =
      ((w.setMailbox (w.context c).session mb).session (w.context c).session).renamed r
    rw [hnew, hnew', h.session]
    rfl
  · change Mailbox.Within H ((w.setMailbox (w.context c).session mb).session
      (w.context c).session).mailbox
    rw [hnew]
    exact hmb

theorem waitRecord (h : Alike r c H w v) (i : Nat) :
    v.waitRecord? ⟨(w.context c).session, i⟩ =
      (w.waitRecord? ⟨(w.context c).session, i⟩).map (Wait.renamed r) := by
  unfold waitRecord?
  rw [h.mailbox]
  exact Mailbox.waits_renamed ..

theorem waitHandle (h : Alike r c H w v) (i : Nat) :
    v.waitHandle? ⟨(w.context c).session, i⟩ =
      (w.waitHandle? ⟨(w.context c).session, i⟩).map r.handle := by
  unfold World.waitHandle?
  rw [h.waitRecord, Option.map_map, Option.map_map]
  rfl

theorem waitHandle_mem (h : Alike r c H w v) {i : Nat} {k : HandleId}
    (hk : w.waitHandle? ⟨(w.context c).session, i⟩ = some k) : k ∈ H := by
  obtain ⟨x, hx, rfl⟩ := Option.map_eq_some_iff.1 hk
  exact h.waited i x hx

theorem resolution (h : Alike r c H w v) (i : Nat) :
    v.resolution? ⟨(w.context c).session, i⟩ = w.resolution? ⟨(w.context c).session, i⟩ := by
  unfold World.resolution?
  rw [h.waitRecord]
  cases hx : w.waitRecord? ⟨(w.context c).session, i⟩ with
  | none => rfl
  | some x =>
    have hh : v.handles.isCancelled (r.handle x.handle) = w.handles.isCancelled x.handle := by
      unfold Handles.isCancelled
      rw [h.handle _ (h.waited i x hx)]
    unfold Wait.renamed
    dsimp only [Option.map_some]
    rw [hh]

theorem wakeServed (h : Alike r c H w v) (served : Option Nat) :
    Alike r c H (w.wakeServed (w.context c).session served)
      (v.wakeServed (w.context c).session served) := by
  unfold World.wakeServed
  cases served with
  | none => exact h
  | some i =>
    dsimp only [Option.bind_some]
    rw [h.waitHandle]
    cases w.waitHandle? ⟨(w.context c).session, i⟩ with
    | none => exact h
    | some k => exact h.wakeSleeper _ _

theorem requeue (h : Alike r c H w v) (m : Letter) :
    Alike r c H (w.requeue (w.context c).session m) (v.requeue (w.context c).session m) := by
  unfold World.requeue
  rw [h.mailbox, Mailbox.requeue_renamed]
  exact (h.setMailbox (h.waited.requeue m)).wakeServed _

theorem newHandle (h : Alike r c H w v) : Alike r c H w.newHandle.2 v.newHandle.2 := by
  have hnext : r.handle w.handles.size = v.handles.size := h.nextHandle 0
  refine h.withHandles (w.handles.push {}) (v.handles.push {}) ?_ (fun n => ?_) fun i hi => ?_
  · rw [Array.size_push]
    exact Nat.le_succ _
  · rw [Array.size_push, Array.size_push, Nat.add_assoc, Nat.add_assoc]
    exact h.nextHandle (1 + n)
  · rw [Array.getElem?_push, Array.getElem?_push, h.handle i hi]
    by_cases hin : i = w.handles.size
    · rw [if_pos hin, if_pos (hin ▸ hnext)]
    · rw [if_neg hin, if_neg fun he => hin ?_]
      exact h.apart i hi _ (h.fresh _ (Nat.le_refl _)) (he.trans hnext.symm)

theorem request (h : Alike r c H w v) (ops : List String) : ∃ i,
    (w.request (w.context c).session ops).1 = ⟨(w.context c).session, i⟩ ∧
      (v.request (w.context c).session ops).1 = ⟨(w.context c).session, i⟩ ∧
      Alike r c H (w.request (w.context c).session ops).2
        (v.request (w.context c).session ops).2 := by
  have hn := h.newHandle
  have hmb : v.newHandle.2.mailbox (w.context c).session =
      (w.newHandle.2.mailbox (w.context c).session).renamed r := hn.mailbox
  have hk : v.newHandle.1 = r.handle w.newHandle.1 := (h.nextHandle 0).symm
  have hw := hn.setMailbox (hn.waited.request ops (h.fresh _ (Nat.le_refl _)))
  unfold World.request
  dsimp only
  rw [hmb, hk, Mailbox.request_renamed]
  exact ⟨_, rfl, rfl, hw⟩

theorem closeWait (h : Alike r c H w v) (i : Nat) :
    Alike r c H (w.closeWait ⟨(w.context c).session, i⟩).2
      (v.closeWait ⟨(w.context c).session, i⟩).2 := by
  have hmb : ((w.mailbox (w.context c).session).close i).2.Within H := h.waited.setChannel i .closed
  have hm := h.setMailbox hmb
  unfold World.closeWait
  dsimp only
  rw [h.waitHandle, h.mailbox, Mailbox.close_renamed]
  cases hk : w.waitHandle? ⟨(w.context c).session, i⟩ with
  | none => exact hm
  | some k => exact hm.modifyHandle (h.waitHandle_mem hk) fun x => { x with finished := true }

theorem beginReceive (h : Alike r c H w v) (ops : List String) :
    (∃ f, w.beginReceive c ops = .error f ∧ v.beginReceive c ops = .error f) ∨
      ∃ i w' v', w.beginReceive c ops = .ok (i, w') ∧ v.beginReceive c ops = .ok (i, v') ∧
        Alike r c H w' v' := by
  obtain ⟨i, hi, hi', hr⟩ := h.request ops
  have hctx := (posts_request w (w.context c).session ops).context c
  have hw := hr.waitHandle i
  rw [hctx] at hw
  have hstop := h.field (.head _) Context.interruption? fun _ => rfl
  have hses := h.field (.head _) Context.session fun _ => rfl
  unfold World.beginReceive
  rw [hstop, hses]
  cases (w.context c).interruption? with
  | some f => exact .inl ⟨f, rfl, rfl⟩
  | none =>
    dsimp only
    rw [hi, hi', hw]
    refine .inr ⟨_, _, _, rfl, rfl, ?_⟩
    cases hk : (w.request (w.context c).session ops).2.waitHandle? ⟨(w.context c).session, i⟩ with
    | none => exact hr
    | some k =>
      rw [← hctx] at hk
      exact hr.cancelIfKilled (.head _) (hr.waitHandle_mem hk)

theorem endReceive (h : Alike r c H w v) (i : Nat) (a : Except (Option Letter) Letter) :
    (v.endReceive c ⟨(w.context c).session, i⟩ a).2 =
        (w.endReceive c ⟨(w.context c).session, i⟩ a).2 ∧
      Alike r c H (w.endReceive c ⟨(w.context c).session, i⟩ a).1
        (v.endReceive c ⟨(w.context c).session, i⟩ a).1 := by
  have hc := h.closeWait i
  have hctx := (posts_closeWait w ⟨(w.context c).session, i⟩).context c
  unfold World.endReceive
  generalize (w.closeWait ⟨(w.context c).session, i⟩).2 = w₁ at hc hctx
  generalize (v.closeWait ⟨(w.context c).session, i⟩).2 = v₁ at hc
  cases a with
  | ok m => exact ⟨rfl, hc.record _ _⟩
  | error unread => cases unread with
    | none =>
      have hstop := hc.field (.head _) Context.interruption? fun _ => rfl
      dsimp only
      rw [hstop]
      exact ⟨rfl, hc.record _ _⟩
    | some m =>
      have hq := hc.requeue m
      rw [hctx] at hq
      have hstop := hq.field (.head _) Context.interruption? fun _ => rfl
      dsimp only
      rw [hstop]
      exact ⟨rfl, hq.record _ _⟩

/-! ### Scopes -/

theorem scopeOwner (h : Alike r c H w v) (hd : ∀ e ∈ w.lineage d, e ∈ w.lineage c) :
    v.scopeOwner? d = w.scopeOwner? d := by
  have hline : v.lineage d = w.lineage d :=
    h.field (hd d (.head _)) (fun x => d :: x.ancestors) fun _ => rfl
  unfold scopeOwner?
  rw [hline]
  exact List.find?_congr fun e he =>
    h.field (hd e he) (fun x => !x.scopes.isEmpty) fun _ => congrArg not List.isEmpty_map

theorem nearestScope (h : Alike r c H w v) (hd : ∀ e ∈ w.lineage d, e ∈ w.lineage c) :
    v.nearestScope? d = (w.nearestScope? d).map (Scope.renamed r) := by
  unfold nearestScope?
  rw [h.scopeOwner hd]
  cases ho : w.scopeOwner? d with
  | none => rfl
  | some o =>
    have hmem := hd o (List.mem_of_find?_eq_some ho)
    rw [Option.bind_some, Option.bind_some, h.context o hmem]
    exact List.head?_map

theorem noScope (h : Alike r c H w v) (hd : d ∈ w.lineage c) : v.noScope d = w.noScope d :=
  h.field hd (fun x => EngineError.noScope x.label) fun _ => rfl

theorem readScope {α : Type} (h : Alike r c H w v) (f : Scope Installed → α)
    (hf : ∀ s : Scope Installed, f (s.renamed r) = f s) : v.readScope c f = w.readScope c f := by
  unfold World.readScope
  rw [h.nearestScope fun _ he => he, h.noScope (.head _)]
  cases w.nearestScope? c with
  | none => rfl
  | some s => exact congrArg Except.ok (hf s)

theorem updateScope {α : Type} {g : α → α} (h : Alike r c H w v)
    (hd : ∀ e ∈ w.lineage d, e ∈ w.lineage c) (f f' : Scope Installed → α × Scope Installed)
    (hf : ∀ s : Scope Installed, f' (s.renamed r) = (g (f s).1, (f s).2.renamed r)) :
    (v.updateScope d f').2 = (w.updateScope d f).2.map g ∧
      Alike r c H (w.updateScope d f).1 (v.updateScope d f').1 := by
  unfold World.updateScope
  rw [h.scopeOwner hd, h.nearestScope hd, h.noScope (hd d (.head _))]
  cases ho : w.scopeOwner? d with
  | none => exact ⟨rfl, h⟩
  | some o =>
    have hmem := hd o (List.mem_of_find?_eq_some ho)
    cases w.nearestScope? d with
    | none => exact ⟨rfl, h⟩
    | some s =>
      dsimp only [Option.map_some]
      rw [hf]
      refine ⟨rfl, h.modify ?_ rfl rfl (h.registered o hmem)⟩
      unfold Context.renamed
      dsimp only
      rw [List.map_cons, List.map_tail]

theorem install (h : Alike r c H w v) (role : Role) (k : Continuation)
    {put : Installed → Scope Installed → Scope Installed}
    (hput : ∀ x s, put (x.renamed r) (s.renamed r) = (put x s).renamed r) :
    (v.install c role k put).2 = (w.install c role k put).2 ∧
      Alike r c H (w.install c role k put).1 (v.install c role k put).1 := by
  have hserial : (⟨v.history.size, k⟩ : Installed) = Installed.renamed r ⟨w.history.size, k⟩ :=
    congrArg (Installed.mk · k) (h.nextSerial 0).symm
  obtain ⟨hr, hu⟩ := h.updateScope (d := c) (g := id) (fun _ he => he)
    (fun s => ((), put ⟨w.history.size, k⟩ s)) (fun s => ((), put ⟨v.history.size, k⟩ s))
    fun s => by rw [hserial, hput]
  unfold World.install
  dsimp only
  generalize w.updateScope c _ = x at hr hu ⊢
  generalize v.updateScope c _ = y at hr hu ⊢
  obtain ⟨w₁, a⟩ := x
  obtain ⟨v₁, _⟩ := y
  cases hr
  cases a with
  | ok u => exact ⟨rfl, hu.record _ _⟩
  | error e => exact ⟨rfl, hu⟩

theorem mergeUpward (h : Alike r c H w v) (hp : Placed w) (s : Scope Installed) :
    Alike r c H (w.mergeUpward c s) (v.mergeUpward c (s.renamed r)) := by
  have hparent := h.field (.head _) Context.parent? fun _ => rfl
  unfold World.mergeUpward
  rw [hparent]
  cases hpar : (w.context c).parent? with
  | none => exact h
  | some p =>
    obtain ⟨rest, ha⟩ := List.head?_eq_some_iff.1 hpar
    refine (h.updateScope (d := p) (g := id) (fun e he => ?_) _ _ fun outer => ?_).2
    · unfold World.lineage at he ⊢
      rw [(hp.lineage c p rest ha).2] at he
      rw [ha]
      exact .tail _ he
    · exact congrArg (Prod.mk ()) (Scope.mergeCompensations_map _ outer s)

theorem popScope (h : Alike r c H w v) (hp : Placed w) (merge : Bool) (marker : Option String) :
    (v.popScope c merge marker).2 = (w.popScope c merge marker).2 ∧
      Alike r c H (w.popScope c merge marker).1 (v.popScope c merge marker).1 := by
  unfold World.popScope
  rw [h.self, Context.popScope?_renamed]
  cases hx : (w.context c).popScope? marker with
  | none => exact ⟨rfl, h⟩
  | some p =>
    obtain ⟨s, x⟩ := p
    have hw := h.replace (bare_popScope hx)
    have hp' := hp.steady (edits_replaceContext w c (bare_popScope hx)).steady
    have hscopes : (x.renamed r).scopes = x.scopes.map (Scope.renamed r) := rfl
    dsimp only [Option.map_some]
    rw [hscopes]
    cases merge with
    | false => exact ⟨rfl, hw⟩
    | true => cases x.scopes with
      | nil => exact ⟨rfl, hw.mergeUpward hp' s⟩
      | cons outer below =>
        refine ⟨rfl, hw.modify ?_ rfl rfl (hw.registered c (.head _))⟩
        have hmerge : (outer.renamed r).mergeCompensations (s.renamed r) =
            (outer.mergeCompensations s).renamed r := Scope.mergeCompensations_map _ outer s
        rw [hmerge]
        unfold Context.renamed
        dsimp only
        rw [List.map_cons, List.map_tail]

/-! ### The drive loop -/

theorem parent_mem {p : ContextId} (h : (w.context c).parent? = some p) : p ∈ w.lineage c := by
  obtain ⟨rest, ha⟩ := List.head?_eq_some_iff.1 h
  unfold World.lineage
  rw [ha]
  exact .tail _ (.head _)

theorem setRunState (h : Alike r c H w v) (s : RunState) :
    Alike r c H (w.setRunState c s) (v.setRunState c s) :=
  h.modify rfl rfl rfl (h.registered c (.head _))

theorem raise (h : Alike r c H w v) (f : Fault) :
    (v.raise c f).2 = (w.raise c f).2 ∧ Alike r c H (w.raise c f).1 (v.raise c f).1 := by
  unfold World.raise
  rw [h.self, Context.unwind_renamed]
  rcases hx : (w.context c).unwind f.name with ⟨_ | k, x⟩
  · have hk := (h.replace (bare_unwind hx)).kill (.head _) f
    have hu := hk.setRunState .failed
    dsimp only [Option.map_none]
    generalize ((w.modifyContext c fun _ => x).kill c f).setRunState c .failed = w₁ at hu ⊢
    generalize ((v.modifyContext c fun _ => x.renamed r).kill c f).setRunState c .failed = v₁ at hu ⊢
    have hs : v₁.hasScope c = w₁.hasScope c :=
      hu.field (.head _) (fun x => !x.scopes.isEmpty) fun _ => congrArg not List.isEmpty_map
    have hpar := hu.field (.head _) Context.parent? fun _ => rfl
    rw [hpar, hs]
    split
    · exact ⟨rfl, hu.escalate (parent_mem ‹_›) f⟩
    · exact ⟨rfl, hu⟩
  · have hw := h.replace (bare_unwind hx)
    dsimp only [Option.map_some]
    generalize w.modifyContext c (fun _ => x) = w₁ at hw ⊢
    generalize v.modifyContext c (fun _ => x.renamed r) = v₁ at hw ⊢
    have hq := hw.modify (f := fun x => x.discardPending.executeNext [k.continuation])
      (g := fun x => x.discardPending.executeNext [(k.renamed r).continuation]) rfl rfl rfl
      (hw.registered c (.head _))
    exact ⟨rfl, hq.record (.caught c f k) (.caught c f (k.renamed r))⟩

end Alike
end World
end SagaEngine
