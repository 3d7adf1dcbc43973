import SagaEngine.Proofs.Placement

/-! Scripts make runs. An action is a chain of calls, a small step of the interpreter is a chain of
transitions, and so what a script does, with everything on the way, is one of the runs. -/

namespace SagaEngine.World

variable {w w' w'' : World} {raw : Prop}

structure Grows (w w' : World) : Prop where
  current : w'.current = w.current
  size : w.contexts.size ≤ w'.contexts.size
  task : ∀ (t : TaskId) (task : Task), w.tasks[t]? = some task → w'.tasks[t]? = some task

theorem Grows.trans (h : Grows w w') (h' : Grows w' w'') : Grows w w'' where
  current := h'.current.trans h.current
  size := Nat.le_trans h.size h'.size
  task t task ht := h'.task t task (h.task t task ht)

theorem Steady.grows (h : Steady w w') : Grows w w' where
  current := h.current
  size := Nat.le_of_eq h.size.symm
  task _ _ ht := h.tasks ▸ ht

theorem grows_of_eq (hr : w'.current = w.current) (hs : w.contexts.size ≤ w'.contexts.size)
    (ht : w'.tasks = w.tasks) : Grows w w' := ⟨hr, hs, fun _ _ h => ht ▸ h⟩

theorem grows_spawnTask (w : World) (task : Task) : Grows w (w.spawnTask task) where
  current := rfl
  size := Nat.le_refl _
  task t old ht := by
    have hlt : t < w.tasks.size := (Array.getElem?_eq_some_iff.1 ht).1
    unfold spawnTask
    rw [Array.getElem?_push, if_neg (Nat.ne_of_lt hlt)]
    exact ht

theorem grows_addContext (w : World) (x : Context) : Grows w (w.addContext x).2 :=
  grows_of_eq rfl (by simp [addContext]) rfl

theorem Call.grows (k : Call raw w w') : Grows w w' := by
  cases k with
  | edit e => exact e.edits.steady.grows
  | kill c f => exact (signals_kill w c f).steady.grows
  | clearKill c => exact (signals_clearKill w c).steady.grows
  | root label session scope budget k =>
    have ho : Grows w (w.openSession session).2 := by
      unfold openSession
      split <;> exact grows_of_eq rfl (Nat.le_refl _) rfl
    generalize w.openSession session = r at ho
    have hlist := edits_list (r.2.addContext
      { label := r.2.freshLabel label, session := r.1, sliceBudget := budget,
        scopes := [{ id := scope }], pending := k.toList }).2
      (c := r.2.contexts.size) (by simp [addContext])
    exact (ho.trans (grows_addContext _ _)).trans hlist.steady.grows
  | child p label k hp => exact grows_addContext w _
  | start c hc =>
    unfold World.start
    dsimp only
    split
    · rename_i p _
      have hp := signals_addChild w p
      exact hp.steady.grows.trans (grows_spawnTask _ _)
    · exact grows_spawnTask w _
  | drive c budget hc => exact grows_spawnTask w _
  | newHandle name => exact (posts_nameNewHandle w name).steady.grows
  | dropHandle name => exact (posts_dropHandle w name).steady.grows
  | register c i => exact (signals_cancelIfKilled w c i).steady.grows
  | cancel i => exact (signals_cancelHandle w i).steady.grows
  | deliver c op v hc => exact ((posts_newLetter w op v).trans (posts_deliver _ _ _)).steady.grows
  | receiver c tag ops hc => exact grows_spawnTask w _
  | requeue c op v hr hc =>
    exact ((posts_newLetter w op v).trans (posts_requeue _ _ _)).steady.grows
  | request c slot ops hr hc => exact (posts_requestInto w c slot ops).steady.grows
  | dropWait slot i hr hi =>
    exact ((posts_closeWait w i).trans (posts_forgetWait _ slot)).steady.grows
  | await slot i hr hi =>
    exact (posts_forgetWait w slot).steady.grows.trans (grows_spawnTask _ _)

/-! ## Actions -/

abbrev Calls (raw : Prop) (w w' : World) : Prop := Relation.ReflTransGen (Call raw) w w'

theorem Calls.grows (k : Calls raw w w') : Grows w w' := by
  induction k with
  | refl => exact grows_of_eq rfl (Nat.le_refl _) rfl
  | tail _ k ih => exact ih.trans k.grows

theorem Placed.calls (h : Placed w) (k : Calls raw w w') : Placed w' := by
  induction k with
  | refl => exact h
  | tail _ k ih => exact ih.call k

theorem Edit.calls (e : Edit w w') : Calls raw w w' := .single (.edit e)

theorem calls_iterate {f : World → Performed} {c : ContextId}
    (hf : ∀ v, Placed v → c < v.contexts.size → Calls raw v (f v).1) (n : Nat) (hp : Placed w)
    (hc : c < w.contexts.size) (reply : Json) : Calls raw w (iterate f n w reply).1 := by
  induction n generalizing w reply with
  | zero => exact .refl
  | succ n ih =>
    have hk := hf w hp hc
    unfold iterate
    split
    · rename_i v reply hv
      rw [hv] at hk
      exact hk.trans (ih (hp.calls hk) (Nat.lt_of_lt_of_le hc hk.grows.size) reply)
    · exact hk

theorem calls_andThen {α : Type} {r : World × Except EngineError α} {f : World → α → Performed}
    (hr : Calls raw w r.1) (hf : ∀ a, r.2 = .ok a → Calls raw r.1 (f r.1 a).1) :
    Calls raw w (andThen r f).1 := by
  obtain ⟨v, _ | a⟩ := r
  · exact hr
  · exact hr.trans (hf a rfl)

theorem calls_withHandle {name : String} {f : HandleId → Performed}
    (hf : ∀ h, Calls raw w (f h).1) : Calls raw w (w.withHandle name f).1 := by
  unfold withHandle
  split
  · exact hf _
  · exact .refl

theorem calls_withWait {slot : String} {f : WaitId → Performed}
    (hf : ∀ i, w.names.waits.get? slot = some i → Calls raw w (f i).1) :
    Calls raw w (w.withWait slot f).1 := by
  unfold withWait
  split
  · exact hf _ ‹_›
  · exact .refl

theorem calls_withWaitHandle {slot : String} {f : HandleId → Performed}
    (hf : ∀ h, Calls raw w (f h).1) : Calls raw w (w.withWaitHandle slot f).1 := by
  refine calls_withWait fun i _ => ?_
  split
  · exact hf _
  · exact .refl

theorem calls_mention {k : World} (ops : List String) (h : Calls raw (w.mention ops) k) :
    Calls raw w k := .head (.edit (.mention ops)) h

mutual

theorem calls_perform (w : World) (c : ContextId) (a : Action) (hp : Placed w)
    (hc : c < w.contexts.size) (ha : a.handlesWaits = true → raw) :
    Calls raw w (w.perform c a).1 := by
  have hdata : ∀ v f, Calls raw v (modifyData v c f) := fun v f => (Edit.data c f).calls
  -- actions that only look call nothing
  cases a with
  | log v => exact hdata w fun d => d.push "log" v
  | push key v => exact hdata w fun d => d.push key v
  | set key v => exact hdata w fun d => d.insert key v
  | get key => exact .refl
  | remove key => exact hdata w fun d => d.erase key
  | snapshot => exact .refl
  | sessionId => exact .refl
  | arith operation left right dest =>
    unfold perform arith
    dsimp only
    split
    · exact hdata w fun d => d.insert dest _
    · exact .refl
  | raise f => exact .refl
  | pushScope id marker => exact (Edit.pushScope c id marker).calls
  | popScope merge marker =>
    exact calls_andThen (Edit.popScope c merge marker).calls fun _ _ => .refl
  | leaveScope merge =>
    exact calls_andThen .refl fun id _ =>
      calls_andThen (Edit.popScope c merge none).calls fun _ _ =>
        hdata _ fun d => d.push "log" (.str ("leave " ++ id))
  | handle fault k =>
    exact calls_andThen (Edit.installHandler c fault k).calls fun _ _ => .refl
  | compensation k => exact calls_andThen (Edit.installCompensation c k).calls fun _ _ => .refl
  | lookup fault erase =>
    exact calls_andThen (Edit.lookupHandler c fault erase).calls fun _ _ => .refl
  | ownCompensation => exact calls_andThen .refl fun _ _ => .refl
  | takeCompensation id =>
    exact calls_andThen (Edit.takeCompensation c id).calls fun _ _ => .refl
  | compensate id after =>
    exact calls_andThen (Edit.takeCompensation c id).calls fun _ _ =>
      (Edit.executeNext c _).calls
  | scopeId => exact calls_andThen .refl fun _ _ => .refl
  | scope ids => exact calls_andThen .refl fun _ _ => .refl
  | hasScope => exact .refl
  | scopeDepth => exact .refl
  | marker => exact .refl
  | next ks => exact (Edit.executeNext c ks).calls
  | popNext => exact (Edit.popNext c).calls
  | discard => exact (Edit.discard c).calls
  | pending => exact .refl
  | pause => exact (Edit.pause c true).calls
  | takePause => exact (Edit.pause c false).calls
  | runState => exact .refl
  | kill f => exact .single (.kill c f)
  | clearKill => exact .single (.clearKill c)
  | killed => exact .refl
  | ifNotKilled as =>
    have hall := calls_performAll w c as hp hc ha
    unfold perform
    split
    · exact .refl
    · split
      · rename_i hv
        rw [hv] at hall
        exact hall
      · exact hall
  | child label k =>
    have hsize : w.contexts.size < (w.addChild c label k).2.2.contexts.size := by
      simp [addChild, addContext]
    exact .tail (.single (.child c label k hc)) (.edit (.list _ hsize))
  | spawn label k =>
    have hsize : w.contexts.size < (w.addChild c label (some k)).2.2.contexts.size := by
      simp [addChild, addContext]
    exact .tail (.single (.child c label (some k) hc)) (.start _ hsize)
  | start => exact .single (.start c hc)
  | drive budget => exact .single (.drive c budget hc)
  | lineage => exact .refl
  | parent => exact .refl
  | inspect => exact .refl
  | on label a =>
    unfold perform
    split
    · rename_i d hd
      have hlisted : d ∈ w.names.listed := Array.mem_of_find?_eq_some hd
      exact calls_perform w d a hp (hp.listed d hlisted) ha
    · exact .refl
  | repeated n a =>
    unfold perform
    exact calls_iterate (fun v hv hcv => calls_perform v c a hv hcv ha) n hp hc .null
  | debug k => exact .refl
  | newHandle name => exact .single (.newHandle name)
  | registerHandle name => exact calls_withHandle fun h => .single (.register c h)
  | cancelHandle name => exact calls_withHandle fun h => .single (.cancel h)
  | completeHandle name => exact .single (.dropHandle name)
  | dropHandle name => exact .single (.dropHandle name)
  | handleState name => exact calls_withHandle fun _ => .refl
  | deliver op v => exact calls_mention [op] (.single (.deliver c op v hc))
  | requeue op v => exact calls_mention [op] (.single (.requeue c op v (ha rfl) hc))
  | queued op => exact calls_mention [op] .refl
  | waiters => exact .refl
  | request slot ops => exact calls_mention ops (.single (.request c slot ops (ha rfl) hc))
  | requestOne slot ops =>
    exact calls_mention ops (.single (.request c slot (ops.take 1) (ha rfl) hc))
  | registerWait slot => exact calls_withWaitHandle fun h => .single (.register c h)
  | cancelWait slot => exact calls_withWaitHandle fun h => .single (.cancel h)
  | waitState slot => exact calls_withWaitHandle fun _ => .refl
  | dropWait slot => exact calls_withWait fun i hi => .single (.dropWait slot i (ha rfl) hi)
  | await slot => exact calls_withWait fun i hi => .single (.await slot i (ha rfl) hi)
  | receiver tag ops => exact calls_mention ops (.single (.receiver c tag ops hc))

theorem calls_performAll (w : World) (c : ContextId) (as : List Action) (hp : Placed w)
    (hc : c < w.contexts.size) (ha : anyHandlesWaits as = true → raw) :
    Calls raw w (w.performAll c as).1 := by
  cases as with
  | nil => exact .refl
  | cons a as =>
    have hk := calls_perform w c a hp hc fun h => ha (by simp [anyHandlesWaits, h])
    unfold performAll
    split
    · rename_i v reply hv
      rw [hv] at hk
      exact hk.trans (calls_performAll v c as (hp.calls hk)
        (Nat.lt_of_lt_of_le hc hk.grows.size) fun h => ha (by simp [anyHandlesWaits, h]))
    · exact hk

end

/-! ## Small steps -/

abbrev Transitions (raw : Prop) (w w' : World) : Prop :=
  Relation.ReflTransGen (Transition raw) w w'

theorem Runs.grows {t : TaskId} {l : Loop} {frame : Frame} {rest : List Step}
    (h : w.Runs t l frame rest) (g : Grows w w') : w'.Runs t l frame rest :=
  ⟨g.current.trans h.1, g.task _ _ h.2.1, h.2.2⟩

theorem AtLiberty.grows (h : w.AtLiberty) (g : Grows w w') : w'.AtLiberty := by
  rcases h with hc | ⟨t, l, frame, rest, hr⟩
  · exact .inl (g.current.trans hc)
  · exact .inr ⟨t, l, frame, rest, hr.grows g⟩

theorem Calls.transitions (k : Calls raw w w') (h : w.AtLiberty) : Transitions raw w w' := by
  induction k with
  | refl => exact .refl
  | tail ks k ih => exact ih.tail (.call (h.grows (Calls.grows ks)) k)

/-- The next step of the running continuation uses waits by hand only where `raw` holds. -/
def Plays (raw : Prop) (w : World) : Prop :=
  ∀ (t : TaskId) (l : Loop) (frame : Frame) (a : Action) (rest : List Step),
    w.Runs t l frame (.act a :: rest) → a.handlesWaits = true → raw

section

variable {t : TaskId} {l : Loop} {frame : Frame} {rest : List Step}

theorem transitions_receiveStep (h : w.Runs t l frame rest) (rest' : List Step) (r : Receipt)
    (result : Except Fault Letter) : Transitions raw w (w.receiveStep t l frame rest' r result) := by
  unfold receiveStep
  split
  · rename_i m
    have hk : Calls raw w (w.modifyData l.context fun d => d.insert r.key m.payload) :=
      (Edit.data l.context _).calls
    have hr := h.grows (Calls.grows hk)
    exact (Calls.transitions hk (.inr ⟨t, l, frame, rest, h⟩)).tail (.pass rest' r.name _ hr)
  · split
    · exact .single (.pass rest' r.name _ h)
    · exact .single (.fail _ h)

theorem transitions_bodyStep (hp : Placed w) (ha : w.Plays raw) (h : w.Runs t l frame rest) :
    Transitions raw w (w.bodyStep t l frame rest) := by
  have hl : w.AtLiberty := .inr ⟨t, l, frame, rest, h⟩
  unfold bodyStep
  split
  · exact .single (.finish h)
  · rename_i a rest'
    have hk := calls_perform w l.context a hp (hp.loop h.2.1) (ha t l frame a rest' h)
    split
    · rename_i v reply hv
      rw [hv] at hk
      have hr : v.Runs t l frame (.act a :: rest') := h.grows (Calls.grows hk)
      exact (Calls.transitions hk hl).tail (.pass rest' a.name reply hr)
    · rename_i v e hv
      rw [hv] at hk
      have hr : v.Runs t l frame (.act a :: rest') := h.grows (Calls.grows hk)
      exact (Calls.transitions hk hl).tail (.fail e.toFault hr)
  · exact .single (.pauseBody _ h)
  · rename_i ops key name catches rest'
    have hm : Transition raw w (w.mention ops) := .call hl (.edit (.mention ops))
    have hr := h.grows (Steady.grows (edits_mention w ops).steady)
    refine .head hm ?_
    dsimp only
    split
    · exact transitions_receiveStep hr rest' _ _
    · rename_i i v hv
      exact .single (.receive rest' _ ops hr hv)

theorem transitions_loopStep (hp : Placed w) (ha : w.Plays raw) (hc : w.current = some t)
    (ht : w.tasks[t]? = some (.loop l)) : Transitions raw w (w.loopStep t l) := by
  cases hl : l.point with
  | body frame rest =>
    unfold loopStep
    rw [hl]
    exact transitions_bodyStep hp ha ⟨hc, ht, hl⟩
  | receiving frame rest i receipt =>
    unfold loopStep
    rw [hl]
    dsimp only
    split
    · exact .single (.sleep hc ht (by simp [Task.wait?, hl]) ‹_›)
    · rename_i r hres
      -- the receipt ends inside the continuation, which goes on from there
      have hbody : (w.setLoop t { l with point := .body frame rest }).Runs t
          { l with point := .body frame rest } frame rest := by
        have hlt : t < w.tasks.size := (Array.getElem?_eq_some_iff.1 ht).1
        exact ⟨hc, by simp [setLoop, setTask, hlt], rfl⟩
      have hr := hbody.grows (posts_endReceive _ l.context i r).steady.grows
      exact .head (.resume rest hc ht hl hres) (transitions_receiveStep hr rest receipt _)
  | _ => exact .single (.drive hc ht (by rw [hl]; rfl))

theorem transitions_taskStep (hp : Placed w) (ha : w.Plays raw) (hc : w.current = some t) :
    Transitions raw w (w.taskStep t) := by
  unfold taskStep
  split
  · exact transitions_loopStep hp ha hc ‹_›
  · exact .single (.beginReceipt hc ‹_›)
  · split
    · exact .single (.sleep hc ‹_› rfl ‹_›)
    · exact .single (.endReceipt hc ‹_› ‹_›)
  · split
    · exact .single (.sleep hc ‹_› rfl ‹_›)
    · exact .single (.endAwait hc ‹_› ‹_›)
  · rename_i hd
    refine .single (.halt hc fun task h => ?_)
    rw [hd] at h
    exact (Option.some.inj h).symm
  · rename_i hn
    refine .single (.halt hc fun task h => ?_)
    rw [hn] at h
    cases h

theorem transitions_dispatch : Transitions raw w w.dispatch := by
  unfold dispatch
  split
  · rename_i u ready hc hr
    have hk : Transition raw w { w with current := some u, ready := w.ready.erase u } :=
      .pick u hc (hr ▸ .head _)
    rw [hr, List.erase_cons_head] at hk
    exact .single hk
  · exact .refl

theorem transitions_step (hp : Placed w) (ha : w.Plays raw) : Transitions raw w w.step := by
  unfold step
  split
  · exact transitions_taskStep hp ha ‹_›
  · exact transitions_dispatch

end

/-! ## Runs -/

theorem Reachable.transitions (h : Reachable raw (fun _ => True) w) (k : Transitions raw w w') :
    Reachable raw (fun _ => True) w' := by
  induction k with
  | refl => exact h
  | tail _ k ih => exact ih.next k trivial

theorem Reachable.step (h : Reachable raw (fun _ => True) w) (ha : w.Plays raw) :
    Reachable raw (fun _ => True) w.step := h.transitions (transitions_step h.placed ha)

/-- A world that some script can make, between the turns of tasks. -/
structure Made (w : World) : Prop where
  reachable : Reachable True (fun _ => True) w
  quiet : w.current = none

theorem Reachable.step_free (h : Reachable True (fun _ => True) w) :
    Reachable True (fun _ => True) w.step := h.step fun _ _ _ _ _ _ _ => trivial

theorem Reachable.finishTurn (fuel : Nat) (h : Reachable True (fun _ => True) w)
    (hf : w.finishTurn fuel = some w') : Made w' := by
  induction fuel generalizing w with
  | zero =>
    unfold World.finishTurn at hf
    split at hf
    · rename_i hq
      cases hf
      exact ⟨h, Option.isNone_iff_eq_none.1 hq⟩
    · cases hf
  | succ fuel ih =>
    unfold World.finishTurn at hf
    split at hf
    · rename_i hq
      cases hf
      exact ⟨h, hq⟩
    · rename_i t hc
      have hs := h.step_free
      unfold World.step at hs
      rw [hc] at hs
      exact ih hs hf

theorem current_of_atRest (h : w.atRest = true) : w.current = none := by
  unfold atRest at h
  exact Option.isNone_iff_eq_none.1 (Bool.and_eq_true_iff.1 h).1

theorem Reachable.settle (fuel : Nat) (h : Reachable True (fun _ => True) w)
    (hf : w.settle fuel = some w') : Made w' := by
  induction fuel generalizing w with
  | zero =>
    unfold World.settle at hf
    split at hf
    · cases hf
      exact ⟨h, current_of_atRest ‹_›⟩
    · cases hf
  | succ fuel ih =>
    unfold World.settle at hf
    split at hf
    · cases hf
      exact ⟨h, current_of_atRest ‹_›⟩
    · exact ih h.step_free hf

namespace Made

theorem empty : Made {} := ⟨.start trivial, rfl⟩

theorem calls (h : Made w) (k : Calls True w w') : Made w' :=
  ⟨h.reachable.transitions (k.transitions (.inl h.quiet)), k.grows.current.trans h.quiet⟩

theorem ticks (fuel n : Nat) (h : Made w) (hf : w.ticks fuel n = some w') : Made w' := by
  induction n generalizing w with
  | zero =>
    cases hf
    exact h
  | succ n ih =>
    unfold World.ticks at hf
    split at hf
    · cases hf
      exact h
    · obtain ⟨v, hv, hrest⟩ := Option.bind_eq_some_iff.1 hf
      have hd : Reachable True (fun _ => True) w.dispatch :=
        h.reachable.transitions transitions_dispatch
      exact ih (hd.finishTurn fuel hv) hrest

theorem hostStep {fuel : Nat} {s : HostStep} {reply : Json} (h : Made w)
    (hs : w.hostStep fuel s = some (reply, w')) : Made w' := by
  cases s with
  | root label session scope budget k =>
    cases hs
    exact h.calls (.single (.root label session scope budget k))
  | on label a =>
    unfold World.hostStep at hs
    dsimp only at hs
    split at hs
    · cases hs
      exact h
    · rename_i c hc
      have hp := h.reachable.placed
      have hlt : c < w.contexts.size := hp.listed c (Array.mem_of_find?_eq_some hc)
      have hv := h.calls (calls_perform w c a hp hlt fun _ => trivial)
      split at hs
      · rename_i ha
        rw [ha] at hv
        cases hs
        exact hv
      · rename_i ha
        rw [ha] at hv
        cases hs
        exact hv
  | settle =>
    obtain ⟨v, hv, hr⟩ := Option.map_eq_some_iff.1 hs
    cases hr
    exact h.reachable.settle fuel hv
  | tick n =>
    obtain ⟨v, hv, hr⟩ := Option.map_eq_some_iff.1 hs
    cases hr
    exact h.ticks fuel n hv

theorem runScript {fuel : Nat} {s : Script} {reports : List Json} (h : Made w)
    (hs : w.runScript fuel s = some (reports, w')) : Made w' := by
  induction s generalizing w reports with
  | nil =>
    cases hs
    exact h
  | cons step rest ih =>
    unfold World.runScript at hs
    obtain ⟨⟨result, v⟩, hv, hs⟩ := Option.bind_eq_some_iff.1 hs
    obtain ⟨⟨later, last⟩, hlast, hs⟩ := Option.bind_eq_some_iff.1 hs
    cases hs
    exact ih (h.hostStep hv) hlast

end Made

/-- Whatever a script makes of the empty world is reached by a run. -/
theorem runScript_reachable {fuel : Nat} {s : Script} {reports : List Json}
    (hs : runScript fuel {} s = some (reports, w)) : Reachable True (fun _ => True) w :=
  (Made.empty.runScript hs).reachable

end SagaEngine.World
