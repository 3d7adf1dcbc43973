import SagaEngine.Proofs.Layers

/-! Texts among the settings. A text in a file is taken as it stands. One in a variable is read as a truth
value or a number where it is spelled like one, and the setting is that value as the engine writes it. So
the two ways to give a text agree when the file holds what the engine makes of the variable. -/

namespace SagaEngine.Settings

open Numeral (readInt64? readFloat?)

variable {s s' : Surroundings} {r r' : Request} {file file' before after : List (String × Raw)}
  {k : Key} {w : Option Raw} {f : Option Raw → Option Raw} {t : String}

/-! ## Texts in variables -/

/-- What becomes of a text in a variable, which may look like a truth value or a number. -/
def respelled (t : String) : String :=
  if Text.lowercase t = "true" then "true"
  else if Text.lowercase t = "false" then "false"
  else match readInt64? t.toList, readFloat? t.toList with
    | some n, _ => toString n
    | none, some x => x.plain
    | none, none => t

theorem toText_ofText (o : Option String) (key t : String) :
    (Raw.scalar o (.ofText t)).toText key = .ok (respelled t) := by
  unfold Scalar.ofText respelled
  dsimp only
  split
  · rfl
  · split
    · rfl
    · rcases readInt64? t.toList with _ | n
      · rcases readFloat? t.toList with _ | x
        · rfl
        · rfl
      · rfl

theorem respelled_self (htrue : Text.lowercase t ≠ "true") (hfalse : Text.lowercase t ≠ "false")
    (hint : readInt64? t.toList = none) (hfloat : readFloat? t.toList = none) : respelled t = t := by
  unfold respelled
  rw [if_neg htrue, if_neg hfalse, hint, hfloat]

/-! ## What a source alone gives -/

theorem Layer.sets_of_given (hf : Layer w f) {v : Raw} (h : f none = some v) (hv : v.isScalar = true)
    (x : Option Raw) : f x = some v := by
  cases hf with
  | keeps _ hk =>
    rw [hk] at h
    cases h
  | sets v' _ _ hs =>
    rw [hs] at h ⊢
    exact h
  | spoils y hy hys _ =>
    rw [hy] at h
    rw [Option.some.inj h, hv] at hys
    cases hys

theorem Layer.keeps_of_given (hf : Layer w f) (h : f none = none) (x : Option Raw) : f x = x := by
  cases hf with
  | keeps _ hk => exact hk x
  | sets v _ _ hs =>
    rw [hs] at h
    cases h
  | spoils y hy _ _ =>
    rw [hy] at h
    cases h

theorem override_assignment (root : Raw) (key : String) (v : Raw) :
    root.override (before ++ (key, v) :: after) =
      (Raw.setAt v (.ofText key) (root.override before)).override after := by
  unfold Raw.override
  rw [List.foldl_append, List.foldl_cons]

theorem environmentValues_variable {name : String} (before after : Dotenv.Variables)
    (hname : Text.lowercase name = "choreo__" ++ k.home ++ "__" ++ k.name) :
    environmentValues (before ++ (name, t) :: after) = environmentValues before ++
      (k.text, .scalar (some environmentName) (.ofText t)) :: environmentValues after := by
  unfold environmentValues
  rw [List.filterMap_append, List.filterMap_cons]
  simp only [(keyOfVariable_named k).1 hname, Option.map_some]

theorem given_variable {name : String} (before : Dotenv.Variables) {after : Dotenv.Variables}
    (hname : Text.lowercase name = "choreo__" ++ k.home ++ "__" ++ k.name)
    (hs : Sectioned (environmentValues after)) (h : given? (environmentValues after) k = none) :
    given? (environmentValues (before ++ (name, t) :: after)) k =
      some (.scalar (some environmentName) (.ofText t)) := by
  obtain ⟨f, hf, hafter⟩ := hs.layer k
  have hnone : f none = none := (hafter Raw.emptyTable).symm.trans h
  unfold given?
  rw [environmentValues_variable before after hname, override_assignment, hafter,
    hf.keeps_of_given hnone, k.ofText_text, Raw.at?_setAt_field, k.lowercase_home, k.lowercase_name,
    if_pos ⟨rfl, rfl⟩]
  rfl

/-! ## Two ways to give a text -/

/-- The values in the file that a request finds, where all sources treat the sections as tables. -/
structure Finds (s : Surroundings) (r : Request) (file : List (String × Raw)) : Prop where
  values : s.fileValues (r.path.or ((r.variables s).get? pathVariable)) = .ok file
  file : Sectioned file
  environment : Sectioned (environmentValues (r.variables s))

abbrev Request.found? (r : Request) (s : Surroundings) (file : List (String × Raw)) (k : Key) :
    Option Raw := (layered (r.variables s) file).at? k

theorem Finds.of_environment (h : Finds s r file) {v : Raw}
    (hv : given? (environmentValues (r.variables s)) k = some v) (hs : v.isScalar = true) :
    r.found? s file k = some v := by
  obtain ⟨f, g, -, hg, -, henv, hat⟩ := layers h.file h.environment k
  exact hat.trans (hg.sets_of_given (henv.symm.trans hv) hs _)

theorem Finds.of_file (h : Finds s r file) {v : Raw} (hv : given? file k = some v)
    (hs : v.isScalar = true) (hn : given? (environmentValues (r.variables s)) k = none) :
    r.found? s file k = some v := by
  obtain ⟨f, g, hf, hg, hfile, henv, hat⟩ := layers h.file h.environment k
  unfold Request.found?
  rw [hat, hg.keeps_of_given (henv.symm.trans hn)]
  exact hf.sets_of_given (hfile.symm.trans hv) hs _

theorem Finds.of_nothing (h : Finds s r file) (hf : given? file k = none)
    (hn : given? (environmentValues (r.variables s)) k = none) :
    r.found? s file k = some (.scalar none k.standard) := by
  obtain ⟨f, g, hlf, hlg, hfile, henv, hat⟩ := layers h.file h.environment k
  unfold Request.found?
  rw [hat, hlg.keeps_of_given (henv.symm.trans hn), hlf.keeps_of_given (hfile.symm.trans hf)]

theorem Finds.load (h : Finds s r file) : ∃ v : Key → Raw,
    (∀ j, r.found? s file j = some (v j)) ∧ Settings.load s r = (typed v).bind validate := by
  have hsome : ∀ j, ∃ c, r.found? s file j = some c := by
    intro j
    obtain ⟨f, g, hlf, hlg, -, -, hat⟩ := layers h.file h.environment j
    obtain ⟨d, hd⟩ := hlf.exists_some (.scalar none j.standard)
    obtain ⟨c, hc⟩ := hlg.exists_some d
    exact ⟨c, by rw [Request.found?, hat, hd, hc]⟩
  choose v hv using hsome
  refine ⟨v, hv, ?_⟩
  rw [load_eq h.values, ofRaw_eq (tabular_layered h.file h.environment) hv]

def Key.IsText (k : Key) : Prop := k = .scopeId ∨ k = .filter

def Key.textIn (k : Key) (settings : Settings) : String :=
  match k with
  | .filter => settings.logging.filter
  | _ => settings.engine.implicitScopeId

theorem typed_congr {v v' : Key → Raw} (hk : k.IsText)
    (hothers : ∀ j, j ≠ k → v j = v' j) (h : (v k).toText k.text = (v' k).toText k.text) :
    typed v = typed v' := by
  have htext : ∀ j : Key, (v j).toText j.text = (v' j).toText j.text := by
    intro j
    by_cases hj : j = k
    · rw [hj, h]
    · rw [hothers j hj]
  have hbudget : v .budget = v' .budget := hothers .budget (by rcases hk with rfl | rfl <;> decide)
  have hansi : v .ansi = v' .ansi := hothers .ansi (by rcases hk with rfl | rfl <;> decide)
  unfold typed
  rw [htext .scopeId, htext .filter, hbudget, hansi]

theorem typed_text {v : Key → Raw} {settings : Settings} (hk : k.IsText) (h : typed v = .ok settings) :
    (v k).toText k.text = .ok (k.textIn settings) := by
  obtain ⟨hid, -, hfilter, -⟩ := typed_ok h
  rcases hk with rfl | rfl
  · exact hid
  · exact hfilter

theorem load_text {v : Key → Raw} {settings : Settings} (hk : k.IsText)
    (hload : load s r = (typed v).bind validate) (h : load s r = .ok settings) :
    (v k).toText k.text = .ok (k.textIn settings) := by
  rcases ht : typed v with e | loaded
  · rw [hload, ht] at h
    cases h
  · rw [hload, ht] at h
    obtain ⟨rfl, -⟩ := validate_ok.1 h
    exact typed_text hk ht

/-- A text in a variable comes to the same as its respelling in the file. -/
theorem texts_agree (hk : k.IsText) (h : Finds s r file) (h' : Finds s' r' file')
    (hothers : ∀ j, j ≠ k → r.found? s file j = r'.found? s' file' j)
    {name : String} {before after : Dotenv.Variables}
    (hvariables : r.variables s = before ++ (name, t) :: after)
    (hname : Text.lowercase name = "choreo__" ++ k.home ++ "__" ++ k.name)
    (hlast : given? (environmentValues after) k = none)
    {o : Option String} {u : String} (hfile : given? file' k = some (.scalar o (.str u)))
    (hnone : given? (environmentValues (r'.variables s')) k = none) :
    (u = respelled t → load s r = load s' r') ∧
    ((∃ settings, load s' r' = .ok settings) → load s r = load s' r' → u = respelled t) ∧
    (Text.lowercase t ≠ "true" → Text.lowercase t ≠ "false" → readInt64? t.toList = none →
      readFloat? t.toList = none → respelled t = t) := by
  have hafter : Sectioned (environmentValues after) := by
    intro e he
    refine h.environment e ?_
    rw [hvariables, environmentValues_variable before after hname]
    exact List.mem_append_right _ (.tail _ he)
  have hgiven := given_variable (t := t) before hname hafter hlast
  rw [← hvariables] at hgiven
  obtain ⟨v, hv, hload⟩ := h.load
  obtain ⟨v', hv', hload'⟩ := h'.load
  have hvk : v k = .scalar (some environmentName) (.ofText t) :=
    Option.some.inj ((hv k).symm.trans (h.of_environment hgiven rfl))
  have hvk' : v' k = .scalar o (.str u) :=
    Option.some.inj ((hv' k).symm.trans (h'.of_file hfile rfl hnone))
  have htext : (v k).toText k.text = .ok (respelled t) := by rw [hvk, toText_ofText]
  have htext' : (v' k).toText k.text = .ok u := by rw [hvk']; rfl
  refine ⟨fun hu => ?_, fun hok heq => ?_, respelled_self⟩
  · have hsame : ∀ j, j ≠ k → v j = v' j := fun j hj =>
      Option.some.inj ((hv j).symm.trans ((hothers j hj).trans (hv' j)))
    rw [hload, hload', typed_congr hk hsame (by rw [htext, htext', hu])]
  · obtain ⟨settings, hok⟩ := hok
    have hwritten := load_text hk hload' hok
    have hread := load_text hk hload (heq.trans hok)
    rw [htext] at hread
    rw [htext'] at hwritten
    exact (Except.ok.inj hwritten).trans (Except.ok.inj hread).symm

/-! ## A scope id that is a number -/

theorem sectioned_nil : Sectioned [] := fun _ he => absurd he List.not_mem_nil

def numbered : Surroundings where
  env := [("CHOREO__ENGINE__IMPLICIT_SCOPE_ID", "007")]

def written (id : String) : Surroundings where
  files := [("choreo.toml", "[engine]\nimplicit_scope_id = \"" ++ id ++ "\"\n")]

def namesScope (id : String) (source : List (String × Raw)) : Bool :=
  (source.all fun e => e.1 == "engine" && e.2.isTable) &&
    (match given? source .scopeId with
      | some (.scalar _ (.str s)) => s == id
      | _ => false) &&
    [Key.budget, .filter, .ansi].all fun j => (given? source j).isNone

theorem eq_none_of_all {source : List (String × Raw)}
    (h : ([Key.budget, .filter, .ansi].all fun j => (given? source j).isNone) = true)
    (hk : k ≠ .scopeId) :
    given? source k = none := by
  refine Option.isNone_iff_eq_none.1 (List.all_eq_true.1 h k ?_)
  cases k <;> simp at hk ⊢

theorem finds_written (id : String)
    (h : ((written id).fileValues none).toOption.any (namesScope id) = true) :
    ∃ file o, Finds (written id) {} file ∧ given? file .scopeId = some (.scalar o (.str id)) ∧
      ∀ j, j ≠ Key.scopeId → given? file j = none := by
  obtain ⟨file, hfile, hall⟩ := (Option.any_eq_true _ _).1 h
  unfold namesScope at hall
  simp only [Bool.and_eq_true] at hall
  obtain ⟨⟨hsection, hid⟩, hrest⟩ := hall
  have hsectioned := sectioned_of_tables .scopeId hsection
  have hgiven : ∃ o, given? file .scopeId = some (.scalar o (.str id)) := by
    split at hid
    · rename_i o s hs
      exact ⟨o, beq_iff_eq.1 hid ▸ hs⟩
    · cases hid
  obtain ⟨o, hgiven⟩ := hgiven
  exact ⟨file, o, ⟨ok_of_toOption hfile, hsectioned, sectioned_nil⟩, hgiven,
    fun j hj => eq_none_of_all hrest hj⟩

theorem lowercase_numbered : Text.lowercase "CHOREO__ENGINE__IMPLICIT_SCOPE_ID" =
    "choreo__" ++ Key.scopeId.home ++ "__" ++ Key.scopeId.name := by decide +kernel

theorem finds_numbered : Finds numbered {} [] ∧
    ∀ j, j ≠ Key.scopeId → given? (environmentValues numbered.env) j = none := by
  have hvalues : environmentValues numbered.env = [(Key.scopeId.text, _)] :=
    environmentValues_variable [] [] lowercase_numbered
  have hempty : (numbered.fileValues none).toOption.any List.isEmpty = true := by decide +kernel
  obtain ⟨file, hfile, he⟩ := (Option.any_eq_true _ _).1 hempty
  obtain rfl := List.isEmpty_iff.1 he
  refine ⟨⟨ok_of_toOption hfile, sectioned_nil, ?_⟩, fun j hj => ?_⟩
  · intro e he j s path hpath _
    rw [show Request.variables {} numbered = numbered.env from rfl, hvalues, List.mem_singleton] at he
    rw [he, Key.ofText_text] at hpath
    exact .inr ⟨_, _, (List.cons.inj hpath).2.symm⟩
  · unfold given? Raw.override
    rw [hvalues, List.foldl_cons, List.foldl_nil]
    dsimp only
    rw [Key.ofText_text, Raw.at?_setAt_field, Key.lowercase_home, Key.lowercase_name, if_neg]
    · rfl
    · rw [← Key.eq_iff]
      exact Ne.symm hj

theorem Finds.load_scope (h : Finds s r file) {v : Raw} {id : String}
    (hid : r.found? s file .scopeId = some v) (htext : v.toText Key.scopeId.text = .ok id)
    (hothers : ∀ j, j ≠ Key.scopeId → r.found? s file j = some (.scalar none j.standard))
    (hblank : Text.trim id.toList ≠ []) :
    Settings.load s r = .ok { engine := { implicitScopeId := id } } := by
  obtain ⟨v', hv, hload⟩ := h.load
  have hscope : v' .scopeId = v := Option.some.inj ((hv .scopeId).symm.trans hid)
  have hrest : ∀ j, j ≠ Key.scopeId → v' j = .scalar none j.standard := fun j hj =>
    Option.some.inj ((hv j).symm.trans (hothers j hj))
  have htyped : typed v' = .ok { engine := { implicitScopeId := id } } := by
    unfold typed
    rw [hscope, htext, hrest .budget (by decide), hrest .filter (by decide), hrest .ansi (by decide)]
    rfl
  rw [hload, htyped]
  exact validate_ok.2 ⟨rfl, Nat.succ_pos 63, hblank⟩

theorem number_respelled : ∃ file file', Finds numbered {} file ∧ Finds (written "7") {} file' ∧
    (∀ j, j ≠ Key.scopeId →
      Request.found? {} numbered file j = Request.found? {} (written "7") file' j) ∧
    load numbered {} = load (written "7") {} := by
  obtain ⟨hn, hnone⟩ := finds_numbered
  obtain ⟨file, o, hw, hgiven, hnone'⟩ := finds_written "7" (by decide +kernel)
  have hothers : ∀ j, j ≠ Key.scopeId →
      Request.found? {} numbered [] j = Request.found? {} (written "7") file j := fun j hj => by
    rw [hn.of_nothing rfl (hnone j hj), hw.of_nothing (hnone' j hj) rfl]
  have hseven : "7" = respelled "007" := by decide +kernel
  have hvariables : Request.variables {} numbered =
      [] ++ ("CHOREO__ENGINE__IMPLICIT_SCOPE_ID", "007") :: [] := rfl
  have hagree := texts_agree (.inl rfl) hn hw hothers hvariables lowercase_numbered rfl hgiven rfl
  exact ⟨[], file, hn, hw, hothers, hagree.1 hseven⟩

/-- In a file, the same text is the id itself. -/
theorem number_verbatim_in_file :
    load numbered {} = .ok { engine := { implicitScopeId := "7" } } ∧
    load (written "007") {} = .ok { engine := { implicitScopeId := "007" } } ∧
    load numbered {} ≠ load (written "007") {} := by
  obtain ⟨hn, hnone⟩ := finds_numbered
  obtain ⟨file, o, hw, hgiven, hnone'⟩ := finds_written "007" (by decide +kernel)
  have hnothing : Sectioned (environmentValues []) := sectioned_nil
  have hvariable := given_variable (t := "007") [] lowercase_numbered hnothing rfl
  have hseven : respelled "007" = "7" := by decide +kernel
  have henv : load numbered {} = .ok { engine := { implicitScopeId := "7" } } :=
    hn.load_scope (hn.of_environment hvariable rfl) (by rw [toText_ofText, hseven])
      (fun j hj => hn.of_nothing rfl (hnone j hj)) (by decide)
  have hfile : load (written "007") {} = .ok { engine := { implicitScopeId := "007" } } :=
    hw.load_scope (hw.of_file hgiven rfl rfl) rfl (fun j hj => hw.of_nothing (hnone' j hj) rfl)
      (by decide)
  refine ⟨henv, hfile, fun h => ?_⟩
  have hid := congrArg (fun s : Settings => s.engine.implicitScopeId)
    (Except.ok.inj (henv.symm.trans (h.trans hfile)))
  exact absurd hid (by decide)

end SagaEngine.Settings
