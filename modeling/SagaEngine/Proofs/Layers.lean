import Mathlib.Tactic.Choose
import SagaEngine.Settings.Load

/-! Layered settings. Each of the four keys takes its value from the environment, or else from the file,
or else from the defaults, whatever becomes of the others. -/

namespace SagaEngine.Settings

/-! ## Keys and sources -/

inductive Key where
  | scopeId
  | budget
  | filter
  | ansi
deriving DecidableEq, Repr

namespace Key

def home : Key → String
  | .scopeId | .budget => "engine"
  | .filter | .ansi => "logging"

def name : Key → String
  | .scopeId => "implicit_scope_id"
  | .budget => "slice_budget"
  | .filter => "filter"
  | .ansi => "ansi"

def text (k : Key) : String := k.home ++ "." ++ k.name

def standard : Key → Scalar
  | .scopeId => .str "main"
  | .budget => .int 64
  | .filter => .str "info"
  | .ansi => .bool true

def isAt (k : Key) : KeyPath → Bool
  | [.field s, .field n] => Text.lowercase s == k.home && Text.lowercase n == k.name
  | _ => false

end Key

namespace Raw

def isScalar : Raw → Bool
  | .scalar _ _ => true
  | _ => false

def isTable : Raw → Bool
  | .table _ _ => true
  | _ => false

def at? (root : Raw) (k : Key) : Option Raw :=
  ((root.entries.get? k.home).getD nil).entries.get? k.name

end Raw

def given? (source : List (String × Raw)) (k : Key) : Option Raw :=
  (Raw.emptyTable.override source).at? k

def Key.entries (k : Key) (es : List (String × Raw)) : List Raw :=
  es.filterMap fun (n, v) => if Text.lowercase n = k.name ∧ v.isScalar = true then some v else none

def Key.values (k : Key) (e : String × Raw) : List Raw :=
  match KeyPath.ofText e.1 with
  | [.field s] => if Text.lowercase s = k.home then k.entries e.2.entries else []
  | [.field s, .field n] => if Text.lowercase s = k.home then k.entries [(n, e.2)] else []
  | _ => []

def written? (source : List (String × Raw)) (k : Key) : Option Raw :=
  (source.flatMap k.values).getLast?

/-- A source gives each section as a table, or gives what lies in it by name. -/
def Sectioned (source : List (String × Raw)) : Prop :=
  ∀ e ∈ source, ∀ (k : Key) (s : String) (path : KeyPath),
    KeyPath.ofText e.1 = .field s :: path → Text.lowercase s = k.home →
      path = [] ∧ e.2.isTable = true ∨ ∃ n rest, path = .field n :: rest

/-- A source leaves neither tables nor lists under the keys. -/
def Plain (source : List (String × Raw)) : Prop := ∀ k v, given? source k = some v → v.isScalar = true

def assigned? (env : Dotenv.Variables) (k : Key) : Option Raw :=
  (env.filterMap fun (name, text) =>
    if (keyOfVariable? name).any fun key => k.isAt (.ofText key) then
      some (.scalar (some environmentName) (.ofText text))
    else none).getLast?

/-- The value of a key by the order of precedence. -/
def resolved (env : Dotenv.Variables) (file : List (String × Raw)) (k : Key) : Raw :=
  ((assigned? env k).or (written? file k)).getD (.scalar none k.standard)

def typed (v : Key → Raw) : Except Error Settings := do
  return {
    engine := {
      implicitScopeId := ← (v .scopeId).toText Key.scopeId.text
      sliceBudget := ← (v .budget).toCount Key.budget.text }
    logging := {
      filter := ← (v .filter).toText Key.filter.text
      ansi := ← (v .ansi).toFlag Key.ansi.text } }

def Valid (s : Settings) : Prop :=
  0 < s.engine.sliceBudget ∧ Text.trim s.engine.implicitScopeId.toList ≠ []

/-! ## What is stored under a key -/

namespace Raw

@[simp] theorem entries_withEntries (v : Raw) (es : Table Raw) : (v.withEntries es).entries = es := by
  cases v <;> rfl

theorem isTable_withEntries (v : Raw) (es : Table Raw) : (v.withEntries es).isTable = true := by
  cases v <;> rfl

def stored (v : Raw) : KeyPath → Option Raw → Raw
  | [], old => match v with
    | .table _ entries => putAll (old.getD emptyTable) entries
    | v => v
  | path, old => setAt v path (old.getD nil)

theorem put_eq (t v : Raw) (key : String) : t.put key v =
    t.withEntries (t.entries.insert (Text.lowercase key)
      (stored v [] (t.entries.get? (Text.lowercase key)))) := by
  cases v <;> simp [put, stored]

theorem setAt_eq (t v : Raw) (key : String) (path : KeyPath) : setAt v (.field key :: path) t =
    t.withEntries (t.entries.insert (Text.lowercase key)
      (stored v path (t.entries.get? (Text.lowercase key)))) := by
  cases path with
  | nil =>
    rw [setAt]
    exact put_eq t v key
  | cons step path => simp [setAt, stored]

theorem isTable_put (t v : Raw) (key : String) : (t.put key v).isTable = true := by
  rw [put_eq]
  exact isTable_withEntries _ _

theorem isTable_putAll {t : Raw} (ht : t.isTable = true) (es : List (String × Raw)) :
    (t.putAll es).isTable = true := by
  induction es generalizing t with
  | nil => exact ht
  | cons e es ih => exact ih (isTable_put t e.2 e.1)

theorem not_scalar_of_table {v : Raw} (h : v.isTable = true) : v.isScalar = false := by
  cases v with
  | table => rfl
  | scalar => cases h
  | arr => cases h

theorem not_scalar_setAt (v : Raw) (step : KeyStep) (path : KeyPath) (t : Raw) :
    (setAt v (step :: path) t).isScalar = false := by
  cases step with
  | field key =>
    rw [setAt_eq]
    exact not_scalar_of_table (isTable_withEntries _ _)
  | item index =>
    unfold setAt withItems
    cases t <;> rfl

theorem get?_setAt (v t : Raw) (key : String) (path : KeyPath) (name : String) :
    (setAt v (.field key :: path) t).entries.get? name =
      if Text.lowercase key = name then some (stored v path (t.entries.get? name))
      else t.entries.get? name := by
  rw [setAt_eq, entries_withEntries, Table.get?_insert]
  split
  · rename_i h
    rw [h]
  · rfl

theorem at?_setAt (v root : Raw) (s : String) (path : KeyPath) (k : Key) :
    (setAt v (.field s :: path) root).at? k =
      if Text.lowercase s = k.home then
        (stored v path (root.entries.get? k.home)).entries.get? k.name
      else root.at? k := by
  unfold at?
  rw [get?_setAt]
  split <;> rfl

theorem at?_setAt_field (v root : Raw) (s n : String) (path : KeyPath) (k : Key) :
    (setAt v (.field s :: .field n :: path) root).at? k =
      if Text.lowercase s = k.home ∧ Text.lowercase n = k.name then
        some (stored v path (root.at? k))
      else root.at? k := by
  rw [at?_setAt]
  by_cases hs : Text.lowercase s = k.home
  · rw [if_pos hs, stored, get?_setAt]
    · simp only [hs, true_and]
      rfl
    · intro h
      cases h
  · rw [if_neg hs, if_neg fun h => hs h.1]

end Raw

theorem KeyPath.ofText_field (text : String) : ∃ s path, KeyPath.ofText text = .field s :: path := by
  unfold ofText
  rcases h : read? text with _ | p
  · exact ⟨text, [], rfl⟩
  · unfold read? at h
    simp only [Option.bind_eq_bind, Option.bind_eq_some_iff] at h
    obtain ⟨⟨name, rest⟩, -, steps, -, h⟩ := h
    exact ⟨name, steps, (Option.some.inj h).symm⟩

/-! ## What a source does to a key -/

/-- What becomes of the value under a key in a layer, whose last scalar for it is `w`. -/
inductive Layer (w : Option Raw) (f : Option Raw → Option Raw) : Prop where
  | keeps : w = none → (∀ x, f x = x) → Layer w f
  | sets (v : Raw) : w = some v → v.isScalar = true → (∀ x, f x = some v) → Layer w f
  | spoils (y : Raw) :
      f none = some y → y.isScalar = false →
      (∀ x, (w = none ∧ f x = x) ∨ ∃ z, f x = some z ∧ z.isScalar = false) → Layer w f

namespace Layer

variable {w u : Option Raw} {f g : Option Raw → Option Raw} {d c : Raw}

theorem comp (hf : Layer w f) (hg : Layer u g) : Layer (u.or w) fun x => g (f x) := by
  cases hg with
  | keeps hu hg =>
    have hgf : (fun x => g (f x)) = f := funext fun x => hg (f x)
    rw [hgf, hu, Option.none_or]
    exact hf
  | sets v hu hv hg => exact .sets v (by rw [hu, Option.some_or]) hv fun x => hg (f x)
  | spoils y hy hys hg =>
    -- what is spoiled already stays so
    have hstays : ∀ z, z.isScalar = false → ∃ t, g (some z) = some t ∧ t.isScalar = false := by
      intro z hz
      rcases hg (some z) with ⟨-, h⟩ | h
      · exact ⟨z, h, hz⟩
      · exact h
    cases hf with
    | keeps hw hf =>
      refine .spoils y (by rw [hf, hy]) hys fun x => ?_
      rw [hf, hw, Option.or_none]
      exact hg x
    | sets v hw hv hf =>
      rcases hg (some v) with ⟨hu, h⟩ | ⟨z, h, hz⟩
      · exact .sets v (by rw [hu, hw, Option.none_or]) hv fun x => by rw [hf, h]
      · exact .spoils z (by rw [hf, h]) hz fun x => .inr ⟨z, by rw [hf, h], hz⟩
    | spoils y' hy' hys' hf =>
      obtain ⟨t, ht, hts⟩ := hstays y' hys'
      refine .spoils t (by rw [hy', ht]) hts fun x => ?_
      rcases hf x with ⟨hw, h⟩ | ⟨z, h, hz⟩
      · rw [h, hw, Option.or_none]
        exact hg x
      · rw [h]
        exact .inr (hstays z hz)

theorem stored (v : Raw) (path : KeyPath) :
    Layer (if path = [] ∧ v.isScalar = true then some v else none)
      fun x => some (v.stored path x) := by
  have hnever : ∀ (w : Option Raw) (f : Option Raw → Raw), (∀ x, (f x).isScalar = false) →
      Layer w fun x => some (f x) := fun w f hf =>
    .spoils (f none) rfl (hf none) fun x => .inr ⟨f x, rfl, hf x⟩
  cases path with
  | cons step path => exact hnever _ _ fun x => Raw.not_scalar_setAt v step path _
  | nil =>
    cases v with
    | scalar o c => exact .sets (.scalar o c) rfl rfl fun _ => rfl
    | arr o items => exact hnever _ _ fun _ => rfl
    | table o es =>
      cases es with
      | cons e es =>
        exact hnever _ _ fun x =>
          Raw.not_scalar_of_table (Raw.isTable_putAll (Raw.isTable_put _ e.2 e.1) es)
      | nil =>
        refine .spoils Raw.emptyTable rfl rfl fun x => ?_
        cases x with
        | none => exact .inr ⟨Raw.emptyTable, rfl, rfl⟩
        | some z => exact .inl ⟨rfl, rfl⟩

theorem setAt (v : Raw) (key : String) (path : KeyPath) (name : String) :
    ∃ f, Layer
        (if Text.lowercase key = name ∧ path = [] ∧ v.isScalar = true then some v else none) f ∧
      ∀ t, (Raw.setAt v (.field key :: path) t).entries.get? name = f (t.entries.get? name) := by
  by_cases hk : Text.lowercase key = name
  · refine ⟨fun x => some (v.stored path x), ?_, fun t => by rw [Raw.get?_setAt, if_pos hk]⟩
    simp only [hk, true_and]
    exact stored v path
  · exact ⟨_, .keeps (if_neg fun h => hk h.1) fun _ => rfl,
      fun t => by rw [Raw.get?_setAt, if_neg hk]⟩

theorem put (v : Raw) (key : String) (k : Key) :
    ∃ f, Layer (k.entries [(key, v)]).getLast? f ∧
      ∀ t : Raw, (t.put key v).entries.get? k.name = f (t.entries.get? k.name) := by
  obtain ⟨f, hf, hset⟩ := setAt v key [] k.name
  refine ⟨f, ?_, fun t => hset t⟩
  by_cases h : Text.lowercase key = k.name ∧ v.isScalar = true
  · simpa [Key.entries, h] using hf
  · simpa [Key.entries, h] using hf

theorem putAll (es : List (String × Raw)) (k : Key) :
    ∃ f, Layer (k.entries es).getLast? f ∧
      ∀ t, (Raw.putAll t es).entries.get? k.name = f (t.entries.get? k.name) := by
  induction es with
  | nil => exact ⟨_, .keeps rfl fun _ => rfl, fun _ => rfl⟩
  | cons e es ih =>
    obtain ⟨f, hf, hput⟩ := put e.2 e.1 k
    obtain ⟨g, hg, hputs⟩ := ih
    refine ⟨fun x => g (f x), ?_, fun t => (hputs _).trans (congrArg g (hput t))⟩
    rw [show k.entries (e :: es) = k.entries [e] ++ k.entries es from
      List.filterMap_append (l := [e]), List.getLast?_append]
    exact hf.comp hg

theorem assign {e : String × Raw} (hs : Sectioned [e]) (k : Key) :
    ∃ f, Layer (k.values e).getLast? f ∧
      ∀ root : Raw, (Raw.setAt e.2 (.ofText e.1) root).at? k = f (root.at? k) := by
  obtain ⟨s, path, hpath⟩ := KeyPath.ofText_field e.1
  by_cases hk : Text.lowercase s = k.home
  · rcases hs e (List.mem_singleton_self e) k s path hpath hk with ⟨rfl, ht⟩ | ⟨n, rest, rfl⟩
    · obtain ⟨f, hf, hputs⟩ := putAll e.2.entries k
      refine ⟨f, ?_, fun root => ?_⟩
      · simp only [Key.values, hpath, hk, if_pos]
        exact hf
      · rw [hpath, Raw.at?_setAt, if_pos hk]
        obtain ⟨key, v⟩ := e
        cases v with
        | scalar | arr => cases ht
        | table o es =>
          refine (hputs _).trans (congrArg f ?_)
          unfold Raw.at?
          cases root.entries.get? k.home <;> rfl
    · cases rest with
      | nil =>
        obtain ⟨f, hf, hput⟩ := put e.2 n k
        refine ⟨f, ?_, fun root => ?_⟩
        · simp only [Key.values, hpath, hk, if_pos]
          exact hf
        · rw [hpath, Raw.at?_setAt, if_pos hk]
          exact hput _
      | cons step rest =>
        obtain ⟨f, hf, hset⟩ := setAt e.2 n (step :: rest) k.name
        refine ⟨f, ?_, fun root => ?_⟩
        · rw [if_neg fun h => List.cons_ne_nil _ _ h.2.1] at hf
          simpa [Key.values, hpath] using hf
        · rw [hpath, Raw.at?_setAt, if_pos hk]
          exact hset _
  · refine ⟨fun x => x, .keeps ?_ fun _ => rfl, fun root => by
      rw [hpath, Raw.at?_setAt, if_neg hk]⟩
    unfold Key.values
    rw [hpath]
    split
    · rename_i h
      cases h
      rw [if_neg hk]
      rfl
    · rename_i h
      cases h
      rw [if_neg hk]
      rfl
    · rfl

theorem exists_some (hf : Layer w f) (d : Raw) : ∃ c, f (some d) = some c := by
  cases hf with
  | keeps _ h => exact ⟨d, h _⟩
  | sets v _ _ h => exact ⟨v, h _⟩
  | spoils y _ _ h =>
    rcases h (some d) with ⟨-, h⟩ | ⟨z, h, -⟩
    · exact ⟨d, h⟩
    · exact ⟨z, h⟩

theorem eq_of_scalar (hf : Layer w f) (h : f (some d) = some c) (hc : c.isScalar = true) :
    c = w.getD d := by
  cases hf with
  | keeps hw hk =>
    rw [hk] at h
    rw [hw]
    exact (Option.some.inj h).symm
  | sets v hw _ hs =>
    rw [hs] at h
    rw [hw]
    exact (Option.some.inj h).symm
  | spoils y _ _ hs =>
    rcases hs (some d) with ⟨hw, hd⟩ | ⟨z, hz, hzs⟩
    · rw [hw]
      exact Option.some.inj (h.symm.trans hd)
    · rw [Option.some.inj (h.symm.trans hz), hzs] at hc
      cases hc

theorem scalar_of_plain (hf : Layer w f) (hp : ∀ v, f none = some v → v.isScalar = true)
    (hd : d.isScalar = true) (h : f (some d) = some c) : c.isScalar = true := by
  cases hf with
  | keeps _ hk =>
    rw [hk] at h
    exact Option.some.inj h ▸ hd
  | sets v _ hv hs =>
    rw [hs] at h
    exact Option.some.inj h ▸ hv
  | spoils y hy hys _ =>
    rw [hp y hy] at hys
    cases hys

end Layer

variable {source file : List (String × Raw)} {env : Dotenv.Variables} {k : Key} {root : Raw}

theorem Sectioned.split {e : String × Raw} (h : Sectioned (e :: source)) :
    Sectioned [e] ∧ Sectioned source :=
  ⟨fun d hd => h d (List.mem_singleton.1 hd ▸ .head _), fun d hd => h d (.tail _ hd)⟩

theorem Sectioned.layer (hs : Sectioned source) (k : Key) :
    ∃ f, Layer (written? source k) f ∧
      ∀ root : Raw, (root.override source).at? k = f (root.at? k) := by
  induction source with
  | nil => exact ⟨_, .keeps rfl fun _ => rfl, fun _ => rfl⟩
  | cons e source ih =>
    obtain ⟨f, hf, hassign⟩ := Layer.assign hs.split.1 k
    obtain ⟨g, hg, hrest⟩ := ih hs.split.2
    refine ⟨fun x => g (f x), ?_, fun root => (hrest _).trans (congrArg g (hassign root))⟩
    unfold written?
    rw [List.flatMap_cons, List.getLast?_append]
    exact hf.comp hg

theorem Key.values_scalar (k : Key) (key : String) (o : Option String) (c : Scalar) :
    k.values (key, .scalar o c) = if k.isAt (.ofText key) then [.scalar o c] else [] := by
  obtain ⟨s, path, hpath⟩ := KeyPath.ofText_field key
  unfold Key.values
  rw [hpath]
  split
  · rename_i h
    cases h
    simp [isAt, entries, Raw.entries]
  · rename_i h
    cases h
    rename_i n
    by_cases hs : Text.lowercase s = k.home
    · by_cases hn : Text.lowercase n = k.name
      · simp [isAt, entries, hs, hn, Raw.isScalar]
      · simp [isAt, entries, hs, hn]
    · simp [isAt, hs]
  · rename_i hne hne'
    rw [if_neg]
    unfold isAt
    split
    · rename_i h
      exact absurd h (hne' _ _)
    · simp

theorem written_environment (env : Dotenv.Variables) (k : Key) :
    written? (environmentValues env) k = assigned? env k := by
  unfold written? assigned?
  congr 1
  induction env with
  | nil => rfl
  | cons e env ih =>
    rcases hkey : keyOfVariable? e.1 with _ | key
    · simpa [environmentValues, hkey] using ih
    · by_cases hat : k.isAt (.ofText key) = true
      · simpa [environmentValues, hkey, hat, Key.values_scalar] using ih
      · simpa [environmentValues, hkey, hat, Key.values_scalar] using ih

/-! ## The sections stay tables -/

def Tabular (root : Raw) : Prop :=
  ∀ k : Key, ∃ t, root.entries.get? k.home = some t ∧ t.isTable = true

theorem Tabular.assign (h : Tabular root) {e : String × Raw} (hs : Sectioned [e]) :
    Tabular (Raw.setAt e.2 (.ofText e.1) root) := by
  intro k
  obtain ⟨s, path, hpath⟩ := KeyPath.ofText_field e.1
  obtain ⟨t, ht, htable⟩ := h k
  rw [hpath, Raw.get?_setAt, ht]
  by_cases hk : Text.lowercase s = k.home
  · rw [if_pos hk]
    refine ⟨_, rfl, ?_⟩
    rcases hs e (List.mem_singleton_self e) k s path hpath hk with ⟨rfl, hv⟩ | ⟨n, rest, rfl⟩
    · cases hx : e.2 with
      | table o es => exact Raw.isTable_putAll htable es
      | scalar | arr =>
        rw [hx] at hv
        cases hv
    · rw [Raw.stored, Raw.setAt_eq]
      · exact Raw.isTable_withEntries _ _
      · intro h
        cases h
  · rw [if_neg hk]
    exact ⟨t, rfl, htable⟩

theorem Tabular.override (h : Tabular root) (hs : Sectioned source) :
    Tabular (root.override source) := by
  induction source generalizing root with
  | nil => exact h
  | cons e source ih => exact ih (h.assign hs.split.1) hs.split.2

/-! ## Conversion -/

theorem fieldOr_table {α : Type} (section_ record : String) (o : Option String) {es : Table Raw}
    (default : α) (read : String → Raw → Except Error α) {field : String} (place : Nat) {v : Raw}
    (h : es.get? field = some v) :
    Section.fieldOr ⟨section_, record, .table o es⟩ default read field place =
      read (section_ ++ "." ++ field) v := by
  unfold Section.fieldOr Section.field?
  dsimp only
  rw [h]
  rfl

theorem engineOfRaw_table (o : Option String) {es : Table Raw} {a b : Raw}
    (ha : es.get? Key.scopeId.name = some a) (hb : es.get? Key.budget.name = some b) :
    engineOfRaw (.table o es) = do
      return {
        implicitScopeId := ← a.toText Key.scopeId.text
        sliceBudget := ← b.toCount Key.budget.text } := by
  have hid : Section.fieldOr ⟨"engine", "EngineConfig", .table o es⟩ "main" Raw.toText
      "implicit_scope_id" 0 = a.toText Key.scopeId.text := fieldOr_table _ _ o _ _ 0 ha
  have hbudget : Section.fieldOr ⟨"engine", "EngineConfig", .table o es⟩ 64 Raw.toCount
      "slice_budget" 1 = b.toCount Key.budget.text := fieldOr_table _ _ o _ _ 1 hb
  unfold engineOfRaw
  dsimp only
  rw [hid, hbudget]
  rfl

theorem loggingOfRaw_table (o : Option String) {es : Table Raw} {a b : Raw}
    (ha : es.get? Key.filter.name = some a) (hb : es.get? Key.ansi.name = some b) :
    loggingOfRaw (.table o es) = do
      return { filter := ← a.toText Key.filter.text, ansi := ← b.toFlag Key.ansi.text } := by
  have hfilter : Section.fieldOr ⟨"logging", "LoggingConfig", .table o es⟩ "info" Raw.toText
      "filter" 0 = a.toText Key.filter.text := fieldOr_table _ _ o _ _ 0 ha
  have hansi : Section.fieldOr ⟨"logging", "LoggingConfig", .table o es⟩ true Raw.toFlag
      "ansi" 1 = b.toFlag Key.ansi.text := fieldOr_table _ _ o _ _ 1 hb
  unfold loggingOfRaw
  dsimp only
  rw [hfilter, hansi]
  rfl

theorem ofRaw_eq (h : Tabular root) {v : Key → Raw} (hv : ∀ k, root.at? k = some (v k)) :
    ofRaw root = typed v := by
  have hsection : ∀ {k : Key} {t : Raw}, root.entries.get? k.home = some t →
      t.entries.get? k.name = some (v k) := by
    intro k t ht
    have hk := hv k
    unfold Raw.at? at hk
    rwa [ht] at hk
  obtain ⟨t, ht, htable⟩ := h .budget
  obtain ⟨u, hu, hutable⟩ := h .ansi
  cases t with
  | scalar | arr => cases htable
  | table o es => cases u with
    | scalar | arr => cases hutable
    | table o' es' =>
      have hengine : sectionOr {} engineOfRaw "engine" root = engineOfRaw (.table o es) := by
        unfold sectionOr
        rw [show root.entries.get? "engine" = _ from ht]
      have hlogging : sectionOr {} loggingOfRaw "logging" root = loggingOfRaw (.table o' es') := by
        unfold sectionOr
        rw [show root.entries.get? "logging" = _ from hu]
      have hid : Table.get? es Key.scopeId.name = some (v .scopeId) := hsection (k := .scopeId) ht
      have hbudget : Table.get? es Key.budget.name = some (v .budget) := hsection ht
      have hfilter : Table.get? es' Key.filter.name = some (v .filter) := hsection (k := .filter) hu
      have hansi : Table.get? es' Key.ansi.name = some (v .ansi) := hsection hu
      unfold ofRaw typed
      rw [hengine, hlogging, engineOfRaw_table o hid hbudget, loggingOfRaw_table o' hfilter hansi]
      simp only [bind_assoc, pure_bind]

theorem typed_ok {v : Key → Raw} {settings : Settings} (h : typed v = .ok settings) :
    (v .scopeId).toText Key.scopeId.text = .ok settings.engine.implicitScopeId ∧
    (v .budget).toCount Key.budget.text = .ok settings.engine.sliceBudget ∧
    (v .filter).toText Key.filter.text = .ok settings.logging.filter ∧
    (v .ansi).toFlag Key.ansi.text = .ok settings.logging.ansi := by
  unfold typed at h
  rcases hid : (v .scopeId).toText Key.scopeId.text with e | id
  · rw [hid] at h
    cases h
  rcases hbudget : (v .budget).toCount Key.budget.text with e | budget
  · rw [hid, hbudget] at h
    cases h
  rcases hfilter : (v .filter).toText Key.filter.text with e | filter
  · rw [hid, hbudget, hfilter] at h
    cases h
  rcases hansi : (v .ansi).toFlag Key.ansi.text with e | ansi
  · rw [hid, hbudget, hfilter, hansi] at h
    cases h
  rw [hid, hbudget, hfilter, hansi] at h
  cases h
  exact ⟨rfl, rfl, rfl, rfl⟩

theorem isScalar_of_typed {v : Key → Raw} {settings : Settings} (h : typed v = .ok settings)
    (k : Key) : (v k).isScalar = true := by
  have htext : ∀ {r : Raw} {key : String} {a : String}, r.toText key = .ok a → r.isScalar = true := by
    intro r key a h
    cases r with
    | scalar => rfl
    | arr | table => cases h
  have hcount : ∀ {r : Raw} {key : String} {a : Nat}, r.toCount key = .ok a → r.isScalar = true := by
    intro r key a h
    cases r with
    | scalar => rfl
    | arr | table => cases h
  have hflag : ∀ {r : Raw} {key : String} {a : Bool}, r.toFlag key = .ok a → r.isScalar = true := by
    intro r key a h
    cases r with
    | scalar => rfl
    | arr | table => cases h
  obtain ⟨hid, hbudget, hfilter, hansi⟩ := typed_ok h
  cases k with
  | scopeId => exact htext hid
  | budget => exact hcount hbudget
  | filter => exact htext hfilter
  | ansi => exact hflag hansi

theorem validate_ok {settings settings' : Settings} :
    validate settings = .ok settings' ↔ settings' = settings ∧ Valid settings := by
  unfold validate Valid
  split
  · rename_i h
    simp [h]
  · rename_i h
    split
    · rename_i hb
      simp [List.isEmpty_iff.1 hb]
    · rename_i hb
      rw [List.isEmpty_iff] at hb
      simp only [Except.ok.injEq, Nat.pos_of_ne_zero h, ne_eq, hb, not_false_eq_true, and_self,
        and_true]
      exact eq_comm

/-! ## Loading -/

namespace Key

theorem parts (k : Key) : (Text.lowercase k.home = k.home ∧ Text.lowercase k.name = k.name) ∧
    KeyPath.ofText k.home = [.field k.home] ∧
    KeyPath.ofText k.text = [.field k.home, .field k.name] := by
  cases k <;> decide +kernel

theorem lowercase_home (k : Key) : Text.lowercase k.home = k.home := k.parts.1.1

theorem lowercase_name (k : Key) : Text.lowercase k.name = k.name := k.parts.1.2

theorem ofText_text (k : Key) : KeyPath.ofText k.text = [.field k.home, .field k.name] := k.parts.2.2

theorem isAt_text (k : Key) : k.isAt (.ofText k.text) = true := by
  simp [ofText_text, isAt, lowercase_home, lowercase_name]

theorem eq_iff (j k : Key) : j = k ↔ j.home = k.home ∧ j.name = k.name := by
  cases j <;> cases k <;> decide

end Key

theorem at?_setAt_text (root : Raw) (c : Scalar) (j k : Key) :
    (Raw.setAt (.scalar none c) (.ofText j.text) root).at? k =
      if j = k then some (.scalar none c) else root.at? k := by
  rw [j.ofText_text, Raw.at?_setAt_field, j.lowercase_home, j.lowercase_name]
  simp only [Key.eq_iff j k, Raw.stored]

theorem table_setAt_text {root : Raw} (v : Raw) {j k : Key}
    (h : j.home = k.home ∨ ∃ t, root.entries.get? k.home = some t ∧ t.isTable = true) :
    ∃ t, (Raw.setAt v (.ofText j.text) root).entries.get? k.home = some t ∧ t.isTable = true := by
  rw [j.ofText_text, Raw.get?_setAt, j.lowercase_home]
  by_cases hk : j.home = k.home
  · rw [if_pos hk, Raw.stored, Raw.setAt_eq]
    · exact ⟨_, rfl, Raw.isTable_withEntries _ _⟩
    · intro h
      cases h
  · rw [if_neg hk]
    exact h.resolve_left hk

theorem defaults_eq : defaults = Raw.emptyTable.override
    ([.scopeId, .budget, .filter, .ansi].map fun k : Key => (k.text, .scalar none k.standard)) := rfl

theorem tabular_defaults : Tabular defaults := by
  intro k
  rw [defaults_eq]
  simp only [Raw.override, List.map_cons, List.map_nil, List.foldl_cons, List.foldl_nil]
  cases k with
  | scopeId | budget =>
    exact table_setAt_text _ (.inr (table_setAt_text _ (.inr (table_setAt_text _ (.inl rfl)))))
  | filter | ansi => exact table_setAt_text _ (.inl rfl)

theorem at?_defaults (k : Key) : defaults.at? k = some (.scalar none k.standard) := by
  rw [defaults_eq]
  simp only [Raw.override, List.map_cons, List.map_nil, List.foldl_cons, List.foldl_nil,
    at?_setAt_text]
  cases k <;> rfl

def Request.variables (r : Request) (s : Surroundings) : Dotenv.Variables :=
  if r.useEnvironment then s.environment else []

def layered (env : Dotenv.Variables) (file : List (String × Raw)) : Raw :=
  (defaults.override file).override (environmentValues env)

theorem load_eq {s : Surroundings} {r : Request}
    (hf : s.fileValues (r.path.or ((r.variables s).get? pathVariable)) = .ok file) :
    load s r = (ofRaw (layered (r.variables s) file)).bind validate := by
  unfold load
  dsimp only
  rw [show (if r.useEnvironment = true then s.environment else []) = r.variables s from rfl, hf]
  rfl

theorem tabular_layered (hf : Sectioned file) (he : Sectioned (environmentValues env)) :
    Tabular (layered env file) := (tabular_defaults.override hf).override he

theorem layers (hf : Sectioned file) (he : Sectioned (environmentValues env)) (k : Key) :
    ∃ f g, Layer (written? file k) f ∧ Layer (assigned? env k) g ∧ given? file k = f none ∧
      given? (environmentValues env) k = g none ∧
      (layered env file).at? k = g (f (some (.scalar none k.standard))) := by
  obtain ⟨f, hlf, hfile⟩ := hf.layer k
  obtain ⟨g, hlg, henv⟩ := he.layer k
  rw [written_environment] at hlg
  refine ⟨f, g, hlf, hlg, hfile _, henv _, ?_⟩
  rw [layered, henv, hfile, at?_defaults]

theorem at?_layered (hf : Sectioned file) (he : Sectioned (environmentValues env)) {c : Raw}
    (h : (layered env file).at? k = some c) (hc : c.isScalar = true) : c = resolved env file k := by
  obtain ⟨f, g, hlf, hlg, -, -, hat⟩ := layers hf he k
  obtain ⟨d, hd⟩ := hlf.exists_some (.scalar none k.standard)
  rw [hat, hd] at h
  have hcd := hlg.eq_of_scalar h hc
  unfold resolved
  rcases hg : assigned? env k with _ | v
  · rw [hg, Option.getD_none] at hcd
    rw [Option.none_or, hcd]
    exact hlf.eq_of_scalar hd (hcd ▸ hc)
  · rwa [hg] at hcd

theorem plain_layered (hf : Sectioned file) (he : Sectioned (environmentValues env)) (hpf : Plain file)
    (hpe : Plain (environmentValues env)) (k : Key) :
    (layered env file).at? k = some (resolved env file k) := by
  obtain ⟨f, g, hlf, hlg, hfile, henv, hat⟩ := layers hf he k
  obtain ⟨d, hd⟩ := hlf.exists_some (.scalar none k.standard)
  obtain ⟨c, hc⟩ := hlg.exists_some d
  have hds := hlf.scalar_of_plain (fun v hv => hpf k v (hfile.trans hv)) rfl hd
  have hcs := hlg.scalar_of_plain (fun v hv => hpe k v (henv.trans hv)) hds hc
  have hk : (layered env file).at? k = some c := by rw [hat, hd, hc]
  rw [hk, at?_layered hf he hk hcs]

theorem keyOfVariable_named {name : String} (k : Key) :
    (Text.lowercase name = "choreo__" ++ k.home ++ "__" ++ k.name →
      keyOfVariable? name = some k.text) ∧
    (Text.lowercase name = "choreo_" ++ k.home ++ "__" ++ k.name → keyOfVariable? name = none) := by
  unfold keyOfVariable?
  constructor
  all_goals
    intro h
    rw [h]
    cases k <;> decide +kernel

/-- A key has the value of the last variable that sets it, or else the file's, or else the default. -/
theorem load_layered {s : Surroundings} {r : Request}
    (hfile : s.fileValues (r.path.or ((r.variables s).get? pathVariable)) = .ok file)
    (hf : Sectioned file) (he : Sectioned (environmentValues (r.variables s))) :
    (∀ settings, load s r = .ok settings →
      typed (resolved (r.variables s) file) = .ok settings ∧ Valid settings) ∧
    (Plain file → Plain (environmentValues (r.variables s)) →
      load s r = (typed (resolved (r.variables s) file)).bind validate ∧
      ∀ settings, typed (resolved (r.variables s) file) = .ok settings →
        ((∃ loaded, load s r = .ok loaded) ↔ Valid settings)) ∧
    ∀ (k : Key) (name : String),
      (Text.lowercase name = "choreo__" ++ k.home ++ "__" ++ k.name →
        ∃ key, keyOfVariable? name = some key ∧ k.isAt (.ofText key) = true) ∧
      (Text.lowercase name = "choreo_" ++ k.home ++ "__" ++ k.name → keyOfVariable? name = none) := by
  have htables := tabular_layered hf he
  refine ⟨fun settings h => ?_, fun hpf hpe => ?_, fun k name =>
    ⟨fun h => ⟨k.text, (keyOfVariable_named k).1 h, k.isAt_text⟩, (keyOfVariable_named k).2⟩⟩
  · have hsome : ∀ k, ∃ c, (layered (r.variables s) file).at? k = some c := fun k => by
      obtain ⟨f, g, hlf, hlg, -, -, hat⟩ := layers hf he k
      obtain ⟨d, hd⟩ := hlf.exists_some (.scalar none k.standard)
      obtain ⟨c, hc⟩ := hlg.exists_some d
      exact ⟨c, by rw [hat, hd, hc]⟩
    choose v hv using hsome
    rw [load_eq hfile, ofRaw_eq htables hv] at h
    rcases ht : typed v with e | loaded
    · rw [ht] at h
      cases h
    · rw [ht] at h
      obtain ⟨rfl, hvalid⟩ := validate_ok.1 h
      have hresolved : v = resolved (r.variables s) file :=
        funext fun k => at?_layered hf he (hv k) (isScalar_of_typed ht k)
      exact ⟨hresolved ▸ ht, hvalid⟩
  · have hload : load s r = (typed (resolved (r.variables s) file)).bind validate := by
      rw [load_eq hfile, ofRaw_eq htables (plain_layered hf he hpf hpe)]
    refine ⟨hload, fun settings ht => ?_⟩
    rw [hload, ht]
    constructor
    · rintro ⟨loaded, h⟩
      exact (validate_ok.1 h).2
    · intro hvalid
      exact ⟨settings, validate_ok.2 ⟨rfl, hvalid⟩⟩

theorem ok_of_toOption {α : Type} {x : Except Error α} {a : α} (h : x.toOption = some a) :
    x = .ok a := by
  cases x with
  | error => cases h
  | ok b => exact congrArg Except.ok (Option.some.inj h)

theorem sectioned_of_tables (k : Key)
    (h : (source.all fun e => e.1 == k.home && e.2.isTable) = true) : Sectioned source := by
  intro e he j s path hpath _
  have hshape := List.all_eq_true.1 h e he
  rw [Bool.and_eq_true, beq_iff_eq] at hshape
  rw [hshape.1, k.parts.2.1] at hpath
  exact .inl ⟨(List.cons.inj hpath).2.symm, hshape.2⟩

def shop : Surroundings where
  files := [("choreo.toml", "[engine]\nslice_budget = 8\n")]
  env := [("CHOREO__ENGINE__SLICE_BUDGET", "16")]

theorem shop_budget : ∃ file, shop.fileValues none = .ok file ∧
    typed (resolved shop.env file) = .ok { engine := { sliceBudget := 16 } } ∧
    Valid { engine := { sliceBudget := 16 } } := by
  have hload : load shop {} = .ok { engine := { sliceBudget := 16 } } :=
    ok_of_toOption (by decide +kernel)
  have hread : (shop.fileValues none).toOption.any
      (fun file => file.all fun e => e.1 == Key.budget.home && e.2.isTable) = true := by decide +kernel
  obtain ⟨file, hfile, hall⟩ := (Option.any_eq_true _ _).1 hread
  have hsectioned := sectioned_of_tables .budget hall
  have henv : Sectioned (environmentValues shop.env) := by
    have hkey : keyOfVariable? "CHOREO__ENGINE__SLICE_BUDGET" = some Key.budget.text :=
      (keyOfVariable_named .budget).1 (by decide +kernel)
    intro e he k s path hpath _
    simp only [environmentValues, shop, List.filterMap_cons, hkey, Option.map_some,
      List.filterMap_nil, List.mem_singleton] at he
    rw [he, Key.ofText_text] at hpath
    exact .inr ⟨_, _, (List.cons.inj hpath).2.symm⟩
  have hvalues := ok_of_toOption hfile
  exact ⟨file, hvalues, (load_layered (s := shop) (r := {}) hvalues hsectioned henv).1 _ hload⟩

def documented : Surroundings where
  env := [("CHOREO_ENGINE__SLICE_BUDGET", "16")]

/-- The variable that is named in the documentation sets nothing. -/
theorem documented_variable_ignored :
    documented.environment.get? "CHOREO_ENGINE__SLICE_BUDGET" = some "16" ∧
    load documented {} = .ok {} ∧ ({} : Settings).engine.sliceBudget = 64 := by
  have hfile : documented.fileValues none = .ok [] := by
    have hempty : (documented.fileValues none).toOption.map List.isEmpty = some true := by
      decide +kernel
    obtain ⟨file, hf, he⟩ := Option.map_eq_some_iff.1 hempty
    exact ok_of_toOption (List.isEmpty_iff.1 he ▸ hf)
  have hnone : keyOfVariable? "CHOREO_ENGINE__SLICE_BUDGET" = none :=
    (keyOfVariable_named .budget).2 (by decide +kernel)
  have henv : environmentValues documented.env = [] := by
    simp [environmentValues, documented, hnone]
  have hlayered : layered documented.env [] = defaults := by
    simp only [layered, henv, Raw.override, List.foldl_nil]
  refine ⟨by decide +kernel, ?_, rfl⟩
  rw [load_eq (s := documented) (r := {}) hfile, show Request.variables {} documented =
    documented.env from rfl, hlayered, ofRaw_eq tabular_defaults at?_defaults]
  exact validate_ok.2 ⟨rfl, by decide, by decide⟩

end SagaEngine.Settings
