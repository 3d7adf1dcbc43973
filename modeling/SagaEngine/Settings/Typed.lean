import SagaEngine.Settings
import SagaEngine.Settings.Error
import SagaEngine.Settings.KeyPath

/-! Settings out of raw values. A value of another type is converted where that makes sense, for the
environment knows only text. -/

namespace SagaEngine.Settings

def roundHalfUp (m : Nat) (q : Int) : Nat :=
  if 0 ≤ q then m * Binary64.power 2 q
  else (2 * m + Binary64.power 2 (-q)) / (2 * Binary64.power 2 (-q))

def countOfFloat (x : Binary64) : Nat :=
  match x.view with
  | .nan => 0
  | .infinite negative => if negative then 0 else Numeral.maxUInt64.toNat
  | .finite negative m q => if negative then 0 else min (roundHalfUp m q) Numeral.maxUInt64.toNat

def Raw.found : Raw → Found
  | .scalar _ v => .scalar v
  | .arr _ _ => .sequence
  | .table _ _ => .map

def Raw.wrongType (v : Raw) (key : String) (expected : Expected) : Error :=
  .wrongType v.found expected key v.origin

def Raw.toCount (key : String) (v : Raw) : Except Error Nat :=
  match v with
  | .scalar _ (.int n) => if 0 ≤ n then .ok n.toNat else .error (v.wrongType key .unsigned)
  | .scalar _ (.bool b) => .ok (if b then 1 else 0)
  | .scalar _ (.float x) => .ok (countOfFloat x)
  | .scalar _ (.str s) =>
    let lower := Text.lowercase s
    if lower = "true" ∨ lower = "on" ∨ lower = "yes" then .ok 1
    else if lower = "false" ∨ lower = "off" ∨ lower = "no" then .ok 0
    else match Numeral.readUInt64? s.toList with
      | some n => .ok n
      | none => .error (v.wrongType key .integer)
  | _ => .error (v.wrongType key .integer)

def Raw.toFlag (key : String) (v : Raw) : Except Error Bool :=
  match v with
  | .scalar _ (.bool b) => .ok b
  | .scalar _ (.int n) => .ok (n != 0)
  | .scalar _ (.float x) => .ok !x.isZero
  | .scalar o (.str s) =>
    let lower := Text.lowercase s
    if lower = "1" ∨ lower = "true" ∨ lower = "on" ∨ lower = "yes" then .ok true
    else if lower = "0" ∨ lower = "false" ∨ lower = "off" ∨ lower = "no" then .ok false
    else .error (.wrongType (.scalar (.str lower)) .boolean key o)
  | _ => .error (v.wrongType key .boolean)

def Raw.toText (key : String) (v : Raw) : Except Error String :=
  match v with
  | .scalar _ (.str s) => .ok s
  | .scalar _ (.bool b) => .ok (if b then "true" else "false")
  | .scalar _ (.int n) => .ok (toString n)
  | .scalar _ (.float x) => .ok x.plain
  | _ => .error (v.wrongType key .text)

structure Section where
  name : String
  record : String
  value : Raw

def Section.check (s : Section) : Except Error Unit :=
  match s.value with
  | .scalar _ v => .error (.notSection v s.record)
  | _ => .ok ()

def Section.field? (s : Section) (field : String) (place : Nat) : Option (String × Raw) :=
  match s.value with
  | .table _ entries => (Table.get? entries field).map (s.name ++ "." ++ field, ·)
  | .arr _ items => items[place]?.map (s.name ++ "[" ++ toString place ++ "]", ·)
  | .scalar _ _ => none

def Section.fieldOr {α : Type} (s : Section) (default : α) (read : String → Raw → Except Error α)
    (field : String) (place : Nat) : Except Error α :=
  match s.field? field place with
  | some (key, v) => read key v
  | none => .ok default

def engineOfRaw (v : Raw) : Except Error EngineSettings := do
  let s : Section := ⟨"engine", "EngineConfig", v⟩
  s.check
  let d : EngineSettings := {}
  return {
    implicitScopeId := ← s.fieldOr d.implicitScopeId Raw.toText "implicit_scope_id" 0
    sliceBudget := ← s.fieldOr d.sliceBudget Raw.toCount "slice_budget" 1 }

def loggingOfRaw (v : Raw) : Except Error LoggingSettings := do
  let s : Section := ⟨"logging", "LoggingConfig", v⟩
  s.check
  let d : LoggingSettings := {}
  return {
    filter := ← s.fieldOr d.filter Raw.toText "filter" 0
    ansi := ← s.fieldOr d.ansi Raw.toFlag "ansi" 1 }

def sectionOr {α : Type} (default : α) (read : Raw → Except Error α) (name : String) (root : Raw) :
    Except Error α :=
  match root.entries.get? name with
  | some v => read v
  | none => .ok default

def ofRaw (root : Raw) : Except Error Settings := do
  return {
    engine := ← sectionOr {} engineOfRaw "engine" root
    logging := ← sectionOr {} loggingOfRaw "logging" root }

def defaults : Raw :=
  let d : Settings := {}
  Raw.emptyTable.override [
    ("engine.implicit_scope_id", .scalar none (.str d.engine.implicitScopeId)),
    ("engine.slice_budget", .scalar none (.int d.engine.sliceBudget)),
    ("logging.filter", .scalar none (.str d.logging.filter)),
    ("logging.ansi", .scalar none (.bool d.logging.ansi))]

def validate (s : Settings) : Except Error Settings :=
  if s.engine.sliceBudget = 0 then .error .zeroBudget
  else if (Text.trim s.engine.implicitScopeId.toList).isEmpty then .error .blankScopeId
  else .ok s

end SagaEngine.Settings
