import SagaEngine.Settings
import SagaEngine.Toml.Document

/-! Settings as they stand in a TOML document, where every value must have the type of its field. What
is missing keeps its default, and unknown keys do not matter. -/

namespace SagaEngine.Settings

def field? (name : String) (place : Nat) : Toml → Option (Option Toml)
  | .table entries => some (Table.get? entries name)
  | .arr items => some items[place]?
  | .datetime _ => some none
  | _ => none

def fieldOr {α : Type} (default : α) (read : Toml → Option α) : Option Toml → Option α
  | some v => read v
  | none => some default

def text? : Toml → Option String
  | .str s => some s
  | _ => none

def flag? : Toml → Option Bool
  | .bool b => some b
  | _ => none

def count? : Toml → Option Nat
  | .int n => if 0 ≤ n then some n.toNat else none
  | _ => none

def engineOfToml? (v : Toml) : Option EngineSettings := do
  let d : EngineSettings := {}
  some {
    implicitScopeId := ← fieldOr d.implicitScopeId text? (← field? "implicit_scope_id" 0 v)
    sliceBudget := ← fieldOr d.sliceBudget count? (← field? "slice_budget" 1 v) }

def loggingOfToml? (v : Toml) : Option LoggingSettings := do
  let d : LoggingSettings := {}
  some {
    filter := ← fieldOr d.filter text? (← field? "filter" 0 v)
    ansi := ← fieldOr d.ansi flag? (← field? "ansi" 1 v) }

def ofToml? (v : Toml) : Option Settings := do
  some {
    engine := ← fieldOr {} engineOfToml? (← field? "engine" 0 v)
    logging := ← fieldOr {} loggingOfToml? (← field? "logging" 1 v) }

def readToml? (text : String) : Option Settings := (Toml.read? text).bind ofToml?

end SagaEngine.Settings
