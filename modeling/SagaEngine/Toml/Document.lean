import SagaEngine.Toml.Statement

/-! A TOML document as a whole. Its statements act one after the other on a growing table; keys go into
the table of the last header. -/

namespace SagaEngine.Toml

structure Draft where
  entries : Entries := []
  current : List String := []

namespace Draft

def add? (d : Draft) : Statement → Option Draft
  | .table path name => do
    some ⟨← d.entries.openTable? path name, path ++ [name]⟩
  | .row path name => do
    some ⟨← d.entries.openRow? path name, path ++ [name]⟩
  | .assign path name v => do
    let entries ← d.entries.alter? .passing (fun _ t => t.assign? path name v) d.current false
    some { d with entries }

end Draft

def ofStatements? (statements : List Statement) : Option Toml := do
  let d ← statements.foldlM Draft.add? {}
  some (.table (Node.tomlEntries d.entries))

def skipMark : List Char → List Char
  | '\uFEFF' :: rest => rest
  | cs => cs

def read? (text : String) : Option Toml := do
  let cs := skipMark text.toList
  ofStatements? (← Statement.readAll? (cs.length + 1) cs)

end SagaEngine.Toml
