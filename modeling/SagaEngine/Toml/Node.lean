import SagaEngine.Toml

/-! Tables of a document while it is read. A table remembers how it came to be, for that decides what
may still be added to it; a value, an inline table included, is closed. -/

namespace SagaEngine.Toml

inductive Making where
  | header
  | passing
  | dotted
deriving DecidableEq, Repr

/-- `rows` is an array of tables, of which only the last is open. -/
inductive Node where
  | value (v : Toml)
  | table (making : Making) (entries : List (String × Node))
  | rows (earlier : List Toml) (last : List (String × Node))
deriving Inhabited

abbrev Entries := List (String × Node)

namespace Node

mutual

def toToml : Node → Toml
  | .value v => v
  | .table _ entries => .table (tomlEntries entries)
  | .rows earlier last => .arr (earlier ++ [.table (tomlEntries last)])

def tomlEntries : List (String × Node) → List (String × Toml)
  | [] => []
  | (k, n) :: rest => (k, n.toToml) :: tomlEntries rest

end

end Node

namespace Entries

def put : Entries → String → Node → Entries
  | [], k, n => [(k, n)]
  | (j, m) :: t, k, n => if j = k then (k, n) :: t else (j, m) :: put t k n

/-- Changes the table at the end of a path by `change`; a missing one is made as `making` says. -/
def alter? (making : Making) (change : Bool → Entries → Option Entries) :
    List String → Bool → Entries → Option Entries
  | [], isDotted, t => change isDotted t
  | k :: path, _, t => do
    let below ← match Table.get? t k with
      | none => (alter? making change path (making == .dotted) []).map (.table making)
      | some (.table how u) =>
        if making = .dotted ∧ how = .header then none
        else (alter? making change path (how == .dotted) u).map (.table how)
      | some (.rows earlier last) => (alter? making change path false last).map (.rows earlier)
      | some (.value _) => none
    some (put t k below)

def openTable? (path : List String) (name : String) (t : Entries) : Option Entries :=
  alter? .passing (fun _ t => match Table.get? t name with
    | none => some (put t name (.table .header []))
    | some (.table .passing u) => some (put (Table.erase t name) name (.table .header u))
    | some _ => none) path false t

def openRow? (path : List String) (name : String) (t : Entries) : Option Entries :=
  alter? .passing (fun _ t => match Table.get? t name with
    | none => some (put t name (.rows [] []))
    | some (.rows earlier last) =>
      some (put t name (.rows (earlier ++ [.table (Node.tomlEntries last)]) []))
    | some _ => none) path false t

def assign? (path : List String) (name : String) (v : Toml) (t : Entries) : Option Entries :=
  alter? .dotted (fun isDotted t =>
    if isDotted = path.isEmpty || Table.contains t name then none
    else some (put t name (.value v))) path false t

end Entries

end SagaEngine.Toml
