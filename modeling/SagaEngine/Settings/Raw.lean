import SagaEngine.Json
import SagaEngine.Numeral
import SagaEngine.Text.Lowercase
import SagaEngine.Toml.DateText

/-! Values as the sources of settings give them, before any type is asked of them, and how a later
source overrides an earlier one. -/

namespace SagaEngine.Settings

inductive Scalar where
  | nil
  | bool (b : Bool)
  | int (n : Int)
  | float (x : Binary64)
  | str (s : String)
deriving DecidableEq, Repr, Inhabited

inductive Raw where
  | scalar (origin : Option String) (v : Scalar)
  | arr (origin : Option String) (items : List Raw)
  | table (origin : Option String) (entries : List (String × Raw))
deriving Inhabited

namespace Raw

def origin : Raw → Option String
  | .scalar o _ | .arr o _ | .table o _ => o

def nil : Raw := .scalar none .nil

def emptyTable : Raw := .table none []

def dateKey : String := "$__toml_private_datetime"

mutual

def ofToml? (origin : Option String) : Toml → Option Raw
  | .str s | .datetime s => some (.scalar origin (.str s))
  | .int n => some (.scalar origin (.int n))
  | .float x => some (.scalar origin (.float x))
  | .bool b => some (.scalar origin (.bool b))
  | .arr items => (ofTomlItems? origin items).map (.arr origin)
  | .table entries => match entries with
    | [] => some (.table origin [])
    | (k, v) :: rest =>
      if k = dateKey then match v with
        | .str s => (Toml.normalDate? s.toList).map fun s => .scalar origin (.str (String.ofList s))
        | _ => none
      else (ofTomlEntries? origin ((k, v) :: rest)).map fun entries => .table origin (Table.ofList entries)

def ofTomlItems? (origin : Option String) : List Toml → Option (List Raw)
  | [] => some []
  | v :: rest => do some ((← ofToml? origin v) :: (← ofTomlItems? origin rest))

def ofTomlEntries? (origin : Option String) : List (String × Toml) → Option (List (String × Raw))
  | [] => some []
  | (k, v) :: rest => do some ((k, ← ofToml? origin v) :: (← ofTomlEntries? origin rest))

end

def scalarOfInt (n : Int) : Scalar := if Numeral.fitsInt64 n then .int n else .float (.ofInt n)

mutual

def ofJson (origin : Option String) : Json → Raw
  | .null => .scalar origin .nil
  | .bool b => .scalar origin (.bool b)
  | .int n => .scalar origin (scalarOfInt n)
  | .float x => .scalar origin (.float x)
  | .str s => .scalar origin (.str s)
  | .arr items => .arr origin (ofJsonItems origin items)
  | .obj fields => .table origin (ofJsonFields origin fields)

def ofJsonItems (origin : Option String) : List Json → List Raw
  | [] => []
  | v :: rest => ofJson origin v :: ofJsonItems origin rest

def ofJsonFields (origin : Option String) : List (String × Json) → List (String × Raw)
  | [] => []
  | (k, v) :: rest => (k, ofJson origin v) :: ofJsonFields origin rest

end

def entries : Raw → Table Raw
  | .table _ entries => entries
  | _ => []

def items : Raw → List Raw
  | .arr _ items => items
  | _ => []

def withEntries (v : Raw) (entries : Table Raw) : Raw :=
  match v with
  | .table o _ => .table o entries
  | _ => .table none entries

def withItems (v : Raw) (items : List Raw) : Raw :=
  match v with
  | .arr o _ => .arr o items
  | _ => .arr none items

mutual

/-- Case does not distinguish keys, and a table overrides key by key. -/
def put (target : Raw) (key : String) : Raw → Raw
  | .table _ entries =>
    let old := target.entries.get? (Text.lowercase key)
    target.withEntries
      (target.entries.insert (Text.lowercase key) (putAll (old.getD emptyTable) entries))
  | v => target.withEntries (target.entries.insert (Text.lowercase key) v)

def putAll (target : Raw) : List (String × Raw) → Raw
  | [] => target
  | (k, v) :: rest => putAll (put target k v) rest

end

end Raw

end SagaEngine.Settings
