import SagaEngine.Binary64.Decimal
import SagaEngine.Settings.Raw
import SagaEngine.Text.Quoted

/-! Why settings cannot be loaded. -/

namespace SagaEngine.Settings

inductive Found where
  | scalar (v : Scalar)
  | sequence
  | map
deriving DecidableEq, Repr

inductive Expected where
  | integer
  | unsigned
  | boolean
  | text
deriving DecidableEq, Repr

inductive Error where
  /-- A source lacks the file that it names. -/
  | missingFile (path : String)
  /-- The ending of the file's name tells no format. -/
  | unknownFormat (path : String)
  | malformedFile (path : String)
  | wrongType (found : Found) (expected : Expected) (key : String) (origin : Option String)
  /-- A section is given as a single value. -/
  | notSection (found : Scalar) (record : String)
  | zeroBudget
  | blankScopeId
deriving DecidableEq, Repr

def pointed (x : Binary64) : String :=
  let text := x.plain
  if x.isFinite && !text.toList.contains '.' then text ++ ".0" else text

def Scalar.describe : Scalar → String
  | .nil => "unit value"
  | .bool b => "boolean `" ++ (if b then "true" else "false") ++ "`"
  | .int n => "integer `" ++ toString n ++ "`"
  | .float x => "floating point `" ++ pointed x ++ "`"
  | .str s => "string " ++ Text.quote s

def Found.describe : Found → String
  | .scalar (.int n) => "64-bit integer `" ++ toString n ++ "`"
  | .scalar v => v.describe
  | .sequence => "sequence"
  | .map => "map"

def Expected.describe : Expected → String
  | .integer => "an integer"
  | .unsigned => "an unsigned 64 bit or less integer"
  | .boolean => "a boolean"
  | .text => "a string"

def Error.cause : Error → String
  | .missingFile path => "configuration file \"" ++ path ++ "\" not found"
  | .unknownFormat path => "configuration file \"" ++ path ++ "\" is not of a registered file format"
  | .malformedFile path => "malformed text in " ++ path
  | .wrongType found expected key origin =>
    "invalid type: " ++ found.describe ++ ", expected " ++ expected.describe ++ " for key `" ++ key ++ "`" ++
      match origin with
      | some o => " in " ++ o
      | none => ""
  | .notSection found record => "invalid type: " ++ found.describe ++ ", expected struct " ++ record
  | .zeroBudget => "engine.slice_budget must be greater than zero"
  | .blankScopeId => "engine.implicit_scope_id must not be empty"

def Error.message (e : Error) : String := "configuration error: " ++ e.cause

end SagaEngine.Settings
