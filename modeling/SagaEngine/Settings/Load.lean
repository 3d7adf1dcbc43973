import SagaEngine.Dotenv
import SagaEngine.Folder
import SagaEngine.Settings.Typed
import SagaEngine.Toml.Document

/-! Loading of settings. The defaults are overridden by a file, and both by the environment, into which
a variables file in the working directory goes first. -/

namespace SagaEngine.Settings

structure Surroundings where
  files : Folder := []
  env : Dotenv.Variables := []

structure Request where
  path : Option String := none
  useEnvironment : Bool := true

inductive Format where
  | toml
  | json
deriving DecidableEq, Repr

def Format.ofPath? (path : String) : Option Format :=
  match (Text.split '/' path.toList).getLast? with
  | none => none
  | some name => match (Text.split '.' name).reverse with
    | [] | [_] | [_, []] => none
    | ending :: _ =>
      if ending = "toml".toList then some .toml
      else if ending = "json".toList then some .json
      else none

structure Source where
  path : String
  format : Format
  text : String

def Source.of (path : String) (format : Format) (text : String) : Source :=
  ⟨joinPath (pathParts path), format, text⟩

def candidates (path : String) : List String :=
  match namedPath? path with
  | some named => [path, named ++ ".toml", named ++ ".json"]
  | none => [path]

def Surroundings.find (s : Surroundings) (path : String) : Except Error Source :=
  match s.files.read? path with
  | some text => match Format.ofPath? path with
    | some format => .ok (.of path format text)
    | none => .error (.unknownFormat path)
  | none =>
    let ended := fun ending format => do
      let named := (← namedPath? path) ++ ending
      some (Source.of named format (← s.files.read? named))
    match (ended ".toml" Format.toml).or (ended ".json" .json) with
    | some source => .ok source
    | none => .error (.missingFile path)

def maxJsonDepth : Nat := 127

def Source.values (s : Source) : Except Error (List (String × Raw)) :=
  let root := match s.format with
    | .toml => (Toml.read? s.text).bind (Raw.ofToml? (some s.path))
    | .json => (Json.read? maxJsonDepth s.text).map (Raw.ofJson (some s.path))
  match root with
  | some (.table _ entries) => .ok entries
  | _ => .error (.malformedFile s.path)

def standardFile : String := "choreo"

def Surroundings.fileValues (s : Surroundings) (path : Option String) :
    Except Error (List (String × Raw)) :=
  match path with
  | some path => do (← s.find path).values
  | none => match s.find standardFile with
    | .ok source => source.values
    | .error _ => .ok []

def Scalar.ofText (text : String) : Scalar :=
  let lower := Text.lowercase text
  if lower = "true" then .bool true
  else if lower = "false" then .bool false
  else match Numeral.readInt64? text.toList, Numeral.readFloat? text.toList with
    | some n, _ => .int n
    | none, some x => .float x
    | none, none => .str text

def variableMark : List Char := "choreo__".toList

def dotted : List Char → List Char
  | '_' :: '_' :: rest => '.' :: dotted rest
  | c :: rest => c :: dotted rest
  | [] => []

def keyOfVariable? (name : String) : Option String :=
  let cs := (Text.lowercase name).toList
  if variableMark.isPrefixOf cs then some (String.ofList (dotted (cs.drop variableMark.length))) else none

def environmentName : String := "the environment"

def environmentValues (env : Dotenv.Variables) : List (String × Raw) :=
  env.filterMap fun (name, text) =>
    (keyOfVariable? name).map fun key => (key, .scalar (some environmentName) (.ofText text))

def variablesFile : String := ".env"

def Surroundings.environment (s : Surroundings) : Dotenv.Variables :=
  match s.files.get? variablesFile with
  | some text => Dotenv.load s.env text
  | none => s.env

def pathVariable : String := "CHOREO_CONFIG_PATH"

/-- The settings from all sources. Without the environment only the defaults and a file count. -/
def load (s : Surroundings) (r : Request) : Except Error Settings := do
  let env := if r.useEnvironment then s.environment else []
  let file ← s.fileValues (r.path.or (env.get? pathVariable))
  validate (← ofRaw ((defaults.override file).override (environmentValues env)))

end SagaEngine.Settings
