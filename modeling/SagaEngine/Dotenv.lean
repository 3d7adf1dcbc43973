import SagaEngine.Dotenv.Line
import SagaEngine.Dotenv.Value
import SagaEngine.Table

/-! Variables files. A file assigns values to names, one line each; a variable that has a value already
keeps it, so of two assignments to one name the first counts. -/

namespace SagaEngine.Dotenv

abbrev Variables := Table String

def isNameStart (c : Char) : Bool := c.isAlpha || c == '_'

def isNameChar (c : Char) : Bool := c.isAlphanum || c == '_' || c == '.'

def readName? : List Char → Option (String × List Char)
  | c :: rest =>
    if isNameStart c then
      some (String.ofList (c :: rest.takeWhile isNameChar), Text.trimStart (rest.dropWhile isNameChar))
    else none
  | [] => none

def readEquals? : List Char → Option (List Char)
  | '=' :: rest => some (Text.trimStart rest)
  | _ => none

def readTarget? (cs : List Char) : Option (String × List Char) := do
  let (name, rest) ← readName? cs
  match name, readEquals? rest with
  | _, some text => some (name, text)
  | "export", none => do
    let (name, rest) ← readName? rest
    some (name, ← readEquals? rest)
  | _, none => none

def isEmptyOrComment : List Char → Bool
  | [] => true
  | c :: _ => c == '#'

def lookup? (env : Variables) (name : String) : Option String :=
  if name.isEmpty then none
  else
    let mark := name.toList ++ ['=']
    env.findSome? fun (other, value) =>
      let entry := other.toList ++ '=' :: value.toList
      if mark.isPrefixOf entry then some (String.ofList (entry.drop mark.length)) else none

def assign? (env : Variables) (line : List Char) : Option Variables :=
  let cs := Text.trim line
  if isEmptyOrComment cs then some env
  else do
    let (name, text) ← readTarget? cs
    let lookup := fun k => (lookup? env k).getD ""
    let value ← if isEmptyOrComment text then some "" else readValue? lookup text
    some (if env.contains name then env else env.insert name value)

def assignLines (env : Variables) : List (Option (List Char)) → Variables
  | some line :: rest => match assign? env line with
    | some env => assignLines env rest
    | none => env
  | none :: _ | [] => env

def load (env : Variables) (text : String) : Variables :=
  let cs := match text.toList with
    | '\uFEFF' :: rest => rest
    | cs => cs
  assignLines env (linesOf cs)

end SagaEngine.Dotenv
