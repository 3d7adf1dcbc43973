import SagaEngine.Toml.Node
import SagaEngine.Toml.Number

/-! The statements of a TOML text: headers of tables and of rows, and keys with their values. -/

namespace SagaEngine.Toml

inductive Statement where
  | table (path : List String) (name : String)
  | row (path : List String) (name : String)
  | assign (path : List String) (name : String) (value : Toml)

def maxDepth : Nat := 80

def isBareKeyChar (c : Char) : Bool := c.isAlphanum || c == '_' || c == '-'

def readKeyPart? (cs : List Char) : Option (String × List Char) :=
  let bare := cs.takeWhile isBareKeyChar
  if bare.isEmpty then readLineText? cs
  else some (String.ofList bare, cs.dropWhile isBareKeyChar)

def readKeyParts? (seen : List String) : Nat → List Char → Option (List String × String × List Char)
  | 0, _ => none
  | fuel + 1, cs => do
    let (part, rest) ← readKeyPart? (skipBlanks cs)
    match skipBlanks rest with
    | '.' :: rest => readKeyParts? (part :: seen) fuel rest
    | rest => some (seen.reverse, part, rest)

def readKey? (cs : List Char) : Option (List String × String × List Char) :=
  readKeyParts? [] (maxDepth - 1) cs

mutual

/-- Every call eats a character or hands over, so twice the length of the text is fuel enough. -/
def readValue? (depth : Nat) : Nat → List Char → Option (Toml × List Char)
  | 0, _ | _, [] => none
  | fuel + 1, c :: rest =>
    if isQuote c then (readText? (c :: rest)).map fun (s, rest) => (.str s, rest)
    else if c = '[' then match depth with
      | 0 => none
      | depth + 1 => do
        let rest ← skipLines? (rest.length + 1) rest
        readItems? depth [] fuel rest
    else if c = '\x7b' then match depth with
      | 0 => none
      | depth + 1 => match skipBlanks rest with
        | '\x7d' :: rest => some (.table [], rest)
        | rest => readEntries? depth [] fuel rest
    else if c = 't' then (Json.expect? ['r', 'u', 'e'] rest).map ((.bool true, ·))
    else if c = 'f' then (Json.expect? ['a', 'l', 's', 'e'] rest).map ((.bool false, ·))
    else match readDatetime? (c :: rest) with
      | some r => some r
      | none => readNumber? (c :: rest)

def readItems? (depth : Nat) (seen : List Toml) : Nat → List Char → Option (Toml × List Char)
  | 0, _ => none
  | _, ']' :: rest => some (.arr seen.reverse, rest)
  | fuel + 1, cs => do
    let (v, rest) ← readValue? depth fuel cs
    let rest ← skipLines? (rest.length + 1) rest
    match rest with
    | ']' :: rest => some (.arr (v :: seen).reverse, rest)
    | ',' :: rest => do
      let rest ← skipLines? (rest.length + 1) rest
      readItems? depth (v :: seen) fuel rest
    | _ => none

def readEntries? (depth : Nat) (seen : Entries) : Nat → List Char → Option (Toml × List Char)
  | 0, _ => none
  | fuel + 1, cs => do
    let (path, name, rest) ← readKey? cs
    let rest ← Json.expect? ['='] rest
    let (v, rest) ← readValue? depth fuel (skipBlanks rest)
    let seen ← seen.assign? path name v
    match skipBlanks rest with
    | '\x7d' :: rest => some (.table (Node.tomlEntries seen), rest)
    | ',' :: rest => readEntries? depth seen fuel rest
    | _ => none

end

def readValueOf? (cs : List Char) : Option (Toml × List Char) :=
  readValue? (maxDepth - 1) (2 * cs.length + 2) cs

namespace Statement

def read? : List Char → Option (Statement × List Char)
  | '[' :: '[' :: rest => do
    let (path, name, rest) ← readKey? rest
    let rest ← Json.expect? [']', ']'] rest
    some (.row path name, ← readLineEnd? rest)
  | '[' :: rest => do
    let (path, name, rest) ← readKey? rest
    let rest ← Json.expect? [']'] rest
    some (.table path name, ← readLineEnd? rest)
  | cs => do
    let (path, name, rest) ← readKey? cs
    let rest ← Json.expect? ['='] rest
    let (v, rest) ← readValueOf? (skipBlanks rest)
    some (.assign path name v, ← readLineEnd? rest)

def readAll? : Nat → List Char → Option (List Statement)
  | 0, _ => none
  | fuel + 1, cs => do
    match ← skipLines? (cs.length + 1) cs with
    | [] => some []
    | rest =>
      let (s, rest) ← read? rest
      some (s :: (← readAll? fuel rest))

end Statement

end SagaEngine.Toml
