import SagaEngine.Settings.Raw
import SagaEngine.Toml.Lexeme

/-! Paths of keys, such as `engine.slice_budget` or `hosts[0].name`. A source names the place of a value
by a path, and what lies on the way is made as needed. -/

namespace SagaEngine.Settings

inductive KeyStep where
  | field (key : String)
  | item (index : Int)
deriving DecidableEq, Repr

abbrev KeyPath := List KeyStep

namespace KeyPath

def isNameChar (c : Char) : Bool := c.isAlphanum || c == ' ' || c == '_' || c == '-'

def readName? (cs : List Char) : Option (String × List Char) :=
  let name := cs.takeWhile isNameChar
  if name.isEmpty then none else some (String.ofList name, cs.dropWhile isNameChar)

def readIndex? (cs : List Char) : Option (Int × List Char) :=
  let (negative, rest) := match cs.dropWhile Toml.isBlank with
    | '-' :: rest => (true, rest)
    | rest => (false, rest)
  let digits := rest.takeWhile Char.isDigit
  let n : Int := Numeral.digitsValue digits
  let index := if negative then -n else n
  match (rest.dropWhile Char.isDigit).dropWhile Toml.isBlank with
  | ']' :: rest => if digits.isEmpty || !Numeral.fitsInt64 index then none else some (index, rest)
  | _ => none

def readSteps? : Nat → List Char → Option KeyPath
  | _, [] => some []
  | 0, _ => none
  | fuel + 1, '.' :: rest => do
    let (name, rest) ← readName? rest
    some (.field name :: (← readSteps? fuel rest))
  | fuel + 1, '[' :: rest => do
    let (index, rest) ← readIndex? rest
    some (.item index :: (← readSteps? fuel rest))
  | _, _ => none

def read? (text : String) : Option KeyPath := do
  let (name, rest) ← readName? text.toList
  some (.field name :: (← readSteps? rest.length rest))

def ofText (text : String) : KeyPath := (read? text).getD [.field text]

end KeyPath

namespace Raw

def makeRoom (items : List Raw) (index : Int) : List Raw × Nat :=
  let place := if index < 0 then index + items.length else index
  if place < 0 then (List.replicate place.natAbs nil ++ items, 0)
  else (items ++ List.replicate (place.toNat + 1 - items.length) nil, place.toNat)

/-- Puts `v` at the end of a path, through tables and lists that are made or grow as needed. -/
def setAt (v : Raw) : KeyPath → Raw → Raw
  | [], _ => v
  | [.field key], target => target.put key v
  | .field key :: path, target =>
    let key := Text.lowercase key
    let inner := (target.entries.get? key).getD nil
    target.withEntries (target.entries.insert key (setAt v path inner))
  | .item index :: path, target =>
    let (items, i) := makeRoom target.items index
    target.withItems (items.modify i (setAt v path))

def override (target : Raw) (source : List (String × Raw)) : Raw :=
  source.foldl (fun t (key, v) => setAt v (.ofText key) t) target

end Raw

end SagaEngine.Settings
