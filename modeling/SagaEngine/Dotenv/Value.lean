import SagaEngine.Text.Alphanumeric

/-! Values in a variables file: quotation, escapes, and references to other variables. -/

namespace SagaEngine.Dotenv

inductive Reference where
  | absent
  | bare
  | braced
deriving DecidableEq, Repr

structure Reading where
  weak : Bool := false
  strong : Bool := false
  escaped : Bool := false
  reference : Reference := .absent
  name : List Char := []
  value : List Char := []

namespace Reading

def push (r : Reading) (c : Char) : Reading := { r with value := c :: r.value }

def resolve (lookup : String → String) (r : Reading) : Reading :=
  let text := (lookup (String.ofList r.name.reverse)).toList
  { r with name := [], value := text.reverse ++ r.value }

def unescape? (c : Char) : Option Char :=
  if c = '\\' ∨ c = '\'' ∨ c = '"' ∨ c = '$' ∨ c = ' ' then some c
  else if c = 'n' then some '\n'
  else none

def refer (lookup : String → String) (r : Reading) (c : Char) : Reading :=
  if Text.isAlphanumeric c then { r with name := c :: r.name }
  else match r.reference with
    | .braced =>
      if c = '\x7d' then { r.resolve lookup with reference := .absent }
      else { r with name := c :: r.name }
    | _ =>
      if c = '\x7b' ∧ r.name = [] then { r with reference := .braced }
      else if c = '$' then { r.resolve lookup with reference := .bare }
      else { (r.resolve lookup).push c with reference := .absent }

def take (r : Reading) (c : Char) : Reading :=
  if c = '$' then { r with reference := .bare }
  else if c = '"' then { r with weak := !r.weak }
  else if c = '\\' then { r with escaped := true }
  else if c = '\'' ∧ r.weak = false then { r with strong := true }
  else r.push c

def finish? (lookup : String → String) (r : Reading) : Option String :=
  if r.strong || r.weak || r.reference == .braced then none
  else some (String.ofList (r.resolve lookup).value.reverse)

end Reading

def isGap (c : Char) : Bool := c == ' ' || c == '\t'

def isTail (cs : List Char) : Bool :=
  match cs.dropWhile isGap with
  | [] => true
  | c :: _ => c == '#'

def readFrom? (lookup : String → String) (r : Reading) : List Char → Option String
  | [] => r.finish? lookup
  | c :: rest =>
    if r.escaped then do
      let c ← Reading.unescape? c
      readFrom? lookup { r.push c with escaped := false } rest
    else if r.strong then
      readFrom? lookup (if c = '\'' then { r with strong := false } else r.push c) rest
    else if r.reference ≠ .absent then readFrom? lookup (r.refer lookup c) rest
    else if isGap c ∧ r.weak = false then if isTail rest then r.finish? lookup else none
    else readFrom? lookup (r.take c) rest

def readValue? (lookup : String → String) (cs : List Char) : Option String := readFrom? lookup {} cs

end SagaEngine.Dotenv
