import SagaEngine.Pattern.Escape

/-! Character classes in patterns: members, ranges and classes within brackets, and the three operations
on what stands before and after them. Only the height of a class is kept. -/

namespace SagaEngine.Pattern

/-- A bracket that is being read, by the heights of its operands. -/
structure Bracket where
  operand : Option Nat := none
  items : List Nat := []
deriving Repr

namespace Bracket

def add (b : Bracket) (height : Nat) : Bracket := { b with items := height :: b.items }

def contentHeight (b : Bracket) : Nat :=
  match b.operand with
  | none => heightOfSeveral b.items
  | some h => max h (heightOfSeveral b.items) + 1

def operate (b : Bracket) : Bracket := { operand := some b.contentHeight }

end Bracket

def classNames : List String :=
  ["alnum", "alpha", "ascii", "blank", "cntrl", "digit", "graph", "lower", "print", "punct", "space",
    "upper", "word", "xdigit"]

def readNamed? (cs : List Char) : Option (Bool × List Char) :=
  match cs with
  | ':' :: rest =>
    let (negated, rest) := match rest with
      | '^' :: rest => (true, rest)
      | rest => (false, rest)
    match rest.dropWhile (· != ':') with
    | ':' :: ']' :: after =>
      if classNames.contains (String.ofList (rest.takeWhile (· != ':'))) then some (negated, after)
      else none
    | _ => none
  | _ => none

def readMember? (f : Flags) : List Char → Option (Escape × List Char)
  | '\\' :: rest => do
    match ← readEscape? f rest with
    | (.assertion _, _) => none
    | member => some member
  | c :: rest => some (.literal c false, rest)
  | [] => none

def peekGap (inComment : Bool) : List Char → Option Char
  | [] => none
  | c :: rest =>
    if Text.isBlank c then peekGap inComment rest
    else if !inComment && c == '#' then peekGap true rest
    else some c

def Flags.peek (f : Flags) (cs : List Char) : Option Char :=
  if f.spaced then (peekGap false cs).or cs.head? else cs.head?

def readItem? (f : Flags) (cs : List Char) : Option (List Char) := do
  let (first, rest) ← readMember? f cs
  match f.skip rest with
  | [] => none
  | c :: rest =>
    let next := f.peek rest
    if c != '-' || next == some ']' || next == some '-' then match first with
      | .literal a _ => if f.allowsMember a then some (c :: rest) else none
      | .kind negated => if f.allowsKind negated then some (c :: rest) else none
      | .assertion _ => none
    else match first, ← readMember? f (f.skip rest) with
      | .literal a _, (.literal b _, rest) =>
        if f.allowsMember a && f.allowsMember b && decide (a ≤ b) then some rest else none
      | _, _ => none

def readDashes? (f : Flags) (b : Bracket) : Nat → List Char → Option (Bracket × List Char)
  | 0, _ => none
  | fuel + 1, cs => match f.skip cs with
    | [] => none
    | '-' :: rest => if f.allowsMember '-' then readDashes? f (b.add 0) fuel rest else none
    | rest => some (b, rest)

def readOpening? (f : Flags) (cs : List Char) : Option (Bracket × List Char) := do
  let cs ← match f.skip cs with
    | '^' :: rest => if f.allowsNegation then some rest else none
    | rest => some rest
  match ← readDashes? f {} (cs.length + 1) cs with
  | (⟨none, []⟩, ']' :: rest) =>
    if f.allowsMember ']' && !(f.skip rest).isEmpty then some (Bracket.add {} 0, f.skip rest) else none
  | opened => some opened

def readBracket? (f : Flags) (outer : List Bracket) (b : Bracket) :
    Nat → List Char → Option (Nat × List Char)
  | 0, _ => none
  | fuel + 1, cs => match f.skip cs with
    | [] => none
    | '[' :: rest => match readNamed? rest with
      | some (negated, rest) =>
        if f.allowsNamed negated then readBracket? f outer (b.add 0) fuel rest else none
      | none => do
        let (inner, rest) ← readOpening? f rest
        readBracket? f (b :: outer) inner fuel rest
    | ']' :: rest =>
      let height := b.contentHeight + 1
      match outer with
      | [] => some (height, rest)
      | parent :: outer => readBracket? f outer (parent.add height) fuel rest
    | '&' :: '&' :: rest | '-' :: '-' :: rest | '~' :: '~' :: rest =>
      readBracket? f outer b.operate fuel rest
    | rest => do readBracket? f outer (b.add 0) fuel (← readItem? f rest)

def readClass? (f : Flags) (cs : List Char) : Option (Nat × List Char) := do
  let (b, rest) ← readOpening? f cs
  readBracket? f [] b (rest.length + 1) rest

end SagaEngine.Pattern
