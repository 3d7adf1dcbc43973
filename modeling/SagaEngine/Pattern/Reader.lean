import SagaEngine.Pattern.Class
import SagaEngine.Text.Alphanumeric

/-! Checking patterns: a pattern is read from left to right, with the groups that are open. -/

namespace SagaEngine.Pattern

structure Item where
  height : Nat
  repeatable : Bool := true
deriving Repr

structure Level where
  outside : Flags := {}
  ended : List Nat := []
  items : List Item := []
deriving Repr

namespace Level

def add (l : Level) (i : Item) : Level := { l with items := i :: l.items }

def branchHeight (l : Level) : Nat := heightOfSeveral (l.items.map Item.height)

def endBranch (l : Level) : Level := { l with ended := l.branchHeight :: l.ended, items := [] }

def height (l : Level) : Nat := heightOfSeveral (l.branchHeight :: l.ended)

end Level

/-- How far a pattern has been read; `outer` are the groups around the current one. -/
structure Reading where
  flags : Flags := {}
  level : Level := {}
  outer : List Level := []
  names : List String := []
  ofWords : Bool := false
deriving Repr

def flagLetters : List Char := ['i', 'm', 's', 'U', 'u', 'R', 'x']

def readFlags? (seen : List Char) (f : Flags) : List Char → Option (List Char × Flags × List Char)
  | [] => none
  | c :: rest =>
    if c = ':' ∨ c = ')' then
      if seen.head? = some '-' then none else some (seen, f, c :: rest)
    else if seen.contains c then none
    else if c = '-' then readFlags? (c :: seen) f rest
    else if flagLetters.contains c then readFlags? (c :: seen) (f.set c !(seen.contains '-')) rest
    else none

def isNameStart (c : Char) : Bool := c == '_' || Text.isAlphabetic c

def isNameChar (c : Char) : Bool :=
  c == '_' || c == '.' || c == '[' || c == ']' || Text.isAlphanumeric c

def readName? (cs : List Char) : Option (String × List Char) :=
  match cs.takeWhile (· != '>'), cs.dropWhile (· != '>') with
  | c :: name, _ :: rest =>
    if isNameStart c && name.all isNameChar then some (String.ofList (c :: name), rest) else none
  | _, _ => none

namespace Reading

def add (r : Reading) (i : Item) : Reading := { r with level := r.level.add i }

def openGroup (r : Reading) (f : Flags) : Reading :=
  { r with flags := f, level := { outside := r.flags }, outer := r.level :: r.outer }

def closeGroup? (r : Reading) : Option Reading :=
  match r.outer with
  | [] => none
  | parent :: outer =>
    some { r with flags := r.level.outside, level := parent.add ⟨r.level.height + 1, true⟩, outer }

def openNamed? (r : Reading) (cs : List Char) : Option (Reading × List Char) := do
  let (name, rest) ← readName? cs
  if r.names.contains name then none
  else some ({ r with names := name :: r.names }.openGroup r.flags, rest)

def readGroup? (r : Reading) (cs : List Char) : Option (Reading × List Char) :=
  match r.flags.skip cs with
  | '?' :: 'P' :: '<' :: rest => r.openNamed? rest
  | '?' :: '<' :: rest => r.openNamed? rest
  | '?' :: rest => do
    match ← readFlags? [] r.flags rest with
    | ([], _, ')' :: _) => none
    | (_, f, ')' :: rest) => some ({ r with flags := f }.add ⟨0, false⟩, rest)
    | (_, f, _ :: rest) => some (r.openGroup f, rest)
    | (_, _, []) => none
  | rest => some (r.openGroup r.flags, rest)

def repeatLast? (r : Reading) : Option Reading :=
  match r.level.items with
  | i :: items =>
    if i.repeatable then
      some { r with level := { r.level with items := ⟨i.height + 1, true⟩ :: items } }
    else none
  | [] => none

def addLeaf? (r : Reading) (allowed : Bool) : Option Reading :=
  if allowed then some (r.add ⟨0, true⟩) else none

def addEscape? (r : Reading) : Escape → Option Reading
  | .literal c coded => r.addLeaf? (r.flags.allowsLiteral c coded)
  | .kind negated => r.addLeaf? (r.flags.allowsKind negated)
  | .assertion ofWords =>
    { r with ofWords := r.ofWords || (ofWords && r.flags.unicode) }.addLeaf? true

def take? (r : Reading) : List Char → Option (Reading × List Char)
  | [] => none
  | c :: rest =>
    match c with
    | '(' => r.readGroup? rest
    | ')' => r.closeGroup?.map (·, rest)
    | '|' => some ({ r with level := r.level.endBranch }, rest)
    | '[' => (readClass? r.flags rest).map fun (height, rest) => (r.add ⟨height, true⟩, rest)
    | '?' | '*' | '+' =>
      let rest := match rest with
        | '?' :: rest => rest
        | rest => rest
      r.repeatLast?.map (·, rest)
    | '\x7b' => none
    | '\\' => do
      let (e, rest) ← readEscape? r.flags rest
      some (← r.addEscape? e, rest)
    | '.' => (r.addLeaf? r.flags.allowsDot).map (·, rest)
    | '^' | '$' => (r.addLeaf? true).map (·, rest)
    | c => (r.addLeaf? (r.flags.allowsLiteral c false)).map (·, rest)

def finish? (r : Reading) : Nat → List Char → Option Reading
  | 0, _ => none
  | fuel + 1, cs => match r.flags.skip cs with
    | [] => if r.outer.isEmpty then some r else none
    | rest => do
      let (r, rest) ← r.take? rest
      r.finish? fuel rest

end Reading

def check (cs : List Char) : Except Error Unit :=
  match Reading.finish? {} (cs.length + 1) cs with
  | none => .error .malformed
  | some r =>
    if maxHeight < r.level.height then .error .malformed
    else if r.ofWords then .error .unicodeWords
    else .ok ()

end SagaEngine.Pattern
