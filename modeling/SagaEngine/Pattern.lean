/-! Patterns of texts: regular expressions with groups, character classes, repetitions, assertions and
flags. What a pattern may hold depends on the flags in force at each place: without Unicode it matches
bytes, and must not match any that are not text by themselves; and there are no tables of Unicode for
letter case, for properties, or for digits, blanks and words. -/

namespace SagaEngine.Pattern

inductive Error where
  | malformed
  /-- Boundaries of words in Unicode text cannot be found while characters are read one by one. -/
  | unicodeWords
deriving DecidableEq, Repr

def Error.message : Error → String
  | .malformed => "error building NFA"
  | .unicodeWords => "unsupported regex feature for DFAs: cannot build DFAs for regexes with Unicode " ++
      "word boundaries; switch to ASCII word boundaries, or heuristically enable Unicode word " ++
      "boundaries or use a different regex engine"

structure Flags where
  caseless : Bool := false
  unicode : Bool := true
  spaced : Bool := false
deriving DecidableEq, Repr

namespace Flags

def set (f : Flags) (letter : Char) (value : Bool) : Flags :=
  match letter with
  | 'i' => { f with caseless := value }
  | 'u' => { f with unicode := value }
  | 'x' => { f with spaced := value }
  | _ => f

def allowsLiteral (f : Flags) (c : Char) (coded : Bool) : Bool :=
  if f.unicode then !f.caseless else !coded || decide (c.toNat < 0x80)

def allowsMember (f : Flags) (c : Char) : Bool :=
  if f.unicode then !f.caseless else decide (c.toNat < 0x80)

def allowsNamed (f : Flags) (negated : Bool) : Bool := if f.unicode then !f.caseless else !negated

def allowsKind (f : Flags) (negated : Bool) : Bool := !f.unicode && !negated

def allowsNegation (f : Flags) : Bool := f.unicode

def allowsDot (f : Flags) : Bool := f.unicode

end Flags

def heightOfSeveral (heights : List Nat) : Nat :=
  match heights with
  | [] => 0
  | [h] => h
  | _ => heights.foldl max 0 + 1

def maxHeight : Nat := 250

end SagaEngine.Pattern
