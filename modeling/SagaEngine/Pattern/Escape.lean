import SagaEngine.Json.Reader
import SagaEngine.Pattern
import SagaEngine.Text.Blank

/-! Blanks and escapes in patterns. -/

namespace SagaEngine.Pattern

def skipGaps (inComment : Bool) : List Char → List Char
  | [] => []
  | c :: rest =>
    if inComment then skipGaps (c != '\n') rest
    else if Text.isBlank c then skipGaps false rest
    else if c = '#' then skipGaps true rest
    else c :: rest

def Flags.skip (f : Flags) (cs : List Char) : List Char := if f.spaced then skipGaps false cs else cs

inductive Escape where
  | literal (c : Char) (coded : Bool)
  | kind (negated : Bool)
  | assertion (ofWords : Bool)
deriving DecidableEq, Repr

def readHex? (f : Flags) (value : Nat) : Nat → List Char → Option (Nat × List Char)
  | 0, cs => some (value, cs)
  | n + 1, cs => match f.skip cs with
    | [] => none
    | c :: rest => do readHex? f (16 * value + (← Json.hexValue? c)) n rest

def readCode? (f : Flags) (n : Nat) (cs : List Char) : Option (Escape × List Char) := do
  let (code, rest) ← readHex? f 0 n cs
  if code.isValidChar then some (.literal (Char.ofNat code) (n == 2), rest) else none

def isEscapable (c : Char) : Bool :=
  decide (c.toNat < 0x80) && !c.isAlphanum && c != '<' && c != '>'

def readEscape? (f : Flags) : List Char → Option (Escape × List Char)
  | [] => none
  | c :: rest =>
    let literal := fun c => some (Escape.literal c false, rest)
    match c with
    | 'x' => readCode? f 2 rest
    | 'u' => readCode? f 4 rest
    | 'U' => readCode? f 8 rest
    | 'd' | 's' | 'w' => some (.kind false, rest)
    | 'D' | 'S' | 'W' => some (.kind true, rest)
    | 'a' => literal '\x07'
    | 't' => literal '\t'
    | 'n' => literal '\n'
    | 'v' => literal '\x0b'
    | 'f' => literal '\x0c'
    | 'r' => literal '\r'
    | 'A' | 'z' => some (.assertion false, rest)
    | 'b' | 'B' | '<' | '>' => some (.assertion true, rest)
    | c => if isEscapable c then literal c else none

end SagaEngine.Pattern
