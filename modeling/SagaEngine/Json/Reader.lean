import SagaEngine.Binary64.Arithmetic
import SagaEngine.Json
import SagaEngine.Numeral

/-! Reading JSON text. An integer outside the 64-bit range, and `-0`, is read as a float; a number
too large for one is refused, as are lone surrogates, control characters in strings and more than
`depth` levels of nesting. -/

namespace SagaEngine.Json

def isSpace (c : Char) : Bool := c == ' ' || c == '\n' || c == '\t' || c == '\r'

def skipSpace (cs : List Char) : List Char := cs.dropWhile isSpace

def hexValue? (c : Char) : Option Nat :=
  if c.isDigit then some (c.toNat - '0'.toNat)
  else if 'a' ≤ c ∧ c ≤ 'f' then some (c.toNat - 'a'.toNat + 10)
  else if 'A' ≤ c ∧ c ≤ 'F' then some (c.toNat - 'A'.toNat + 10)
  else none

def readHex4? : List Char → Option (Nat × List Char)
  | a :: b :: c :: d :: rest => do
    let a ← hexValue? a
    let b ← hexValue? b
    let c ← hexValue? c
    let d ← hexValue? d
    some (((a * 16 + b) * 16 + c) * 16 + d, rest)
  | _ => none

def readUnicode? (cs : List Char) : Option (Char × List Char) := do
  let (high, rest) ← readHex4? cs
  if high < 0xD800 ∨ 0xDFFF < high then some (Char.ofNat high, rest)
  else if 0xDC00 ≤ high then none
  else match rest with
    | '\\' :: 'u' :: rest =>
      let (low, rest) ← readHex4? rest
      if low < 0xDC00 ∨ 0xDFFF < low then none
      else some (Char.ofNat (0x10000 + (high - 0xD800) * 0x400 + (low - 0xDC00)), rest)
    | _ => none

def shortEscape? : Char → Option Char
  | '"' => some '"'
  | '\\' => some '\\'
  | '/' => some '/'
  | 'b' => some '\x08'
  | 'f' => some '\x0c'
  | 'n' => some '\n'
  | 'r' => some '\r'
  | 't' => some '\t'
  | _ => none

def readStringTail? (seen : List Char) : Nat → List Char → Option (String × List Char)
  | 0, _ | _, [] => none
  | fuel + 1, c :: rest =>
    if c = '"' then some (String.ofList seen.reverse, rest)
    else if c = '\\' then match rest with
      | 'u' :: rest => do
        let (c, rest) ← readUnicode? rest
        readStringTail? (c :: seen) fuel rest
      | e :: rest => do
        let c ← shortEscape? e
        readStringTail? (c :: seen) fuel rest
      | [] => none
    else if c.toNat < 0x20 then none
    else readStringTail? (c :: seen) fuel rest

def readString? : List Char → Option (String × List Char)
  | '"' :: rest => readStringTail? [] rest.length rest
  | _ => none

structure Decimal where
  significand : Nat
  exponent : Int
deriving DecidableEq, Repr

namespace Decimal

def takes (d : Decimal) (c : Char) : Bool :=
  decide (((10 * d.significand + Numeral.digitValue c : Nat) : Int) ≤ Numeral.maxUInt64)

def ofWhole (d : Decimal) : List Char → Decimal
  | [] => d
  | c :: cs =>
    if d.takes c then ofWhole ⟨10 * d.significand + Numeral.digitValue c, d.exponent⟩ cs
    else ⟨d.significand, d.exponent + (c :: cs).length⟩

def withFraction (d : Decimal) : List Char → Decimal
  | [] => d
  | c :: cs =>
    if d.takes c then withFraction ⟨10 * d.significand + Numeral.digitValue c, d.exponent - 1⟩ cs
    else d

end Decimal

def maxPower : Nat := 308

/-- A nonnegative number times a power of ten, rounded at each step and so not always the nearest. -/
def scaleByTen? (fuel : Nat) (x : Binary64) (exponent : Int) : Option Binary64 :=
  if exponent.natAbs ≤ maxPower then
    let power := Binary64.ofDecimal false 1 exponent.natAbs
    let y := if 0 ≤ exponent then x.mul power else x.div power
    if y.isFinite then some y else none
  else if x.isZero then some x
  else if 0 ≤ exponent then none
  else match fuel with
    | 0 => none
    | fuel + 1 => scaleByTen? fuel (x.div (.ofDecimal false 1 maxPower)) (exponent + maxPower)

def floatValue? (negative : Bool) (d : Decimal) : Option Json :=
  (scaleByTen? 2 (.ofInt d.significand) d.exponent).map fun x =>
    .float (if negative then x.negate else x)

def numberValue? (negative : Bool) (whole : List Char) (fraction : Option (List Char))
    (exponent : Option Int) : Option Json :=
  match fraction, exponent with
  | none, none =>
    let n : Int := Numeral.digitsValue whole
    let n := if negative then -n else n
    if (negative = true ∧ n = 0) ∨ n < Numeral.minInt64 ∨ Numeral.maxUInt64 < n then
      floatValue? negative (.ofWhole ⟨0, 0⟩ whole)
    else some (.int n)
  | _, _ =>
    let d := (Decimal.ofWhole ⟨0, 0⟩ whole).withFraction (fraction.getD [])
    floatValue? negative { d with exponent := d.exponent + exponent.getD 0 }

def readNumberExponent? : List Char → Option (Option Int × List Char)
  | c :: rest =>
    if c = 'e' ∨ c = 'E' then
      let (negative, rest) := Numeral.splitSign rest
      let digits := rest.takeWhile Char.isDigit
      if digits.isEmpty then none
      else
        let e : Int := Numeral.digitsValue digits
        some (some (if negative then -e else e), rest.dropWhile Char.isDigit)
    else some (none, c :: rest)
  | [] => some (none, [])

def readNumber? (cs : List Char) : Option (Json × List Char) := do
  let (negative, cs) := match cs with
    | '-' :: rest => (true, rest)
    | _ => (false, cs)
  let whole := cs.takeWhile Char.isDigit
  let rest := cs.dropWhile Char.isDigit
  if whole.isEmpty || (whole.head? == some '0' && whole.length != 1) then none
  else
    let (fraction, rest) ← match rest with
      | '.' :: r =>
        let digits := r.takeWhile Char.isDigit
        if digits.isEmpty then none else some (some digits, r.dropWhile Char.isDigit)
      | _ => some (none, rest)
    let (exponent, rest) ← readNumberExponent? rest
    let v ← numberValue? negative whole fraction exponent
    some (v, rest)

def expect? : List Char → List Char → Option (List Char)
  | [], cs => some cs
  | w :: ws, c :: cs => if w = c then expect? ws cs else none
  | _ :: _, [] => none

mutual

/-- One value and the rest. Every call eats a character, so the length of the text is fuel enough. -/
def readValue? (depth : Nat) : Nat → List Char → Option (Json × List Char)
  | 0, _ => none
  | fuel + 1, cs =>
    match skipSpace cs with
    | 'n' :: rest => (expect? ['u', 'l', 'l'] rest).map ((.null, ·))
    | 't' :: rest => (expect? ['r', 'u', 'e'] rest).map ((.bool true, ·))
    | 'f' :: rest => (expect? ['a', 'l', 's', 'e'] rest).map ((.bool false, ·))
    | '"' :: rest => (readString? ('"' :: rest)).map fun (s, rest) => (.str s, rest)
    | '[' :: rest => match depth with
      | 0 => none
      | depth + 1 => match skipSpace rest with
        | ']' :: rest => some (.arr [], rest)
        | rest => readItems? depth [] fuel rest
    | '\x7b' :: rest => match depth with
      | 0 => none
      | depth + 1 => match skipSpace rest with
        | '\x7d' :: rest => some (.obj [], rest)
        | rest => readFields? depth [] fuel rest
    | rest => readNumber? rest

def readItems? (depth : Nat) (seen : List Json) : Nat → List Char → Option (Json × List Char)
  | 0, _ => none
  | fuel + 1, cs => do
    let (v, rest) ← readValue? depth fuel cs
    match skipSpace rest with
    | ']' :: rest => some (.arr (v :: seen).reverse, rest)
    | ',' :: rest => readItems? depth (v :: seen) fuel rest
    | _ => none

def readFields? (depth : Nat) (seen : List (String × Json)) :
    Nat → List Char → Option (Json × List Char)
  | 0, _ => none
  | fuel + 1, cs => do
    let (k, rest) ← readString? (skipSpace cs)
    match skipSpace rest with
    | ':' :: rest =>
      let (v, rest) ← readValue? depth fuel rest
      match skipSpace rest with
      | '\x7d' :: rest => some (.object ((k, v) :: seen).reverse, rest)
      | ',' :: rest => readFields? depth ((k, v) :: seen) fuel rest
      | _ => none
    | _ => none

end

def read? (depth : Nat) (text : String) : Option Json :=
  match readValue? depth (2 * text.length + 2) text.toList with
  | some (v, rest) => if (skipSpace rest).isEmpty then some v else none
  | none => none

end SagaEngine.Json
