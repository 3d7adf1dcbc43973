import SagaEngine.Binary64.Decimal

/-! Spellings of numbers. An integer is a sign and decimal digits. A float is a sign and then either
`inf`, `infinity` or `nan` in any case, or digits with an optional point and exponent, of which the
part before the exponent holds at least one digit. -/

namespace SagaEngine.Numeral

def minInt64 : Int := -9223372036854775808

def maxInt64 : Int := 9223372036854775807

def maxUInt64 : Int := 18446744073709551615

def fitsInt64 (n : Int) : Bool := decide (minInt64 ≤ n ∧ n ≤ maxInt64)

def splitSign : List Char → Bool × List Char
  | '-' :: rest => (true, rest)
  | '+' :: rest => (false, rest)
  | cs => (false, cs)

def digitValue (c : Char) : Nat := c.toNat - '0'.toNat

def digitsValue (cs : List Char) : Nat := cs.foldl (fun n c => 10 * n + digitValue c) 0

def readNat? (cs : List Char) : Option Nat :=
  if !cs.isEmpty && cs.all Char.isDigit then some (digitsValue cs) else none

def readInt? (cs : List Char) : Option Int :=
  let (negative, rest) := splitSign cs
  (readNat? rest).map fun n => if negative then -(n : Int) else n

def readInt64? (cs : List Char) : Option Int := (readInt? cs).filter fitsInt64

def readUInt64? (cs : List Char) : Option Nat :=
  let rest := match cs with
    | '+' :: rest => rest
    | _ => cs
  (readNat? rest).filter fun n => decide ((n : Int) ≤ maxUInt64)

def readExponent? : List Char → Option Int
  | [] => some 0
  | c :: rest => if c = 'e' ∨ c = 'E' then readInt? rest else none

def readDecimal? (negative : Bool) (cs : List Char) : Option Binary64 :=
  let whole := cs.takeWhile Char.isDigit
  let rest := cs.dropWhile Char.isDigit
  let (fraction, tail) := match rest with
    | '.' :: r => (r.takeWhile Char.isDigit, r.dropWhile Char.isDigit)
    | _ => ([], rest)
  if whole.isEmpty && fraction.isEmpty then none
  else (readExponent? tail).map fun e =>
    .ofDecimal negative (digitsValue (whole ++ fraction)) (e - fraction.length)

def readFloat? (cs : List Char) : Option Binary64 :=
  let (negative, rest) := splitSign cs
  let word := String.ofList (rest.map Char.toLower)
  if word = "inf" ∨ word = "infinity" then some (.infinity negative)
  else if word = "nan" then some .nan
  else readDecimal? negative rest

end SagaEngine.Numeral
