import SagaEngine.Binary64

/-! Decimal notation of double-precision numbers: `ofDecimal` reads `d * 10 ^ e`, `shortest` finds
the fewest digits that read back to the same number, and `plain` and `pretty` spell them out. The two
spellings differ in their digits where two shortest decimals are equally near. -/

namespace SagaEngine.Binary64

def decimalLength (n : Nat) : Nat := (Nat.toDigits 10 n).length

def ofDecimal (negative : Bool) (d : Nat) (e : Int) : Binary64 :=
  if d = 0 then zero negative
  else
    let top := (decimalLength d : Int) + e
    if 310 < top then infinity negative
    else if top < -330 then zero negative
    else if 0 ≤ e then ofRatio negative (d * power 10 e) 1
    else ofRatio negative d (power 10 (-e))

def decimalExponent (num den : Nat) : Int :=
  if den ≤ num then (decimalLength (num / den) : Int) - 1
  else -(decimalLength ((den - 1) / num) : Int)

inductive Tie where
  | up
  | toEven
deriving DecidableEq, Repr

/-- A positive quotient `num / den`, with the interval from `low / den` to `high / den` around it. -/
structure Rounding where
  num : Nat
  low : Nat
  high : Nat
  den : Nat
  closed : Bool

def rounding (m : Nat) (q : Int) : Rounding :=
  let below := if m = leadingBit ∧ minExponent < q then 1 else 2
  let up := power 2 (q - 2)
  let den := power 2 (2 - q)
  ⟨4 * m * up, (4 * m - below) * up, (4 * m + 2) * up, den, m % 2 == 0⟩

def Rounding.holds (r : Rounding) (c : Nat) (k : Int) : Bool :=
  let v := c * power 10 k * r.den
  let s := power 10 (-k)
  if r.closed then decide (r.low * s ≤ v ∧ v ≤ r.high * s)
  else decide (r.low * s < v ∧ v < r.high * s)

def Rounding.nearest? (tie : Tie) (r : Rounding) (k : Int) : Option Nat :=
  let num := r.num * power 10 (-k)
  let unit := r.den * power 10 k
  let c := num / unit
  let rest := num % unit
  let upFirst := decide (unit < 2 * rest ∨ (2 * rest = unit ∧ (tie = .up ∨ c % 2 = 1)))
  match r.holds c k, r.holds (c + 1) k with
  | true, true => some (if upFirst then c + 1 else c)
  | true, false => some c
  | false, true => some (c + 1)
  | false, false => none

def Rounding.search (tie : Tie) (r : Rounding) (top : Int) (n : Nat) : Nat → Nat × Int
  | 0 => (0, 0)
  | fuel + 1 =>
    let k := top - n + 1
    match r.nearest? tie k with
    | some c => (c, k)
    | none => r.search tie top (n + 1) fuel

def stripZeros (c : Nat) (k : Int) : Nat → Nat × Int
  | 0 => (c, k)
  | fuel + 1 => if c ≠ 0 ∧ c % 10 = 0 then stripZeros (c / 10) (k + 1) fuel else (c, k)

/-- The digits `c` and exponent `k` of the shortest `c * 10 ^ k` that reads back to `m * 2 ^ q`. -/
def shortest (tie : Tie) (m : Nat) (q : Int) : Nat × Int :=
  let r := rounding m q
  let found := r.search tie (decimalExponent r.num r.den) 1 17
  stripZeros found.1 found.2 17

def zeros (n : Nat) : List Char := List.replicate n '0'

def positional (c : Nat) (k : Int) : List Char :=
  let digits := Nat.toDigits 10 c
  let point := (digits.length : Int) + k
  if 0 ≤ k then digits ++ zeros k.toNat
  else if 0 < point then digits.take point.toNat ++ '.' :: digits.drop point.toNat
  else '0' :: '.' :: (zeros (-point).toNat ++ digits)

def exponentPart (e : Int) : List Char :=
  let digits := Nat.toDigits 10 e.natAbs
  'e' :: (if e < 0 then '-' else '+') :: (zeros (2 - digits.length) ++ digits)

def scientific (c : Nat) (k : Int) : List Char :=
  let digits := Nat.toDigits 10 c
  let point := (digits.length : Int) + k
  if 0 ≤ k ∧ point ≤ 16 then positional c k ++ ['.', '0']
  else if -5 < point ∧ point ≤ 16 then positional c k
  else
    let mantissa := match digits with
      | [] => []
      | [d] => [d]
      | d :: rest => d :: '.' :: rest
    mantissa ++ exponentPart (point - 1)

def signed (negative : Bool) (text : List Char) : String :=
  String.ofList (if negative then '-' :: text else text)

def plain (x : Binary64) : String :=
  match x.view with
  | .nan => "NaN"
  | .infinite s => signed s ['i', 'n', 'f']
  | .finite s 0 _ => signed s ['0']
  | .finite s m q => let (c, k) := shortest .up m q; signed s (positional c k)

/-- The spelling that cannot be mistaken for an integer: `1.0`, `1.5`, `1e+300`, `1e-07`. -/
def pretty (x : Binary64) : String :=
  match x.view with
  | .nan => "NaN"
  | .infinite s => signed s ['i', 'n', 'f']
  | .finite s 0 _ => signed s ['0', '.', '0']
  | .finite s m q => let (c, k) := shortest .toEven m q; signed s (scientific c k)

end SagaEngine.Binary64
