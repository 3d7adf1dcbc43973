/-! Double-precision numbers as 64-bit words. `view` gives the exact value `m * 2 ^ q` of a finite
word, and `ofRatio` rounds a quotient of naturals to the nearest word, ties to an even last bit. -/

namespace SagaEngine

/-- A double-precision number, given by its word; numbers are compared by `Binary64.same`. -/
structure Binary64 where
  bits : UInt64
deriving DecidableEq, Repr, Inhabited

namespace Binary64

/-- What a word stands for: a finite one is `m * 2 ^ q`, with the sign kept apart. -/
inductive View where
  | nan
  | infinite (negative : Bool)
  | finite (negative : Bool) (m : Nat) (q : Int)
deriving DecidableEq, Repr

def minExponent : Int := -1074

def signWord : Nat := 0x8000000000000000

def leadingBit : Nat := 0x10000000000000

def infinityWord : Nat := 2047 * leadingBit

def ofWord (negative : Bool) (word : Nat) : Binary64 :=
  ⟨UInt64.ofNat (if negative then signWord + word else word)⟩

def nan : Binary64 := ofWord false (infinityWord + leadingBit / 2)

def infinity (negative : Bool) : Binary64 := ofWord negative infinityWord

def zero (negative : Bool) : Binary64 := ofWord negative 0

def isNegative (x : Binary64) : Bool := decide (signWord ≤ x.bits.toNat)

def magnitude (x : Binary64) : Nat := x.bits.toNat % signWord

def view (x : Binary64) : View :=
  let e : Nat := x.magnitude / leadingBit
  let f := x.magnitude % leadingBit
  if e = 2047 then
    if f = 0 then .infinite x.isNegative else .nan
  else if e = 0 then .finite x.isNegative f minExponent
  else .finite x.isNegative (leadingBit + f) ((e : Int) - 1075)

def isFinite (x : Binary64) : Bool := decide (x.magnitude < infinityWord)

def isNaN (x : Binary64) : Bool := decide (infinityWord < x.magnitude)

def isZero (x : Binary64) : Bool := x.magnitude == 0

def negate (x : Binary64) : Binary64 := ofWord (!x.isNegative) x.magnitude

def same (x y : Binary64) : Bool :=
  !x.isNaN && !y.isNaN && (x.bits == y.bits || (x.isZero && y.isZero))

def power (b : Nat) (q : Int) : Nat := Nat.pow b q.toNat

def roundHalfEven (num den : Nat) : Nat :=
  let d := num / den
  let r := num % den
  if den < 2 * r ∨ (2 * r = den ∧ d % 2 = 1) then d + 1 else d

def binaryExponent (num den : Nat) : Int :=
  let e : Int := (num.log2 : Int) - den.log2
  let reaches := if 0 ≤ e then den * power 2 e ≤ num else den ≤ num * power 2 (-e)
  if reaches then e else e - 1

/-- The number nearest to `num / den`; past the largest finite word it is infinite. -/
def ofRatio (negative : Bool) (num den : Nat) : Binary64 :=
  if num = 0 then zero negative
  else
    let q := max (binaryExponent num den - 52) minExponent
    let m := if 0 ≤ q then roundHalfEven num (den * power 2 q)
      else roundHalfEven (num * power 2 (-q)) den
    let word := (q - minExponent).toNat * leadingBit + m
    if infinityWord ≤ word then infinity negative else ofWord negative word

def ofScaled (negative : Bool) (m : Nat) (q : Int) : Binary64 :=
  if 0 ≤ q then ofRatio negative (m * power 2 q) 1 else ofRatio negative m (power 2 (-q))

def ofInt (n : Int) : Binary64 := ofRatio (decide (n < 0)) n.natAbs 1

end Binary64

end SagaEngine
