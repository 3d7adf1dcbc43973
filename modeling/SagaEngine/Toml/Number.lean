import SagaEngine.Numeral
import SagaEngine.Toml
import SagaEngine.Toml.Lexeme

/-! Numbers, dates and times in TOML. -/

namespace SagaEngine.Toml

def isSpaced (isDigit : Char → Bool) : List Char → Bool
  | [] => false
  | [c] => isDigit c
  | c :: '_' :: rest => isDigit c && isSpaced isDigit rest
  | c :: rest => isDigit c && isSpaced isDigit rest

def readDigits? (isDigit : Char → Bool) (cs : List Char) : Option (List Char × List Char) :=
  let inRun := fun c => isDigit c || c == '_'
  let run := cs.takeWhile inRun
  if isSpaced isDigit run then some (run.filter isDigit, cs.dropWhile inRun) else none

def readBased? (base : Nat) (cs : List Char) : Option (Toml × List Char) := do
  let value? := fun c => (Json.hexValue? c).filter (· < base)
  let (digits, rest) ← readDigits? (fun c => (value? c).isSome) cs
  let n : Nat := digits.foldl (fun n c => base * n + (value? c).getD 0) 0
  if (n : Int) ≤ Numeral.maxInt64 then some (.int n, rest) else none

def readExponent? : List Char → Option (Option Int × List Char)
  | c :: rest =>
    if c = 'e' ∨ c = 'E' then do
      let (negative, rest) := Numeral.splitSign rest
      let (digits, rest) ← readDigits? Char.isDigit rest
      let e : Int := Numeral.digitsValue digits
      some (some (if negative then -e else e), rest)
    else some (none, c :: rest)
  | [] => some (none, [])

def readDecimal? (negative : Bool) (cs : List Char) : Option (Toml × List Char) := do
  let (whole, rest) ← readDigits? Char.isDigit cs
  if whole.head? == some '0' && whole.length != 1 then none
  else
    let (fraction, rest) ← match rest with
      | '.' :: rest => (readDigits? Char.isDigit rest).map fun (digits, rest) => (some digits, rest)
      | _ => some (none, rest)
    let (exponent, rest) ← readExponent? rest
    match fraction, exponent with
    | none, none =>
      let n : Int := Numeral.digitsValue whole
      let n := if negative then -n else n
      if Numeral.fitsInt64 n then some (.int n, rest) else none
    | _, _ =>
      let fraction := fraction.getD []
      let x := Binary64.ofDecimal negative (Numeral.digitsValue (whole ++ fraction))
        (exponent.getD 0 - fraction.length)
      if x = .infinity false then none else some (.float x, rest)

def readNumber? : List Char → Option (Toml × List Char)
  | '0' :: 'x' :: rest => readBased? 16 rest
  | '0' :: 'o' :: rest => readBased? 8 rest
  | '0' :: 'b' :: rest => readBased? 2 rest
  | cs => match Numeral.splitSign cs with
    | (negative, 'i' :: 'n' :: 'f' :: rest) => some (.float (.infinity negative), rest)
    | (_, 'n' :: 'a' :: 'n' :: rest) => some (.float .nan, rest)
    | (negative, rest) => readDecimal? negative rest

def readField? (width low high : Nat) (cs : List Char) : Option (List Char × List Char) :=
  let (digits, rest) := cs.splitAt width
  let n := Numeral.digitsValue digits
  if digits.length = width ∧ digits.all Char.isDigit ∧ low ≤ n ∧ n ≤ high then some (digits, rest)
  else none

def isLeapYear (year : Nat) : Bool := year % 4 == 0 && (year % 100 != 0 || year % 400 == 0)

def daysInMonth (year month : Nat) : Nat :=
  if month = 2 then (if isLeapYear year then 29 else 28)
  else if month = 4 ∨ month = 6 ∨ month = 9 ∨ month = 11 then 30
  else 31

def readDate? (cs : List Char) : Option (List Char × List Char) := do
  let (year, rest) ← readField? 4 0 9999 cs
  let rest ← Json.expect? ['-'] rest
  let (month, rest) ← readField? 2 1 12 rest
  let rest ← Json.expect? ['-'] rest
  let last := daysInMonth (Numeral.digitsValue year) (Numeral.digitsValue month)
  let (day, rest) ← readField? 2 1 last rest
  some (year ++ '-' :: month ++ '-' :: day, rest)

def readFraction : List Char → List Char × List Char
  | '.' :: rest =>
    let digits := rest.takeWhile Char.isDigit
    let shown := ((digits.take 9).reverse.dropWhile (· == '0')).reverse
    if digits.isEmpty then ([], '.' :: rest)
    else (if shown.isEmpty then [] else '.' :: shown, rest.dropWhile Char.isDigit)
  | cs => ([], cs)

def readTime? (cs : List Char) : Option (List Char × List Char) := do
  let (hour, rest) ← readField? 2 0 23 cs
  let rest ← Json.expect? [':'] rest
  let (minute, rest) ← readField? 2 0 59 rest
  let rest ← Json.expect? [':'] rest
  let (second, rest) ← readField? 2 0 60 rest
  let (fraction, rest) := readFraction rest
  some (hour ++ ':' :: minute ++ ':' :: second ++ fraction, rest)

def readOffset? : List Char → Option (List Char × List Char)
  | c :: rest =>
    if c = 'Z' ∨ c = 'z' then some (['Z'], rest)
    else if c = '+' ∨ c = '-' then do
      let (hour, rest) ← readField? 2 0 23 rest
      let rest ← Json.expect? [':'] rest
      let (minute, rest) ← readField? 2 0 59 rest
      let isZero := (hour ++ minute).all (· == '0')
      some ((if isZero then '+' else c) :: hour ++ ':' :: minute, rest)
    else some ([], c :: rest)
  | [] => some ([], [])

def isDateDivider (c : Char) : Bool := c == 'T' || c == 't' || c == ' '

/-- A date, a time, or both with or without an offset, as its normal text. -/
def readDatetime? (cs : List Char) : Option (Toml × List Char) :=
  let named := fun (text : List Char) rest => (Toml.datetime (String.ofList text), rest)
  match readDate? cs with
  | none => (readTime? cs).map fun (time, rest) => named time rest
  | some (date, rest) => match rest with
    | [] => some (named date [])
    | c :: after =>
      if isDateDivider c then match readTime? after with
        | none => some (named date rest)
        | some (time, rest) => do
          let (offset, rest) ← readOffset? rest
          some (named (date ++ 'T' :: time ++ offset) rest)
      else some (named date rest)

end SagaEngine.Toml
