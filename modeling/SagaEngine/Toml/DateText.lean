import SagaEngine.Toml.Number

/-! Dates in texts of their own. The rules are laxer than in a document: an hour may be 24, and an offset
counts up to a day in hours and minutes of any two digits. -/

namespace SagaEngine.Toml

def twoDigits (n : Nat) : List Char := [Nat.digitChar (n / 10), Nat.digitChar (n % 10)]

def readLaxTime? (cs : List Char) : Option (List Char × List Char) := do
  let (hour, rest) ← readField? 2 0 24 cs
  let rest ← Json.expect? [':'] rest
  let (minute, rest) ← readField? 2 0 59 rest
  let rest ← Json.expect? [':'] rest
  let (second, rest) ← readField? 2 0 60 rest
  let (fraction, rest) := readFraction rest
  some (hour ++ ':' :: minute ++ ':' :: second ++ fraction, rest)

def dayMinutes : Nat := 1440

def readLaxOffset? : List Char → Option (List Char)
  | [] => some []
  | ['Z'] | ['z'] => some ['Z']
  | sign :: rest =>
    if sign = '+' ∨ sign = '-' then do
      let (hour, rest) ← readField? 2 0 99 rest
      let rest ← Json.expect? [':'] rest
      let (minute, rest) ← readField? 2 0 99 rest
      let total := 60 * Numeral.digitsValue hour + Numeral.digitsValue minute
      if rest.isEmpty && decide (total ≤ dayMinutes) then
        some ((if total = 0 then '+' else sign) ::
          (twoDigits (total / 60) ++ ':' :: twoDigits (total % 60)))
      else none
    else none

def normalDate? (cs : List Char) : Option (List Char) :=
  if cs[2]? = some ':' then do
    let (time, rest) ← readLaxTime? cs
    if rest.isEmpty then some time else none
  else do
    match ← readDate? cs with
    | (date, []) => some date
    | (date, c :: rest) =>
      if isDateDivider c then do
        let (time, rest) ← readLaxTime? rest
        some (date ++ 'T' :: time ++ (← readLaxOffset? rest))
      else none

end SagaEngine.Toml
