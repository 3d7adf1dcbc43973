import SagaEngine.Text.Blank

/-! Lines of a variables file. A line goes on behind a break that is quoted or escaped, and ends before
a comment. -/

namespace SagaEngine.Dotenv

inductive Quoting where
  | plain
  | blank
  | escaped
  | weak
  | weakEscaped
  | strong
  | strongEscaped
deriving DecidableEq, Repr

namespace Quoting

def opening? (c : Char) : Option Quoting :=
  if c = '\\' then some escaped
  else if c = '"' then some weak
  else if c = '\'' then some strong
  else none

def next (q : Quoting) (c : Char) : Quoting :=
  match q with
  | plain =>
    if Text.isBlank c && c != '\n' && c != '\r' then blank else (opening? c).getD plain
  | blank => (opening? c).getD plain
  | escaped => plain
  | weak => if c = '\\' then weakEscaped else if c = '"' then plain else weak
  | weakEscaped => weak
  | strong => if c = '\\' then strongEscaped else if c = '\'' then plain else strong
  | strongEscaped => strong

def scan (q : Quoting) : List Char → List Char × Option Quoting
  | [] => ([], some q)
  | c :: rest =>
    if q = blank ∧ c = '#' then ([], none)
    else
      let (kept, last) := (q.next c).scan rest
      (c :: kept, last)

end Quoting

def cutLines : List Char → List (List Char)
  | [] => []
  | c :: rest =>
    if c = '\n' then ['\n'] :: cutLines rest
    else match cutLines rest with
      | [] => [[c]]
      | line :: lines => (c :: line) :: lines

def dropBreak (line : List Char) : List Char :=
  match line.reverse with
  | '\n' :: '\r' :: rest => rest.reverse
  | '\n' :: rest => rest.reverse
  | _ => line

/-- Joins the pieces of a text to lines; the last one is `none` if the text ends before it does. -/
def joinLines (begun : List Char) (q : Quoting) : List (List Char) → List (Option (List Char))
  | [] => if q = .plain then [] else [none]
  | piece :: rest =>
    let line := begun ++ piece
    if (Text.trimStart line).head? == some '#' then some [] :: joinLines [] .plain rest
    else match q.scan piece with
      | (kept, none) => some (begun ++ kept) :: joinLines [] .plain rest
      | (_, some .plain) => some (dropBreak line) :: joinLines [] .plain rest
      | (_, some q) => joinLines line q rest

def linesOf (cs : List Char) : List (Option (List Char)) := joinLines [] .plain (cutLines cs)

end SagaEngine.Dotenv
