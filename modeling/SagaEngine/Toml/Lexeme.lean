import SagaEngine.Json.Reader

/-! Blanks, line breaks, comments and quoted text in TOML. -/

namespace SagaEngine.Toml

def isBlank (c : Char) : Bool := c == ' ' || c == '\t'

def skipBlanks (cs : List Char) : List Char := cs.dropWhile isBlank

def isPlain (c : Char) : Bool := c == '\t' || (decide (0x20 ≤ c.toNat) && c.toNat != 0x7F)

def readBreak? : List Char → Option (List Char)
  | '\n' :: rest => some rest
  | '\r' :: '\n' :: rest => some rest
  | _ => none

def skipBreaks : List Char → List Char
  | '\r' :: '\n' :: rest => skipBreaks rest
  | c :: rest => if isBlank c || c == '\n' then skipBreaks rest else c :: rest
  | [] => []

def skipComment (cs : List Char) : List Char := cs.dropWhile isPlain

def readLineEnd? (cs : List Char) : Option (List Char) :=
  let rest := match skipBlanks cs with
    | '#' :: rest => skipComment rest
    | rest => rest
  if rest.isEmpty then some [] else readBreak? rest

def skipLines? : Nat → List Char → Option (List Char)
  | 0, _ => none
  | fuel + 1, cs => match skipBreaks cs with
    | '#' :: rest => match skipComment rest with
      | [] => some []
      | rest => (readBreak? rest).bind (skipLines? fuel)
    | rest => some rest

def readCodePoint? (digits : Nat) (cs : List Char) : Option (Char × List Char) := do
  let (hex, rest) := cs.splitAt digits
  let n ← hex.foldlM (fun n c => (Json.hexValue? c).map (16 * n + ·)) 0
  if hex.length = digits ∧ n.isValidChar then some (Char.ofNat n, rest) else none

def readEscape? : List Char → Option (Char × List Char)
  | 'b' :: rest => some ('\x08', rest)
  | 't' :: rest => some ('\t', rest)
  | 'n' :: rest => some ('\n', rest)
  | 'f' :: rest => some ('\x0c', rest)
  | 'r' :: rest => some ('\r', rest)
  | '"' :: rest => some ('"', rest)
  | '\\' :: rest => some ('\\', rest)
  | 'u' :: rest => readCodePoint? 4 rest
  | 'U' :: rest => readCodePoint? 8 rest
  | _ => none

def readLineTail? (quote : Char) (seen : List Char) : Nat → List Char → Option (String × List Char)
  | 0, _ | _, [] => none
  | fuel + 1, c :: rest =>
    if c = quote then some (String.ofList seen.reverse, rest)
    else if c = '\\' ∧ quote = '"' then do
      let (c, rest) ← readEscape? rest
      readLineTail? quote (c :: seen) fuel rest
    else if isPlain c then readLineTail? quote (c :: seen) fuel rest
    else none

/-- The rest of a text over several lines, in which up to two quotes stand for themselves. -/
def readBlockTail? (quote : Char) (seen : List Char) : Nat → List Char → Option (String × List Char)
  | 0, _ | _, [] => none
  | fuel + 1, c :: rest =>
    if c = quote then
      let run := (c :: rest).takeWhile (· == quote)
      let after := rest.dropWhile (· == quote)
      if run.length < 3 then readBlockTail? quote (run ++ seen) fuel after
      else if run.length ≤ 5 then some (String.ofList (run.drop 3 ++ seen).reverse, after)
      else none
    else if c = '\\' ∧ quote = '"' then
      match readBreak? (skipBlanks rest) with
      | some rest => readBlockTail? quote seen fuel (skipBreaks rest)
      | none => do
        let (c, rest) ← readEscape? rest
        readBlockTail? quote (c :: seen) fuel rest
    else if isPlain c then readBlockTail? quote (c :: seen) fuel rest
    else do
      let rest ← readBreak? (c :: rest)
      readBlockTail? quote ('\n' :: seen) fuel rest

def isQuote (c : Char) : Bool := c == '"' || c == '\''

def readLineText? : List Char → Option (String × List Char)
  | c :: rest => if isQuote c then readLineTail? c [] (rest.length + 1) rest else none
  | [] => none

def readText? : List Char → Option (String × List Char)
  | a :: b :: c :: rest =>
    if isQuote a ∧ a = b ∧ b = c then
      readBlockTail? a [] (rest.length + 1) ((readBreak? rest).getD rest)
    else readLineText? (a :: b :: c :: rest)
  | cs => readLineText? cs

end SagaEngine.Toml
