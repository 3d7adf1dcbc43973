import SagaEngine.Json.Writer

/-! Writing of text in TOML. Of the quoted forms the first that needs no escapes is taken; if none does,
the text goes in double quotes with escapes, three of them if it has several lines. -/

namespace SagaEngine.Toml

def isControl (c : Char) : Bool :=
  (decide (c.toNat < 0x20) && c != '\t' && c != '\n') || c.toNat == 0x7F

def hasLongRun (quote : Char) : List Char → Bool
  | a :: b :: c :: rest => (a == quote && b == quote && c == quote) || hasLongRun quote (b :: c :: rest)
  | _ => false

def escapeChar (c : Char) : List Char :=
  match c with
  | '\t' => ['\\', 't']
  | '\x08' => ['\\', 'b']
  | '\x0c' => ['\\', 'f']
  | '\r' => ['\\', 'r']
  | '\\' => ['\\', '\\']
  | c => if isControl c then '\\' :: 'u' :: (Json.hexDigits 4 c.toNat).map Char.toUpper else [c]

def escapeLine : List Char → List Char
  | [] => []
  | '"' :: rest => '\\' :: '"' :: escapeLine rest
  | '\n' :: rest => '\\' :: 'n' :: escapeLine rest
  | c :: rest => escapeChar c ++ escapeLine rest

def escapeBlock (run : Nat) : List Char → List Char
  | [] => []
  | '"' :: rest => if run < 2 then '"' :: escapeBlock (run + 1) rest else '\\' :: '"' :: escapeBlock 0 rest
  | c :: rest => escapeChar c ++ escapeBlock 0 rest

def block (quote : Char) (text inside : List Char) : List Char :=
  let quotes := List.replicate 3 quote
  quotes ++ (if text.contains '\n' then ['\n'] else []) ++ inside ++ quotes

def writeText (s : String) : String :=
  let cs := s.toList
  let control := cs.any isControl
  let breaks := cs.contains '\n'
  String.ofList <|
    if !control && !breaks && !cs.contains '\\' && !cs.contains '"' then '"' :: escapeLine cs ++ ['"']
    else if !control && !breaks && !cs.contains '\'' then '\'' :: cs ++ ['\'']
    else if !control && !cs.contains '\\' && !hasLongRun '"' cs then block '"' cs (escapeBlock 0 cs)
    else if !control && !hasLongRun '\'' cs then block '\'' cs cs
    else if breaks then block '"' cs (escapeBlock 0 cs)
    else '"' :: escapeLine cs ++ ['"']

end SagaEngine.Toml
