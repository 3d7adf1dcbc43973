import SagaEngine.Json
import SagaEngine.Binary64.Decimal

/-! The compact text of a JSON value: no blanks, the seven short escapes, other control characters
as four hexadecimal digits, and everything else as it stands. -/

namespace SagaEngine.Json

def hexDigits : Nat → Nat → List Char
  | 0, _ => []
  | digits + 1, n => hexDigits digits (n / 16) ++ [(n % 16).digitChar]

def escapeChar (c : Char) : List Char :=
  match c with
  | '"' => ['\\', '"']
  | '\\' => ['\\', '\\']
  | '\n' => ['\\', 'n']
  | '\r' => ['\\', 'r']
  | '\t' => ['\\', 't']
  | '\x08' => ['\\', 'b']
  | '\x0c' => ['\\', 'f']
  | c => if c.toNat < 0x20 then '\\' :: 'u' :: hexDigits 4 c.toNat else [c]

def writeString (s : String) : List Char := '"' :: (s.toList.flatMap escapeChar ++ ['"'])

mutual

def write : Json → List Char
  | .null => "null".toList
  | .bool b => (toString b).toList
  | .int n => (toString n).toList
  | .float x => x.pretty.toList
  | .str s => writeString s
  | .arr [] => ['[', ']']
  | .arr (v :: vs) => '[' :: (write v ++ writeItems vs ++ [']'])
  | .obj [] => ['\x7b', '\x7d']
  | .obj ((k, v) :: fs) =>
    '\x7b' :: (writeString k ++ ':' :: write v ++ writeFields fs ++ ['\x7d'])

def writeItems : List Json → List Char
  | [] => []
  | v :: vs => ',' :: (write v ++ writeItems vs)

def writeFields : List (String × Json) → List Char
  | [] => []
  | (k, v) :: fs => ',' :: (writeString k ++ ':' :: (write v ++ writeFields fs))

end

def render (v : Json) : String := String.ofList v.write

end SagaEngine.Json
