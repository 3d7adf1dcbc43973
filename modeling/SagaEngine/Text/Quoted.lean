import SagaEngine.Text.Printable

/-! Quoting of text in messages: double quotes around it, a backslash before quotes and backslashes,
short escapes for the common controls, and braced hexadecimal escapes for what would not show. -/

namespace SagaEngine.Text

def quoteChar (c : Char) : List Char :=
  match c with
  | '"' => ['\\', '"']
  | '\\' => ['\\', '\\']
  | '\n' => ['\\', 'n']
  | '\r' => ['\\', 'r']
  | '\t' => ['\\', 't']
  | '\x00' => ['\\', '0']
  | c => if isPrintable c then [c] else '\\' :: 'u' :: '\x7b' :: (Nat.toDigits 16 c.toNat ++ ['\x7d'])

def quote (s : String) : String := String.ofList ('"' :: (s.toList.flatMap quoteChar ++ ['"']))

end SagaEngine.Text
