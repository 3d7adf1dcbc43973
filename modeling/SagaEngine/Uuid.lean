import SagaEngine.Json.Reader
import SagaEngine.Json.Writer

/-! Universally unique identifiers: 128 bits, written as 32 hexadecimal digits in five groups. The
plain, hyphenated, braced and URN spellings are read, in either case of the letters. -/

namespace SagaEngine

structure Uuid where
  bits : BitVec 128
deriving DecidableEq, Repr

namespace Uuid

def groups : List Nat := [8, 4, 4, 4, 12]

def hyphenate : List Nat → List Char → List Char
  | [], _ => []
  | [n], cs => cs.take n
  | n :: ns, cs => cs.take n ++ '-' :: hyphenate ns (cs.drop n)

def text (u : Uuid) : String := String.ofList (hyphenate groups (Json.hexDigits 32 u.bits.toNat))

def ofRandom (bits : BitVec 128) : Uuid :=
  let version : BitVec 128 := 0xF <<< 76
  let variant : BitVec 128 := 0x3 <<< 62
  ⟨(bits &&& ~~~(version ||| variant)) ||| (0x4 <<< 76) ||| (0x2 <<< 62)⟩

def hexNumber? (cs : List Char) : Option Nat :=
  cs.foldl (fun acc c => do some ((← acc) * 16 + (← Json.hexValue? c))) (some 0)

def ofDigits? (cs : List Char) : Option Uuid := (hexNumber? cs).map fun n => ⟨BitVec.ofNat 128 n⟩

def dehyphenate? : List Nat → List Char → Option (List Char)
  | [], _ => none
  | [n], cs => if cs.length = n then some cs else none
  | n :: ns, cs => match cs.drop n with
    | '-' :: rest => (dehyphenate? ns rest).map (cs.take n ++ ·)
    | _ => none

def urnLead : List Char := "urn:uuid:".toList

def unwrap (cs : List Char) : List Char × Bool :=
  if (cs.take urnLead.length).map Char.toLower = urnLead then (cs.drop urnLead.length, false)
  else match cs, cs.getLast? with
    | '\x7b' :: rest, some '\x7d' => (rest.dropLast, false)
    | _, _ => (cs, true)

def maxLength : Nat := 45

def hyphenatedLength : Nat := 36

inductive ReadError where
  | character (c : Char) (index : Nat)
  | length (found : Nat)
  | groupCount (found : Nat)
  | groupLength (group expected found : Nat)
deriving DecidableEq, Repr

def ReadError.message : ReadError → String
  | .character c index =>
    "invalid character: found \x60" ++ c.toString ++ "\x60 at " ++ toString index
  | .length found => "invalid length: found " ++ toString found
  | .groupCount found => "invalid group count: expected 5, found " ++ toString found
  | .groupLength group expected found =>
    "invalid group length in group " ++ toString group ++ ": expected " ++ toString expected ++
      ", found " ++ toString found

def stray? (offset : Nat) : List Char → Option (Char × Nat)
  | [] => none
  | c :: cs =>
    if c = '-' ∨ (Json.hexValue? c).isSome then stray? (offset + c.utf8Size) cs
    else some (c, offset)

def badGroup (total : Nat) (index start : Nat) : List Nat → List Char → ReadError
  | [], _ => .groupLength index 12 (total - start)
  | [n], _ => .groupLength index n (total - start)
  | n :: ns, cs =>
    let found := (cs.takeWhile (· != '-')).length
    if found = n then badGroup total (index + 1) (start + n + 1) ns (cs.drop (n + 1))
    else .groupLength index n found

/-- Says what is wrong with a spelling that is not one of the four. -/
def diagnose (s : String) : ReadError :=
  if maxLength < s.utf8ByteSize then .length s.utf8ByteSize
  else
    let cs := s.toList
    let (inner, bare) := unwrap cs
    match stray? 0 inner with
    | some (c, i) => .character c i
    | none =>
      let hyphens := inner.count '-'
      if hyphens = 0 ∧ bare ∧ cs.length ≠ hyphenatedLength then .length cs.length
      else if hyphens ≠ 4 then .groupCount (hyphens + 1)
      else badGroup cs.length 0 0 groups inner

def read (s : String) : Except ReadError Uuid :=
  let cs := s.toList
  let digits := if cs.length = 32 then some cs else dehyphenate? groups (unwrap cs).1
  match digits.bind ofDigits? with
  | some u => .ok u
  | none => .error (diagnose s)

end Uuid

end SagaEngine
