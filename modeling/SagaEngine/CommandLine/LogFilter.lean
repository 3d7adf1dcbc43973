import SagaEngine.Numeral
import SagaEngine.Pattern.Reader
import SagaEngine.Text.Split

/-! Filters of the log: directives with commas between them. A directive is a level, or a target, or a
span in brackets with a field in braces, the last two with a level behind an equals sign if they want
one. A field may ask for a value: a truth value, a number, or a pattern. -/

namespace SagaEngine.CommandLine

inductive FilterError where
  | directive
  | field (e : Pattern.Error)
  | level
deriving DecidableEq, Repr

def FilterError.message : FilterError → String
  | .directive => "invalid filter directive"
  | .field e => "invalid field filter: " ++ e.message
  | .level => "error parsing level filter: expected one of \"off\", \"error\", \"warn\", \"info\", " ++
      "\"debug\", \"trace\", or a number 0-5"

inductive DirectivePart where
  | start
  | target
  | span
  | field
  | fieldText
  | fieldsEnd
  | spanEnd
deriving DecidableEq, Repr

namespace DirectivePart

def mayStart (c : Char) : Bool := c == '-' || c == ':' || c == '_' || Text.isAlphanumeric c

def next? (part : DirectivePart) (c : Char) : Option DirectivePart :=
  match part with
  | start => if c = '[' then some span else if mayStart c then some target else none
  | target => if c = '[' then some span else some target
  | span => if c = ']' then some spanEnd else if c = '\x7b' then some field else some span
  | field => if c = '\x7d' then none else some fieldText
  | fieldText => if c = '\x7d' then some fieldsEnd else some fieldText
  | fieldsEnd => if c = ']' then some spanEnd else none
  | spanEnd => none

def takesLevel (part : DirectivePart) : Bool := part == target || part == spanEnd

end DirectivePart

def levelNames : List String := ["off", "error", "warn", "info", "debug", "trace"]

def isLevel (cs : List Char) : Bool :=
  levelNames.contains (String.ofList (cs.map Char.toLower)) ||
    (Numeral.readUInt64? cs).any (· ≤ 5)

def checkField (cs : List Char) : Except FilterError Unit :=
  match Text.split '=' cs with
  | _ :: value :: _ =>
    if value = "true".toList ∨ value = "false".toList ∨ (Numeral.readFloat? value).isSome then .ok ()
    else (Pattern.check value).mapError .field
  | _ => .ok ()

def bytesBetween (start stop : Nat) : List Char → List Char
  | [] => []
  | c :: rest =>
    let kept := bytesBetween (start - c.utf8Size) (stop - c.utf8Size) rest
    if start = 0 ∧ 0 < stop then c :: kept else kept

/-- Checks a directive from a part on; `offset` counts bytes so far, `start` those before the field. -/
def checkFrom (whole : List Char) (padded : Bool) (part : DirectivePart) (start offset : Nat) :
    List Char → Except FilterError Unit
  | [] => if part.takesLevel then .ok () else .error .directive
  | c :: rest =>
    if part.takesLevel && c == '=' then
      if !padded && (rest.isEmpty || isLevel rest) then .ok () else .error .level
    else match part.next? c with
      | some next => do
        if next = .fieldsEnd then checkField (bytesBetween start offset whole)
        let after := offset + c.utf8Size
        checkFrom whole padded next (if next = .field then after else start) after rest
      | none => .error .directive

def checkDirective (cs : List Char) : Except FilterError Unit :=
  let trimmed := Text.trim cs
  checkFrom cs (trimmed != cs) .start 0 0 trimmed

def checkFilter (filter : String) : Except FilterError Unit :=
  ((Text.split ',' filter.toList).filter (!·.isEmpty)).forM checkDirective

end SagaEngine.CommandLine
