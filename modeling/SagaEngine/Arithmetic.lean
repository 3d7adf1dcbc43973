import SagaEngine.Fault
import SagaEngine.Numeral
import SagaEngine.Text.Blank
import SagaEngine.Binary64.Arithmetic

/-! Arithmetic on JSON values. Both operands are cast first, the left one before the right. Two
integers stay integers, and a result outside the 64-bit range is an error; any other pair is
computed in double precision, and the result must be finite. -/

namespace SagaEngine.Arithmetic

inductive Num where
  | int (n : Int)
  | float (x : Binary64)
deriving DecidableEq, Repr

def Num.toBinary64 : Num → Binary64
  | .int n => .ofInt n
  | .float x => x

/-- An integer, too, is compared with zero in double precision. -/
def Num.isZero (x : Num) : Bool := x.toBinary64.isZero

def uncastableText (s : String) : EvalError :=
  .typeCasting ("Could not cast string '" ++ s ++ "' to a number")

def uncastableStructure : EvalError := .typeCasting "Could not cast a structured value to a number"

def overflow (operation : String) : EvalError := .arithmetic ("Integer overflow in " ++ operation)

def notFinite (x : Binary64) : EvalError :=
  .arithmetic ("Result " ++ x.plain ++ " is not a finite number")

def toNum : Json → Except EvalError Num
  | .null => .ok (.int 0)
  | .bool b => .ok (.int (if b then 1 else 0))
  | .int n => .ok (if n ≤ Numeral.maxInt64 then .int n else .float (.ofInt n))
  | .float x => .ok (.float x)
  | .str s =>
    let cs := Text.trim s.toList
    match Numeral.readInt64? cs, Numeral.readFloat? cs with
    | some n, _ => .ok (.int n)
    | none, some x => .ok (.float x)
    | none, none => .error (uncastableText (String.ofList cs))
  | .arr _ | .obj _ => .error uncastableStructure

def ofInt (operation : String) (n : Int) : Except EvalError Json :=
  if Numeral.fitsInt64 n then .ok (.int n) else .error (overflow operation)

def ofBinary64 (x : Binary64) : Except EvalError Json :=
  if x.isFinite then .ok (.float x) else .error (notFinite x)

def multiply (lhs rhs : Json) : Except EvalError Json := do
  match ← toNum lhs, ← toNum rhs with
  | .int a, .int b => ofInt "multiply" (a * b)
  | a, b => ofBinary64 (a.toBinary64.mul b.toBinary64)

def divide (lhs rhs : Json) : Except EvalError Json := do
  let a ← toNum lhs
  let b ← toNum rhs
  if b.isZero then .error (.arithmetic "Division by zero")
  else match a, b with
    | .int a, .int b => ofInt "divide" (a.tdiv b)
    | a, b => ofBinary64 (a.toBinary64.div b.toBinary64)

def modulo (lhs rhs : Json) : Except EvalError Json := do
  let a ← toNum lhs
  let b ← toNum rhs
  if b.isZero then .error (.arithmetic "Modulo by zero")
  else match a, b with
    | .int a, .int b =>
      if Numeral.fitsInt64 (a.tdiv b) then .ok (.int (a.tmod b)) else .error (overflow "modulo")
    | a, b => ofBinary64 (a.toBinary64.rem b.toBinary64)

inductive Operation where
  | multiply
  | divide
  | modulo
deriving DecidableEq, Repr

def Operation.apply : Operation → Json → Json → Except EvalError Json
  | .multiply => Arithmetic.multiply
  | .divide => Arithmetic.divide
  | .modulo => Arithmetic.modulo

end SagaEngine.Arithmetic
