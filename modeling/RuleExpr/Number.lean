import RuleExpr.Fault
import RuleExpr.Binary64.Arithmetic
import RuleExpr.Binary64.Decimal
import RuleExpr.Binary64.Quantize

/-!
# Numbers

The numbers of rules are unbounded integers and binary64 numbers; booleans are not numbers. Integers stay
integers among themselves, with division and remainder toward the floor. Where the two sorts meet, integers
are converted first, which fails beyond the range of binary64. Division by zero of either sort is a fault.
-/

namespace RuleExpr

inductive Number where
  | int (n : Int)
  | float (x : Binary64)
deriving DecidableEq, Repr

/-- The number that a value is. -/
def Value.number? : Value → Option Number
  | .int n => some (.int n)
  | .float x => some (.float x)
  | _ => none

namespace Number

def toValue : Number → Value
  | .int n => .int n
  | .float x => .float x

@[simp] theorem number?_toValue (a : Number) : a.toValue.number? = some a := by
  cases a <;> rfl

/-- The nearest binary64 number, unless the integer is out of range. -/
def toBinary64 : Number → Except Fault Binary64
  | .float x => .ok x
  | .int n =>
    match Binary64.ofInt? n with
    | some x => .ok x
    | none => .error .overflow

/-- Applies one of two operations: on integers, or on binary64 numbers if one of the operands is one. -/
def combine (onInts : Int → Int → Except Fault Int)
    (onFloats : Binary64 → Binary64 → Except Fault Binary64) : Number → Number → Except Fault Number
  | .int a, .int b => (onInts a b).map .int
  | a, b => do
    let x ← a.toBinary64
    let y ← b.toBinary64
    return .float (← onFloats x y)

def arithmeticInts : Arithmetic → Int → Int → Int
  | .add, a, b => a + b
  | .subtract, a, b => a - b
  | .multiply, a, b => a * b

def arithmeticFloats : Arithmetic → Binary64 → Binary64 → Binary64
  | .add, x, y => x.add y
  | .subtract, x, y => x.sub y
  | .multiply, x, y => x.mul y

def arithmetic (op : Arithmetic) : Number → Number → Except Fault Number :=
  combine (fun a b => .ok (arithmeticInts op a b)) (fun x y => .ok (arithmeticFloats op x y))

@[simp] theorem arithmetic_int (op : Arithmetic) (a b : Int) :
    arithmetic op (.int a) (.int b) = .ok (.int (arithmeticInts op a b)) := rfl

/-- Folds an arithmetic operation from the left. -/
def foldArithmetic (op : Arithmetic) (first : Number) : List Number → Except Fault Number
  | [] => .ok first
  | a :: rest =>
    match arithmetic op first a with
    | .error f => .error f
    | .ok total => foldArithmetic op total rest

/-- The quotient, rounded toward the floor if both numbers are integers. -/
def divide : Number → Number → Except Fault Number :=
  combine (fun a b => if b = 0 then .error .divisionByZero else .ok (a.fdiv b))
    (fun x y => if y.isZero then .error .divisionByZero else .ok (x.div y))

/-- The remainder, with the sign of the divisor. -/
def modulo : Number → Number → Except Fault Number :=
  combine (fun a b => if b = 0 then .error .divisionByZero else .ok (a.fmod b))
    (fun x y => if y.isZero then .error .divisionByZero else .ok (x.modulo y))

/-- The integer nearest to a number of units, a half away from zero. An integer is kept; any other number is
rounded as a decimal fraction, whose digits have to suffice. -/
def roundHalfAway (u : Int) : Except Fault Int :=
  if Binary64.isIntegral u then .ok (Binary64.truncateUnits u)
  else
    match (Binary64.toFraction u).quantize? 0 with
    | some rounded => .ok rounded.integerPart
    | none => .error .imprecise

/-- The integer that a rounding takes a number of units to. -/
def roundUnits : Rounding → Int → Except Fault Int
  | .floor, u => .ok (Binary64.floorUnits u)
  | .ceiling, u => .ok (Binary64.ceilingUnits u)
  | .nearest, u => roundHalfAway u

/-- The finite number that an argument of a function is, as an integer or in units. -/
def finite (function : Builtin) (v : Value) : Except Fault (Int ⊕ Int) :=
  match v with
  | .int n => .ok (.inl n)
  | .float x =>
    match x.units? with
    | some units => .ok (.inr units)
    | none => .error (Fault.notFinite function v).reported
  | _ => .error (Fault.notNumber function v).reported

/-- The argument of a function as an integer: an integer is kept, a binary64 number is rounded as given. -/
def toInteger (function : Builtin) (ofUnits : Int → Except Fault Int) (v : Value) : Except Fault Int :=
  match finite function v with
  | .ok (.inl n) => .ok n
  | .ok (.inr units) => ofUnits units
  | .error f => .error f

end Number

end RuleExpr
