import RuleExpr.Number
import RuleExpr.Value.Order
import RuleExpr.Text.Case

/-!
# Builtin functions

The functions of the registry whose result depends on the arguments alone. Arguments are checked before
anything is computed.
-/

namespace RuleExpr.Builtin

/-- Folds an arithmetic operation over one or more numbers; a single one is the result. -/
def applyArithmetic (op : Arithmetic) (vs : List Value) : Except Fault Value :=
  match vs.mapM Value.number? with
  | some [] => .error (.noArguments (.arithmetic op))
  | some (a :: rest) => (Number.foldArithmetic op a rest).map Number.toValue
  | none => .error (.notAllNumbers (.arithmetic op))

/-- Applies an operation to two numbers. -/
def applyToNumbers (function : Builtin) (operation : Number → Number → Except Fault Number) (v w : Value) :
    Except Fault Value :=
  match v.number?, w.number? with
  | some a, some b => (operation a b).map Number.toValue
  | _, _ => .error (.notAllNumbers function)

/-- Whether a relation holds between two values; booleans have no order. -/
def applyRelation (r : Relation) (v w : Value) : Except Fault Bool :=
  if v.isBool || w.isBool then .error (Fault.incomparable r v w).reported
  else
    match v.compare? w with
    | some c => .ok (r.holds c)
    | none => .error (Fault.incomparable r v w).reported

/-- The items of a sequence; those of a text are its characters. -/
def items? : Value → Option (List Value)
  | .list items | .tuple items => some items
  | .text s => some (s.toList.map fun c => .text (String.singleton c))
  | _ => none

/-- The items of an argument that has to be a sequence. -/
def requireItems (function : Builtin) (v : Value) : Except Fault (List Value) :=
  match items? v with
  | some items => .ok items
  | none => .error (Fault.notSequence function v).reported

/-- The relation of a new extreme to the one so far. -/
def beats : Extreme → Relation
  | .largest => .greater
  | .smallest => .less

/-- The first of the extreme items, given the best of those already seen. -/
def extremeAfter (e : Extreme) (best : Value) : List Value → Except Fault Value
  | [] => .ok best
  | v :: vs =>
    match v.compare? best with
    | none => .error (.incomparableElements e)
    | some c => extremeAfter e (if (beats e).holds c then v else best) vs

/-- The first of the extreme items of a sequence, nil if it is empty. A single item is its own extreme. -/
def extremeOf (e : Extreme) : List Value → Except Fault Value
  | [] => .ok .nil
  | [v] => .ok v
  | v :: vs =>
    if (v :: vs).any Value.isBool then .error (.booleanElements e) else extremeAfter e v vs

/-- The integer of a value: zero for nil, the leading numeral of a text or zero, the integer part of a
number. -/
def integerOf : Value → Except Fault Int
  | .nil => .ok 0
  | .text s =>
    match Numeral.leadingInteger? s.toList with
    | none => .ok 0
    | some (numeral, _) =>
      match Numeral.toInt numeral with
      | .ok n => .ok n
      | .error flaw => .error (.ofFlaw flaw)
  | v => Number.toInteger .toInteger (fun units => .ok (Binary64.truncateUnits units)) v

/-- The binary64 number of a value: zero for nil, the leading numeral of a text or zero, the nearest to a
number. -/
def floatOf : Value → Except Fault Binary64
  | .nil => .ok (.zero false)
  | .text s =>
    match Numeral.leadingFraction? s.toList with
    | none => .ok (.zero false)
    | some numeral =>
      match Binary64.ofText? numeral with
      | some x => .ok x
      | none => .error .malformedNumeral
  | v =>
    match v.number? with
    | some a => a.toBinary64
    | none => .error (Fault.notNumber .toFloat v).reported

/-- Maps the characters of an argument that has to be text. -/
def mapText (function : Builtin) (f : List Char → List Char) : Value → Except Fault Value
  | .text s => .ok (.text (String.ofList (f s.toList)))
  | v => .error (Fault.notText function v).reported

/-- The texts of values one behind the other. -/
def join (vs : List Value) : Except Fault Value :=
  if Value.allWritable vs then .ok (.text (String.ofList (vs.flatMap Value.joined)))
  else .error .tooManyDigits

def apply : Builtin → List Value → Except Fault Value
  | .array, vs => .ok (.list vs)
  | .str, vs => join vs
  | .arithmetic op, vs => applyArithmetic op vs
  | .identity, [v] => .ok v
  | .not, [v] => .ok (.bool !v.isTruthy)
  | .relation r, [v, w] => (applyRelation r v w).map .bool
  | .equal, [v, w] => .ok (.bool (v.strictlyEqual w))
  | .notEqual, [v, w] => .ok (.bool !(v.strictlyEqual w))
  | .divide, [v, w] => applyToNumbers .divide Number.divide v w
  | .modulo, [v, w] => applyToNumbers .modulo Number.modulo v w
  | .round r, [v] => (Number.toInteger (.round r) (Number.roundUnits r) v).map .int
  | .extreme e, [v] => do extremeOf e (← requireItems (.extreme e) v)
  | .first, [v] => do return ((← requireItems .first v).head?).getD .nil
  | .last, [v] => do return ((← requireItems .last v).getLast?).getD .nil
  | .length, [v] => do return .int (← requireItems .length v).length
  | .toInteger, [v] => (integerOf v).map .int
  | .toFloat, [v] => (floatOf v).map .float
  | .upcase, [v] => mapText .upcase Text.toCapitals v
  | .downcase, [v] => mapText .downcase Text.toSmalls v
  | _, _ => .error .argumentCount

end RuleExpr.Builtin
