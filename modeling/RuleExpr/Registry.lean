import RuleExpr.Scope

/-!
# Registry

The bindings that every interpreter starts from: the forms, the constants and the builtin functions.
-/

namespace RuleExpr.Registry

def forms : List (String × Value) :=
  [.conditional, .cases, .conjunction, .disjunction].map fun f : Form => (f.name, .form f)

/-- The names of the booleans and of nil. -/
def constants : List (String × Value) :=
  [("true", .bool true), ("false", .bool false), ("nil", .nil)]

/-- The builtin functions under their own names. -/
def builtins : List Builtin := [
  .array, .identity, .not, .relation .greater, .relation .less, .relation .greaterEqual,
  .relation .lessEqual, .equal, .notEqual, .arithmetic .add, .arithmetic .subtract,
  .arithmetic .multiply, .divide, .modulo, .round .floor, .round .ceiling, .round .nearest,
  .extreme .largest, .extreme .smallest, .first, .last, .length, .toInteger, .toFloat, .upcase,
  .downcase, .str]

/-- The functions: the builtins, the sources of time and chance, and a second name for `not`. -/
def functions : List (String × Value) :=
  ((builtins.map Function.builtin ++ [Function.now, Function.random]).map fun f =>
    (f.name, .function f)) ++
    [("!", .function (.builtin .not))]

/-- The frame of all of them. -/
def defaults : Frame :=
  .ofPairs (forms ++ constants ++ functions)

end RuleExpr.Registry
