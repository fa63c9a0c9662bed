import RuleExpr.Binary64.Basic
import RuleExpr.Calendar.DateTime

/-!
# Values

One type serves the trees that rules are read into and the values that they compute, because forms hand
trees to hosts and hosts hand values back as trees. A leaf of a tree is a token, a list of a tree is a
tuple; `list` is the sequence that rules build at run time.
-/

namespace RuleExpr

inductive Kind where
  | openList
  | closeList
  | fn
  | var
  | num
  | date
  | blank
  | str
deriving DecidableEq, Repr

/-- The name under which a kind is shown. -/
def Kind.label : Kind → String
  | .openList => "lpar"
  | .closeList => "rpar"
  | .fn => "fn"
  | .var => "var"
  | .num => "num"
  | .date => "datetime"
  | .blank => "spc"
  | .str => "str"

/-- The operations that fold over any positive number of numbers. -/
inductive Arithmetic where
  | add
  | subtract
  | multiply
deriving DecidableEq, Repr

inductive Relation where
  | less
  | lessEqual
  | greater
  | greaterEqual
deriving DecidableEq, Repr

/-- The ways from a number to an integer. -/
inductive Rounding where
  | floor
  | ceiling
  | nearest
deriving DecidableEq, Repr

/-- The two ends of an order. -/
inductive Extreme where
  | largest
  | smallest
deriving DecidableEq, Repr

/-- The functions of the registry whose result depends on the arguments alone. -/
inductive Builtin where
  | array
  | identity
  | not
  | relation (r : Relation)
  | equal
  | notEqual
  | arithmetic (op : Arithmetic)
  | divide
  | modulo
  | round (r : Rounding)
  | extreme (e : Extreme)
  | first
  | last
  | length
  | toInteger
  | toFloat
  | upcase
  | downcase
  | str
deriving DecidableEq, Repr

/-- What a rule can call with evaluated arguments: a builtin, a source of the time or of chance, or a
function of the host. -/
inductive Function where
  | builtin (b : Builtin)
  | now
  | random
  | host (name : String)
deriving DecidableEq, Repr

/-- What a rule can call with unevaluated operands: one of the four builtin forms or a form of the host. -/
inductive Form where
  | conditional
  | cases
  | conjunction
  | disjunction
  | host (name : String)
deriving DecidableEq, Repr

/-- The trees and the values of the language. -/
inductive Value where
  | nil
  | bool (b : Bool)
  | int (n : Int)
  | float (x : Binary64)
  | text (s : String)
  | date (d : DateTime)
  | list (items : List Value)
  | tuple (items : List Value)
  | token (kind : Kind) (content : Value)
  | function (f : Function)
  | form (f : Form)
deriving Repr

namespace Value

mutual

/-- Whether two values are built in the same way. -/
def isSame : Value → Value → Bool
  | .nil, .nil => true
  | .bool a, .bool b => a == b
  | .int a, .int b => a == b
  | .float x, .float y => x == y
  | .text s, .text t => s == t
  | .date d, .date e => d == e
  | .list xs, .list ys | .tuple xs, .tuple ys => areSame xs ys
  | .token k x, .token l y => k == l && isSame x y
  | .function f, .function g => f == g
  | .form f, .form g => f == g
  | _, _ => false

def areSame : List Value → List Value → Bool
  | [], [] => true
  | x :: xs, y :: ys => isSame x y && areSame xs ys
  | _, _ => false

end

mutual

theorem isSame_iff : (v w : Value) → (isSame v w = true ↔ v = w)
  | .nil, w | .bool _, w | .int _, w | .float _, w | .text _, w | .date _, w | .function _, w
  | .form _, w => by cases w <;> simp [isSame]
  | .list xs, w | .tuple xs, w => by cases w <;> simp [isSame, areSame_iff xs]
  | .token _ x, w => by cases w <;> simp [isSame, isSame_iff x]

theorem areSame_iff : (vs ws : List Value) → (areSame vs ws = true ↔ vs = ws)
  | [], ws => by cases ws <;> simp [areSame]
  | x :: xs, ws => by cases ws <;> simp [areSame, isSame_iff x, areSame_iff xs]

end

instance : DecidableEq Value := fun v w => decidable_of_iff _ (isSame_iff v w)

end Value

def Arithmetic.name : Arithmetic → String
  | .add => "+"
  | .subtract => "-"
  | .multiply => "*"

def Relation.name : Relation → String
  | .less => "<"
  | .lessEqual => "<="
  | .greater => ">"
  | .greaterEqual => ">="

def Rounding.name : Rounding → String
  | .floor => "floor"
  | .ceiling => "ceil"
  | .nearest => "round"

def Extreme.name : Extreme → String
  | .largest => "max"
  | .smallest => "min"

def Builtin.name : Builtin → String
  | .array => "array"
  | .identity => "identity"
  | .not => "not"
  | .relation r => r.name
  | .equal => "="
  | .notEqual => "!="
  | .arithmetic op => op.name
  | .divide => "/"
  | .modulo => "%"
  | .round r => r.name
  | .extreme e => e.name
  | .first => "first"
  | .last => "last"
  | .length => "length"
  | .toInteger => "to_i"
  | .toFloat => "to_f"
  | .upcase => "upcase"
  | .downcase => "downcase"
  | .str => "str"

def Function.name : Function → String
  | .builtin b => b.name
  | .now => "now"
  | .random => "rand"
  | .host name => name

def Form.name : Form → String
  | .conditional => "if"
  | .cases => "cond"
  | .conjunction => "and"
  | .disjunction => "or"
  | .host name => name

namespace Value

/-- Every value counts as true except nil and false. -/
def isTruthy : Value → Bool
  | .nil | .bool false => false
  | _ => true

@[simp] theorem isTruthy_nil : isTruthy .nil = false := rfl
@[simp] theorem isTruthy_bool (b : Bool) : isTruthy (.bool b) = b := by cases b <;> rfl

def isBool : Value → Bool
  | .bool _ => true
  | _ => false

/-- A reference to a name, as a leaf of a tree. -/
def reference (name : String) : Value :=
  .token .var (.text name)

end Value

end RuleExpr
