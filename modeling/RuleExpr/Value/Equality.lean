import RuleExpr.Value.Basic

/-!
# Equality of values

Numbers are placed on one exact line, so integers and binary64 numbers compare by value. Two equalities are
built on it. The loose one counts booleans as one and zero; it is the equality inside tuples and tokens. The
strict one, which rules use, keeps booleans apart from numbers, also inside lists.

A NaN equals nothing under either of them. As an item of a sequence that is compared loosely, or as the content
of a token, it matches itself.
-/

namespace RuleExpr

/-- A place on the line of numbers, in the unit of binary64, or none for NaN. -/
inductive Position where
  | nowhere
  | below
  | at (units : Int)
  | above
deriving DecidableEq, Repr

/-- The outcome of comparing two things that can be compared. NaN is unordered with every number. -/
inductive Comparison where
  | less
  | equal
  | greater
  | unordered
deriving DecidableEq, Repr

def Comparison.ofInts (a b : Int) : Comparison :=
  if a < b then .less else if a = b then .equal else .greater

@[simp] theorem Comparison.ofInts_self (a : Int) : ofInts a a = .equal := by simp [ofInts]

namespace Position

def ofInt (n : Int) : Position :=
  .at (n * Binary64.one)

def ofBinary64 : Binary64 → Position
  | .nan _ => .nowhere
  | .infinite negative => if negative then .below else .above
  | .finite negative rank => .at (Binary64.signedUnits negative rank)

def compare : Position → Position → Comparison
  | .nowhere, _ | _, .nowhere => .unordered
  | .at a, .at b => .ofInts a b
  | .below, .below | .above, .above => .equal
  | .below, _ | _, .above => .less
  | .above, _ | _, .below => .greater

theorem compare_self {p : Position} (h : p ≠ .nowhere) : p.compare p = .equal := by
  cases p <;> simp_all [compare]

end Position

namespace Value

/-- The place of a number, booleans counting as one and zero. -/
def position? : Value → Option Position
  | .bool b => some (.ofInt (if b then 1 else 0))
  | .int n => some (.ofInt n)
  | .float x => some (.ofBinary64 x)
  | _ => none

/-- Whether two values are numbers of equal value. -/
def equalNumbers (v w : Value) : Bool :=
  match v.position?, w.position? with
  | some p, some q => p.compare q == .equal
  | _, _ => false

/-- Whether two date-times are equal. Within one zone, and among naive ones, the clock readings decide, whichever
passage is meant. Across zones the instants decide, but a date-time for which its zone has two offsets equals none of
another zone. -/
def equalDates (d e : DateTime) : Bool :=
  if d.zone = e.zone then d.clockReading == e.clockReading
  else d.isAware && e.isAware && d.position == e.position && !d.isTwofold && !e.isTwofold

/-- Whether two values are one and the same NaN. -/
def isSameNaN : Value → Value → Bool
  | .float x, .float y => x.isSameNaN y
  | _, _ => false

mutual

/-- Equality that counts booleans as one and zero. -/
def looselyEqual : Value → Value → Bool
  | .nil, .nil => true
  | .text s, .text t => s == t
  | .date d, .date e => equalDates d e
  | .list xs, .list ys => allMatch xs ys
  | .tuple xs, .tuple ys => allMatch xs ys
  | .token k x, .token l y => k == l && (isSameNaN x y || looselyEqual x y)
  | .function f, .function g => f == g
  | .form f, .form g => f == g
  | x, y => equalNumbers x y

def allMatch : List Value → List Value → Bool
  | [], [] => true
  | x :: xs, y :: ys => (isSameNaN x y || looselyEqual x y) && allMatch xs ys
  | _, _ => false

end

/-- Whether two items of sequences match: they are equal, or one and the same NaN. -/
def itemsMatch (x y : Value) : Bool :=
  isSameNaN x y || looselyEqual x y

mutual

/-- Equality that keeps booleans apart from numbers, in lists at every depth. -/
def strictlyEqual : Value → Value → Bool
  | .bool a, .bool b => a == b
  | .bool _, _ | _, .bool _ => false
  | .list xs, .list ys => allStrictlyEqual xs ys
  | x, y => looselyEqual x y

def allStrictlyEqual : List Value → List Value → Bool
  | [], [] => true
  | x :: xs, y :: ys => strictlyEqual x y && allStrictlyEqual xs ys
  | _, _ => false

end

end Value

end RuleExpr
