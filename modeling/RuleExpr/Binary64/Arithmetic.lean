import RuleExpr.Binary64.Basic

/-!
# Binary64 arithmetic

Each operation is exact on units and rounded once. Where there is no result, it is a NaN without a mark.
Rounding to integers is exact.
-/

namespace RuleExpr.Binary64

def negate : Binary64 → Binary64
  | .nan mark => .nan mark
  | .infinite negative => .infinite !negative
  | .finite negative rank => .finite (!negative) rank

@[simp] theorem negate_negate (x : Binary64) : x.negate.negate = x := by
  cases x <;> simp [negate]

/-- The sum. Opposite infinities have none; an exact zero is negative only if both summands are. -/
def add : Binary64 → Binary64 → Binary64
  | .nan _, _ | _, .nan _ => .nan none
  | .infinite s, .infinite t => if s = t then .infinite s else .nan none
  | .infinite s, .finite _ _ => .infinite s
  | .finite _ _, .infinite t => .infinite t
  | .finite s a, .finite t b =>
    let total := signedUnits s a + signedUnits t b
    if total = 0 then zero (s && t) else ofUnits (total < 0) total.natAbs 1

def sub (x y : Binary64) : Binary64 :=
  x.add y.negate

/-- The product. Zero times infinity has none. -/
def mul : Binary64 → Binary64 → Binary64
  | .nan _, _ | _, .nan _ => .nan none
  | .infinite s, .infinite t => .infinite (s != t)
  | .infinite s, .finite t b => if b.val = 0 then .nan none else .infinite (s != t)
  | .finite s a, .infinite t => if a.val = 0 then .nan none else .infinite (s != t)
  | .finite s a, .finite t b => ofUnits (s != t) (unitsOfRank a * unitsOfRank b) one

/-- The quotient. Zero by zero and infinity by infinity have none. -/
def div : Binary64 → Binary64 → Binary64
  | .nan _, _ | _, .nan _ => .nan none
  | .infinite _, .infinite _ => .nan none
  | .infinite s, .finite t _ => .infinite (s != t)
  | .finite s _, .infinite t => zero (s != t)
  | .finite s a, .finite t b =>
    if b.val = 0 then
      if a.val = 0 then .nan none else .infinite (s != t)
    else ofUnits (s != t) (unitsOfRank a * one) (unitsOfRank b)

/-- The remainder of truncated division, with the sign of the dividend. -/
def remainder : Binary64 → Binary64 → Binary64
  | .finite s a, .finite _ b =>
    if b.val = 0 then .nan none else ofUnits s (unitsOfRank a % unitsOfRank b) 1
  | .finite s a, .infinite _ => .finite s a
  | _, _ => .nan none

/-- The remainder with the sign of the divisor: a truncated remainder of the other sign is moved by one
divisor, and a zero takes the divisor's sign. -/
def modulo (x y : Binary64) : Binary64 :=
  let r := x.remainder y
  if r.isZero then zero y.isNegative
  else if r.isNegative = y.isNegative then r
  else r.add y

/-- The largest integer below or at a number of units. -/
def floorUnits (u : Int) : Int :=
  u.fdiv one

/-- The least integer above or at a number of units. -/
def ceilingUnits (u : Int) : Int :=
  -((-u).fdiv one)

/-- The integer part of a number of units. -/
def truncateUnits (u : Int) : Int :=
  u.tdiv one

@[simp] theorem floorUnits_zero : floorUnits 0 = 0 := Int.zero_fdiv _

@[simp] theorem ceilingUnits_zero : ceilingUnits 0 = 0 := by
  rw [ceilingUnits, Int.neg_zero, Int.zero_fdiv, Int.neg_zero]

end RuleExpr.Binary64
