/-!
# Binary64 numbers

The numbers of the 64-bit binary interchange format. A finite number is its sign and the rank of its
magnitude: zero has rank 0, the least positive number rank 1, and so on up to the last rank below infinity.
Magnitudes are counted in units of 2 ^ -1074, the least positive number, so every finite number is an integer
number of units and exact arithmetic is arithmetic on integers.

A NaN carries a mark in place of a payload, so that one that is passed on can be known again. Operations
return a NaN without a mark.
-/

namespace RuleExpr

/-- The number of ranks over which the step between neighbours stays the same. -/
abbrev Binary64.stride : Nat := Nat.pow 2 52

/-- The number of finite magnitudes. -/
abbrev Binary64.rankCount : Nat := 2047 * Binary64.stride

/-- What tells one NaN from another: a number chosen by whoever supplied it, or the number that it got in the
evaluation that made it. -/
inductive Binary64.Mark where
  | supplied (n : Nat)
  | made (n : Nat)
deriving DecidableEq, Repr

/-- The numbers of the binary64 format; the two zeros differ in their sign. -/
inductive Binary64 where
  | nan (mark : Option Binary64.Mark)
  | infinite (negative : Bool)
  | finite (negative : Bool) (rank : Fin Binary64.rankCount)
deriving DecidableEq, Repr

namespace Binary64

/-- One in units. -/
def one : Nat := Nat.pow 2 1074

/-- The magnitude of a rank, in units. In the first stride the ranks are the units; from the second on,
each stride doubles the step between neighbours. -/
def unitsOfRank (rank : Nat) : Nat :=
  if rank < stride then rank
  else (stride + rank % stride) * Nat.pow 2 (rank / stride - 1)

@[simp] theorem unitsOfRank_zero : unitsOfRank 0 = 0 := rfl

theorem unitsOfRank_of_lt {rank : Nat} (h : rank < stride) : unitsOfRank rank = rank :=
  if_pos h

/-- The quotient rounded to the nearest integer, a half to the even neighbour. -/
def divideToEven (num den : Nat) : Nat :=
  let quotient := num / den
  let twice := 2 * (num % den)
  if den < twice ∨ (twice = den ∧ quotient % 2 = 1) then quotient + 1 else quotient

/-- The rank nearest to `num / den` units, a half to the even rank. Dropping the low bits beyond 53
significant ones puts the rounded quotient on the scale of its rank. -/
def nearestRank (num den : Nat) : Nat :=
  let dropped := (num / den).log2 - 52
  dropped * stride + divideToEven num (den * Nat.pow 2 dropped)

/-- The number nearest to `num / den` units. -/
def ofUnits (negative : Bool) (num den : Nat) : Binary64 :=
  let rank := nearestRank num den
  if h : rank < rankCount then .finite negative ⟨rank, h⟩ else .infinite negative

def zero (negative : Bool) : Binary64 :=
  .finite negative ⟨0, by decide⟩

/-- The signed number of units of a sign and a rank. -/
def signedUnits (negative : Bool) (rank : Nat) : Int :=
  if negative then -(unitsOfRank rank : Int) else unitsOfRank rank

/-- The exact value in units, if the number is finite. -/
def units? : Binary64 → Option Int
  | .finite negative rank => some (signedUnits negative rank)
  | _ => none

@[simp] theorem units?_nan (mark : Option Mark) : units? (.nan mark) = none := rfl
@[simp] theorem units?_infinite (s : Bool) : units? (.infinite s) = none := rfl
@[simp] theorem units?_finite (s : Bool) (r : Fin rankCount) :
    units? (.finite s r) = some (signedUnits s r) := rfl

def isZero : Binary64 → Bool
  | .finite _ rank => rank.val = 0
  | _ => false

/-- Whether the sign is minus; NaN counts as positive. -/
def isNegative : Binary64 → Bool
  | .nan _ => false
  | .infinite negative => negative
  | .finite negative _ => negative

/-- Whether the two are one and the same NaN. A NaN without a mark is the same as no other. -/
def isSameNaN : Binary64 → Binary64 → Bool
  | .nan (some a), .nan (some b) => a == b
  | _, _ => false

@[simp] theorem isSameNaN_nan (a : Mark) : isSameNaN (.nan (some a)) (.nan (some a)) = true := by
  simp [isSameNaN]

/-- The number nearest to an integer. -/
def ofInt (n : Int) : Binary64 :=
  ofUnits (n < 0) (n.natAbs * one) 1

/-- The number nearest to an integer, unless that is infinite. -/
def ofInt? (n : Int) : Option Binary64 :=
  match ofInt n with
  | .infinite _ => none
  | x => some x

end Binary64

end RuleExpr
