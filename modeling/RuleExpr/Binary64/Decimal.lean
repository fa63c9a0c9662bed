import RuleExpr.Binary64.Basic
import RuleExpr.Numeral

/-!
# Decimal text of binary64 numbers

Reading rounds the decimal fraction once, to the nearest number. Writing chooses the fewest digits that
read back as the same number and, of these, the nearest to it; an exact tie takes the even last digit.
-/

namespace RuleExpr.Binary64

/-- The number nearest to a decimal fraction. The first two tests only spare powers of ten so large that
the answer is certain. -/
def ofFraction (f : Numeral.Fraction) : Binary64 :=
  if f.coefficient = 0 ∨ f.exponent + (f.coefficient.log2 / 3 + 1) < -400 then zero f.negative
  else if 400 < f.exponent then .infinite f.negative
  else if 0 ≤ f.exponent then
    ofUnits f.negative (f.coefficient * Nat.pow 10 f.exponent.toNat * one) 1
  else ofUnits f.negative (f.coefficient * one) (Nat.pow 10 (-f.exponent).toNat)

/-- Reads a padded decimal numeral. -/
def ofText? (cs : List Char) : Option Binary64 :=
  (Numeral.toFraction cs).map ofFraction

/-- A magnitude on a decimal grid: `coefficient * 10 ^ exponent`. -/
structure Digits where
  coefficient : Nat
  exponent : Int
deriving DecidableEq, Repr

/-- The power of ten at or below a positive number of units. The estimate from the binary logarithm is at
most one off. -/
def decimalExponent (units : Nat) : Int :=
  let reaches (e : Int) : Bool :=
    if 0 ≤ e then Nat.pow 10 e.toNat * one ≤ units else one ≤ units * Nat.pow 10 (-e).toNat
  let estimate := (((units.log2 : Int) - 1074) * 30103).fdiv 100000
  if reaches (estimate + 1) then estimate + 1
  else if reaches estimate then estimate
  else estimate - 1

/-- The point of the grid `10 ^ exponent` that reads back as the number of the given rank, if there is
one: the nearer of the number's two neighbours on the grid, the even one on a tie. -/
def onGrid? (rank : Nat) (exponent : Int) : Option Nat :=
  let units := unitsOfRank rank
  let scale := Nat.pow 10 (-exponent).toNat
  let cell := one * Nat.pow 10 exponent.toNat
  let below := units * scale / cell
  let lower := (unitsOfRank (rank - 1) + units) * scale
  let upper := (units + unitsOfRank (rank + 1)) * scale
  let readsBack (n : Nat) : Bool :=
    if rank % 2 = 0 then lower ≤ 2 * n * cell && 2 * n * cell ≤ upper
    else lower < 2 * n * cell && 2 * n * cell < upper
  let nearest := divideToEven (units * scale) cell
  if readsBack nearest then some nearest
  else if readsBack below then some below
  else if readsBack (below + 1) then some (below + 1)
  else none

/-- The fewest digits that read back as the number of a positive rank. Seventeen always do. -/
def shortestDigits (rank : Nat) : Digits :=
  let top := decimalExponent (unitsOfRank rank)
  let grids := (List.range 17).map fun n : Nat => top - (n : Int)
  match grids.findSome? fun e => (onGrid? rank e).map (Digits.mk · e) with
  | some digits => digits
  | none => ⟨0, 0⟩

/-- How the digits of a number are laid out. -/
structure Layout where
  /-- The least power of ten of the first digit that is written with leading zeros. -/
  leastPositional : Int
  /-- The first power of ten of the first digit that is written with an exponent. -/
  leastScientific : Int
  /-- The least number of digits of an exponent. -/
  exponentWidth : Nat

/-- Numbers from 1e-04 up to, not including, 1e+16 are written without an exponent, and exponents have
a sign and at least two digits. -/
def layout : Layout := ⟨-4, 16, 2⟩

/-- Digits with a point behind the first `whole` of them; a missing part is a zero. -/
def withPoint (digits : List Char) (whole : Nat) : List Char :=
  let padded := digits ++ List.replicate (whole - digits.length) '0'
  let fractional := padded.drop whole
  padded.take whole ++ '.' :: if fractional.isEmpty then ['0'] else fractional

/-- Digits in scientific form; a point only stands before further digits. -/
def scientific (style : Layout) (digits : List Char) (power : Int) : List Char :=
  let exponent := Nat.toDigits 10 power.natAbs
  let sign := if power < 0 then '-' else '+'
  let mantissa := match digits with
    | [] => []
    | [d] => [d]
    | d :: ds => d :: '.' :: ds
  mantissa ++ 'e' :: sign :: List.replicate (style.exponentWidth - exponent.length) '0' ++ exponent

/-- The text of a positive magnitude. -/
def magnitudeText (style : Layout) (d : Digits) : List Char :=
  let digits := Nat.toDigits 10 d.coefficient
  let power := d.exponent + (digits.length - 1)
  let significant := (digits.reverse.dropWhile (· == '0')).reverse
  if style.leastPositional ≤ power ∧ power < style.leastScientific then
    if 0 ≤ power then withPoint significant (power.toNat + 1)
    else '0' :: '.' :: List.replicate (-power - 1).toNat '0' ++ significant
  else scientific style significant power

def toText : Binary64 → List Char
  | .nan _ => ['n', 'a', 'n']
  | .infinite negative => (if negative then ['-'] else []) ++ ['i', 'n', 'f']
  | .finite negative rank =>
    (if negative then ['-'] else []) ++
      if rank.val = 0 then ['0', '.', '0'] else magnitudeText layout (shortestDigits rank)

end RuleExpr.Binary64
