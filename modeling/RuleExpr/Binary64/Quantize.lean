import RuleExpr.Binary64.Arithmetic
import RuleExpr.Numeral

/-!
# Rounding through decimal fractions

Every finite binary64 number is a decimal fraction. Decimal fractions are rounded to the multiples of a power
of ten, a half away from zero, and what is rounded may have a limited number of digits only.
-/

namespace RuleExpr

namespace Numeral.Fraction

/-- The most digits of a rounded fraction. -/
def precision : Nat := 28

/-- The number of digits of a coefficient. -/
def digitCount (n : Nat) : Nat :=
  (Nat.toDigits 10 n).length

/-- The power of ten of the first digit. -/
def firstPower (f : Fraction) : Int :=
  f.exponent + (digitCount f.coefficient - 1)

/-- A coefficient without its last digits, of which the first one decides: from five on it rounds up. -/
def dropDigits (coefficient dropped : Nat) : Nat :=
  let kept := coefficient / Nat.pow 10 dropped
  if 5 ≤ coefficient / Nat.pow 10 (dropped - 1) % 10 then kept + 1 else kept

/-- The multiple of a power of ten that is nearest, a half away from zero. -/
def rescale (f : Fraction) (exponent : Int) : Fraction :=
  if exponent ≤ f.exponent then
    ⟨f.negative, f.coefficient * Nat.pow 10 (f.exponent - exponent).toNat, exponent⟩
  else ⟨f.negative, dropDigits f.coefficient (exponent - f.exponent).toNat, exponent⟩

/-- Rounds to a multiple of a power of ten, unless the digits do not suffice. -/
def quantize? (f : Fraction) (exponent : Int) : Option Fraction :=
  if f.coefficient = 0 then some ⟨f.negative, 0, exponent⟩
  else if precision < f.firstPower - exponent + 1 then none
  else
    let rounded := f.rescale exponent
    if precision < digitCount rounded.coefficient then none else some rounded

def integerPart (f : Fraction) : Int :=
  let magnitude := if 0 ≤ f.exponent then f.coefficient * Nat.pow 10 f.exponent.toNat
    else f.coefficient / Nat.pow 10 (-f.exponent).toNat
  if f.negative then -magnitude else magnitude

end Numeral.Fraction

namespace Binary64

/-- Whether a number of units is an integer. -/
def isIntegral (u : Int) : Bool :=
  u.natAbs % one = 0

/-- A number of units as a decimal fraction: over the least power of two that serves, and then over the power
of ten. -/
def toFraction (u : Int) : Numeral.Fraction :=
  let common := Nat.gcd u.natAbs one
  let halvings := (one / common).log2
  ⟨u < 0, u.natAbs / common * Nat.pow 5 halvings, -halvings⟩

end Binary64

end RuleExpr
