import RuleExpr.Proofs.Binary64.Layout
import RuleExpr.Binary64.Arithmetic

/-!
# Rational numbers and binary64 numbers

A finite number is a rational number. Rounding to units is floor and ceiling of rational numbers, and the number that a
rational magnitude is rounded to is the nearest one; so is that of a decimal fraction (`rounds_ofFraction`). Ranks go on
behind the last finite one for this purpose, as if exponents had no bound, and a magnitude nearest to one of those is
infinite.
-/
namespace RuleExpr.Binary64

/-- The rational number of a number of units. -/
def rational (u : ℤ) : ℚ := u / one

/-- The rational number that a finite number is. -/
def toRat? (x : Binary64) : Option ℚ := x.units?.map rational

variable {u v : ℤ}

theorem one_cast_pos : (0 : ℚ) < (one : ℕ) := by exact_mod_cast one_pos

theorem rational_neg (u : ℤ) : rational (-u) = -rational u := by
  rw [rational, rational, Int.cast_neg, neg_div]

theorem rational_nonneg_iff : 0 ≤ rational u ↔ 0 ≤ u := by
  rw [rational, le_div_iff₀ one_cast_pos, zero_mul, Int.cast_nonneg_iff]

theorem floor_rational (u : ℤ) : ⌊rational u⌋ = floorUnits u := by
  rw [rational, Rat.floor_intCast_div_natCast, floorUnits, Int.fdiv_eq_ediv_of_nonneg _ (Int.natCast_nonneg _)]

theorem ceil_rational (u : ℤ) : ⌈rational u⌉ = ceilingUnits u := by
  have hfloor : ⌊-rational u⌋ = (-u).fdiv one := by
    rw [← rational_neg, floor_rational, floorUnits]
  rw [ceilingUnits, ← hfloor, Int.floor_neg, neg_neg]

theorem truncate_rational (u : ℤ) : (if 0 ≤ rational u then ⌊rational u⌋ else ⌈rational u⌉) = truncateUnits u := by
  by_cases hu : 0 ≤ u
  · rw [if_pos (rational_nonneg_iff.2 hu), floor_rational, floorUnits, truncateUnits,
      Int.fdiv_eq_ediv_of_nonneg _ (Int.natCast_nonneg _), Int.tdiv_eq_ediv_of_nonneg hu]
  · have hneg : 0 ≤ -u := by omega
    rw [if_neg (fun h => hu (rational_nonneg_iff.1 h)), ceil_rational, ceilingUnits, truncateUnits,
      Int.fdiv_eq_ediv_of_nonneg _ (Int.natCast_nonneg _), ← Int.tdiv_eq_ediv_of_nonneg hneg, Int.neg_tdiv, neg_neg]

/-! ## The nearest number -/

/-- Whether a rank is nearest to a magnitude; of two ranks that are as near it is the even one. -/
def IsNearest (q : ℚ) (rank : ℕ) : Prop :=
  ∀ other : ℕ, other ≠ rank →
    |q - rational (unitsOfRank rank)| ≤ |q - rational (unitsOfRank other)| ∧
      (rank % 2 = 1 → |q - rational (unitsOfRank rank)| < |q - rational (unitsOfRank other)|)

/-- The number that a magnitude with a sign is rounded to. -/
inductive Rounds (negative : Bool) (q : ℚ) : Binary64 → Prop
  | finite {rank : Fin rankCount} : IsNearest q rank → Rounds negative q (.finite negative rank)
  | infinite {rank : ℕ} : rankCount ≤ rank → IsNearest q rank → Rounds negative q (.infinite negative)

/-- Of two points the nearer one is that on the same side of the point half way between them. -/
theorem abs_sub_le_abs_sub_iff {p a b : ℚ} : |p - a| ≤ |p - b| ↔ 0 ≤ (a - b) * (2 * p - (a + b)) := by
  have hdifference : (p - b) ^ 2 - (p - a) ^ 2 = (a - b) * (2 * p - (a + b)) := by ring
  rw [← sq_le_sq, ← sub_nonneg, hdifference]

theorem abs_sub_lt_abs_sub_iff {p a b : ℚ} : |p - a| < |p - b| ↔ 0 < (a - b) * (2 * p - (a + b)) := by
  have hdifference : (p - b) ^ 2 - (p - a) ^ 2 = (a - b) * (2 * p - (a + b)) := by ring
  rw [← sq_lt_sq, ← sub_pos, hdifference]

/-- Distances may be taken in units. -/
theorem abs_sub_rational (q : ℚ) (u : ℤ) : |q - rational u| = |q * (one : ℕ) - u| / (one : ℕ) := by
  have hone : (0 : ℚ) < (one : ℕ) := one_cast_pos
  unfold rational
  generalize ((one : ℕ) : ℚ) = c at *
  rw [← abs_of_pos hone, ← abs_div, abs_of_pos hone, sub_div, mul_div_cancel_right₀ q hone.ne']

/-- A rank between whose midpoints a magnitude lies is nearest to it. -/
theorem RoundsTo.isNearest {num den rank : ℕ} (hden : 0 < den) (h : RoundsTo num den rank) :
    IsNearest (num / den / (one : ℕ)) rank := by
  have hpos : (0 : ℚ) < den := Nat.cast_pos.2 hden
  have hunits : (num / den / (one : ℕ) : ℚ) * (one : ℕ) = num / den := div_mul_cancel₀ _ one_cast_pos.ne'
  have hbelow {x : ℕ} : (x : ℚ) ≤ 2 * (num / den) ↔ x * den ≤ 2 * num := by
    rw [← mul_div_assoc, le_div_iff₀ hpos]
    exact_mod_cast Iff.rfl
  have habove {x : ℕ} : 2 * (num / den) ≤ (x : ℚ) ↔ 2 * num ≤ x * den := by
    rw [← mul_div_assoc, div_le_iff₀ hpos]
    exact_mod_cast Iff.rfl
  intro other hother
  rw [abs_sub_rational, abs_sub_rational, hunits, div_le_div_iff_of_pos_right one_cast_pos,
    div_lt_div_iff_of_pos_right one_cast_pos, abs_sub_le_abs_sub_iff, abs_sub_lt_abs_sub_iff, Int.cast_natCast,
    Int.cast_natCast, ← Nat.cast_add]
  rcases Nat.lt_or_gt_of_ne hother with hless | hgreater
  · have hprevious : unitsOfRank other ≤ unitsOfRank (rank - 1) := unitsOfRank_strictMono.monotone (by omega)
    have hside : (0 : ℚ) < unitsOfRank rank - unitsOfRank other :=
      sub_pos.2 (Nat.cast_lt.2 (unitsOfRank_strictMono hless))
    have hsum : (unitsOfRank rank + unitsOfRank other) * den ≤ (unitsOfRank (rank - 1) + unitsOfRank rank) * den :=
      Nat.mul_le_mul_right den (by omega)
    constructor
    · exact mul_nonneg hside.le (sub_nonneg.2 (hbelow.2 (hsum.trans h.lower)))
    · intro hodd
      have hmidpoint := (lt_iff_lt_of_le_iff_le habove).2 (hsum.trans_lt (h.strict hodd).1)
      exact mul_pos hside (sub_pos.2 hmidpoint)
  · have hnext : unitsOfRank (rank + 1) ≤ unitsOfRank other := unitsOfRank_strictMono.monotone hgreater
    have hside : (unitsOfRank rank - unitsOfRank other : ℚ) < 0 :=
      sub_neg.2 (Nat.cast_lt.2 (unitsOfRank_strictMono hgreater))
    have hsum : (unitsOfRank rank + unitsOfRank (rank + 1)) * den ≤ (unitsOfRank rank + unitsOfRank other) * den :=
      Nat.mul_le_mul_right den (by omega)
    constructor
    · exact mul_nonneg_of_nonpos_of_nonpos hside.le (sub_nonpos.2 (habove.2 (h.upper.trans hsum)))
    · intro hodd
      have hmidpoint := (lt_iff_lt_of_le_iff_le hbelow).2 ((h.strict hodd).2.trans_le hsum)
      exact mul_pos_of_neg_of_neg hside (sub_neg.2 hmidpoint)

/-- A quotient of units is rounded to the nearest number. -/
theorem rounds_ofUnits (negative : Bool) (num den : ℕ) (hden : 0 < den) :
    Rounds negative (num / den / (one : ℕ)) (ofUnits negative num den) := by
  have hnearest := (nearestRank_roundsTo num hden).isNearest hden
  unfold ofUnits
  dsimp only
  split
  · exact .finite hnearest
  · next hbeyond => exact .infinite (Nat.le_of_not_lt hbeyond) hnearest

theorem rounds_zero (negative : Bool) : Rounds negative 0 (zero negative) := by
  have hnearest := (roundsTo_unitsOfRank 0).isNearest Nat.one_pos
  rw [unitsOfRank_zero, Nat.cast_zero, zero_div, zero_div] at hnearest
  exact .finite hnearest

/-- A magnitude beyond the range is rounded to infinity. -/
theorem rounds_infinite (negative : Bool) {num : ℕ} (h : 10 ^ 400 * one ≤ num) :
    Rounds negative (num / (one : ℕ)) (.infinite negative) := by
  have hlarge : unitsOfRank rankCount * 1 ≤ num * 1 := by
    have hrange : unitsOfRank rankCount ≤ 10 ^ 400 * one := by decide +kernel
    omega
  have hnearest := nearestRank_roundsTo num Nat.one_pos
  have hbeyond : rankCount ≤ nearestRank num 1 :=
    (roundsTo_unitsOfRank rankCount).mono Nat.one_pos Nat.one_pos hnearest hlarge
  have hrounds := hnearest.isNearest Nat.one_pos
  rw [Nat.cast_one, div_one] at hrounds
  exact .infinite hbeyond hrounds

/-- A decimal fraction is rounded to the nearest number. -/
theorem rounds_ofFraction (f : Numeral.Fraction) :
    Rounds f.negative (f.coefficient * 10 ^ f.exponent) (ofFraction f) := by
  have hone : ((one : ℕ) : ℚ) ≠ 0 := one_cast_pos.ne'
  by_cases hbehind : f.exponent ≤ 0
  · have hrounds := rounds_ofUnits f.negative (f.coefficient * one) (10 ^ (-f.exponent).toNat)
      (Nat.pow_pos (by decide))
    have hpower : (10 : ℚ) ^ f.exponent = ((10 : ℚ) ^ (-f.exponent).toNat)⁻¹ := by
      rw [← zpow_natCast, ← zpow_neg, Int.toNat_of_nonneg (by omega), neg_neg]
    rw [Nat.cast_mul, Nat.cast_pow, div_right_comm, mul_div_cancel_right₀ _ hone, div_eq_mul_inv] at hrounds
    rw [ofFraction_eq hbehind, hpower]
    exact hrounds
  · have hpower : (10 : ℚ) ^ f.exponent = (10 : ℚ) ^ f.exponent.toNat := by
      rw [← zpow_natCast, Int.toNat_of_nonneg (by omega)]
    have hunits : (f.coefficient : ℚ) * 10 ^ f.exponent.toNat =
        ((f.coefficient * 10 ^ f.exponent.toNat * one : ℕ) : ℚ) / (one : ℕ) := by
      rw [Nat.cast_mul, mul_div_cancel_right₀ _ hone, Nat.cast_mul, Nat.cast_pow, Nat.cast_ofNat]
    rw [hpower]
    unfold ofFraction
    split
    · next hzero =>
        have hcoefficient : f.coefficient = 0 := by omega
        rw [hcoefficient, Nat.cast_zero, zero_mul]
        exact rounds_zero f.negative
    · next hnonzero =>
        rw [hunits]
        split
        · next hlarge =>
            have hpowers : 10 ^ 400 ≤ 10 ^ f.exponent.toNat := pow_le_pow_right₀ (by decide) (by omega)
            have hmagnitude : 10 ^ f.exponent.toNat ≤ f.coefficient * 10 ^ f.exponent.toNat :=
              Nat.le_mul_of_pos_left _ (by omega)
            exact rounds_infinite f.negative (Nat.mul_le_mul_right one (hpowers.trans hmagnitude))
        · rw [if_pos (by omega : 0 ≤ f.exponent)]
          have hrounds := rounds_ofUnits f.negative (f.coefficient * 10 ^ f.exponent.toNat * one) 1 Nat.one_pos
          rwa [Nat.cast_one, div_one] at hrounds

end RuleExpr.Binary64
