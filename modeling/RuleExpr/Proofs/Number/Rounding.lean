import RuleExpr.Proofs.Binary64.Integers
import RuleExpr.Proofs.Binary64.Rational
import RuleExpr.Builtin

/-!
# Exact rounding

The builtins that round take a finite number for the rational number that it is, and give its floor, its ceiling, its
integer part or the nearest integer (`rounding_is_exact`). They never fail on a finite number, although the nearest
integer of a number with a fractional part is found by way of a decimal fraction of limited precision.
-/
namespace RuleExpr

/-! ## The nearest integer of a rational number -/

/-- The nearest integer, a half away from zero. -/
def halfAway (q : ℚ) : ℤ := if 0 ≤ q then ⌊q + 1 / 2⌋ else -⌊-q + 1 / 2⌋

variable {q : ℚ}

theorem halfAway_of_nonneg (h : 0 ≤ q) : halfAway q = ⌊q + 1 / 2⌋ := if_pos h

theorem halfAway_neg (q : ℚ) : halfAway (-q) = -halfAway q := by
  rcases lt_trichotomy q 0 with hneg | rfl | hpos
  · rw [halfAway, if_pos (neg_nonneg.2 hneg.le), halfAway, if_neg (not_le.2 hneg), neg_neg]
  · norm_num [halfAway]
  · rw [halfAway, if_neg (not_le.2 (neg_neg_of_pos hpos)), neg_neg, halfAway_of_nonneg hpos.le]

/-- No integer is nearer, and one that is as near is no farther from zero. -/
theorem halfAway_isNearest_of_nonneg (hq : 0 ≤ q) (m : ℤ) :
    |q - halfAway q| ≤ |q - m| ∧ (|q - halfAway q| = |q - m| → |m| ≤ |halfAway q|) := by
  have hlow := Int.floor_le (q + 1 / 2)
  have hhigh := Int.lt_floor_add_one (q + 1 / 2)
  have hleast : 0 ≤ ⌊q + 1 / 2⌋ := Int.floor_nonneg.2 (by linarith)
  rw [halfAway_of_nonneg hq]
  generalize ⌊q + 1 / 2⌋ = n at *
  rcases lt_trichotomy m n with hless | heq | hgreater
  · have hside : (m : ℚ) + 1 ≤ n := by exact_mod_cast hless
    constructor
    · rw [Binary64.abs_sub_le_abs_sub_iff]
      exact mul_nonneg (by linarith) (by linarith)
    · intro htie
      have hsum : (0 : ℚ) ≤ n + m := by
        by_contra hsum
        have hnearer : |q - n| < |q - m| :=
          Binary64.abs_sub_lt_abs_sub_iff.2 (mul_pos (by linarith) (by linarith))
        exact hnearer.ne htie
      have hsum' : 0 ≤ n + m := by exact_mod_cast hsum
      rw [abs_of_nonneg hleast, abs_le]
      omega
  · rw [heq]
    exact ⟨le_rfl, fun _ => le_rfl⟩
  · have hside : (n : ℚ) + 1 ≤ m := by exact_mod_cast hgreater
    have hnearer : |q - n| < |q - m| :=
      Binary64.abs_sub_lt_abs_sub_iff.2 (mul_pos_of_neg_of_neg (by linarith) (by linarith))
    exact ⟨hnearer.le, fun htie => absurd htie hnearer.ne⟩

theorem halfAway_isNearest (q : ℚ) (m : ℤ) :
    |q - halfAway q| ≤ |q - m| ∧ (|q - halfAway q| = |q - m| → |m| ≤ |halfAway q|) := by
  rcases le_total 0 q with hq | hq
  · exact halfAway_isNearest_of_nonneg hq m
  · have hmirror (k : ℤ) : |-q - (-k : ℤ)| = |q - k| := by
      rw [Int.cast_neg, neg_sub_neg, abs_sub_comm]
    have hm := halfAway_isNearest_of_nonneg (neg_nonneg.2 hq) (-m)
    rwa [halfAway_neg, hmirror, hmirror, abs_neg, abs_neg] at hm

theorem halfAway_between_of_nonneg (hq : 0 ≤ q) : ⌊q⌋ ≤ halfAway q ∧ halfAway q ≤ ⌈q⌉ := by
  rw [halfAway_of_nonneg hq]
  constructor
  · exact Int.floor_mono (by linarith)
  · have hceil := Int.le_ceil q
    rw [← Int.lt_add_one_iff, Int.floor_lt]
    push_cast
    linarith

theorem halfAway_between (q : ℚ) : ⌊q⌋ ≤ halfAway q ∧ halfAway q ≤ ⌈q⌉ := by
  rcases le_total 0 q with hq | hq
  · exact halfAway_between_of_nonneg hq
  · have hmirror := halfAway_between_of_nonneg (neg_nonneg.2 hq)
    rw [halfAway_neg, Int.floor_neg, Int.ceil_neg] at hmirror
    omega

namespace Binary64

/-- Rounding a number of units is rounding of rational numbers. -/
theorem floor_rational_add_half (n : ℕ) : ⌊rational n + 1 / 2⌋ = (divideHalfUp n one : ℕ) := by
  have hquotient : rational n + 1 / 2 = ((2 * n + one : ℕ) : ℚ) / (2 * one : ℕ) := by
    have hone : (0 : ℚ) < (one : ℕ) := one_cast_pos
    rw [rational, Int.cast_natCast, Nat.cast_add, Nat.cast_mul, Nat.cast_mul, Nat.cast_ofNat]
    generalize ((one : ℕ) : ℚ) = c at *
    field_simp
  rw [hquotient, Rat.floor_natCast_div_natCast, divideHalfUp, Int.natCast_ediv]

theorem halfAway_rational (u : ℤ) :
    halfAway (rational u) = if u < 0 then -(divideHalfUp u.natAbs one : ℤ) else divideHalfUp u.natAbs one := by
  by_cases hneg : u < 0
  · have hu : u = -(u.natAbs : ℤ) := by omega
    have hnonneg : 0 ≤ rational u.natAbs := rational_nonneg_iff.2 (Int.natCast_nonneg _)
    rw [if_pos hneg]
    nth_rewrite 1 [hu]
    rw [rational_neg, halfAway_neg, halfAway_of_nonneg hnonneg, floor_rational_add_half]
  · have hu : u = (u.natAbs : ℤ) := by omega
    have hnonneg : 0 ≤ rational u.natAbs := rational_nonneg_iff.2 (Int.natCast_nonneg _)
    rw [if_neg hneg]
    nth_rewrite 1 [hu]
    rw [halfAway_of_nonneg hnonneg, floor_rational_add_half]

/-- A number of units with its factors of two cancelled. -/
theorem rational_mul_two_pow (m : ℤ) {k : ℕ} (hk : k ≤ 1074) : rational (m * 2 ^ k) = m / 2 ^ (1074 - k) := by
  have hone : one = 2 ^ (1074 - k) * 2 ^ k := by rw [one_eq, ← Nat.pow_add, Nat.sub_add_cancel hk]
  rw [rational, hone, Int.cast_mul, Int.cast_pow, Int.cast_ofNat, Nat.cast_mul, Nat.cast_pow, Nat.cast_pow,
    Nat.cast_ofNat, mul_div_mul_right _ _ (pow_ne_zero k two_ne_zero)]

theorem signedUnits_not (negative : Bool) (rank : ℕ) : signedUnits (!negative) rank = -signedUnits negative rank := by
  cases negative <;> simp [signedUnits]

end Binary64

/-! ## The builtins -/

namespace Builtin
open Binary64

theorem apply_round_finite (r : Rounding) (negative : Bool) (rank : Fin rankCount) :
    apply (.round r) [.float (.finite negative rank)] =
      (Number.roundUnits r (signedUnits negative rank)).map .int := rfl

theorem apply_round_nearest (negative : Bool) (rank : Fin rankCount) :
    apply (.round .nearest) [.float (.finite negative rank)] =
      .ok (.int (halfAway (rational (signedUnits negative rank)))) := by
  rw [apply_round_finite, Number.roundUnits, roundHalfAway_signedUnits, halfAway_rational]
  rfl

/-- A finite number is rounded as the rational number that it is, without a fault, and an integer is kept. The nearest
integer, of two the one farther from zero, lies between floor and ceiling and changes its sign with the number. -/
theorem rounding_is_exact :
    (∀ (x : Binary64) (q : ℚ), x.toRat? = some q →
      apply (.round .floor) [.float x] = .ok (.int ⌊q⌋) ∧
      apply (.round .ceiling) [.float x] = .ok (.int ⌈q⌉) ∧
      apply .toInteger [.float x] = .ok (.int (if 0 ≤ q then ⌊q⌋ else ⌈q⌉)) ∧
      ∃ n : ℤ, apply (.round .nearest) [.float x] = .ok (.int n) ∧
        n = (if 0 ≤ q then ⌊q + 1 / 2⌋ else -⌊-q + 1 / 2⌋) ∧
        (∀ m : ℤ, |q - n| ≤ |q - m| ∧ (|q - n| = |q - m| → |m| ≤ |n|)) ∧
        apply (.round .nearest) [.float x.negate] = .ok (.int (-n)) ∧ ⌊q⌋ ≤ n ∧ n ≤ ⌈q⌉) ∧
    ∀ n : ℤ, (∀ r, apply (.round r) [.int n] = .ok (.int n)) ∧ apply .toInteger [.int n] = .ok (.int n) := by
  constructor
  · intro x q hq
    obtain ⟨u, hu, rfl⟩ := Option.map_eq_some_iff.1 hq
    cases x with
    | nan mark => cases hu
    | infinite negative => cases hu
    | finite negative rank =>
        obtain rfl := Option.some.inj hu
        refine ⟨?_, ?_, ?_, halfAway (rational (signedUnits negative rank)), ?_, rfl, ?_, ?_, ?_⟩
        · rw [floor_rational]
          rfl
        · rw [ceil_rational]
          rfl
        · rw [truncate_rational]
          rfl
        · exact apply_round_nearest negative rank
        · exact halfAway_isNearest _
        · rw [negate, apply_round_nearest, signedUnits_not, rational_neg, halfAway_neg]
        · exact halfAway_between _
  · intro n
    exact ⟨fun r => rfl, rfl⟩

/-- The number below a half, which is lost if the half is added first, and the last number with a half behind the
point. -/
theorem rounding_is_exact_at_halves :
    let x : Binary64 := .finite false ⟨1022 * stride - 1, by decide⟩
    let y : Binary64 := .finite true ⟨1075 * stride - 1, by decide⟩
    x.toRat? = some (9007199254740991 / 2 ^ 54) ∧ apply (.round .nearest) [.float x] = .ok (.int 0) ∧
      y.toRat? = some (-9007199254740991 / 2) ∧
      apply (.round .nearest) [.float y] = .ok (.int (-4503599627370496)) ∧
      apply .toInteger [.float y] = .ok (.int (-4503599627370495)) := by
  intro x y
  have hx : x.toRat? = some (9007199254740991 / 2 ^ 54) := by
    have hunits : signedUnits false (1022 * stride - 1) = 9007199254740991 * 2 ^ 1020 := by decide +kernel
    rw [toRat?, units?_finite, hunits, Option.map_some, rational_mul_two_pow _ (by decide)]
    norm_num
  have hy : y.toRat? = some (-9007199254740991 / 2) := by
    have hunits : signedUnits true (1075 * stride - 1) = -9007199254740991 * 2 ^ 1073 := by decide +kernel
    rw [toRat?, units?_finite, hunits, Option.map_some, rational_mul_two_pow _ (by decide)]
    norm_num
  obtain ⟨-, -, -, n, hn, hvalue, -⟩ := rounding_is_exact.1 x _ hx
  obtain ⟨-, -, htruncate, m, hm, hvalue', -⟩ := rounding_is_exact.1 y _ hy
  have hzero : n = 0 := by
    rw [hvalue, if_pos (by norm_num)]
    exact Int.floor_eq_iff.2 ⟨by norm_num, by norm_num⟩
  have haway : m = -4503599627370496 := by
    have hfloor : ⌊-(-9007199254740991 / 2 : ℚ) + 1 / 2⌋ = 4503599627370496 :=
      Int.floor_eq_iff.2 ⟨by norm_num, by norm_num⟩
    rw [hvalue', if_neg (by norm_num), hfloor]
  have hinward : (if (0 : ℚ) ≤ -9007199254740991 / 2 then ⌊(-9007199254740991 / 2 : ℚ)⌋
      else ⌈(-9007199254740991 / 2 : ℚ)⌉) = -4503599627370495 := by
    rw [if_neg (by norm_num)]
    exact Int.ceil_eq_iff.2 ⟨by norm_num, by norm_num⟩
  rw [hzero] at hn
  rw [haway] at hm
  rw [hinward] at htruncate
  exact ⟨hx, hn, hy, hm, htruncate⟩

end Builtin

end RuleExpr
