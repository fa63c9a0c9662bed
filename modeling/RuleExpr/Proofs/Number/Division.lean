import Mathlib.Algebra.Order.Ring.Int
import RuleExpr.Builtin

/-!
# Quotient and remainder of integers

Integers are divided toward the floor. Quotient and remainder are the only integers that make up the dividend again with
a remainder that is zero or on the side of the divisor and nearer to zero (`quotient_and_remainder_belong_together`).
Operands are checked before they are looked at, so a divisor of zero counts only where both operands are numbers.
-/
namespace RuleExpr

/-- A quotient and a remainder that is zero or has the sign of the divisor and is nearer to zero. -/
structure IsDivision (a b q r : ℤ) : Prop where
  eq : a = b * q + r
  remainder : r = 0 ∨ r.sign = b.sign ∧ |r| < |b|

variable {a b q r : ℤ}

theorem isDivision_iff_of_pos (hb : 0 < b) : IsDivision a b q r ↔ a.fdiv b = q ∧ a.fmod b = r := by
  rw [Int.fdiv_fmod_unique hb]
  constructor
  · intro h
    have heq := h.eq
    refine ⟨by omega, ?_⟩
    rcases h.remainder with hzero | ⟨hsign, hless⟩
    · omega
    · rw [Int.sign_eq_one_of_pos hb, Int.sign_eq_one_iff_pos] at hsign
      rw [abs_of_pos hsign, abs_of_pos hb] at hless
      omega
  · rintro ⟨heq, hnonneg, hless⟩
    refine ⟨by omega, ?_⟩
    rcases hnonneg.eq_or_lt with hzero | hpos
    · exact .inl hzero.symm
    · rw [Int.sign_eq_one_of_pos hb, Int.sign_eq_one_of_pos hpos, abs_of_pos hpos, abs_of_pos hb]
      exact .inr ⟨rfl, hless⟩

/-- The quotient stays where dividend and divisor change their signs, and the remainder changes its own. -/
theorem isDivision_neg_iff : IsDivision (-a) (-b) q (-r) ↔ IsDivision a b q r := by
  have heq : -a = -b * q + -r ↔ a = b * q + r := by
    rw [neg_mul, ← neg_add, neg_inj]
  have hremainder : -r = 0 ∨ (-r).sign = (-b).sign ∧ |-r| < |-b| ↔ r = 0 ∨ r.sign = b.sign ∧ |r| < |b| := by
    rw [neg_eq_zero, Int.sign_neg, Int.sign_neg, neg_inj, abs_neg, abs_neg]
  exact ⟨fun h => ⟨heq.1 h.eq, hremainder.1 h.remainder⟩, fun h => ⟨heq.2 h.eq, hremainder.2 h.remainder⟩⟩

/-- Division toward the floor is the only one. -/
theorem isDivision_iff (hb : b ≠ 0) : IsDivision a b q r ↔ a.fdiv b = q ∧ a.fmod b = r := by
  rcases hb.lt_or_gt with hneg | hpos
  · rw [← isDivision_neg_iff, isDivision_iff_of_pos (neg_pos.2 hneg), Int.neg_fdiv_neg, Int.neg_fmod_neg, neg_inj]
  · exact isDivision_iff_of_pos hpos

namespace Builtin

variable {f : Builtin} {v w : Value}

theorem applyToNumbers_int (f : Builtin) {operation : Number → Number → Except Fault Number} {n : ℤ}
    (h : operation (.int a) (.int b) = .ok (.int n)) : applyToNumbers f operation (.int a) (.int b) = .ok (.int n) := by
  unfold applyToNumbers Value.number?
  dsimp only
  rw [h]
  rfl

theorem apply_divide_int (hb : b ≠ 0) : apply .divide [.int a, .int b] = .ok (.int (a.fdiv b)) := by
  have hquotient : Number.divide (.int a) (.int b) = .ok (.int (a.fdiv b)) := by
    rw [Number.divide, Number.combine, if_neg hb]
    rfl
  exact applyToNumbers_int .divide hquotient

theorem apply_modulo_int (hb : b ≠ 0) : apply .modulo [.int a, .int b] = .ok (.int (a.fmod b)) := by
  have hremainder : Number.modulo (.int a) (.int b) = .ok (.int (a.fmod b)) := by
    rw [Number.modulo, Number.combine, if_neg hb]
    rfl
  exact applyToNumbers_int .modulo hremainder

theorem applyToNumbers_of_not_number {operation : Number → Number → Except Fault Number}
    (h : v.number? = none ∨ w.number? = none) : applyToNumbers f operation v w = .error (.notAllNumbers f) := by
  unfold applyToNumbers
  split
  · next hv hw => simp [hv, hw] at h
  · rfl

/-- Integers are divided with the one quotient and the one remainder that belong together. A divisor of zero is refused,
after operands that are no numbers. -/
theorem quotient_and_remainder_belong_together :
    (∀ a b : ℤ, b ≠ 0 → ∃ q r : ℤ,
      apply .divide [.int a, .int b] = .ok (.int q) ∧ apply .modulo [.int a, .int b] = .ok (.int r) ∧
      IsDivision a b q r ∧ ∀ q' r' : ℤ, IsDivision a b q' r' → q' = q ∧ r' = r) ∧
    ∀ f, f = .divide ∨ f = .modulo →
      (∀ a : ℤ, apply f [.int a, .int 0] = .error .divisionByZero) ∧
      ∀ v w : Value, v.number? = none ∨ w.number? = none → apply f [v, w] = .error (.notAllNumbers f) := by
  constructor
  · intro a b hb
    refine ⟨a.fdiv b, a.fmod b, apply_divide_int hb, apply_modulo_int hb, ?_, ?_⟩
    · exact (isDivision_iff hb).2 ⟨rfl, rfl⟩
    · intro q' r' h
      obtain ⟨hq, hr⟩ := (isDivision_iff hb).1 h
      exact ⟨hq.symm, hr.symm⟩
  · intro f hf
    constructor
    · intro a
      rcases hf with rfl | rfl <;> rfl
    · intro v w h
      rcases hf with rfl | rfl
      · exact applyToNumbers_of_not_number h
      · exact applyToNumbers_of_not_number h

/-- A negative dividend, and a boolean over zero. -/
theorem quotient_and_remainder_of_negative :
    apply .divide [.int (-7), .int 2] = .ok (.int (-4)) ∧ apply .modulo [.int (-7), .int 2] = .ok (.int 1) ∧
      apply .modulo [.bool true, .int 0] = .error (.notAllNumbers .modulo) := by
  obtain ⟨q, r, hquotient, hremainder, -, honly⟩ := quotient_and_remainder_belong_together.1 (-7) 2 (by decide)
  have hdivision : IsDivision (-7) 2 (-4) 1 := ⟨by decide, .inr ⟨by decide, by decide⟩⟩
  obtain ⟨rfl, rfl⟩ := honly _ _ hdivision
  have hcheck := (quotient_and_remainder_belong_together.2 .modulo (.inr rfl)).2 (.bool true) (.int 0) (.inl rfl)
  exact ⟨hquotient, hremainder, hcheck⟩

end Builtin

end RuleExpr
