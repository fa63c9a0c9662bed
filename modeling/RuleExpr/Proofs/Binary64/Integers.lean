import RuleExpr.Proofs.Binary64.Shortest
import RuleExpr.Number

/-!
# Nearest integers

A number is rounded to an integer by way of a decimal fraction if it is not an integer itself. Such a number is below
`2 ^ 52`, so that the digits of the fraction suffice (`quantize?_toFraction`), and every number has a nearest integer
(`roundHalfAway_signedUnits`).
-/
namespace RuleExpr.Binary64
open Numeral

/-- The quotient rounded to the nearest integer, a half up. -/
def divideHalfUp (num den : Nat) : Nat := (2 * num + den) / (2 * den)

variable {num den num' den' : Nat}

theorem divideHalfUp_mul_right {c : Nat} (num den : Nat) (hc : 0 < c) :
    divideHalfUp (num * c) (den * c) = divideHalfUp num den := by
  have hnum : 2 * (num * c) + den * c = (2 * num + den) * c := by ring
  have hden : 2 * (den * c) = 2 * den * c := by ring
  rw [divideHalfUp, hnum, hden, Nat.mul_div_mul_right _ _ hc, divideHalfUp]

/-- The quotient may be given in other terms. -/
theorem divideHalfUp_congr (hden : 0 < den) (hden' : 0 < den') (h : num * den' = num' * den) :
    divideHalfUp num den = divideHalfUp num' den' := by
  calc divideHalfUp num den
      = divideHalfUp (num * den') (den * den') := (divideHalfUp_mul_right num den hden').symm
    _ = divideHalfUp (num' * den) (den' * den) := by rw [h, Nat.mul_comm den den']
    _ = divideHalfUp num' den' := divideHalfUp_mul_right num' den' hden

theorem divideHalfUp_of_dvd (hden : 0 < den) (h : den ∣ num) : divideHalfUp num den = num / den := by
  obtain ⟨n, rfl⟩ := h
  have htwice : 2 * (den * n) + den = den + 2 * den * n := by ring
  rw [divideHalfUp, htwice, Nat.add_mul_div_left _ _ (by omega), Nat.div_eq_of_lt (by omega), Nat.zero_add,
    Nat.mul_div_cancel_left _ hden]

theorem divideHalfUp_le {bound : Nat} (hden : 0 < den) (h : num ≤ bound * den) : divideHalfUp num den ≤ bound := by
  have hhalf : 2 * num + den < (bound + 1) * (2 * den) := by nlinarith
  exact Nat.lt_succ_iff.1 ((Nat.div_lt_iff_lt_mul (by omega)).2 hhalf)

/-- The first of the digits that are left out tells whether they are a half or more. -/
theorem dropDigits_eq (coefficient : Nat) {k : Nat} (hk : 0 < k) :
    Fraction.dropDigits coefficient k = divideHalfUp coefficient (10 ^ k) := by
  obtain ⟨j, rfl⟩ := Nat.exists_eq_add_of_lt hk
  have hpow : 10 ^ (0 + j + 1) = 10 ^ j * 10 := by rw [Nat.zero_add, Nat.pow_succ]
  have hpos : 0 < 10 ^ j := Nat.pow_pos (by decide)
  have hnum : 2 * coefficient + 10 ^ j * 10 = 2 * (coefficient + 10 ^ j * 5) := by ring
  have hden : 2 * (10 ^ j * 10) = 2 * (10 ^ j * 10) := rfl
  have hround : divideHalfUp coefficient (10 ^ (0 + j + 1)) = (coefficient / 10 ^ j + 5) / 10 := by
    rw [divideHalfUp, hpow, hnum, Nat.mul_div_mul_left _ _ (by decide : 0 < 2), ← Nat.div_div_eq_div_mul,
      Nat.add_mul_div_left _ _ hpos]
  have hkept : coefficient / 10 ^ (0 + j + 1) = coefficient / 10 ^ j / 10 := by
    rw [hpow, Nat.div_div_eq_div_mul]
  have hfirst : 0 + j + 1 - 1 = j := by omega
  simp only [Fraction.dropDigits, Nat.pow_eq, hround, hkept, hfirst]
  split <;> omega

/-! ## Decimal fractions of numbers -/

/-- The decimal fraction of a number is exact, and has digits behind the point if the number is no integer. -/
theorem toFraction_exact (u : Int) : ∃ coefficient k : Nat, toFraction u = ⟨u < 0, coefficient, -(k : Int)⟩ ∧
    coefficient * one = u.natAbs * 10 ^ k ∧ (u.natAbs % one ≠ 0 → 0 < k) := by
  have hdvd : Nat.gcd u.natAbs one ∣ 2 ^ 1074 := one_eq ▸ Nat.gcd_dvd_right _ _
  obtain ⟨j, hj, hcommon⟩ := (Nat.dvd_prime_pow Nat.prime_two).1 hdvd
  obtain ⟨a, ha⟩ := Nat.gcd_dvd_left u.natAbs one
  have hone : one = 2 ^ j * 2 ^ (1074 - j) := by rw [one_eq, ← Nat.pow_add, Nat.add_sub_cancel' hj]
  have hpos : 0 < 2 ^ j := Nat.two_pow_pos j
  have hlog : (one / Nat.gcd u.natAbs one).log2 = 1074 - j := by
    rw [hcommon, hone, Nat.mul_div_cancel_left _ hpos, Nat.log2_two_pow]
  have hquotient : u.natAbs / Nat.gcd u.natAbs one = a := by
    nth_rewrite 1 [ha]
    rw [hcommon, Nat.mul_div_cancel_left _ hpos]
  rw [hcommon] at ha
  refine ⟨a * 5 ^ (1074 - j), 1074 - j, ?_, ?_, ?_⟩
  · simp only [toFraction, hlog, hquotient, Nat.pow_eq]
  · have hten : 10 ^ (1074 - j) = 5 ^ (1074 - j) * 2 ^ (1074 - j) := by rw [← Nat.mul_pow]
    rw [ha, hten, hone]
    ring
  · intro hfractional
    by_contra hzero
    have hall : 1074 - j = 0 := by omega
    rw [hone, hall, Nat.pow_zero, Nat.mul_one, ha, Nat.mul_mod_right] at hfractional
    exact hfractional rfl

/-- A number that is no integer has bits behind the point, so few in front of it. -/
theorem unitsOfRank_lt_of_fractional {rank : Nat} (h : unitsOfRank rank % one ≠ 0) :
    unitsOfRank rank < 2 ^ 52 * one := by
  have hstride : stride = 2 ^ 52 := rfl
  have hmod : rank % stride < stride := Nat.mod_lt _ stride_pos
  rw [unitsOfRank_eq] at h ⊢
  by_cases hfirst : rank < stride
  · rw [if_pos hfirst]
    calc rank < 2 ^ 52 := hfirst
      _ ≤ 2 ^ 52 * one := Nat.le_mul_of_pos_right _ one_pos
  · rw [if_neg hfirst] at h ⊢
    generalize rank / stride - 1 = k at *
    by_cases hwide : 1074 ≤ k
    · have hsplit : 2 ^ k = one * 2 ^ (k - 1074) := by rw [one_mul_two_pow, Nat.add_sub_cancel' hwide]
      rw [hsplit, ← Nat.mul_assoc, Nat.mul_comm _ one, Nat.mul_assoc, Nat.mul_mod_right] at h
      exact absurd rfl h
    · have hpow : 2 * 2 ^ k ≤ one := by
        have hle : k + 1 ≤ 1074 := by omega
        rw [one_eq, ← Nat.add_sub_cancel' hle, Nat.pow_add, Nat.pow_succ']
        exact Nat.le_mul_of_pos_right _ (Nat.two_pow_pos _)
      calc (stride + rank % stride) * 2 ^ k
          < 2 * stride * 2 ^ k := Nat.mul_lt_mul_of_pos_right (by omega) (Nat.two_pow_pos k)
        _ = 2 ^ 52 * (2 * 2 ^ k) := by rw [hstride]; ring
        _ ≤ 2 ^ 52 * one := Nat.mul_le_mul_left _ hpow

theorem digitCount_le {n k : Nat} (hk : 0 < k) (h : n < 10 ^ k) : Fraction.digitCount n ≤ k :=
  (Nat.length_toDigits_le_iff (by decide) hk).2 h

/-- Sixteen digits in front of the point are enough, and the precision leaves room for more. -/
theorem quantize?_toFraction {u : Int} (hfractional : u.natAbs % one ≠ 0) (hsmall : u.natAbs < 2 ^ 52 * one) :
    (toFraction u).quantize? 0 = some ⟨u < 0, divideHalfUp u.natAbs one, 0⟩ := by
  obtain ⟨coefficient, k, hfraction, hexact, hk⟩ := toFraction_exact u
  have hkpos : 0 < k := hk hfractional
  have hpow : 0 < 10 ^ k := Nat.pow_pos (by decide)
  have hpositive : coefficient ≠ 0 := by
    rintro rfl
    rw [Nat.zero_mul] at hexact
    have hzero : u.natAbs = 0 := (Nat.mul_eq_zero.1 hexact.symm).resolve_right (Nat.ne_of_gt hpow)
    rw [hzero, Nat.zero_mod] at hfractional
    exact hfractional rfl
  have hbound : coefficient < 10 ^ (16 + k) := by
    apply Nat.lt_of_mul_lt_mul_right (a := one)
    calc coefficient * one = u.natAbs * 10 ^ k := hexact
      _ < 2 ^ 52 * one * 10 ^ k := Nat.mul_lt_mul_of_pos_right hsmall hpow
      _ ≤ 10 ^ 16 * one * 10 ^ k :=
          Nat.mul_le_mul_right _ (Nat.mul_le_mul_right _ (by norm_num))
      _ = 10 ^ (16 + k) * one := by ring
  have hdigits : Fraction.digitCount coefficient ≤ 16 + k := digitCount_le (by omega) hbound
  have hround : Fraction.dropDigits coefficient k = divideHalfUp u.natAbs one := by
    rw [dropDigits_eq coefficient hkpos]
    exact divideHalfUp_congr hpow one_pos hexact
  have hresult : divideHalfUp u.natAbs one ≤ 2 ^ 52 := divideHalfUp_le one_pos (Nat.le_of_lt hsmall)
  have hroundDigits : Fraction.digitCount (divideHalfUp u.natAbs one) ≤ 16 :=
    digitCount_le (by decide) (Nat.lt_of_le_of_lt hresult (by norm_num))
  have hprecise : ¬ (Fraction.precision : Int) < -(k : Int) + (Fraction.digitCount coefficient - 1) - 0 + 1 := by
    unfold Fraction.precision
    omega
  have hprecise' : ¬ Fraction.precision < Fraction.digitCount (divideHalfUp u.natAbs one) := by
    unfold Fraction.precision
    omega
  have hbehind : ¬ (0 : Int) ≤ -(k : Int) := by omega
  have hdropped : (0 - -(k : Int)).toNat = k := by omega
  rw [hfraction, Fraction.quantize?, if_neg hpositive, Fraction.firstPower, if_neg hprecise, Fraction.rescale,
    if_neg hbehind, hdropped, hround]
  exact if_neg hprecise'

/-- An integer of more digits would not come through. -/
example : (toFraction (10 ^ 28 * one)).quantize? 0 = none := by decide +kernel

/-! ## The nearest integer -/

/-- The integer with a sign and a magnitude of units. -/
theorem truncateUnits_eq (u : Int) :
    truncateUnits u = if u < 0 then -((u.natAbs / one : Nat) : Int) else (u.natAbs / one : Nat) := by
  have hquotient (n : Nat) : (n : Int).tdiv one = ((n / one : Nat) : Int) := by
    rw [Int.tdiv_eq_ediv_of_nonneg (Int.natCast_nonneg n), Int.natCast_ediv]
  by_cases hnegative : u < 0
  · have hu : u = -(u.natAbs : Int) := by omega
    rw [if_pos hnegative, truncateUnits]
    nth_rewrite 1 [hu]
    rw [Int.neg_tdiv, hquotient]
  · have hu : u = (u.natAbs : Int) := by omega
    rw [if_neg hnegative, truncateUnits]
    nth_rewrite 1 [hu]
    exact hquotient u.natAbs

/-- Every finite number is rounded to the nearest integer, a half away from zero. -/
theorem roundHalfAway_signedUnits (negative : Bool) (rank : Nat) :
    let u := signedUnits negative rank
    Number.roundHalfAway u =
      .ok (if u < 0 then -(divideHalfUp u.natAbs one : Int) else divideHalfUp u.natAbs one) := by
  intro u
  have hunits : u.natAbs = unitsOfRank rank := by
    simp only [u, signedUnits]
    split <;> omega
  by_cases hintegral : u.natAbs % one = 0
  · have hdvd : one ∣ u.natAbs := Nat.dvd_of_mod_eq_zero hintegral
    rw [Number.roundHalfAway, isIntegral, decide_eq_true hintegral, if_pos rfl, truncateUnits_eq,
      divideHalfUp_of_dvd one_pos hdvd]
  · have hsmall : u.natAbs < 2 ^ 52 * one := by
      rw [hunits] at hintegral ⊢
      exact unitsOfRank_lt_of_fractional hintegral
    rw [Number.roundHalfAway, isIntegral, decide_eq_false hintegral, if_neg Bool.false_ne_true,
      quantize?_toFraction hintegral hsmall]
    simp [Fraction.integerPart]

end RuleExpr.Binary64
