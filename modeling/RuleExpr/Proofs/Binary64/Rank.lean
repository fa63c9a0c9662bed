import Mathlib
import RuleExpr.Binary64.Basic

/-!
# Rounding to the nearest rank

A magnitude rounds to a rank if it lies between the midpoints around it; a midpoint itself belongs to the even rank.
Exactly one rank is such (`RoundsTo.unique`), and `nearestRank` finds it (`nearestRank_roundsTo`). Magnitudes are
given as quotients of natural numbers, in units, and are compared by cross-multiplication.
-/
namespace RuleExpr.Binary64

theorem stride_pos : 0 < stride := by decide

theorem unitsOfRank_eq (rank : Nat) : unitsOfRank rank =
    if rank < stride then rank else (stride + rank % stride) * 2 ^ (rank / stride - 1) := rfl

/-- The step from a rank to the next one doubles from stride to stride, the first two apart. -/
theorem unitsOfRank_succ (rank : Nat) :
    unitsOfRank (rank + 1) = unitsOfRank rank + 2 ^ (rank / stride - 1) := by
  have hpos : 0 < stride := stride_pos
  rw [unitsOfRank_eq, unitsOfRank_eq]
  generalize stride = m at *
  have hdecompose : m * (rank / m) + rank % m = rank := Nat.div_add_mod rank m
  have hmod : rank % m < m := Nat.mod_lt _ hpos
  by_cases hfirst : rank < m
  · have hquotient : rank / m = 0 := Nat.div_eq_of_lt hfirst
    rw [if_pos hfirst, hquotient]
    by_cases hlast : rank + 1 < m
    · rw [if_pos hlast]
      omega
    · have heq : rank + 1 = m := by omega
      rw [if_neg hlast, heq, Nat.mod_self, Nat.div_self hpos]
      omega
  · have hquotient : 0 < rank / m := Nat.div_pos (by omega) hpos
    rw [if_neg hfirst, if_neg (by omega)]
    by_cases hlast : rank % m + 1 < m
    · have hsplit : rank + 1 = (rank % m + 1) + m * (rank / m) := by omega
      have hnextMod : (rank + 1) % m = rank % m + 1 := by
        rw [hsplit, Nat.add_mul_mod_self_left, Nat.mod_eq_of_lt hlast]
      have hnextDiv : (rank + 1) / m = rank / m := by
        rw [hsplit, Nat.add_mul_div_left _ _ hpos, Nat.div_eq_of_lt hlast, Nat.zero_add]
      rw [hnextMod, hnextDiv]
      ring
    · have hsplit : rank + 1 = m * (rank / m + 1) := by
        rw [Nat.mul_add, Nat.mul_one]
        omega
      have hnextMod : (rank + 1) % m = 0 := by rw [hsplit, Nat.mul_mod_right]
      have hnextDiv : (rank + 1) / m = rank / m + 1 := by rw [hsplit, Nat.mul_div_cancel_left _ hpos]
      have hpow : 2 ^ (rank / m) = 2 * 2 ^ (rank / m - 1) := by
        rw [← Nat.pow_succ', Nat.succ_eq_add_one, Nat.sub_add_cancel hquotient]
      have hfull : m + rank % m + 1 = 2 * m := by omega
      rw [hnextMod, hnextDiv, Nat.add_sub_cancel, hpow]
      calc (m + 0) * (2 * 2 ^ (rank / m - 1))
          = 2 * m * 2 ^ (rank / m - 1) := by ring
        _ = (m + rank % m + 1) * 2 ^ (rank / m - 1) := by rw [hfull]
        _ = (m + rank % m) * 2 ^ (rank / m - 1) + 2 ^ (rank / m - 1) := by ring

theorem unitsOfRank_strictMono : StrictMono unitsOfRank := by
  apply strictMono_nat_of_lt_succ
  intro rank
  rw [unitsOfRank_succ]
  exact Nat.lt_add_of_pos_right (Nat.two_pow_pos _)

/-- A significand on the scale of its rank; the largest one is already that of the next stride. -/
theorem unitsOfRank_scaled {dropped significand : Nat} (hmost : significand ≤ 2 * stride)
    (hleast : dropped = 0 ∨ stride ≤ significand) :
    unitsOfRank (dropped * stride + significand) = significand * 2 ^ dropped := by
  have hpos : 0 < stride := stride_pos
  rw [unitsOfRank_eq]
  generalize stride = m at *
  have within {s : Nat} (k : Nat) (hs : s < m) :
      (s + m * k) % m = s ∧ (s + m * k) / m = k := by
    rw [Nat.add_mul_mod_self_left, Nat.mod_eq_of_lt hs, Nat.add_mul_div_left _ _ hpos,
      Nat.div_eq_of_lt hs, Nat.zero_add]
    exact ⟨rfl, rfl⟩
  by_cases hsmall : significand < m
  · have hzero : dropped = 0 := by omega
    rw [hzero, Nat.zero_mul, Nat.zero_add, if_pos hsmall, Nat.pow_zero, Nat.mul_one]
  · have hbig : ¬ dropped * m + significand < m := by omega
    rw [if_neg hbig]
    by_cases hlast : significand = 2 * m
    · have hrank : dropped * m + significand = 0 + m * (dropped + 2) := by
        rw [hlast]
        ring
      obtain ⟨hmod, hdiv⟩ := within (dropped + 2) hpos
      rw [hrank, hmod, hdiv, hlast, show dropped + 2 - 1 = dropped + 1 from rfl, Nat.pow_succ]
      ring
    · have hrank : dropped * m + significand = (significand - m) + m * (dropped + 1) := by
        rw [Nat.mul_add, Nat.mul_comm dropped]
        omega
      obtain ⟨hmod, hdiv⟩ := within (s := significand - m) (dropped + 1) (by omega)
      rw [hrank, hmod, hdiv, Nat.add_sub_cancel, Nat.add_sub_cancel' (by omega)]

/-! ## Rounding -/

/-- Whether `num / den` units lie between the midpoints around a rank. -/
structure RoundsTo (num den rank : Nat) : Prop where
  lower : (unitsOfRank (rank - 1) + unitsOfRank rank) * den ≤ 2 * num
  upper : 2 * num ≤ (unitsOfRank rank + unitsOfRank (rank + 1)) * den
  strict : rank % 2 = 1 → (unitsOfRank (rank - 1) + unitsOfRank rank) * den < 2 * num ∧
    2 * num < (unitsOfRank rank + unitsOfRank (rank + 1)) * den

variable {num den num' den' rank : Nat}

/-- A smaller magnitude rounds to no greater rank. -/
theorem RoundsTo.mono {rank' : Nat} (hden : 0 < den) (hden' : 0 < den') (h : RoundsTo num den rank)
    (h' : RoundsTo num' den' rank') (hle : num * den' ≤ num' * den) : rank ≤ rank' := by
  by_contra hlt
  have hbetween : unitsOfRank rank' + unitsOfRank (rank' + 1) ≤ unitsOfRank (rank - 1) + unitsOfRank rank :=
    Nat.add_le_add (unitsOfRank_strictMono.monotone (by omega)) (unitsOfRank_strictMono.monotone (by omega))
  have hleft : (unitsOfRank (rank - 1) + unitsOfRank rank) * den * den' ≤ 2 * num * den' :=
    Nat.mul_le_mul_right _ h.lower
  have hright : 2 * num' * den ≤ (unitsOfRank rank' + unitsOfRank (rank' + 1)) * den' * den :=
    Nat.mul_le_mul_right _ h'.upper
  have hgrow : (unitsOfRank rank' + unitsOfRank (rank' + 1)) * (den * den') ≤
      (unitsOfRank (rank - 1) + unitsOfRank rank) * (den * den') := Nat.mul_le_mul_right _ hbetween
  by_cases hnext : rank = rank' + 1
  · -- Neighbours meet in their midpoint, which the odd one of them leaves to the other.
    subst hnext
    rcases Nat.mod_two_eq_zero_or_one rank' with heven | hodd
    · have := Nat.mul_lt_mul_of_pos_right (h.strict (by omega)).1 hden'
      nlinarith
    · have := Nat.mul_lt_mul_of_pos_right (h'.strict hodd).2 hden
      nlinarith
  · have hapart : unitsOfRank rank' + unitsOfRank (rank' + 1) < unitsOfRank (rank - 1) + unitsOfRank rank :=
      Nat.add_lt_add_of_lt_of_le (unitsOfRank_strictMono (by omega))
        (unitsOfRank_strictMono.monotone (by omega))
    have := Nat.mul_lt_mul_of_pos_right hapart (Nat.mul_pos hden hden')
    nlinarith

theorem RoundsTo.unique {rank' : Nat} (hden : 0 < den) (h : RoundsTo num den rank)
    (h' : RoundsTo num den rank') : rank = rank' :=
  Nat.le_antisymm (h.mono hden hden h' (Nat.le_refl _)) (h'.mono hden hden h (Nat.le_refl _))

/-- A magnitude may be given by any of its quotients. -/
theorem RoundsTo.of_eq (hden : 0 < den) (hden' : 0 < den') (h : RoundsTo num den rank)
    (heq : num * den' = num' * den) : RoundsTo num' den' rank := by
  constructor
  · have hlower := Nat.mul_le_mul_right den' h.lower
    apply Nat.le_of_mul_le_mul_right _ hden
    linarith
  · have hupper := Nat.mul_le_mul_right den' h.upper
    apply Nat.le_of_mul_le_mul_right _ hden
    linarith
  · intro hodd
    have hlower := Nat.mul_lt_mul_of_pos_right (h.strict hodd).1 hden'
    have hupper := Nat.mul_lt_mul_of_pos_right (h.strict hodd).2 hden'
    constructor
    · apply Nat.lt_of_mul_lt_mul_right (a := den)
      linarith
    · apply Nat.lt_of_mul_lt_mul_right (a := den)
      linarith

/-- The rounded quotient is within a half of the exact one, and odd only if it is nearer than that. -/
theorem divideToEven_spec (num : Nat) (hden : 0 < den) :
    2 * divideToEven num den * den ≤ 2 * num + den ∧ 2 * num ≤ 2 * divideToEven num den * den + den ∧
      (divideToEven num den % 2 = 1 → 2 * divideToEven num den * den < 2 * num + den ∧
        2 * num < 2 * divideToEven num den * den + den) := by
  have hdecompose : den * (num / den) + num % den = num := Nat.div_add_mod num den
  have hmod : num % den < den := Nat.mod_lt _ hden
  have hup : 2 * (num / den + 1) * den = 2 * (den * (num / den)) + 2 * den := by ring
  have hdown : 2 * (num / den) * den = 2 * (den * (num / den)) := by ring
  simp only [divideToEven]
  split
  · rw [hup]
    omega
  · rw [hdown]
    omega

/-- On the scale of its rank the quotient has the bits of a significand, fewer only in the first stride. -/
theorem nearestRank_scale (num : Nat) (hden : 0 < den) :
    num < 2 * stride * (den * 2 ^ ((num / den).log2 - 52)) ∧
      ((num / den).log2 - 52 = 0 ∨ stride * (den * 2 ^ ((num / den).log2 - 52)) ≤ num) := by
  have hstride : stride = 2 ^ 52 := rfl
  have hfloor : num / den * den ≤ num := Nat.div_mul_le_self num den
  have hceil : num < (num / den + 1) * den := by
    rw [← Nat.div_lt_iff_lt_mul hden]
    exact Nat.lt_succ_self _
  have hlog : num / den < 2 ^ ((num / den).log2 + 1) := Nat.lt_log2_self
  rw [hstride]
  generalize hd : (num / den).log2 - 52 = d
  constructor
  · have hbits : 2 ^ ((num / den).log2 + 1) ≤ 2 ^ (53 + d) := Nat.pow_le_pow_right (by decide) (by omega)
    calc num < (num / den + 1) * den := hceil
      _ ≤ 2 ^ (53 + d) * den := Nat.mul_le_mul_right _ (by omega)
      _ = 2 * 2 ^ 52 * (den * 2 ^ d) := by ring
  · by_cases hzero : d = 0
    · exact .inl hzero
    · right
      have hlarge : (num / den).log2 = 52 + d := by omega
      have hne : num / den ≠ 0 := by
        intro h
        rw [h, Nat.log2_zero] at hlarge
        omega
      have hleast : 2 ^ (52 + d) ≤ num / den := by
        rw [← hlarge]
        exact Nat.log2_self_le hne
      calc 2 ^ 52 * (den * 2 ^ d) = 2 ^ (52 + d) * den := by ring
        _ ≤ num / den * den := Nat.mul_le_mul_right _ hleast
        _ ≤ num := hfloor

theorem unitsOfRank_gap {d : Nat} (h : d = 0 ∨ (d + 1) * stride ≤ rank) :
    unitsOfRank rank + 2 ^ d ≤ unitsOfRank (rank + 1) := by
  rw [unitsOfRank_succ]
  apply Nat.add_le_add_left
  apply Nat.pow_le_pow_right (by decide)
  rcases h with rfl | h
  · exact Nat.zero_le _
  · have := (Nat.le_div_iff_mul_le stride_pos).2 h
    omega

/-- A significand on the scale of a stride: full unless the scale is that of the least numbers. -/
structure IsScaled (d t : Nat) : Prop where
  most : t ≤ 2 * stride
  least : d = 0 ∨ stride ≤ t

theorem IsScaled.units {d t : Nat} (h : IsScaled d t) : unitsOfRank (d * stride + t) = t * 2 ^ d :=
  unitsOfRank_scaled h.most h.least

theorem IsScaled.above {d t : Nat} (h : IsScaled d t) :
    t * 2 ^ d + 2 ^ d ≤ unitsOfRank (d * stride + t + 1) := by
  rw [← h.units]
  apply unitsOfRank_gap
  rcases h.least with hzero | hleast
  · exact .inl hzero
  · right
    rw [Nat.add_mul]
    omega

/-- Below the least significand of a scale the step is half as wide. -/
theorem IsScaled.below {d t : Nat} (h : IsScaled d t) (hpos : 0 < t) (hmore : d = 0 ∨ stride < t) :
    unitsOfRank (d * stride + t - 1) + 2 ^ d ≤ t * 2 ^ d := by
  have hstep : d * stride + t = d * stride + t - 1 + 1 := by omega
  rw [← h.units]
  nth_rewrite 2 [hstep]
  apply unitsOfRank_gap
  rcases hmore with hzero | hmore
  · exact .inl hzero
  · right
    rw [Nat.add_mul]
    omega

theorem scaled_mod_two (d t : Nat) : (d * stride + t) % 2 = t % 2 := by
  have heven : d * stride = 2 * (d * 2 ^ 51) := by
    rw [show stride = 2 * 2 ^ 51 from rfl]
    ring
  rw [heven, Nat.mul_add_mod]

/-- A quotient that is rounded to a significand lies on the scale of that significand. -/
theorem isScaled_divideToEven {num d : Nat} (hden : 0 < den) (hmost : num < 2 * stride * (den * 2 ^ d))
    (hleast : d = 0 ∨ stride * (den * 2 ^ d) ≤ num) : IsScaled d (divideToEven num (den * 2 ^ d)) := by
  have hscale : 0 < den * 2 ^ d := Nat.mul_pos hden (Nat.two_pow_pos d)
  obtain ⟨hlow, hhigh, -⟩ := divideToEven_spec num hscale
  constructor
  · by_contra hbig
    have := Nat.mul_le_mul_right (den * 2 ^ d) (Nat.lt_of_not_le hbig)
    linarith
  · rcases hleast with hzero | hleast
    · exact .inl hzero
    · right
      by_contra hsmall
      have := Nat.mul_le_mul_right (den * 2 ^ d) (Nat.lt_of_not_le hsmall)
      linarith

/-- A magnitude rounds to its nearest rank. -/
theorem nearestRank_roundsTo (num : Nat) (hden : 0 < den) : RoundsTo num den (nearestRank num den) := by
  obtain ⟨hmost, hleast⟩ := nearestRank_scale num hden
  have hrank : nearestRank num den = ((num / den).log2 - 52) * stride +
      divideToEven num (den * 2 ^ ((num / den).log2 - 52)) := rfl
  rw [hrank]
  generalize (num / den).log2 - 52 = d at *
  have hscaled := isScaled_divideToEven hden hmost hleast
  obtain ⟨hlow, hhigh, hodd⟩ := divideToEven_spec num (Nat.mul_pos hden (Nat.two_pow_pos d))
  generalize divideToEven num (den * 2 ^ d) = t at *
  have hprevious : unitsOfRank (d * stride + t - 1) ≤ t * 2 ^ d := by
    rw [← hscaled.units]
    exact unitsOfRank_strictMono.monotone (Nat.sub_le _ 1)
  -- The least significand is even, and no magnitude is rounded up to it.
  have hbelow : unitsOfRank (d * stride + t - 1) + 2 ^ d ≤ t * 2 ^ d ∨
      t * (den * 2 ^ d) ≤ num ∧ t % 2 = 0 := by
    by_cases hzero : t = 0
    · right
      rw [hzero, Nat.zero_mul]
      exact ⟨Nat.zero_le _, rfl⟩
    · by_cases hedge : t = stride ∧ stride * (den * 2 ^ d) ≤ num
      · right
        rw [hedge.1]
        exact ⟨hedge.2, by decide⟩
      · left
        apply hscaled.below (Nat.pos_of_ne_zero hzero)
        have := hscaled.least
        omega
  have hwidth := Nat.mul_le_mul_right den hscaled.above
  have hstart := Nat.mul_le_mul_right den hprevious
  constructor
  · rw [hscaled.units]
    rcases hbelow with hbelow | ⟨hexact, -⟩
    · have := Nat.mul_le_mul_right den hbelow
      linarith
    · linarith
  · rw [hscaled.units]
    linarith
  · intro h
    rw [scaled_mod_two] at h
    obtain ⟨hlow, hhigh⟩ := hodd h
    rw [hscaled.units]
    constructor
    · rcases hbelow with hbelow | ⟨-, heven⟩
      · have := Nat.mul_le_mul_right den hbelow
        linarith
      · omega
    · linarith

theorem nearestRank_eq (hden : 0 < den) (h : RoundsTo num den rank) : nearestRank num den = rank :=
  (nearestRank_roundsTo num hden).unique hden h

/-- A number that needs no rounding. -/
theorem roundsTo_unitsOfRank (rank : Nat) : RoundsTo (unitsOfRank rank) 1 rank := by
  have hbelow : unitsOfRank (rank - 1) ≤ unitsOfRank rank := unitsOfRank_strictMono.monotone (Nat.sub_le _ 1)
  have habove : unitsOfRank rank < unitsOfRank (rank + 1) := unitsOfRank_strictMono (Nat.lt_succ_self _)
  constructor
  · omega
  · omega
  · intro hodd
    have hstrict : unitsOfRank (rank - 1) < unitsOfRank rank := unitsOfRank_strictMono (by omega)
    constructor
    · omega
    · omega

theorem RoundsTo.units_le {rank' : Nat} (hden : 0 < den) (h : RoundsTo num den rank)
    (hle : num ≤ unitsOfRank rank' * den) : unitsOfRank rank ≤ unitsOfRank rank' := by
  apply unitsOfRank_strictMono.monotone
  apply h.mono hden Nat.one_pos (roundsTo_unitsOfRank rank')
  rwa [Nat.mul_one]

theorem RoundsTo.le_units {rank' : Nat} (hden : 0 < den) (h : RoundsTo num den rank)
    (hle : unitsOfRank rank' * den ≤ num) : unitsOfRank rank' ≤ unitsOfRank rank := by
  apply unitsOfRank_strictMono.monotone
  apply (roundsTo_unitsOfRank rank').mono Nat.one_pos hden h
  rwa [Nat.mul_one]

end RuleExpr.Binary64
