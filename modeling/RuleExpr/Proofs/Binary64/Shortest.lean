import RuleExpr.Proofs.Binary64.Rank
import RuleExpr.Binary64.Decimal

/-!
# Shortest digits

The digits that are chosen for a number round to its rank (`shortestDigits_roundsTo`). The grid of the seventeenth
digit is finer than the steps next to the number, so its nearest point there does, and a choice is always made.
-/
namespace RuleExpr.Binary64

/-- The grid `10 ^ exponent` has its points at the multiples of `gridCell / gridScale` units. -/
def gridCell (exponent : Int) : Nat := one * 10 ^ exponent.toNat

def gridScale (exponent : Int) : Nat := 10 ^ (-exponent).toNat

theorem one_eq : one = 2 ^ 1074 := by decide +kernel

theorem one_pos : 0 < one := by decide +kernel

theorem one_mul_two_pow (k : Nat) : one * 2 ^ k = 2 ^ (1074 + k) := by
  rw [one_eq, Nat.pow_add]

theorem one_le_two_pow {k : Nat} (h : 1074 ≤ k) : one ≤ 2 ^ k := by
  rw [← Nat.add_sub_cancel' h, ← one_mul_two_pow]
  exact Nat.le_mul_of_pos_right _ (Nat.two_pow_pos _)

theorem gridCell_pos (e : Int) : 0 < gridCell e := Nat.mul_pos one_pos (Nat.pow_pos (by decide))

theorem gridScale_pos (e : Int) : 0 < gridScale e := Nat.pow_pos (by decide)

/-- Each grid is ten times as fine as the one before it. -/
theorem gridCell_refine (e : Int) (n : Nat) :
    gridCell e * gridScale (e - n) = gridCell (e - n) * 10 ^ n * gridScale e := by
  have hexp : e.toNat + (-(e - n)).toNat = (e - n).toNat + n + (-e).toNat := by omega
  simp only [gridCell, gridScale]
  calc one * 10 ^ e.toNat * 10 ^ (-(e - n)).toNat
      = one * 10 ^ (e.toNat + (-(e - n)).toNat) := by ring
    _ = one * 10 ^ ((e - n).toNat + n + (-e).toNat) := by rw [hexp]
    _ = one * 10 ^ (e - n).toNat * 10 ^ n * 10 ^ (-e).toNat := by ring

variable {rank : Nat}

/-- Whether a point of a grid reads back as the number of a rank. -/
def readsBack (rank : Nat) (e : Int) (n : Nat) : Bool :=
  if rank % 2 = 0 then
    (unitsOfRank (rank - 1) + unitsOfRank rank) * gridScale e ≤ 2 * n * gridCell e &&
      2 * n * gridCell e ≤ (unitsOfRank rank + unitsOfRank (rank + 1)) * gridScale e
  else (unitsOfRank (rank - 1) + unitsOfRank rank) * gridScale e < 2 * n * gridCell e &&
      2 * n * gridCell e < (unitsOfRank rank + unitsOfRank (rank + 1)) * gridScale e

theorem onGrid?_eq (rank : Nat) (e : Int) : onGrid? rank e =
    let nearest := divideToEven (unitsOfRank rank * gridScale e) (gridCell e)
    let below := unitsOfRank rank * gridScale e / gridCell e
    if readsBack rank e nearest then some nearest
    else if readsBack rank e below then some below
    else if readsBack rank e (below + 1) then some (below + 1)
    else none := rfl

theorem readsBack_iff {e : Int} {n : Nat} :
    readsBack rank e n = true ↔ RoundsTo (n * gridCell e) (gridScale e) rank := by
  have hassoc : 2 * n * gridCell e = 2 * (n * gridCell e) := Nat.mul_assoc _ _ _
  simp only [readsBack, hassoc]
  by_cases heven : rank % 2 = 0
  · rw [if_pos heven, Bool.and_eq_true, decide_eq_true_eq, decide_eq_true_eq]
    constructor
    · intro h
      exact ⟨h.1, h.2, fun hodd => by omega⟩
    · intro h
      exact ⟨h.lower, h.upper⟩
  · rw [if_neg heven, Bool.and_eq_true, decide_eq_true_eq, decide_eq_true_eq]
    constructor
    · intro h
      exact ⟨Nat.le_of_lt h.1, Nat.le_of_lt h.2, fun _ => h⟩
    · intro h
      exact h.strict (by omega)

theorem onGrid?_roundsTo {e : Int} {n : Nat} (h : onGrid? rank e = some n) :
    RoundsTo (n * gridCell e) (gridScale e) rank := by
  rw [onGrid?_eq] at h
  dsimp only at h
  rw [← readsBack_iff]
  split at h
  · next hnearest =>
      obtain rfl := Option.some.inj h
      exact hnearest
  · split at h
    · next hbelow =>
        obtain rfl := Option.some.inj h
        exact hbelow
    · split at h
      · next habove =>
          obtain rfl := Option.some.inj h
          exact habove
      · cases h

/-! ## Seventeen digits -/

/-- A number has at most as many steps of the width below it as there are significands. -/
theorem unitsOfRank_le_gap (rank : Nat) : unitsOfRank (rank + 1) ≤ 2 ^ 53 * 2 ^ (rank / stride - 1) := by
  have hlast : rank + 1 ≤ rank / stride * stride + stride := by
    have hdecompose : stride * (rank / stride) + rank % stride = rank := Nat.div_add_mod rank stride
    have hmod : rank % stride < stride := Nat.mod_lt _ stride_pos
    rw [Nat.mul_comm]
    omega
  have hunits : unitsOfRank (rank / stride * stride + stride) = stride * 2 ^ (rank / stride) :=
    unitsOfRank_scaled (by omega) (.inr (Nat.le_refl _))
  calc unitsOfRank (rank + 1) ≤ unitsOfRank (rank / stride * stride + stride) :=
        unitsOfRank_strictMono.monotone hlast
    _ = 2 ^ 52 * 2 ^ (rank / stride) := hunits
    _ ≤ 2 ^ 52 * 2 ^ (rank / stride - 1 + 1) :=
        Nat.mul_le_mul_left _ (Nat.pow_le_pow_right (by decide) (by omega))
    _ = 2 ^ 53 * 2 ^ (rank / stride - 1) := by ring

/-- On a grid with seventeen digits the nearest point reads back. -/
theorem onGrid?_of_fine {e : Int} (hfine : 10 ^ 16 * gridCell e ≤ unitsOfRank (rank + 1) * gridScale e) :
    ∃ n, onGrid? (rank + 1) e = some n := by
  have hcell : 0 < gridCell e := gridCell_pos e
  have hscale : 0 < gridScale e := gridScale_pos e
  obtain ⟨hlow, hhigh, -⟩ := divideToEven_spec (unitsOfRank (rank + 1) * gridScale e) hcell
  have hratio := Nat.mul_le_mul_right (gridScale e) (unitsOfRank_le_gap rank)
  have hwidth : 0 < 2 ^ (rank / stride - 1) * gridScale e := Nat.mul_pos (Nat.two_pow_pos _) hscale
  have hstep : gridCell e < 2 ^ (rank / stride - 1) * gridScale e := by
    rw [Nat.mul_assoc] at hratio
    omega
  have hbelow : unitsOfRank (rank + 1) = unitsOfRank rank + 2 ^ (rank / stride - 1) := unitsOfRank_succ rank
  have habove : unitsOfRank (rank + 1) + 2 ^ (rank / stride - 1) ≤ unitsOfRank (rank + 1 + 1) := by
    have hstride : rank / stride ≤ (rank + 1) / stride := Nat.div_le_div_right (Nat.le_add_right rank 1)
    rw [unitsOfRank_succ (rank + 1)]
    apply Nat.add_le_add_left
    exact Nat.pow_le_pow_right (by decide) (Nat.sub_le_sub_right hstride 1)
  have hscaledBelow := congrArg (· * gridScale e) hbelow
  have hscaledAbove := Nat.mul_le_mul_right (gridScale e) habove
  simp only [Nat.add_mul] at hscaledBelow hscaledAbove
  rw [Nat.mul_assoc 2 (divideToEven _ _)] at hlow hhigh
  have hcloseBelow : (unitsOfRank rank + unitsOfRank (rank + 1)) * gridScale e <
      2 * (divideToEven (unitsOfRank (rank + 1) * gridScale e) (gridCell e) * gridCell e) := by
    rw [Nat.add_mul]
    omega
  have hcloseAbove : 2 * (divideToEven (unitsOfRank (rank + 1) * gridScale e) (gridCell e) * gridCell e) <
      (unitsOfRank (rank + 1) + unitsOfRank (rank + 1 + 1)) * gridScale e := by
    rw [Nat.add_mul]
    omega
  have hnearest : readsBack (rank + 1) e
      (divideToEven (unitsOfRank (rank + 1) * gridScale e) (gridCell e)) = true := by
    rw [readsBack_iff]
    exact ⟨Nat.le_of_lt hcloseBelow, Nat.le_of_lt hcloseAbove, fun _ => ⟨hcloseBelow, hcloseAbove⟩⟩
  rw [onGrid?_eq]
  dsimp only
  rw [if_pos hnearest]
  exact ⟨_, rfl⟩

/-! ## The first digit -/

theorem ten_pow_le_two_pow {a k : Nat} (h : 103 * a ≤ 31 * k) : 10 ^ a ≤ 2 ^ k := by
  apply (Nat.pow_le_pow_iff_left (show 31 ≠ 0 by decide)).1
  calc (10 ^ a) ^ 31 = (10 ^ 31) ^ a := by rw [← Nat.pow_mul, ← Nat.pow_mul, Nat.mul_comm]
    _ ≤ (2 ^ 103) ^ a := Nat.pow_le_pow_left (by decide) a
    _ = 2 ^ (103 * a) := by rw [← Nat.pow_mul]
    _ ≤ 2 ^ (31 * k) := Nat.pow_le_pow_right (by decide) h
    _ = (2 ^ k) ^ 31 := by rw [← Nat.pow_mul, Nat.mul_comm]

theorem two_pow_le_ten_pow {k a : Nat} (h : 28 * k ≤ 93 * a) : 2 ^ k ≤ 10 ^ a := by
  apply (Nat.pow_le_pow_iff_left (show 28 ≠ 0 by decide)).1
  calc (2 ^ k) ^ 28 = 2 ^ (28 * k) := by rw [← Nat.pow_mul, Nat.mul_comm]
    _ ≤ 2 ^ (93 * a) := Nat.pow_le_pow_right (by decide) h
    _ = (2 ^ 93) ^ a := by rw [← Nat.pow_mul]
    _ ≤ (10 ^ 28) ^ a := Nat.pow_le_pow_left (by decide) a
    _ = (10 ^ a) ^ 28 := by rw [← Nat.pow_mul, ← Nat.pow_mul, Nat.mul_comm]

/-- Whether a power of ten is at or below a number of units. -/
def reaches (units : Nat) (e : Int) : Bool :=
  if 0 ≤ e then Nat.pow 10 e.toNat * one ≤ units else one ≤ units * Nat.pow 10 (-e).toNat

theorem decimalExponent_eq (units : Nat) : decimalExponent units =
    let estimate := (((units.log2 : Int) - 1074) * 30103).fdiv 100000
    if reaches units (estimate + 1) then estimate + 1
    else if reaches units estimate then estimate
    else estimate - 1 := rfl

theorem reaches_iff {units : Nat} {e : Int} :
    reaches units e = true ↔ gridCell e ≤ units * gridScale e := by
  unfold reaches gridCell gridScale
  split
  · next h =>
      have hscale : (-e).toNat = 0 := by omega
      rw [hscale, Nat.pow_zero, Nat.mul_one, decide_eq_true_eq, Nat.pow_eq, Nat.mul_comm]
  · next h =>
      have hcell : e.toNat = 0 := by omega
      rw [hcell, Nat.pow_zero, Nat.mul_one, decide_eq_true_eq, Nat.pow_eq]

/-- The power of ten that is taken for a number is at or below it, in the whole range of the format. -/
theorem gridCell_decimalExponent_le {units : Nat} (hpos : 0 < units) (hmost : units.log2 < 2100) :
    gridCell (decimalExponent units) ≤ units * gridScale (decimalExponent units) := by
  rw [← reaches_iff, decimalExponent_eq, Int.fdiv_eq_ediv_of_nonneg _ (by decide)]
  generalize hestimate : ((units.log2 : Int) - 1074) * 30103 / 100000 = estimate
  dsimp only
  split
  · assumption
  · split
    · assumption
    · have hleast : 2 ^ units.log2 ≤ units := Nat.log2_self_le (by omega)
      rw [reaches_iff, gridCell, gridScale]
      by_cases hsign : 0 ≤ estimate - 1
      · have hscale : (-(estimate - 1)).toNat = 0 := by omega
        rw [hscale, Nat.pow_zero, Nat.mul_one]
        calc one * 10 ^ (estimate - 1).toNat
            ≤ one * 2 ^ (units.log2 - 1074) := Nat.mul_le_mul_left _ (ten_pow_le_two_pow (by omega))
          _ = 2 ^ (1074 + (units.log2 - 1074)) := one_mul_two_pow _
          _ = 2 ^ units.log2 := by rw [Nat.add_sub_cancel' (by omega)]
          _ ≤ units := hleast
      · have hcell : (estimate - 1).toNat = 0 := by omega
        rw [hcell, Nat.pow_zero, Nat.mul_one]
        calc one ≤ 2 ^ (units.log2 + (1074 - units.log2)) := one_le_two_pow (by omega)
          _ = 2 ^ units.log2 * 2 ^ (1074 - units.log2) := Nat.pow_add _ _ _
          _ ≤ units * 10 ^ (-(estimate - 1)).toNat :=
              Nat.mul_le_mul hleast (two_pow_le_ten_pow (by omega))

/-! ## The choice -/

theorem unitsOfRank_pos (hpos : 0 < rank) : 0 < unitsOfRank rank := unitsOfRank_strictMono hpos

theorem log2_unitsOfRank_lt (hrank : rank < rankCount) (hpos : 0 < rank) :
    (unitsOfRank rank).log2 < 2100 := by
  have hunits := unitsOfRank_pos hpos
  rw [Nat.log2_lt (by omega)]
  calc unitsOfRank rank ≤ unitsOfRank rankCount := unitsOfRank_strictMono.monotone (Nat.le_of_lt hrank)
    _ < 2 ^ 2100 := by decide +kernel

/-- The digits that are chosen for a number read back as the number. -/
theorem shortestDigits_roundsTo (hrank : rank < rankCount) (hpos : 0 < rank) :
    RoundsTo ((shortestDigits rank).coefficient * gridCell (shortestDigits rank).exponent)
      (gridScale (shortestDigits rank).exponent) rank := by
  have hunits := unitsOfRank_pos hpos
  have hfirst := gridCell_decimalExponent_le hunits (log2_unitsOfRank_lt hrank hpos)
  unfold shortestDigits
  generalize decimalExponent (unitsOfRank rank) = top at *
  have hfine : 10 ^ 16 * gridCell (top - 16) ≤ unitsOfRank rank * gridScale (top - 16) := by
    apply Nat.le_of_mul_le_mul_right _ (gridScale_pos top)
    have hrefine := gridCell_refine top 16
    have hscaled := Nat.mul_le_mul_right (gridScale (top - 16)) hfirst
    rw [show top - ((16 : Nat) : Int) = top - 16 from rfl] at hrefine
    linarith
  obtain ⟨r, rfl⟩ : ∃ r, rank = r + 1 := ⟨rank - 1, by omega⟩
  obtain ⟨n, hn⟩ := onGrid?_of_fine hfine
  dsimp only
  split
  · next digits hfound =>
      obtain ⟨e, -, he⟩ := List.exists_of_findSome?_eq_some hfound
      obtain ⟨coefficient, hgrid, rfl⟩ := Option.map_eq_some_iff.1 he
      exact onGrid?_roundsTo hgrid
  · next hnone =>
      rw [List.findSome?_eq_none_iff] at hnone
      have hmember : top - 16 ∈ (List.range 17).map fun n : Nat => top - (n : Int) :=
        List.mem_map.2 ⟨16, by decide, rfl⟩
      have := hnone _ hmember
      rw [hn] at this
      cases this

theorem shortestDigits_coefficient_pos (hrank : rank < rankCount) (hpos : 0 < rank) :
    0 < (shortestDigits rank).coefficient := by
  have hlower := (shortestDigits_roundsTo hrank hpos).lower
  have hunits := unitsOfRank_pos hpos
  by_contra hzero
  have hlarge : 0 < (unitsOfRank (rank - 1) + unitsOfRank rank) * gridScale (shortestDigits rank).exponent :=
    Nat.mul_pos (by omega) (gridScale_pos _)
  rw [show (shortestDigits rank).coefficient = 0 by omega, Nat.zero_mul] at hlower
  omega

end RuleExpr.Binary64
