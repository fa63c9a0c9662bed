import RuleExpr.Proofs.Binary64.Shortest
import RuleExpr.Proofs.Numeral.Reading

/-!
# Texts of binary64 numbers

A number from 1e-04 up to, not including, 1e+16 is written as digits with a point among them and is read back from
them (`ofText?_toText`). The first power of ten is that of the chosen digits, which may lie across a bound from the
number itself; the two bounds are written by a single digit, so that never happens (`IsBound.le_firstPower_iff`).
-/
namespace RuleExpr.Binary64
open Numeral

/-! ## Reading decimal fractions -/

theorem ofUnits_of_roundsTo {negative : Bool} {num den rank : Nat} (hden : 0 < den)
    (h : RoundsTo num den rank) (hrank : rank < rankCount) :
    ofUnits negative num den = .finite negative ⟨rank, hrank⟩ := by
  have hnearest := nearestRank_eq hden h
  unfold ofUnits
  dsimp only
  simp only [hnearest]
  rw [dif_pos hrank]

/-- A fraction below half of the least number rounds to zero. -/
theorem roundsTo_zero {coefficient k : Nat} (h : coefficient = 0 ∨ coefficient.log2 / 3 + 401 ≤ k) :
    RoundsTo (coefficient * one) (10 ^ k) 0 := by
  have hunit : unitsOfRank (0 + 1) = 1 := rfl
  have hzero : unitsOfRank (0 - 1) = 0 := rfl
  constructor
  · rw [hzero, Nat.add_zero, Nat.zero_mul]
    exact Nat.zero_le _
  · rw [hunit, unitsOfRank_zero, Nat.zero_add, Nat.one_mul]
    rcases h with rfl | h
    · rw [Nat.zero_mul, Nat.mul_zero]
      exact Nat.zero_le _
    · have hlog : coefficient < 2 ^ (coefficient.log2 + 1) := Nat.lt_log2_self
      have hunits : 2 * one ≤ 10 ^ 400 := by decide +kernel
      calc 2 * (coefficient * one) = coefficient * (2 * one) := by ring
        _ ≤ 10 ^ (coefficient.log2 / 3 + 1) * 10 ^ 400 := by
            apply Nat.mul_le_mul _ hunits
            calc coefficient ≤ 2 ^ (coefficient.log2 + 1) := Nat.le_of_lt hlog
              _ ≤ 2 ^ (3 * (coefficient.log2 / 3 + 1)) := Nat.pow_le_pow_right (by decide) (by omega)
              _ = 8 ^ (coefficient.log2 / 3 + 1) := by rw [Nat.pow_mul]
              _ ≤ 10 ^ (coefficient.log2 / 3 + 1) := Nat.pow_le_pow_left (by decide) _
        _ = 10 ^ (coefficient.log2 / 3 + 1 + 400) := by rw [← Nat.pow_add]
        _ ≤ 10 ^ k := Nat.pow_le_pow_right (by decide) (by omega)
  · intro hodd
    omega

/-- A decimal fraction is rounded once, also where the power of ten is spared. -/
theorem ofFraction_eq {f : Fraction} (h : f.exponent ≤ 0) :
    ofFraction f = ofUnits f.negative (f.coefficient * one) (10 ^ (-f.exponent).toNat) := by
  have hpos : 0 < 10 ^ (-f.exponent).toNat := Nat.pow_pos (by decide)
  unfold ofFraction
  split
  · next hsmall =>
      have hzero : RoundsTo (f.coefficient * one) (10 ^ (-f.exponent).toNat) 0 := by
        apply roundsTo_zero
        omega
      rw [ofUnits_of_roundsTo hpos hzero (by decide)]
      rfl
  · split
    · omega
    · split
      · have hexponent : f.exponent = 0 := by omega
        rw [hexponent]
        simp
      · rfl

/-! ## The first power of ten -/

/-- The power of ten of the first digit. -/
def firstPower (d : Digits) : Int :=
  d.exponent + ((Nat.toDigits 10 d.coefficient).length - 1)

theorem toDigits_bounds {n : Nat} (hpos : 0 < n) :
    10 ^ ((Nat.toDigits 10 n).length - 1) ≤ n ∧ n < 10 ^ (Nat.toDigits 10 n).length := by
  have hlength : 0 < (Nat.toDigits 10 n).length := Nat.length_toDigits_pos
  constructor
  · by_contra hsmall
    by_cases hone : (Nat.toDigits 10 n).length - 1 = 0
    · rw [hone, Nat.pow_zero] at hsmall
      omega
    · have hshort : (Nat.toDigits 10 n).length ≤ (Nat.toDigits 10 n).length - 1 :=
        (Nat.length_toDigits_le_iff (by decide) (by omega)).2 (by omega)
      omega
  · exact (Nat.length_toDigits_le_iff (by decide) hlength).1 (Nat.le_refl _)

/-- Powers of ten up to the first are at or below the digits. -/
theorem le_of_le_firstPower {d : Digits} {t : Int} (hpos : 0 < d.coefficient) (h : t ≤ firstPower d) :
    gridCell t * gridScale d.exponent ≤ d.coefficient * gridCell d.exponent * gridScale t := by
  have hleast := (toDigits_bounds hpos).1
  have hlength : 0 < (Nat.toDigits 10 d.coefficient).length := Nat.length_toDigits_pos
  unfold firstPower at h
  simp only [gridCell, gridScale]
  generalize (Nat.toDigits 10 d.coefficient).length = n at *
  calc one * 10 ^ t.toNat * 10 ^ (-d.exponent).toNat
      = one * 10 ^ (t.toNat + (-d.exponent).toNat) := by ring
    _ ≤ one * 10 ^ (n - 1 + d.exponent.toNat + (-t).toNat) :=
        Nat.mul_le_mul_left _ (Nat.pow_le_pow_right (by decide) (by omega))
    _ = 10 ^ (n - 1) * (one * 10 ^ d.exponent.toNat * 10 ^ (-t).toNat) := by ring
    _ ≤ d.coefficient * (one * 10 ^ d.exponent.toNat * 10 ^ (-t).toNat) := Nat.mul_le_mul_right _ hleast
    _ = d.coefficient * (one * 10 ^ d.exponent.toNat) * 10 ^ (-t).toNat := by ring

/-- Powers of ten beyond the first are above the digits. -/
theorem lt_of_firstPower_lt {d : Digits} {t : Int} (hpos : 0 < d.coefficient) (h : firstPower d < t) :
    d.coefficient * gridCell d.exponent * gridScale t < gridCell t * gridScale d.exponent := by
  have hmost := (toDigits_bounds hpos).2
  have hlength : 0 < (Nat.toDigits 10 d.coefficient).length := Nat.length_toDigits_pos
  unfold firstPower at h
  simp only [gridCell, gridScale]
  generalize (Nat.toDigits 10 d.coefficient).length = n at *
  have hunits : 0 < one * 10 ^ d.exponent.toNat * 10 ^ (-t).toNat :=
    Nat.mul_pos (gridCell_pos d.exponent) (gridScale_pos t)
  calc d.coefficient * (one * 10 ^ d.exponent.toNat) * 10 ^ (-t).toNat
      = d.coefficient * (one * 10 ^ d.exponent.toNat * 10 ^ (-t).toNat) := by ring
    _ < 10 ^ n * (one * 10 ^ d.exponent.toNat * 10 ^ (-t).toNat) := Nat.mul_lt_mul_of_pos_right hmost hunits
    _ = one * 10 ^ (n + d.exponent.toNat + (-t).toNat) := by ring
    _ ≤ one * 10 ^ (t.toNat + (-d.exponent).toNat) :=
        Nat.mul_le_mul_left _ (Nat.pow_le_pow_right (by decide) (by omega))
    _ = one * 10 ^ t.toNat * 10 ^ (-d.exponent).toNat := by ring

/-- A power of ten that is the chosen text of the number nearest to it, and that no smaller number reaches. -/
structure IsBound (t : Int) (bound : Nat) : Prop where
  roundsTo : RoundsTo (gridCell t) (gridScale t) bound
  digits : shortestDigits bound = ⟨1, t⟩
  reached : gridCell t ≤ unitsOfRank bound * gridScale t
  least : unitsOfRank (bound - 1) * gridScale t < gridCell t

/-- The digits of a number lie on the same side of such a power of ten as the number. -/
theorem IsBound.le_firstPower_iff {t : Int} {bound rank : Nat} (hbound : IsBound t bound)
    (hrank : rank < rankCount) (hpos : 0 < rank) :
    t ≤ firstPower (shortestDigits rank) ↔ gridCell t ≤ unitsOfRank rank * gridScale t := by
  have hdigits := shortestDigits_roundsTo hrank hpos
  have hcoefficient := shortestDigits_coefficient_pos hrank hpos
  have hscale := gridScale_pos (shortestDigits rank).exponent
  have hscaleBound := gridScale_pos t
  constructor
  · intro h
    have hle : bound ≤ rank :=
      hbound.roundsTo.mono hscaleBound hscale hdigits (le_of_le_firstPower hcoefficient h)
    exact Nat.le_trans hbound.reached
      (Nat.mul_le_mul_right _ (unitsOfRank_strictMono.monotone hle))
  · intro h
    by_contra hlt
    have hsmall := lt_of_firstPower_lt hcoefficient (by omega : firstPower (shortestDigits rank) < t)
    have hle : rank ≤ bound :=
      hdigits.mono hscale hscaleBound hbound.roundsTo (Nat.le_of_lt hsmall)
    by_cases heq : rank = bound
    · have hpower : firstPower ⟨1, t⟩ = t := by
        have hlength : (Nat.toDigits 10 1).length = 1 := rfl
        simp only [firstPower, hlength]
        omega
      rw [heq, hbound.digits, hpower] at hlt
      omega
    · have hbelow : unitsOfRank rank * gridScale t ≤ unitsOfRank (bound - 1) * gridScale t :=
        Nat.mul_le_mul_right _ (unitsOfRank_strictMono.monotone (by omega))
      have := hbound.least
      omega

theorem isBound_leastPositional :
    IsBound layout.leastPositional (nearestRank (gridCell layout.leastPositional) (gridScale layout.leastPositional)) :=
  ⟨nearestRank_roundsTo _ (gridScale_pos _), by decide +kernel, by decide +kernel, by decide +kernel⟩

theorem isBound_leastScientific :
    IsBound layout.leastScientific (nearestRank (gridCell layout.leastScientific) (gridScale layout.leastScientific)) :=
  ⟨nearestRank_roundsTo _ (gridScale_pos _), by decide +kernel, by decide +kernel, by decide +kernel⟩

/-! ## Positional texts -/

/-- Digits without the zeros at their end. -/
def significant (ds : List Char) : List Char := (ds.reverse.dropWhile (· == '0')).reverse

theorem magnitudeText_eq (style : Layout) (d : Digits) : magnitudeText style d =
    if style.leastPositional ≤ firstPower d ∧ firstPower d < style.leastScientific then
      if 0 ≤ firstPower d then
        withPoint (significant (Nat.toDigits 10 d.coefficient)) ((firstPower d).toNat + 1)
      else '0' :: '.' :: List.replicate (-firstPower d - 1).toNat '0' ++
        significant (Nat.toDigits 10 d.coefficient)
    else scientific style (significant (Nat.toDigits 10 d.coefficient)) (firstPower d) := rfl

theorem significant_append (ds : List Char) : ∃ k, ds = significant ds ++ List.replicate k '0' := by
  refine ⟨(ds.reverse.takeWhile (· == '0')).length, ?_⟩
  have hzeros : ds.reverse.takeWhile (· == '0') =
      List.replicate (ds.reverse.takeWhile (· == '0')).length '0' := by
    apply List.eq_replicate_of_mem
    intro c hc
    simpa using List.mem_takeWhile_imp hc
  rw [← List.reverse_inj, significant, List.reverse_append, List.reverse_reverse, List.reverse_replicate, ← hzeros,
    List.takeWhile_append_dropWhile]

/-- The significant digits of a number, and by how many digits they are shorter. -/
theorem significant_toDigits {n : Nat} (hpos : 0 < n) :
    IsDigits (significant (Nat.toDigits 10 n)) ∧ ∃ k,
      (Nat.toDigits 10 n).length = (significant (Nat.toDigits 10 n)).length + k ∧
      n = Nat.ofDigitChars 10 (significant (Nat.toDigits 10 n)) 0 * 10 ^ k := by
  have hvalue : Nat.ofDigitChars 10 (Nat.toDigits 10 n) 0 = n := Nat.ofDigitChars_ten_toDigits
  have hdigits := isDigits_toDigits n
  obtain ⟨k, hk⟩ := significant_append (Nat.toDigits 10 n)
  generalize significant (Nat.toDigits 10 n) = ds at *
  rw [hk] at hvalue hdigits
  rw [Nat.ofDigitChars_append, Nat.ofDigitChars_replicate_zero] at hvalue
  refine ⟨⟨?_, fun c hc => hdigits.2 c (List.mem_append_left _ hc)⟩, k, ?_, ?_⟩
  · rintro rfl
    rw [Nat.ofDigitChars_nil, Nat.mul_zero] at hvalue
    omega
  · rw [hk, List.length_append, List.length_replicate]
  · rw [← hvalue, Nat.mul_comm]

/-- A point among digits is followed by a digit; zeros fill what is missing on either side of it. -/
theorem withPoint_eq {ds : List Char} (hds : IsDigits ds) (whole : Nat) : ∃ ws fs k,
    withPoint ds (whole + 1) = ws ++ '.' :: fs ∧ IsDigits ws ∧ IsDigits fs ∧
      Nat.ofDigitChars 10 (ws ++ fs) 0 = Nat.ofDigitChars 10 ds 0 * 10 ^ k ∧
      k + ds.length = whole + 1 + fs.length := by
  have hpadded : IsDigits (ds ++ List.replicate (whole + 1 - ds.length) '0') :=
    hds.append (isAsciiDigit_of_mem_zeros _)
  have hlength : (ds ++ List.replicate (whole + 1 - ds.length) '0').length =
      ds.length + (whole + 1 - ds.length) := by
    rw [List.length_append, List.length_replicate]
  have hws : IsDigits ((ds ++ List.replicate (whole + 1 - ds.length) '0').take (whole + 1)) := by
    constructor
    · rw [ne_eq, List.take_eq_nil_iff]
      rintro (h | h)
      · cases h
      · exact hpadded.1 h
    · intro c hc
      exact hpadded.2 c (List.mem_of_mem_take hc)
  unfold withPoint
  dsimp only
  by_cases hshort : ds.length ≤ whole + 1
  · have hdrop : (ds ++ List.replicate (whole + 1 - ds.length) '0').drop (whole + 1) = [] := by
      rw [List.drop_eq_nil_iff]
      omega
    have htake : (ds ++ List.replicate (whole + 1 - ds.length) '0').take (whole + 1) =
        ds ++ List.replicate (whole + 1 - ds.length) '0' := by
      apply List.take_of_length_le
      omega
    rw [htake] at hws
    rw [hdrop, htake, List.isEmpty_nil, if_pos rfl]
    refine ⟨_, _, whole + 1 - ds.length + 1, rfl, hws, isDigits_replicate_zero Nat.one_pos, ?_, ?_⟩
    · have hlast : (['0'] : List Char) = List.replicate 1 '0' := rfl
      rw [hlast, List.append_assoc, List.replicate_append_replicate, Nat.ofDigitChars_append,
        Nat.ofDigitChars_replicate_zero, Nat.mul_comm]
    · rw [List.length_singleton]
      omega
  · have hpadding : whole + 1 - ds.length = 0 := by omega
    rw [hpadding, List.replicate_zero, List.append_nil] at hws ⊢
    have hne : ds.drop (whole + 1) ≠ [] := by
      rw [ne_eq, List.drop_eq_nil_iff]
      omega
    have hfs : IsDigits (ds.drop (whole + 1)) := ⟨hne, fun c hc => hds.2 c (List.mem_of_mem_drop hc)⟩
    refine ⟨_, ds.drop (whole + 1), 0, ?_, hws, hfs, ?_, ?_⟩
    · rw [if_neg (by simpa using hne)]
    · rw [List.take_append_drop, Nat.pow_zero, Nat.mul_one]
    · rw [List.length_drop]
      omega

/-- Digits whose first power of ten is in the positional range are written with a point and denote what they
denoted. -/
theorem magnitudeText_positional {d : Digits} (hpos : 0 < d.coefficient)
    (hpower : layout.leastPositional ≤ firstPower d ∧ firstPower d < layout.leastScientific) :
    ∃ ws fs, magnitudeText layout d = ws ++ '.' :: fs ∧ IsDigits ws ∧ IsDigits fs ∧
      Nat.ofDigitChars 10 (ws ++ fs) 0 * 10 ^ (-d.exponent).toNat =
        d.coefficient * 10 ^ (d.exponent.toNat + fs.length) := by
  obtain ⟨hds, k, hlength, hvalue⟩ := significant_toDigits hpos
  have hfirst : firstPower d = d.exponent + ((Nat.toDigits 10 d.coefficient).length - 1) := rfl
  rw [magnitudeText_eq, if_pos hpower]
  generalize significant (Nat.toDigits 10 d.coefficient) = ds at *
  have hne : 0 < ds.length := List.length_pos_iff.2 hds.1
  split
  · obtain ⟨ws, fs, j, htext, hws, hfs, hcoefficient, hshift⟩ := withPoint_eq hds (firstPower d).toNat
    refine ⟨ws, fs, htext, hws, hfs, ?_⟩
    have hexp : j + (-d.exponent).toNat = k + (d.exponent.toNat + fs.length) := by omega
    rw [hcoefficient, Nat.mul_assoc, ← Nat.pow_add, hexp, Nat.pow_add, ← Nat.mul_assoc, ← hvalue]
  · have hzero : IsDigits ['0'] := isDigits_replicate_zero Nat.one_pos
    have hfs : IsDigits (List.replicate (-firstPower d - 1).toNat '0' ++ ds) :=
      hds.prepend (isAsciiDigit_of_mem_zeros _)
    refine ⟨['0'], List.replicate (-firstPower d - 1).toNat '0' ++ ds, rfl, hzero, hfs, ?_⟩
    have hlengthFs : (List.replicate (-firstPower d - 1).toNat '0' ++ ds).length =
        (-firstPower d - 1).toNat + ds.length := by
      rw [List.length_append, List.length_replicate]
    have hexp : (-d.exponent).toNat = k + (d.exponent.toNat + ((-firstPower d - 1).toNat + ds.length)) := by
      omega
    have hleading : Nat.ofDigitChars 10 (['0'] ++ (List.replicate (-firstPower d - 1).toNat '0' ++ ds)) 0 =
        Nat.ofDigitChars 10 ds 0 := by
      rw [Nat.ofDigitChars_append, Nat.ofDigitChars_append, Nat.ofDigitChars_replicate_zero]
      simp [Nat.ofDigitChars_cons]
    rw [hleading, hlengthFs, hexp, Nat.pow_add, ← Nat.mul_assoc, ← hvalue]

/-! ## Scientific texts -/

/-- One digit, or a digit in front of a point and further digits. -/
def mantissaText (c : Char) (cs : List Char) : List Char :=
  match cs with
  | [] => [c]
  | d :: ds => c :: '.' :: d :: ds

theorem scientific_cons (style : Layout) (c : Char) (cs : List Char) (power : Int) :
    ∃ tail, scientific style (c :: cs) power = mantissaText c cs ++ 'e' :: tail := by
  cases cs with
  | nil => exact ⟨_, List.append_assoc _ _ _⟩
  | cons d ds => exact ⟨_, List.append_assoc _ _ _⟩

/-- Outside of the positional range digits are written as a mantissa of at least one and less than ten, with a mark
behind it. -/
theorem magnitudeText_scientific {d : Digits} (hpos : 0 < d.coefficient)
    (hpower : ¬ (layout.leastPositional ≤ firstPower d ∧ firstPower d < layout.leastScientific)) :
    ∃ c cs tail, magnitudeText layout d = mantissaText c cs ++ 'e' :: tail ∧ IsDigits (c :: cs) ∧
      10 ^ cs.length ≤ Nat.ofDigitChars 10 (c :: cs) 0 ∧
      Nat.ofDigitChars 10 (c :: cs) 0 < 10 ^ (cs.length + 1) := by
  obtain ⟨hds, k, hlength, hvalue⟩ := significant_toDigits hpos
  obtain ⟨hleast, hmost⟩ := toDigits_bounds hpos
  rw [magnitudeText_eq, if_neg hpower]
  rw [hlength] at hleast hmost
  generalize significant (Nat.toDigits 10 d.coefficient) = ds at *
  obtain ⟨c, cs, rfl⟩ := List.exists_cons_of_ne_nil hds.1
  have hscale : 0 < 10 ^ k := Nat.pow_pos (by decide)
  rw [List.length_cons, Nat.add_right_comm, Nat.add_sub_cancel, Nat.pow_add] at hleast
  rw [List.length_cons, Nat.pow_add] at hmost
  have hlower : 10 ^ cs.length ≤ Nat.ofDigitChars 10 (c :: cs) 0 :=
    Nat.le_of_mul_le_mul_right (hvalue ▸ hleast) hscale
  have hupper : Nat.ofDigitChars 10 (c :: cs) 0 < 10 ^ (cs.length + 1) :=
    Nat.lt_of_mul_lt_mul_right (hvalue ▸ hmost)
  obtain ⟨tail, htext⟩ := scientific_cons layout c cs (firstPower d)
  exact ⟨c, cs, tail, htext, hds, hlower, hupper⟩

/-! ## Reading texts back -/

/-- Whether the text of a number has no exponent: zero, and the numbers from 1e-04 up to, not including, 1e+16. -/
def IsPositional : Binary64 → Prop
  | .finite _ rank => rank.val = 0 ∨ one ≤ 10 ^ 4 * unitsOfRank rank ∧ unitsOfRank rank < 10 ^ 16 * one
  | _ => False

theorem firstPower_iff {rank : Nat} (hrank : rank < rankCount) (hpos : 0 < rank) :
    layout.leastPositional ≤ firstPower (shortestDigits rank) ∧
      firstPower (shortestDigits rank) < layout.leastScientific ↔
    one ≤ 10 ^ 4 * unitsOfRank rank ∧ unitsOfRank rank < 10 ^ 16 * one := by
  have hleast := isBound_leastPositional.le_firstPower_iff hrank hpos
  have hmost := isBound_leastScientific.le_firstPower_iff hrank hpos
  have hcell : gridCell layout.leastPositional = one := by decide +kernel
  have hscale : gridScale layout.leastPositional = 10 ^ 4 := rfl
  have hcell' : gridCell layout.leastScientific = 10 ^ 16 * one := by decide +kernel
  have hscale' : gridScale layout.leastScientific = 1 := rfl
  rw [hcell, hscale, Nat.mul_comm] at hleast
  rw [hcell', hscale', Nat.mul_one] at hmost
  rw [hleast, ← Int.not_le, hmost, Nat.not_le]

theorem toText_finite (negative : Bool) (rank : Fin rankCount) : toText (.finite negative rank) =
    signText negative ++ if rank.val = 0 then ['0', '.', '0'] else magnitudeText layout (shortestDigits rank) := rfl

theorem ofText?_signed (negative : Bool) {ds fs : List Char} (hds : IsDigits ds) (hfs : IsDigits fs) :
    ofText? (signText negative ++ (ds ++ '.' :: fs)) =
      some (ofUnits negative (Nat.ofDigitChars 10 (ds ++ fs) 0 * one) (10 ^ fs.length)) := by
  have hexponent : (- -(fs.length : Int)).toNat = fs.length := by omega
  rw [ofText?, toFraction_signed negative hds hfs, Option.map_some, ofFraction_eq (by simp)]
  simp only [hexponent]

/-- A text without an exponent is a sign and digits with a point among them, and is read back as the number. -/
theorem ofText?_toText {x : Binary64} (h : x.IsPositional) : ∃ negative ds fs,
    x.toText = signText negative ++ (ds ++ '.' :: fs) ∧ IsDigits ds ∧ IsDigits fs ∧
      ofText? x.toText = some x := by
  match x, h with
  | .finite negative rank, h =>
      rw [toText_finite]
      by_cases hzero : rank.val = 0
      · rw [if_pos hzero]
        have hdigit : IsDigits ['0'] := isDigits_replicate_zero Nat.one_pos
        refine ⟨negative, ['0'], ['0'], rfl, hdigit, hdigit, ?_⟩
        have hvalue : Nat.ofDigitChars 10 (['0'] ++ ['0']) 0 = 0 := rfl
        have hread := ofText?_signed negative hdigit hdigit
        rw [hvalue, ofUnits_of_roundsTo (Nat.pow_pos (by decide)) (roundsTo_zero (.inl rfl)) (by decide)] at hread
        refine hread.trans ?_
        exact congrArg (fun r => some (Binary64.finite negative r)) (Fin.ext hzero.symm)
      · have hpos : 0 < rank.val := by omega
        have hrange := (firstPower_iff rank.isLt hpos).2 (h.resolve_left hzero)
        have hdigits := shortestDigits_roundsTo rank.isLt hpos
        obtain ⟨ws, fs, htext, hws, hfs, hvalue⟩ :=
          magnitudeText_positional (shortestDigits_coefficient_pos rank.isLt hpos) hrange
        rw [if_neg hzero, htext]
        refine ⟨negative, ws, fs, rfl, hws, hfs, ?_⟩
        have hrounds : RoundsTo (Nat.ofDigitChars 10 (ws ++ fs) 0 * one) (10 ^ fs.length) rank := by
          apply hdigits.of_eq (gridScale_pos _) (Nat.pow_pos (by decide))
          simp only [gridCell, gridScale]
          rw [Nat.pow_add] at hvalue
          generalize (shortestDigits rank).coefficient = n at *
          generalize (shortestDigits rank).exponent = e at *
          calc n * (one * 10 ^ e.toNat) * 10 ^ fs.length
              = n * (10 ^ e.toNat * 10 ^ fs.length) * one := by ring
            _ = Nat.ofDigitChars 10 (ws ++ fs) 0 * 10 ^ (-e).toNat * one := by rw [hvalue]
            _ = Nat.ofDigitChars 10 (ws ++ fs) 0 * one * 10 ^ (-e).toNat := by ring
        rw [ofText?_signed negative hws hfs, ofUnits_of_roundsTo (Nat.pow_pos (by decide)) hrounds rank.isLt]

theorem ofUnits_ne_nan {negative : Bool} {num den : Nat} {mark : Option Mark} :
    ofUnits negative num den ≠ .nan mark := by
  unfold ofUnits
  dsimp only
  split
  · rintro ⟨⟩
  · rintro ⟨⟩

/-- A mantissa alone denotes a number from one to ten, which has a text without an exponent. -/
theorem isPositional_of_ofUnits {negative : Bool} {coefficient k : Nat} {x : Binary64} (hlower : 10 ^ k ≤ coefficient)
    (hupper : coefficient < 10 ^ (k + 1)) (hx : ofUnits negative (coefficient * one) (10 ^ k) = x) :
    x.IsPositional := by
  have hden : 0 < 10 ^ k := Nat.pow_pos (by decide)
  have hrounds := nearestRank_roundsTo (coefficient * one) hden
  have hone : unitsOfRank (nearestRank one 1) = one := by decide +kernel
  have hten : unitsOfRank (nearestRank (10 * one) 1) = 10 * one := by decide +kernel
  have hfinite : nearestRank (10 * one) 1 < rankCount := by decide +kernel
  have hleast : unitsOfRank (nearestRank one 1) * 10 ^ k ≤ coefficient * one := by
    rw [hone, Nat.mul_comm]
    exact Nat.mul_le_mul_right _ hlower
  have habove : one ≤ unitsOfRank (nearestRank (coefficient * one) (10 ^ k)) :=
    Nat.le_trans (Nat.le_of_eq hone.symm) (hrounds.le_units hden hleast)
  have hmost : coefficient * one ≤ unitsOfRank (nearestRank (10 * one) 1) * 10 ^ k := by
    rw [hten]
    calc coefficient * one ≤ 10 ^ (k + 1) * one := Nat.mul_le_mul_right _ (Nat.le_of_lt hupper)
      _ = 10 * one * 10 ^ k := by ring
  have hbelow := hrounds.units_le hden hmost
  have hrank : nearestRank (coefficient * one) (10 ^ k) < rankCount :=
    Nat.lt_of_le_of_lt (unitsOfRank_strictMono.le_iff_le.1 hbelow) hfinite
  rw [hten] at hbelow
  have hpos := one_pos
  rw [← hx, ofUnits_of_roundsTo hden hrounds hrank]
  right
  dsimp only
  constructor
  · omega
  · omega

/-- A text with an exponent starts with a mantissa, which alone is not read as the number. -/
theorem toText_scientific {negative : Bool} {rank : Fin rankCount}
    (h : ¬ IsPositional (.finite negative rank)) : ∃ c cs tail,
    toText (.finite negative rank) = signText negative ++ (mantissaText c cs ++ 'e' :: tail) ∧
      IsDigits (c :: cs) ∧
      (cs ≠ [] → ofText? (signText negative ++ mantissaText c cs) ≠ some (.finite negative rank)) := by
  have hzero : rank.val ≠ 0 := fun hzero => h (.inl hzero)
  have hpos : 0 < rank.val := Nat.pos_of_ne_zero hzero
  have hrange := (firstPower_iff rank.isLt hpos).not.2 fun hrange => h (.inr hrange)
  obtain ⟨c, cs, tail, htext, hdigits, hlower, hupper⟩ :=
    magnitudeText_scientific (shortestDigits_coefficient_pos rank.isLt hpos) hrange
  rw [toText_finite, if_neg hzero, htext]
  refine ⟨c, cs, tail, rfl, hdigits, ?_⟩
  intro hmore hread
  obtain ⟨d, ds, rfl⟩ := List.exists_cons_of_ne_nil hmore
  have hfirst : IsDigits [c] := by
    refine ⟨List.cons_ne_nil _ _, ?_⟩
    rw [List.forall_mem_singleton]
    exact hdigits.2 c List.mem_cons_self
  have hmantissa := ofText?_signed negative hfirst hdigits.tail
  exact h (isPositional_of_ofUnits hlower hupper (Option.some.inj (hmantissa.symm.trans hread)))

end RuleExpr.Binary64
