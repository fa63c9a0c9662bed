import Mathlib.Data.List.Find
import RuleExpr.Builtin

/-!
# Comparing date-times

Within one zone the readings of its clock decide, across zones the instants do. The two need not agree: where the clock
of a zone is set back, what it shows later may come earlier on it. So equality of date-times is reflexive and symmetric,
but transitive only if no zone has two readings for an instant, each with one offset (`equalDates_trans`), and order is
one by places on a line only if clocks go forward with the instants (`exists_isKey`). Nothing is lost where all
date-times are of one zone.
-/
namespace RuleExpr

theorem Comparison.ofInts_eq_equal_iff {a b : Int} : ofInts a b = .equal ↔ a = b := by
  unfold ofInts
  split
  · next h => exact iff_of_false nofun (Int.ne_of_lt h)
  · split
    · next h => exact iff_of_true rfl h
    · next h => exact iff_of_false nofun h

theorem Comparison.ofInts_eq_less_iff {a b : Int} : ofInts a b = .less ↔ a < b := by
  unfold ofInts
  split
  · next h => exact iff_of_true rfl h
  · next h =>
      refine iff_of_false ?_ h
      split <;> nofun

/-- The comparison of the same two things in the other order. -/
def Comparison.swap : Comparison → Comparison
  | .less => .greater
  | .greater => .less
  | c => c

theorem Comparison.ofInts_swap (a b : Int) : ofInts b a = (ofInts a b).swap := by
  rcases Int.lt_trichotomy a b with h | rfl | h
  · rw [ofInts_eq_less_iff.2 h, ofInts, if_neg (by omega), if_neg (by omega)]
    rfl
  · rw [ofInts_self]
    rfl
  · rw [ofInts_eq_less_iff.2 h, ofInts, if_neg (by omega), if_neg (by omega)]
    rfl

theorem Comparison.ofInts_ne_unordered (a b : Int) : ofInts a b ≠ .unordered := by
  unfold ofInts
  split
  · nofun
  · split <;> nofun

namespace DateTime

variable {d e f : DateTime}

/-- Two passages of a reading with one offset are one instant. -/
theorem position_eq_of_clockReading (hzone : d.zone = e.zone) (hreading : d.clockReading = e.clockReading)
    (hone : d.isTwofold = false) : d.position = e.position := by
  unfold isTwofold at hone
  unfold position offset
  rw [← hzone, ← hreading]
  cases hd : d.zone with
  | none => rfl
  | some zone =>
      rw [hd] at hone
      have hoffset : zone.offsetAt d.clockReading false = zone.offsetAt d.clockReading true := by simpa using hone
      cases d.time.fold <;> cases e.time.fold <;> simp [hoffset]

theorem isTwofold_eq_of_clockReading (hzone : d.zone = e.zone) (hreading : d.clockReading = e.clockReading) :
    d.isTwofold = e.isTwofold := by
  rw [isTwofold, isTwofold, hzone, hreading]

end DateTime

/-- What comparing can tell of a date-time: whether it is aware, its place on a line, and its zone if it equals no
date-time of another one. -/
structure DateKey where
  aware : Bool
  place : Int
  owner : Option TimeZone
deriving DecidableEq

namespace Value
open DateTime

variable {d e f : DateTime}

/-! ## Equality -/

theorem equalDates_of_zone (h : d.zone = e.zone) : equalDates d e = true ↔ d.clockReading = e.clockReading := by
  rw [equalDates, if_pos h, beq_iff_eq]

theorem equalDates_of_zones (h : d.zone ≠ e.zone) : equalDates d e = true ↔
    (d.isAware = true ∧ e.isAware = true) ∧ d.position = e.position ∧ d.isTwofold = false ∧ e.isTwofold = false := by
  simp [equalDates, h, and_assoc]

@[simp] theorem equalDates_self (d : DateTime) : equalDates d d = true := (equalDates_of_zone rfl).2 rfl

theorem equalDates_comm (d e : DateTime) : equalDates d e = equalDates e d := by
  by_cases h : d.zone = e.zone
  · rw [Bool.eq_iff_iff, equalDates_of_zone h, equalDates_of_zone h.symm, eq_comm]
  · rw [Bool.eq_iff_iff, equalDates_of_zones h, equalDates_of_zones (Ne.symm h), eq_comm (a := d.position),
      and_comm (a := d.isAware = true), and_comm (a := d.isTwofold = false)]

/-- Whether no zone has two readings for an instant, each with one offset, such that a date-time of another zone is
equal to both. -/
def ReadingsAgree (ds : List DateTime) : Prop :=
  ∀ d ∈ ds, ∀ e ∈ ds, ∀ f ∈ ds, d.zone = e.zone → f.zone ≠ d.zone → equalDates d f = true → equalDates f e = true →
    d.clockReading = e.clockReading

instance (ds : List DateTime) : Decidable (ReadingsAgree ds) :=
  inferInstanceAs (Decidable (∀ d ∈ ds, ∀ e ∈ ds, ∀ f ∈ ds, d.zone = e.zone → f.zone ≠ d.zone →
    equalDates d f = true → equalDates f e = true → d.clockReading = e.clockReading))

theorem equalDates_trans {ds : List DateTime} (hagree : ReadingsAgree ds) (hd : d ∈ ds) (he : e ∈ ds) (hf : f ∈ ds)
    (h : equalDates d e = true) (h' : equalDates e f = true) : equalDates d f = true := by
  by_cases hde : d.zone = e.zone
  · have hreading := (equalDates_of_zone hde).1 h
    by_cases hef : e.zone = f.zone
    · exact (equalDates_of_zone (hde.trans hef)).2 (hreading.trans ((equalDates_of_zone hef).1 h'))
    · obtain ⟨⟨haware, hf⟩, hposition, hone, hone'⟩ := (equalDates_of_zones hef).1 h'
      have htwofold := isTwofold_eq_of_clockReading hde hreading
      have hsame := position_eq_of_clockReading hde hreading (htwofold.trans hone)
      refine (equalDates_of_zones (hde ▸ hef)).2 ⟨⟨?_, hf⟩, hsame.trans hposition, htwofold.trans hone, hone'⟩
      rw [isAware, hde]
      exact haware
  · by_cases hef : e.zone = f.zone
    · have hreading := (equalDates_of_zone hef).1 h'
      obtain ⟨⟨hd, haware⟩, hposition, hone, hone'⟩ := (equalDates_of_zones hde).1 h
      have htwofold := isTwofold_eq_of_clockReading hef hreading
      have hsame := position_eq_of_clockReading hef hreading hone'
      refine (equalDates_of_zones (hef ▸ hde)).2 ⟨⟨hd, ?_⟩, hposition.trans hsame, hone, htwofold ▸ hone'⟩
      rw [isAware, ← hef]
      exact haware
    · by_cases hdf : d.zone = f.zone
      · exact (equalDates_of_zone hdf).2 (hagree d hd f hf e he hdf (Ne.symm hde) h h')
      · obtain ⟨⟨hd, -⟩, hposition, hone, -⟩ := (equalDates_of_zones hde).1 h
        obtain ⟨⟨-, hf⟩, hposition', -, hone'⟩ := (equalDates_of_zones hef).1 h'
        exact (equalDates_of_zones hdf).2 ⟨⟨hd, hf⟩, hposition.trans hposition', hone, hone'⟩

/-- The first date-time of a list that is equal to a given one stands for all that are. -/
theorem find?_equalDates_iff {ds : List DateTime} (hagree : ReadingsAgree ds) (hd : d ∈ ds) (he : e ∈ ds) :
    equalDates d e = true ↔ ds.find? (equalDates d) = ds.find? (equalDates e) := by
  constructor
  · intro h
    have hsame : ∀ f ∈ ds, equalDates d f = equalDates e f := by
      intro f hf
      rw [Bool.eq_iff_iff]
      exact ⟨equalDates_trans hagree he hd hf (equalDates_comm d e ▸ h), equalDates_trans hagree hd he hf h⟩
    exact List.find?_congr hsame
  · intro h
    have hsome : (ds.find? (equalDates d)).isSome = true := List.find?_isSome.2 ⟨d, hd, equalDates_self d⟩
    obtain ⟨f, hf⟩ := Option.isSome_iff_exists.1 hsome
    have hef : equalDates e f = true := List.find?_some (h ▸ hf)
    exact equalDates_trans hagree hd (List.mem_of_find?_eq_some hf) he (List.find?_some hf) (equalDates_comm e f ▸ hef)

/-! ## Order -/

theorem compareDates?_of_zone (h : d.zone = e.zone) :
    compareDates? d e = some (.ofInts d.clockReading e.clockReading) := if_pos h

theorem compareDates?_of_zones (h : d.zone ≠ e.zone) (haware : d.isAware = true ∧ e.isAware = true) :
    compareDates? d e = some (.ofInts d.position e.position) := by
  rw [compareDates?, if_neg h, haware.1, haware.2]
  rfl

theorem compareDates?_of_naive (h : d.zone ≠ e.zone) (hnaive : ¬ (d.isAware = true ∧ e.isAware = true)) :
    compareDates? d e = none := by
  rw [compareDates?, if_neg h, if_neg (by simpa using hnaive)]

theorem compareDates?_swap (d e : DateTime) : compareDates? e d = (compareDates? d e).map Comparison.swap := by
  by_cases h : d.zone = e.zone
  · rw [compareDates?_of_zone h, compareDates?_of_zone h.symm, Comparison.ofInts_swap, Option.map_some]
  · by_cases haware : d.isAware = true ∧ e.isAware = true
    · rw [compareDates?_of_zones h haware, compareDates?_of_zones (Ne.symm h) haware.symm, Comparison.ofInts_swap,
        Option.map_some]
    · rw [compareDates?_of_naive h haware, compareDates?_of_naive (Ne.symm h) (mt And.symm haware), Option.map_none]

@[simp] theorem compareDates?_self (d : DateTime) : compareDates? d d = some .equal := by
  rw [compareDates?_of_zone rfl, Comparison.ofInts_self]

theorem compareDates?_ne_unordered (d e : DateTime) : compareDates? d e ≠ some .unordered := by
  unfold compareDates?
  split
  · exact fun h => Comparison.ofInts_ne_unordered _ _ (Option.some.inj h)
  · split
    · exact fun h => Comparison.ofInts_ne_unordered _ _ (Option.some.inj h)
    · nofun

/-- Whether two date-times are one instant and yet not equal: they are of different zones, and for one of them its zone
has two offsets. -/
def areTied (d e : DateTime) : Bool :=
  d.zone ≠ e.zone && d.isAware && e.isAware && d.position == e.position && (d.isTwofold || e.isTwofold)

theorem areTied_of_zone (h : d.zone = e.zone) : areTied d e = false := by
  rw [areTied, decide_eq_false (not_not.2 h)]
  rfl

theorem areTied_of_zones (h : d.zone ≠ e.zone) : areTied d e = true ↔
    (d.isAware = true ∧ e.isAware = true) ∧ d.position = e.position ∧
      ¬ (d.isTwofold = false ∧ e.isTwofold = false) := by
  rw [areTied, decide_eq_true h]
  cases d.isTwofold <;> cases e.isTwofold <;> simp [and_assoc]

theorem compareDates?_eq_equal_iff : compareDates? d e = some .equal ↔ equalDates d e = true ∨ areTied d e = true := by
  by_cases h : d.zone = e.zone
  · rw [areTied_of_zone h, compareDates?_of_zone h, equalDates_of_zone h, Option.some.injEq,
      Comparison.ofInts_eq_equal_iff]
    simp
  · rw [areTied_of_zones h, equalDates_of_zones h, ← and_or_left, ← and_or_left]
    by_cases haware : d.isAware = true ∧ e.isAware = true
    · rw [compareDates?_of_zones h haware, Option.some.injEq, Comparison.ofInts_eq_equal_iff]
      exact ⟨fun hposition => ⟨haware, hposition, Classical.em _⟩, fun hand => hand.2.1⟩
    · rw [compareDates?_of_naive h haware]
      exact iff_of_false nofun fun hand => haware hand.1

/-- Whether clocks go forward with the instants: of two date-times of one zone the earlier one by its clock is the
earlier one. Nothing is asked of a zone if the list has no instants of other zones. -/
def ClocksAgree (ds : List DateTime) : Prop :=
  ∀ d ∈ ds, ∀ e ∈ ds, ∀ f ∈ ds, d.zone = e.zone → f.zone ≠ d.zone → f.isAware = true →
    (d.clockReading < e.clockReading ↔ d.position < e.position)

instance (ds : List DateTime) : Decidable (ClocksAgree ds) :=
  inferInstanceAs (Decidable (∀ d ∈ ds, ∀ e ∈ ds, ∀ f ∈ ds, d.zone = e.zone → f.zone ≠ d.zone → f.isAware = true →
    (d.clockReading < e.clockReading ↔ d.position < e.position)))

/-- Whether date-times compare as their keys do. -/
structure IsKey (key : DateTime → DateKey) (ds : List DateTime) : Prop where
  equal : ∀ d ∈ ds, ∀ e ∈ ds, (equalDates d e = true ↔ key d = key e)
  compare : ∀ d ∈ ds, ∀ e ∈ ds, compareDates? d e =
    if (key d).aware = (key e).aware then some (.ofInts (key d).place (key e).place) else none

/-- The key of date-times of one zone and naive ones: the reading of the clock. -/
def readingKey (d : DateTime) : DateKey := ⟨d.isAware, d.clockReading, none⟩

/-- The key of date-times whose clocks go forward with the instants. -/
def instantKey (d : DateTime) : DateKey := ⟨d.isAware, d.position, if d.isTwofold then d.zone else none⟩

theorem isAware_eq_of_zone (h : d.zone = e.zone) : d.isAware = e.isAware := congrArg Option.isSome h

theorem isAware_ne_of_naive (h : d.zone ≠ e.zone) (hnaive : ¬ (d.isAware = true ∧ e.isAware = true)) :
    d.isAware ≠ e.isAware := by
  intro haware
  rw [haware, and_self, Bool.not_eq_true] at hnaive
  rw [hnaive] at haware
  exact h ((Option.not_isSome_iff_eq_none.1 (Bool.eq_false_iff.1 haware)).trans
    (Option.not_isSome_iff_eq_none.1 (Bool.eq_false_iff.1 hnaive)).symm)

/-- Date-times compare as their keys do if those of one zone do and those of different zones do. -/
theorem IsKey.of_zones {key : DateTime → DateKey} {ds : List DateTime} (haware : ∀ d, (key d).aware = d.isAware)
    (hzone : ∀ d ∈ ds, ∀ e ∈ ds, d.zone = e.zone → (equalDates d e = true ↔ key d = key e) ∧
      compareDates? d e = some (.ofInts (key d).place (key e).place))
    (hzones : ∀ d ∈ ds, ∀ e ∈ ds, d.zone ≠ e.zone → d.isAware = true ∧ e.isAware = true →
      (equalDates d e = true ↔ key d = key e) ∧ compareDates? d e = some (.ofInts (key d).place (key e).place)) :
    IsKey key ds := by
  have hall {d e : DateTime} (hd : d ∈ ds) (he : e ∈ ds) : (equalDates d e = true ↔ key d = key e) ∧ compareDates? d e =
      if d.isAware = e.isAware then some (.ofInts (key d).place (key e).place) else none := by
    by_cases h : d.zone = e.zone
    · rw [if_pos (isAware_eq_of_zone h)]
      exact hzone d hd e he h
    · by_cases hboth : d.isAware = true ∧ e.isAware = true
      · rw [if_pos (hboth.1.trans hboth.2.symm)]
        exact hzones d hd e he h hboth
      · have hne := isAware_ne_of_naive h hboth
        rw [if_neg hne]
        refine ⟨iff_of_false (fun heq => hboth ((equalDates_of_zones h).1 heq).1) fun hkey => hne ?_,
          compareDates?_of_naive h hboth⟩
        rw [← haware, ← haware, hkey]
  refine ⟨fun d hd e he => (hall hd he).1, fun d hd e he => ?_⟩
  rw [haware, haware]
  exact (hall hd he).2

theorem isKey_readingKey {ds : List DateTime}
    (hone : ∀ d ∈ ds, ∀ e ∈ ds, d.isAware = true → e.isAware = true → d.zone = e.zone) : IsKey readingKey ds := by
  refine .of_zones (fun _ => rfl) (fun d _ e _ hzone => ⟨?_, compareDates?_of_zone hzone⟩) ?_
  · rw [equalDates_of_zone hzone, readingKey, readingKey, isAware_eq_of_zone hzone]
    simp
  · exact fun d hd e he hzones hboth => absurd (hone d hd e he hboth.1 hboth.2) hzones

theorem isKey_instantKey {ds : List DateTime}
    (hagree : ∀ d ∈ ds, ∀ e ∈ ds, d.zone = e.zone → (d.clockReading < e.clockReading ↔ d.position < e.position)) :
    IsKey instantKey ds := by
  refine .of_zones (fun _ => rfl) (fun d hd e he hzone => ?_) (fun d _ e _ hzones hboth => ⟨?_, ?_⟩)
  · -- In step both ways, one reading is one instant.
    have hless := hagree d hd e he hzone
    have hsame : d.clockReading = e.clockReading ↔ d.position = e.position := by
      have hgreater := hagree e he d hd hzone.symm
      omega
    constructor
    · rw [equalDates_of_zone hzone]
      refine ⟨fun hreading => ?_, fun hkey => hsame.2 (congrArg DateKey.place hkey)⟩
      rw [instantKey, instantKey, isAware_eq_of_zone hzone, hsame.1 hreading,
        isTwofold_eq_of_clockReading hzone hreading, hzone]
    · rw [compareDates?_of_zone hzone]
      simp only [Comparison.ofInts, hless, hsame]
      rfl
  · rw [equalDates_of_zones hzones]
    constructor
    · rintro ⟨-, hposition, hone, hone'⟩
      rw [instantKey, instantKey, hboth.1, hboth.2, hposition, hone, hone']
      rfl
    · intro hkey
      have howner : (if d.isTwofold = true then d.zone else none) = if e.isTwofold = true then e.zone else none :=
        congrArg DateKey.owner hkey
      have hd : d.zone ≠ none := Option.isSome_iff_ne_none.1 hboth.1
      have he : e.zone ≠ none := Option.isSome_iff_ne_none.1 hboth.2
      refine ⟨hboth, congrArg DateKey.place hkey, ?_⟩
      cases hone : d.isTwofold <;> cases hone' : e.isTwofold <;> simp_all
  · exact compareDates?_of_zones hzones hboth

/-- Where clocks agree, date-times compare by places on one line. -/
theorem exists_isKey {ds : List DateTime} (hagree : ClocksAgree ds) : ∃ key, IsKey key ds := by
  by_cases hone : ∀ d ∈ ds, ∀ e ∈ ds, d.isAware = true → e.isAware = true → d.zone = e.zone
  · exact ⟨readingKey, isKey_readingKey hone⟩
  · -- Of two instants of different zones one at least is not of the zone in question.
    simp only [not_forall] at hone
    obtain ⟨f, hf, g, hg, hfaware, hgaware, hzones⟩ := hone
    refine ⟨instantKey, isKey_instantKey fun d hd e he hzone => ?_⟩
    by_cases hfd : f.zone = d.zone
    · exact hagree d hd e he g hg hzone (fun hgd => hzones (hfd.trans hgd.symm)) hgaware
    · exact hagree d hd e he f hf hzone hfd hfaware

end Value

/-! ## A change of clocks -/

/-- Central European Time in 2020: an hour ahead of universal time, and two hours from the end of March, when clocks
skip the hour from two to three, to the end of October, when they go through it twice. -/
def Zone.centralEurope : Zone where
  identity := 0
  shown := "Europe/Berlin"
  initial := ⟨3600000000, by decide⟩
  spans :=
    [⟨737512 * 86400000000 + 7200000000, ⟨3600000000, by decide⟩, ⟨7200000000, by decide⟩⟩,
      ⟨737512 * 86400000000 + 10800000000, ⟨7200000000, by decide⟩, ⟨7200000000, by decide⟩⟩,
      ⟨737722 * 86400000000 + 7200000000, ⟨7200000000, by decide⟩, ⟨3600000000, by decide⟩⟩,
      ⟨737722 * 86400000000 + 10800000000, ⟨3600000000, by decide⟩, ⟨3600000000, by decide⟩⟩]

/-- A time of the day in October 2020 on which the clocks of Central Europe are set back. -/
def DateTime.onChange (hour : Fin 24) (minute : Fin 60) (fold : Bool) : DateTime :=
  ⟨⟨2020, 10, 25, by decide⟩, { TimeOfDay.midnight with hour, minute, fold }, some (.changing .centralEurope)⟩

/-- A time of the same day in universal time. -/
def DateTime.onChangeUtc (hour : Fin 24) (minute : Fin 60) : DateTime :=
  { DateTime.onChange hour minute false with zone := some .utc }

end RuleExpr
