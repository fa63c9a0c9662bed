import RuleExpr.Calendar.Iso
import RuleExpr.Proofs.Numeral.Digits

/-!
# Reading ISO texts of date-times

The text that is written for an instant is read back with the same day, clock and offset (`ofLiteral?_toText`). The
zone that is read has this offset for good, so only a date-time of such a zone can come back as it was. All that are
read are of this sort, so what was read from a literal always comes back.
-/
namespace RuleExpr.DateTime
open Numeral Text

/-! ## Padded numbers -/

theorem padded_eq (width n : Nat) : padded width n =
    List.replicate (width - (Nat.toDigits 10 n).length) '0' ++ Nat.toDigits 10 n := rfl

theorem isAsciiDigit_of_mem_padded {width n : Nat} : ∀ c ∈ padded width n, isAsciiDigit c = true := by
  intro c hc
  rw [padded_eq] at hc
  rcases List.mem_append.1 hc with hzero | hdigit
  · exact isAsciiDigit_of_mem_zeros _ c hzero
  · exact (isDigits_toDigits n).2 c hdigit

theorem length_padded {width n : Nat} (hpos : 0 < width) (h : n < 10 ^ width) : (padded width n).length = width := by
  have hlength := (Nat.length_toDigits_le_iff (by decide) hpos).2 h
  rw [padded_eq, List.length_append, List.length_replicate]
  omega

theorem ofDigitChars_padded (width n : Nat) : Nat.ofDigitChars 10 (padded width n) 0 = n := by
  rw [padded_eq, Nat.ofDigitChars_append, Nat.ofDigitChars_replicate_zero, Nat.mul_zero,
    Nat.ofDigitChars_ten_toDigits]

theorem padded_eq_cons (width n : Nat) : ∃ c cs, padded width n = c :: cs ∧ isAsciiDigit c = true := by
  have hne : padded width n ≠ [] := by
    rw [padded_eq]
    exact List.append_ne_nil_of_right_ne_nil _ Nat.toDigits_ne_nil
  obtain ⟨c, cs, hcs⟩ := List.exists_cons_of_ne_nil hne
  exact ⟨c, cs, hcs, isAsciiDigit_of_mem_padded c (hcs ▸ List.mem_cons_self)⟩

theorem padded_append_ne_nil (width n : Nat) (rest : List Char) : padded width n ++ rest ≠ [] := by
  obtain ⟨c, cs, hcs, -⟩ := padded_eq_cons width n
  rw [hcs]
  exact List.cons_ne_nil _ _

theorem takeNumber?_padded {width n : Nat} (rest : List Char) (hpos : 0 < width) (h : n < 10 ^ width) :
    takeNumber? width (padded width n ++ rest) = some (n, rest) := by
  have hlength := length_padded hpos h
  have htake : (padded width n ++ rest).take width = padded width n := by
    rw [List.take_append_of_le_length (by omega), List.take_of_length_le (by omega)]
  have hdrop : (padded width n ++ rest).drop width = rest := by
    rw [List.drop_append_of_le_length (by omega), List.drop_of_length_le (by omega), List.nil_append]
  have hdigits : (padded width n).all isAsciiDigit = true := List.all_eq_true.2 isAsciiDigit_of_mem_padded
  rw [takeNumber?, htake, hdrop, if_pos ⟨hlength, hdigits⟩, ofDigitChars_padded]

/-! ## Days -/

theorem daysInMonth_bounds {year month : Nat} (h : 0 < daysInMonth year month) :
    month ≤ 12 ∧ daysInMonth year month ≤ 31 := by
  have hleap : (if isLeapYear year = true then 29 else 28) ≤ 31 := by split <;> decide
  unfold daysInMonth at *
  generalize (if isLeapYear year = true then 29 else 28) = february at *
  split at h <;> omega

theorem date_bounds (d : Date) : d.year < 10 ^ 4 ∧ d.month < 10 ^ 2 ∧ d.day < 10 ^ 2 := by
  have hvalid := d.valid
  simp only [isDate, Bool.and_eq_true, decide_eq_true_eq] at hvalid
  obtain ⟨⟨⟨-, hyear⟩, hday⟩, hday'⟩ := hvalid
  have hmonth := daysInMonth_bounds (Nat.lt_of_lt_of_le hday hday')
  omega

theorem takeDate?_dateText (d : Date) (rest : List Char) : takeDate? (dateText d ++ rest) = some (d, rest) := by
  obtain ⟨hyear, hmonth, hday⟩ := date_bounds d
  have htext : dateText d ++ rest =
      padded 4 d.year ++ ('-' :: (padded 2 d.month ++ ('-' :: (padded 2 d.day ++ rest)))) := by
    simp [dateText]
  have hreadMonth := takeNumber?_padded ('-' :: (padded 2 d.day ++ rest)) (by decide) hmonth
  have hreadDay := takeNumber?_padded rest (by decide) hday
  rw [htext, takeDate?, takeNumber?_padded _ (by decide) hyear]
  simp only [Option.bind_eq_bind, Option.bind_some]
  split
  · next heq =>
      obtain ⟨c, cs, hcs, hc⟩ := padded_eq_cons 2 d.month
      rw [hcs] at heq
      obtain ⟨-, htail⟩ := List.cons.inj heq
      obtain ⟨rfl, -⟩ := List.cons.inj htail
      cases hc
  · next heq => cases (List.cons.inj heq).1
  · next heq =>
      obtain ⟨-, rfl⟩ := List.cons.inj heq
      simp only [hreadMonth, hreadDay, Option.bind_some, Date.ofNumbers?_numbers]
      rfl
  · next hnot => exact (hnot _ rfl).elim

/-! ## Clocks -/

theorem readClock?_end (colons : Option Bool) (count : Nat) {n : Nat} (h : n < 10 ^ 2) :
    readClock? colons (count + 1) (padded 2 n) = some ⟨[n], 0, true⟩ := by
  have hread := takeNumber?_padded [] (by decide) h
  rw [List.append_nil] at hread
  rw [readClock?, hread]
  rfl

theorem readClock?_colon {colons : Option Bool} (count : Nat) {n : Nat} {rest : List Char} (h : n < 10 ^ 2)
    (hcolons : colons ≠ some false) (hrest : rest ≠ []) :
    readClock? colons (count + 1) (padded 2 n ++ ':' :: rest) =
      (readClock? (some true) count rest).map fun clock => { clock with fields := n :: clock.fields } := by
  have hwith : colons.getD true = true := by
    match colons, hcolons with
    | none, _ => rfl
    | some true, _ => rfl
  obtain ⟨c, cs, rfl⟩ := List.exists_cons_of_ne_nil hrest
  rw [readClock?, takeNumber?_padded _ (by decide) h]
  simp only [Option.bind_eq_bind, Option.bind_some, decide_true, hwith, Bool.and_self, if_true]
  cases readClock? (some true) count (c :: cs) <;> rfl

theorem readClock?_fraction (colons : Option Bool) (count : Nat) {n microsecond : Nat} (h : n < 10 ^ 2)
    (hmicrosecond : microsecond < 10 ^ 6) :
    readClock? colons (count + 1) (padded 2 n ++ '.' :: padded 6 microsecond) = some ⟨[n], microsecond, true⟩ := by
  have hlength := length_padded (by decide) hmicrosecond
  have hdigits : (padded 6 microsecond).all isAsciiDigit = true := List.all_eq_true.2 isAsciiDigit_of_mem_padded
  have hread : readSecondFraction? (padded 6 microsecond) = some ⟨[], microsecond, true⟩ := by
    have htake : (padded 6 microsecond).take 6 = padded 6 microsecond := List.take_of_length_le (by omega)
    have hdrop : (padded 6 microsecond).drop 6 = [] := List.drop_of_length_le (by omega)
    simp only [readSecondFraction?, htake, hdrop, hdigits, hlength, if_true, Nat.sub_self, List.replicate_zero,
      List.append_nil, ofDigitChars_padded]
    rfl
  obtain ⟨c, cs, hcs, -⟩ := padded_eq_cons 6 microsecond
  rw [readClock?, takeNumber?_padded _ (by decide) h]
  rw [hcs] at hread ⊢
  simp only [Option.bind_eq_bind, Option.bind_some, hread]
  simp

/-- A text of two fields, or of three fields and the digits of a second. -/
theorem clockOfText?_text {hour minute second microsecond : Nat} (hhour : hour < 10 ^ 2) (hminute : minute < 10 ^ 2)
    (hsecond : second < 10 ^ 2) (hmicrosecond : microsecond < 10 ^ 6) :
    clockOfText? (padded 2 hour ++ ':' :: padded 2 minute ++ ':' :: padded 2 second ++ fractionText microsecond) =
      some ⟨[hour, minute, second], microsecond, true⟩ := by
  have hlast : readClock? (some true) 1 (padded 2 second ++ fractionText microsecond) =
      some ⟨[second], microsecond, true⟩ := by
    unfold fractionText
    split
    · next hzero =>
        rw [List.append_nil, readClock?_end _ _ hsecond, hzero]
    · exact readClock?_fraction _ _ hsecond hmicrosecond
  simp only [clockOfText?, List.append_assoc, List.cons_append]
  rw [readClock?_colon _ hhour (by simp) (padded_append_ne_nil _ _ _),
    readClock?_colon _ hminute (by simp) (padded_append_ne_nil _ _ _), hlast]
  rfl

theorem clockOfText?_fields {hour minute : Nat} (hhour : hour < 10 ^ 2) (hminute : minute < 10 ^ 2) :
    clockOfText? (padded 2 hour ++ ':' :: padded 2 minute) = some ⟨[hour, minute], 0, true⟩ := by
  have hne := padded_append_ne_nil 2 minute []
  rw [List.append_nil] at hne
  rw [clockOfText?, readClock?_colon _ hhour (by simp) hne, readClock?_end _ _ hminute]
  rfl

/-! ## Times and offsets -/

theorem timeText_chars {t : TimeOfDay} : ∀ c ∈ timeText t, isAsciiDigit c = true ∨ c = ':' ∨ c = '.' := by
  intro c hc
  simp only [timeText, List.mem_append, List.mem_cons] at hc
  rcases hc with ((h | h | h) | h | h) | h
  · exact .inl (isAsciiDigit_of_mem_padded c h)
  · exact .inr (.inl h)
  · exact .inl (isAsciiDigit_of_mem_padded c h)
  · exact .inr (.inl h)
  · exact .inl (isAsciiDigit_of_mem_padded c h)
  · unfold fractionText at h
    split at h
    · cases h
    · rcases List.mem_cons.1 h with h | h
      · exact .inr (.inr h)
      · exact .inl (isAsciiDigit_of_mem_padded c h)

theorem startsOffset_of_mem_timeText {t : TimeOfDay} : ∀ c ∈ timeText t, (!startsOffset c) = true := by
  intro c hc
  rcases timeText_chars c hc with h | rfl | rfl
  · have hrange := isAsciiDigit_iff.1 h
    rw [Bool.not_eq_true', startsOffset]
    by_contra hstarts
    simp only [Bool.not_eq_false, Bool.or_eq_true, decide_eq_true_eq] at hstarts
    rcases hstarts with (rfl | rfl) | rfl
    · cases h
    · cases h
    · cases h
  · rfl
  · rfl

theorem clockOfText?_timeText (t : TimeOfDay) : clockOfText? (timeText t) =
    some ⟨[t.hour.val, t.minute.val, t.second.val], t.microsecond.val, true⟩ := by
  have hhour := t.hour.isLt
  have hminute := t.minute.isLt
  have hsecond := t.second.isLt
  exact clockOfText?_text (by omega) (by omega) (by omega) t.microsecond.isLt

theorem toOffset?_eq {o : Offset} {clock : ClockText}
    (hseconds : clock.field 0 * 3600 + clock.field 1 * 60 + clock.field 2 = o.microseconds.natAbs / 1000000)
    (hmicrosecond : clock.microsecond = o.microseconds.natAbs % 1000000) :
    clock.toOffset? (decide (o.microseconds < 0)) = some o := by
  have hsigned (n : Int) (h : n = o.microseconds) : Offset.ofMicroseconds? n = some o := by
    rw [h, Offset.ofMicroseconds?, dif_pos o.valid]
  unfold ClockText.toOffset?
  dsimp only
  rw [hseconds, hmicrosecond]
  apply hsigned
  by_cases hnegative : o.microseconds < 0
  · rw [if_pos (decide_eq_true hnegative)]
    omega
  · rw [if_neg (by simpa using hnegative)]
    omega

/-- Behind its sign the text of an offset is a clock text of the offset. -/
theorem clockOfText?_offsetText (o : Offset) : ∃ rest clock,
    offsetText o = (if o.microseconds < 0 then '-' else '+') :: rest ∧ clockOfText? rest = some clock ∧
      clock.complete = true ∧ clock.toOffset? (decide (o.microseconds < 0)) = some o := by
  have hvalid : o.microseconds.natAbs < 86400000000 := o.valid
  generalize hmagnitude : o.microseconds.natAbs = magnitude at *
  have hhour : magnitude / 1000000 / 3600 < 10 ^ 2 := by omega
  have hminute : magnitude / 1000000 / 60 % 60 < 10 ^ 2 := by omega
  by_cases hfields : magnitude / 1000000 % 60 = 0 ∧ magnitude % 1000000 = 0
  · have htext : offsetText o = (if o.microseconds < 0 then '-' else '+') ::
        (padded 2 (magnitude / 1000000 / 3600) ++ ':' :: padded 2 (magnitude / 1000000 / 60 % 60)) := by
      simp only [offsetText, hmagnitude, if_pos hfields, List.append_nil]
      rfl
    refine ⟨_, _, htext, clockOfText?_fields hhour hminute, rfl, toOffset?_eq ?_ ?_⟩
    · simp only [ClockText.field, List.getElem?_cons_zero, List.getElem?_cons_succ, List.getElem?_nil,
        Option.getD_some, Option.getD_none]
      omega
    · rw [hmagnitude]
      exact hfields.2.symm
  · have htext : offsetText o = (if o.microseconds < 0 then '-' else '+') ::
        (padded 2 (magnitude / 1000000 / 3600) ++ ':' :: padded 2 (magnitude / 1000000 / 60 % 60) ++
          ':' :: padded 2 (magnitude / 1000000 % 60) ++ fractionText (magnitude % 1000000)) := by
      simp only [offsetText, hmagnitude, if_neg hfields, List.append_assoc, List.cons_append]
    refine ⟨_, _, htext, clockOfText?_text hhour hminute (by omega) (by omega), rfl, toOffset?_eq ?_ ?_⟩
    · simp only [ClockText.field, List.getElem?_cons_zero, List.getElem?_cons_succ, Option.getD_some]
      omega
    · rw [hmagnitude]

theorem timeOfText?_text (t : TimeOfDay) (o : Offset) :
    timeOfText? (timeText t ++ offsetText o) = some ({ t with fold := false }, some o) := by
  have htime : TimeOfDay.ofNumbers? t.hour.val t.minute.val t.second.val t.microsecond.val =
      some { t with fold := false } := by
    rw [TimeOfDay.ofNumbers?, dif_pos ⟨t.hour.isLt, t.minute.isLt, t.second.isLt, t.microsecond.isLt⟩]
  obtain ⟨rest, clock, htext, hclock, hcomplete, hoffset⟩ := clockOfText?_offsetText o
  have hend : ∀ c ∈ (offsetText o).head?, (!startsOffset c) = false := by
    rw [htext]
    rintro c ⟨⟩
    split <;> rfl
  have hminus : decide ((if o.microseconds < 0 then '-' else '+') = '-') = decide (o.microseconds < 0) := by
    by_cases h : o.microseconds < 0
    · rw [if_pos h, decide_eq_true h]
      rfl
    · rw [if_neg h, decide_eq_false h]
      rfl
  rw [timeOfText?, takeWhile_run startsOffset_of_mem_timeText hend, dropWhile_run startsOffset_of_mem_timeText hend,
    clockOfText?_timeText, htext]
  simp only [Option.bind_eq_bind, Option.bind_some, ClockText.toTime?, ClockText.field, List.getElem?_cons_zero,
    List.getElem?_cons_succ, Option.getD_some, htime]
  split
  · next heq => cases heq
  · next heq =>
      have hsign := (List.cons.inj heq).1
      split at hsign <;> cases hsign
  · next heq =>
      obtain ⟨rfl, rfl⟩ := List.cons.inj heq
      rw [hclock, Option.bind_some, if_pos hcomplete, hminus, hoffset]
      rfl

/-! ## Date-times -/

/-- The date-time that is read from the text of a date-time. -/
def reread (d : DateTime) : DateTime :=
  { date := d.date, time := { d.time with fold := false }, zone := d.offset.map .fixed }

@[simp] theorem clockReading_reread (d : DateTime) : d.reread.clockReading = d.clockReading := rfl

@[simp] theorem offset_reread (d : DateTime) : d.reread.offset = d.offset := by
  unfold reread offset
  cases d.zone <;> rfl

@[simp] theorem isAware_reread (d : DateTime) : d.reread.isAware = d.isAware := by
  unfold reread offset isAware
  cases d.zone <;> rfl

theorem reread_eq {d : DateTime} (hfold : d.time.fold = false) (hzone : ∀ zone ∈ d.zone, ∃ o, zone = .fixed o) :
    d.reread = d := by
  obtain ⟨date, ⟨hour, minute, second, microsecond, fold⟩, zone⟩ := d
  obtain rfl : fold = false := hfold
  cases zone with
  | none => rfl
  | some zone =>
      obtain ⟨o, rfl⟩ := hzone zone rfl
      rfl

/-- An instant is read back from its text with its offset. -/
theorem ofText?_toText {d : DateTime} (separator : Char) (h : d.isAware = true) :
    ofText? (d.toText separator) = some d.reread := by
  obtain ⟨zone, hzone⟩ := Option.isSome_iff_exists.1 h
  have hoffset : d.offset = some (zone.offsetAt d.clockReading d.time.fold) := by rw [offset, hzone, Option.map_some]
  have htext : d.toText separator = dateText d.date ++ separator ::
      (timeText d.time ++ offsetText (zone.offsetAt d.clockReading d.time.fold)) := by
    simp [toText, hoffset]
  rw [htext, ofText?, takeDate?_dateText]
  simp only [Option.bind_eq_bind, Option.bind_some, timeOfText?_text, reread, hoffset]
  rfl

/-- The characters of texts of date-times. -/
def isIsoChar (c : Char) : Bool := isAsciiDigit c || ['-', 'T', ':', '.', '+'].contains c

theorem isIsoChar_of_mem_padded {width n : Nat} : ∀ c ∈ padded width n, isIsoChar c = true := by
  intro c hc
  rw [isIsoChar, isAsciiDigit_of_mem_padded c hc]
  rfl

theorem isIsoChar_of_mem_fractionText {n : Nat} : ∀ c ∈ fractionText n, isIsoChar c = true := by
  unfold fractionText
  split
  · simp
  · rw [List.forall_mem_cons]
    exact ⟨rfl, isIsoChar_of_mem_padded⟩

theorem isIsoChar_of_mem_offsetText {o : Offset} : ∀ c ∈ offsetText o, isIsoChar c = true := by
  simp only [offsetText, List.forall_mem_append, List.forall_mem_cons]
  refine ⟨⟨⟨?_, isIsoChar_of_mem_padded⟩, rfl, isIsoChar_of_mem_padded⟩, ?_⟩
  · split <;> rfl
  · split
    · simp
    · rw [List.forall_mem_append, List.forall_mem_cons]
      exact ⟨⟨rfl, isIsoChar_of_mem_padded⟩, isIsoChar_of_mem_fractionText⟩

theorem isIsoChar_of_mem_toText {d : DateTime} : ∀ c ∈ d.toText 'T', isIsoChar c = true := by
  simp only [toText, dateText, timeText, List.forall_mem_append, List.forall_mem_cons]
  refine ⟨⟨⟨⟨isIsoChar_of_mem_padded, rfl, isIsoChar_of_mem_padded⟩, rfl, isIsoChar_of_mem_padded⟩, rfl,
    ⟨⟨isIsoChar_of_mem_padded, rfl, isIsoChar_of_mem_padded⟩, rfl, isIsoChar_of_mem_padded⟩,
    isIsoChar_of_mem_fractionText⟩, ?_⟩
  cases d.offset with
  | none => simp
  | some o => exact isIsoChar_of_mem_offsetText

theorem isBlank_of_isIsoChar {c : Char} (h : isIsoChar c = true) : isBlank c = false := by
  rw [isIsoChar, Bool.or_eq_true] at h
  rcases h with h | h
  · exact isBlank_of_isAsciiDigit h
  · simp only [List.contains_eq_mem, decide_eq_true_eq, List.mem_cons, List.not_mem_nil, or_false] at h
    rcases h with rfl | rfl | rfl | rfl | rfl <;> rfl

theorem fold_of_timeOfText? {cs : List Char} {t : TimeOfDay} {o : Option Offset}
    (h : timeOfText? cs = some (t, o)) : t.fold = false := by
  simp only [timeOfText?, Option.bind_eq_bind, Option.bind_eq_some_iff] at h
  obtain ⟨clock, -, time, htime, h⟩ := h
  have hfold : time.fold = false := by
    unfold ClockText.toTime? TimeOfDay.ofNumbers? at htime
    split at htime
    · rw [← Option.some.inj htime]
    · cases htime
  split at h
  · split at h
    · rwa [← (Prod.mk.inj (Option.some.inj h)).1]
    · cases h
  · split at h
    · rwa [← (Prod.mk.inj (Option.some.inj h)).1]
    · cases h
  · obtain ⟨offsetClock, -, h⟩ := Option.bind_eq_some_iff.1 h
    split at h
    · obtain ⟨o', -, h⟩ := Option.bind_eq_some_iff.1 h
      rwa [← (Prod.mk.inj (Option.some.inj h)).1]
    · cases h

/-- What is read has a fixed zone or none, and no time of it is meant for a second passage. -/
theorem isFixed_of_ofText? {cs : List Char} {d : DateTime} (h : ofText? cs = some d) :
    d.time.fold = false ∧ ∀ zone ∈ d.zone, ∃ o, zone = .fixed o := by
  simp only [ofText?, Option.bind_eq_bind, Option.bind_eq_some_iff] at h
  obtain ⟨⟨date, rest⟩, -, h⟩ := h
  dsimp only at h
  split at h
  · obtain rfl := Option.some.inj h
    exact ⟨rfl, nofun⟩
  · obtain ⟨⟨time, offset⟩, htime, h⟩ := Option.bind_eq_some_iff.1 h
    obtain rfl := Option.some.inj h
    refine ⟨fold_of_timeOfText? htime, fun zone hzone => ?_⟩
    obtain ⟨o, -, rfl⟩ := Option.map_eq_some_iff.1 hzone
    exact ⟨o, rfl⟩

theorem ofLiteral?_toText {d : DateTime} (h : d.isAware = true) : ofLiteral? (d.toText 'T') = some d.reread := by
  have hplain : ∀ c ∈ d.toText 'T', isBlank c = false := fun c hc =>
    isBlank_of_isIsoChar (isIsoChar_of_mem_toText c hc)
  have haware : d.reread.isAware = true := (isAware_reread d).trans h
  rw [ofLiteral?, trim, trimBy_of_forall hplain, ofText?_toText 'T' h, Option.map_some, assumeUtc_of_isAware haware]

/-- What was read from a literal is read back from its text. -/
theorem reread_of_ofLiteral? {cs : List Char} {d : DateTime} (h : ofLiteral? cs = some d) : d.reread = d := by
  obtain ⟨e, he, rfl⟩ := Option.map_eq_some_iff.1 h
  obtain ⟨hfold, hzone⟩ := isFixed_of_ofText? he
  refine reread_eq hfold ?_
  rintro zone ⟨⟩
  cases hnaive : e.zone with
  | none => exact ⟨.utc, rfl⟩
  | some zone => exact hzone zone hnaive

end RuleExpr.DateTime
