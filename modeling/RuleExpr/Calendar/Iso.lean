import RuleExpr.Calendar.DateTime
import RuleExpr.Text.Blank
import RuleExpr.Numeral

/-!
# Date-times as ISO 8601 text

Writing uses one form: `YYYY-MM-DDTHH:MM:SS`, with six digits of a second and an offset where they are
needed. Reading accepts calendar and week dates, with or without hyphens, then any one character and a
clock time, then an offset or `Z`. The clock is read leniently: a group of digits may be missing at the
end, one character may stand unread in front of the offset, and digits without a mark may continue as
digits of a second.
-/

namespace RuleExpr.DateTime

open Numeral (isAsciiDigit)

/-- The number in decimal digits, with zeros in front up to the width. -/
def padded (width n : Nat) : List Char :=
  let digits := Nat.toDigits 10 n
  List.replicate (width - digits.length) '0' ++ digits

/-- A point and six digits, unless there are no microseconds. -/
def fractionText (microsecond : Nat) : List Char :=
  if microsecond = 0 then [] else '.' :: padded 6 microsecond

def dateText (d : Date) : List Char :=
  padded 4 d.year ++ '-' :: padded 2 d.month ++ '-' :: padded 2 d.day

def timeText (t : TimeOfDay) : List Char :=
  padded 2 t.hour ++ ':' :: padded 2 t.minute ++ ':' :: padded 2 t.second ++
    fractionText t.microsecond

/-- The text of an offset; the seconds are left out if they are zero. -/
def offsetText (o : Offset) : List Char :=
  let magnitude := o.microseconds.natAbs
  let seconds := magnitude / 1000000
  let microsecond := magnitude % 1000000
  (if o.microseconds < 0 then '-' else '+') ::
    padded 2 (seconds / 3600) ++ ':' :: padded 2 (seconds / 60 % 60) ++
      if seconds % 60 = 0 ∧ microsecond = 0 then []
      else ':' :: padded 2 (seconds % 60) ++ fractionText microsecond

/-- The text of a date-time with the given character between day and time. -/
def toText (separator : Char) (d : DateTime) : List Char :=
  dateText d.date ++ separator :: timeText d.time ++ (d.offset.map offsetText).getD []

/-- Reads a number of exactly `width` digits. -/
def takeNumber? (width : Nat) (cs : List Char) : Option (Nat × List Char) :=
  let digits := cs.take width
  if digits.length = width ∧ digits.all isAsciiDigit = true then
    some (Nat.ofDigitChars 10 digits 0, cs.drop width)
  else none

/-- Reads a week and an optional weekday behind a year and `-W`. A hyphen followed by any character and a
digit is the separator of a time, not of a weekday. -/
def takeHyphenatedWeek? (year : Nat) (cs : List Char) : Option (Date × List Char) := do
  let (week, cs) ← takeNumber? 2 cs
  let plain : Option (Date × List Char) := (Date.ofWeek? year week 1).map (·, cs)
  match cs with
  | '-' :: rest =>
    if (rest[1]?.map isAsciiDigit).getD false then plain
    else do
      let (weekday, rest) ← takeNumber? 1 rest
      return (← Date.ofWeek? year week weekday, rest)
  | _ => plain

/-- Reads a week and an optional weekday behind a year and `W`. The weekday is there if one digit or an
even number of digits follows the week. -/
def takeCompactWeek? (year : Nat) (cs : List Char) : Option (Date × List Char) := do
  let (week, cs) ← takeNumber? 2 cs
  let following := (cs.takeWhile isAsciiDigit).length
  if following = 0 ∨ (following ≠ 1 ∧ following % 2 = 1) then
    return (← Date.ofWeek? year week 1, cs)
  else
    let (weekday, rest) ← takeNumber? 1 cs
    return (← Date.ofWeek? year week weekday, rest)

/-- Reads a day at the front of a text. -/
def takeDate? (cs : List Char) : Option (Date × List Char) := do
  let (year, cs) ← takeNumber? 4 cs
  match cs with
  | '-' :: 'W' :: cs => takeHyphenatedWeek? year cs
  | 'W' :: cs => takeCompactWeek? year cs
  | '-' :: cs =>
    let (month, cs) ← takeNumber? 2 cs
    match cs with
    | '-' :: cs =>
      let (day, cs) ← takeNumber? 2 cs
      return (← Date.ofNumbers? year month day, cs)
    | _ => none
  | cs =>
    let (month, cs) ← takeNumber? 2 cs
    let (day, cs) ← takeNumber? 2 cs
    return (← Date.ofNumbers? year month day, cs)

/-- The numbers of a clock text and whether the text ends with them. -/
structure ClockText where
  fields : List Nat
  microsecond : Nat
  complete : Bool
deriving DecidableEq, Repr

/-- Whether a text ends here; a NUL ends it too. -/
def endsHere : List Char → Bool
  | [] => true
  | c :: _ => c == '\x00'

/-- Reads the digits of a second, of which the first six count. -/
def readSecondFraction? (cs : List Char) : Option ClockText :=
  let digits := cs.take 6
  if digits.all isAsciiDigit then
    some ⟨[], Nat.ofDigitChars 10 (digits ++ List.replicate (6 - digits.length) '0') 0,
      endsHere ((cs.drop 6).dropWhile isAsciiDigit)⟩
  else none

/-- Reads up to `count` fields of two digits and the digits of a second. The first mark decides whether
colons stand between the fields. -/
def readClock? (colons : Option Bool) : Nat → List Char → Option ClockText
  | 0, cs => readSecondFraction? cs
  | count + 1, cs => do
    let (field, cs) ← takeNumber? 2 cs
    match cs with
    | [] => return ⟨[field], 0, true⟩
    | [c] => if c.toNat < 128 then return ⟨[field], 0, c == '\x00'⟩ else none
    | c :: rest =>
      let withColons := colons.getD (c = ':')
      let clock ←
        if withColons && c = ':' then readClock? (some withColons) count rest
        else if c = '.' || c = ',' then readSecondFraction? rest
        else if !withColons then readClock? (some withColons) count (c :: rest)
        else none
      return { clock with fields := field :: clock.fields }

/-- A field of a clock text; a missing one is zero. -/
def ClockText.field (c : ClockText) (i : Nat) : Nat :=
  (c.fields[i]?).getD 0

/-- Reads a clock text of at most three fields. -/
def clockOfText? (cs : List Char) : Option ClockText :=
  readClock? none 3 cs

/-- The offset of a sign and a clock text. The fields may exceed those of a clock as long as the whole is less
than a day. -/
def ClockText.toOffset? (c : ClockText) (negative : Bool) : Option Offset :=
  let seconds := c.field 0 * 3600 + c.field 1 * 60 + c.field 2
  let magnitude : Int := seconds * 1000000 + c.microsecond
  Offset.ofMicroseconds? (if negative then -magnitude else magnitude)

/-- The time of day of a clock text, if its fields are in range. -/
def ClockText.toTime? (c : ClockText) : Option TimeOfDay :=
  TimeOfDay.ofNumbers? (c.field 0) (c.field 1) (c.field 2) c.microsecond

def startsOffset (c : Char) : Bool :=
  c = '+' || c = '-' || c = 'Z'

/-- Reads a time of day and an offset. -/
def timeOfText? (cs : List Char) : Option (TimeOfDay × Option Offset) := do
  let clock ← clockOfText? (cs.takeWhile (!startsOffset ·))
  let time ← clock.toTime?
  match cs.dropWhile (!startsOffset ·) with
  | [] => if clock.complete then return (time, none) else none
  | 'Z' :: rest => if endsHere rest then return (time, some .utc) else none
  | sign :: rest =>
    let offsetClock ← clockOfText? rest
    if offsetClock.complete then return (time, some (← offsetClock.toOffset? (sign = '-')))
    else none

/-- Reads a date-time: a day alone, or a day, any character and a time. The zone of an offset is fixed. -/
def ofText? (cs : List Char) : Option DateTime := do
  let (date, rest) ← takeDate? cs
  match rest with
  | [] => return ⟨date, .midnight, none⟩
  | _ :: timeText =>
    let (time, offset) ← timeOfText? timeText
    return ⟨date, time, offset.map .fixed⟩

/-- The date-time of a literal: blanks around it do not count and a naive one is in universal time. -/
def ofLiteral? (cs : List Char) : Option DateTime :=
  (ofText? (Text.trim cs)).map assumeUtc

theorem isAware_of_ofLiteral? {cs : List Char} {d : DateTime} (h : ofLiteral? cs = some d) :
    d.isAware = true := by
  obtain ⟨e, -, rfl⟩ := Option.map_eq_some_iff.1 h
  rfl

end RuleExpr.DateTime
