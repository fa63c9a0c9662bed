/-!
# Date-times

Days of the proleptic Gregorian calendar from year 1 to year 9999, times of day to the microsecond, and
offsets from universal time of less than a day. A time zone has one offset for good or changes it with its
clock. Where its clock is set back, it passes some readings twice; where it is set forward, it skips some. A
date-time without a zone is naive: it is no instant.
-/

namespace RuleExpr

def isLeapYear (year : Nat) : Bool :=
  year % 4 == 0 && (year % 100 != 0 || year % 400 == 0)

/-- The length of a month; zero for a number that is no month. -/
def daysInMonth (year month : Nat) : Nat :=
  match month with
  | 1 | 3 | 5 | 7 | 8 | 10 | 12 => 31
  | 4 | 6 | 9 | 11 => 30
  | 2 => if isLeapYear year then 29 else 28
  | _ => 0

def daysInYear (year : Nat) : Nat :=
  if isLeapYear year then 366 else 365

/-- Whether the three numbers name a day of the calendar. -/
def isDate (year month day : Nat) : Bool :=
  1 ≤ year && year ≤ 9999 && 1 ≤ day && day ≤ daysInMonth year month

structure Date where
  year : Nat
  month : Nat
  day : Nat
  valid : isDate year month day = true
deriving DecidableEq, Repr

/-- The day with the given numbers, if there is one. -/
def Date.ofNumbers? (year month day : Nat) : Option Date :=
  if h : isDate year month day = true then some ⟨year, month, day, h⟩ else none

@[simp] theorem Date.ofNumbers?_numbers (d : Date) :
    Date.ofNumbers? d.year d.month d.day = some d := by
  simp [Date.ofNumbers?, d.valid]

def daysBeforeYear (year : Nat) : Nat :=
  let past := year - 1
  past * 365 + past / 4 - past / 100 + past / 400

/-- The number of days before a month in its year. -/
def daysBeforeMonth (year : Nat) : Nat → Nat
  | 0 => 0
  | month + 1 => daysBeforeMonth year month + daysInMonth year month

/-- The number of days before a day, from the start of year 1. -/
def Date.dayNumber (d : Date) : Nat :=
  daysBeforeYear d.year + daysBeforeMonth d.year d.month + (d.day - 1)

/-- The month and the day of the month at a number of days after the first of a month, looking through the
given months in turn. -/
def monthAndDay? (year : Nat) : List Nat → Nat → Option (Nat × Nat)
  | [], _ => none
  | m :: ms, n =>
    if n < daysInMonth year m then some (m, n + 1) else monthAndDay? year ms (n - daysInMonth year m)

/-- The day at a number of days after the first of January of a year. -/
def Date.ofYearDay? (year n : Nat) : Option Date := do
  let (month, day) ← monthAndDay? year [1, 2, 3, 4, 5, 6, 7, 8, 9, 10, 11, 12] n
  Date.ofNumbers? year month day

/-- The weekday of the first of January, counted from Monday as 0. -/
def januaryWeekday (year : Nat) : Nat :=
  daysBeforeYear year % 7

/-- The number of weeks of a week-numbered year: 53 if it starts on a Thursday, or is a leap year that
starts on a Wednesday. -/
def weeksInYear (year : Nat) : Nat :=
  if januaryWeekday year = 3 || (januaryWeekday year = 2 && isLeapYear year) then 53 else 52

/-- The day named by a year, a week and a weekday, counted from 1 to 7. Week 1 holds the first Thursday of
the year, so the first and the last days of a year may lie in its neighbours. -/
def Date.ofWeek? (year week weekday : Nat) : Option Date :=
  if year = 0 ∨ week = 0 ∨ weeksInYear year < week ∨ weekday = 0 ∨ 7 < weekday then none
  else
    let firstMonday : Int :=
      if 3 < januaryWeekday year then 7 - januaryWeekday year else -januaryWeekday year
    let n : Int := firstMonday + (week - 1) * 7 + (weekday - 1)
    if n < 0 then Date.ofYearDay? (year - 1) (daysInYear (year - 1) + n).toNat
    else if n < daysInYear year then Date.ofYearDay? year n.toNat
    else Date.ofYearDay? (year + 1) (n - daysInYear year).toNat

structure TimeOfDay where
  hour : Fin 24
  minute : Fin 60
  second : Fin 60
  microsecond : Fin 1000000
  /-- Whether the second passage is meant, if the clock of a zone passes the time twice. -/
  fold : Bool
deriving DecidableEq, Repr

/-- The time with the given numbers, if there is one. -/
def TimeOfDay.ofNumbers? (hour minute second microsecond : Nat) : Option TimeOfDay :=
  if h : hour < 24 ∧ minute < 60 ∧ second < 60 ∧ microsecond < 1000000 then
    some ⟨⟨hour, h.1⟩, ⟨minute, h.2.1⟩, ⟨second, h.2.2.1⟩, ⟨microsecond, h.2.2.2⟩, false⟩
  else none

def TimeOfDay.midnight : TimeOfDay := ⟨0, 0, 0, 0, false⟩

def TimeOfDay.microseconds (t : TimeOfDay) : Nat :=
  ((t.hour * 60 + t.minute) * 60 + t.second) * 1000000 + t.microsecond

def microsecondsPerDay : Nat := 86400000000

/-- An offset from universal time, in microseconds eastward. -/
structure Offset where
  microseconds : Int
  valid : microseconds.natAbs < microsecondsPerDay
deriving DecidableEq, Repr

/-- The offset of a number of microseconds, if it is less than a day. -/
def Offset.ofMicroseconds? (n : Int) : Option Offset :=
  if h : n.natAbs < microsecondsPerDay then some ⟨n, h⟩ else none

def Offset.utc : Offset := ⟨0, by decide⟩

/-- The offsets of a zone from a clock reading on, given in microseconds from the start of year 1: the one for
the first passage of a reading and the one for the second. -/
structure ZoneSpan where
  start : Int
  first : Offset
  second : Offset
deriving DecidableEq, Repr

/-- A zone whose offset changes with its clock. It is the same zone as another one if it is the same object of
the host, whatever the two are shown as. -/
structure Zone where
  identity : Nat
  shown : String
  /-- The offset in front of the first span. -/
  initial : Offset
  /-- From the earliest to the latest. -/
  spans : List ZoneSpan
deriving DecidableEq, Repr

/-- The offsets for the two passages of a clock reading: those of the last span that has begun. -/
def Zone.offsets (z : Zone) (reading : Int) : Offset × Offset :=
  z.spans.foldl (fun offsets span => if span.start ≤ reading then (span.first, span.second) else offsets)
    (z.initial, z.initial)

inductive TimeZone where
  | fixed (offset : Offset)
  | changing (zone : Zone)
deriving DecidableEq, Repr

def TimeZone.utc : TimeZone := .fixed .utc

/-- The offset of a zone at a clock reading, on its first or its second passage. -/
def TimeZone.offsetAt (zone : TimeZone) (reading : Int) (fold : Bool) : Offset :=
  match zone with
  | .fixed offset => offset
  | .changing z => if fold then (z.offsets reading).2 else (z.offsets reading).1

/-- A date-time; without a zone it is naive. A zone that does not know its offset is none. -/
structure DateTime where
  date : Date
  time : TimeOfDay
  zone : Option TimeZone
deriving DecidableEq, Repr

namespace DateTime

/-- Microseconds from the start of year 1 on the clock that the date-time shows. -/
def clockReading (d : DateTime) : Int :=
  d.date.dayNumber * microsecondsPerDay + d.time.microseconds

def offset (d : DateTime) : Option Offset :=
  d.zone.map (·.offsetAt d.clockReading d.time.fold)

/-- The position on the line of instants; for a naive date-time, on that of clock readings. -/
def position (d : DateTime) : Int :=
  match d.offset with
  | some o => d.clockReading - o.microseconds
  | none => d.clockReading

/-- Whether the date-time is an instant. -/
def isAware (d : DateTime) : Bool :=
  d.zone.isSome

/-- Whether the zone has two offsets for the clock reading, because its clock passes the reading twice or
skips it. -/
def isTwofold (d : DateTime) : Bool :=
  match d.zone with
  | some zone => zone.offsetAt d.clockReading false != zone.offsetAt d.clockReading true
  | none => false

/-- A naive date-time taken as universal time; others stay. -/
def assumeUtc (d : DateTime) : DateTime :=
  { d with zone := some (d.zone.getD .utc) }

@[simp] theorem isAware_assumeUtc (d : DateTime) : d.assumeUtc.isAware = true := rfl

@[simp] theorem assumeUtc_of_isAware {d : DateTime} (h : d.isAware = true) : d.assumeUtc = d := by
  obtain ⟨date, time, _ | zone⟩ := d
  · simp [isAware] at h
  · rfl

end DateTime

end RuleExpr
