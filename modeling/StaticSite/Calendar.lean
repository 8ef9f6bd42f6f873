/-!
# Dates and moments

A date of the proleptic Gregorian calendar, and a moment of such a day with an optional offset from
universal time.
-/

namespace StaticSite

structure Date where
  year : Nat
  month : Nat
  day : Nat
  deriving DecidableEq, Repr

structure Moment where
  date : Date
  hour : Nat
  minute : Nat
  second : Nat
  microsecond : Nat
  /-- Minutes east of universal time. -/
  offset : Option Int
  deriving DecidableEq, Repr

/-- `n` in at least `width` digits. -/
def padded (width n : Nat) : String :=
  let ds := Nat.toDigits 10 n
  String.ofList (List.replicate (width - ds.length) '0' ++ ds)

namespace Date

def isLeap (year : Nat) : Bool := year % 4 == 0 && (year % 100 != 0 || year % 400 == 0)

def daysIn (year month : Nat) : Nat :=
  if month = 2 then if isLeap year then 29 else 28
  else if month ∈ [4, 6, 9, 11] then 30 else 31

/-- The number of the day, the first of January of the year one being day one. -/
def dayNumber (d : Date) : Nat :=
  let years := d.year - 1
  365 * years + years / 4 - years / 100 + years / 400 +
    ((List.range' 1 (d.month - 1)).map (daysIn d.year)).foldl (· + ·) 0 + d.day

def text (d : Date) : String := padded 4 d.year ++ "-" ++ padded 2 d.month ++ "-" ++ padded 2 d.day

end Date

namespace Moment

def offsetText : Option Int → String
  | none => ""
  | some m =>
    (if m < 0 then "-" else "+") ++ padded 2 (m.natAbs / 60) ++ ":" ++ padded 2 (m.natAbs % 60)

/-- The time of day with its offset; microseconds only if there are any. -/
def timeText (t : Moment) : String :=
  padded 2 t.hour ++ ":" ++ padded 2 t.minute ++ ":" ++ padded 2 t.second ++
    (if t.microsecond = 0 then "" else "." ++ padded 6 t.microsecond) ++ offsetText t.offset

/-- Microseconds on the clock of universal time, or on the local clock if there is no offset. -/
def instant (t : Moment) : Int :=
  let minutes : Int := (t.date.dayNumber * 24 + t.hour) * 60 + t.minute
  ((minutes - t.offset.getD 0) * 60 + t.second) * 1000000 + t.microsecond

/-- The two are one point in time, or read the same on clocks without an offset. -/
def sameInstant (s t : Moment) : Bool :=
  s.offset.isSome == t.offset.isSome && s.instant == t.instant

def isoText (t : Moment) : String := t.date.text ++ "T" ++ t.timeText

def text (t : Moment) : String := t.date.text ++ " " ++ t.timeText

end Moment

end StaticSite
