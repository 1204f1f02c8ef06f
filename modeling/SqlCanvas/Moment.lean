import SqlCanvas.Number.Numeral

/-!
# Dates and times

Calendar dates, clock times and their combination, with the distance to UTC where one is known.
Three texts are written for them: the ISO form, the ISO form in which the distance to UTC is `Z` or
whole minutes, and the constructor form that shows a value inside a list.
-/

namespace SqlCanvas

open Text

structure Date where
  year : Nat
  month : Nat
  day : Nat
  deriving DecidableEq

structure Clock where
  hour : Nat
  minute : Nat
  second : Nat
  microsecond : Nat
  /-- Microseconds east of UTC, where known. -/
  offset : Option Int
  deriving DecidableEq

structure Moment where
  date : Date
  clock : Clock
  deriving DecidableEq

/-- A number with zeros in front, `width` digits wide at least. -/
def zeroPadded (width n : Nat) : Text :=
  let digits := Numeral.ofNat n
  List.replicate (width - digits.length) '0' ++ digits

def commaSeparated (ns : List Nat) : Text :=
  [',', ' '].intercalate (ns.map Numeral.ofNat)

namespace Date

def iso (d : Date) : Text :=
  zeroPadded 4 d.year ++ '-' :: zeroPadded 2 d.month ++ '-' :: zeroPadded 2 d.day

def constructorForm (d : Date) : Text :=
  "datetime.date(".toList ++ commaSeparated [d.year, d.month, d.day] ++ [')']

end Date

namespace Clock

def microsecondsPerSecond : Nat := 1000000

/-- Hours and minutes of a distance to UTC, which is given by its sign and its size in seconds. -/
def hoursAndMinutes (negative : Bool) (seconds : Nat) : Text :=
  (if negative then '-' else '+') :: zeroPadded 2 (seconds / 3600) ++
    ':' :: zeroPadded 2 (seconds / 60 % 60)

/-- A fraction of a second, where there is one. -/
def fractionText (microsecond : Nat) : Text :=
  if microsecond = 0 then [] else '.' :: zeroPadded 6 microsecond

/-- The distance to UTC as `+hh:mm`, with seconds and their fraction only where there are any. -/
def offsetText (offset : Int) : Text :=
  let size := offset.natAbs / microsecondsPerSecond
  let fraction := fractionText (offset.natAbs % microsecondsPerSecond)
  hoursAndMinutes (offset < 0) size ++
    if size % 60 = 0 && fraction.isEmpty then [] else ':' :: zeroPadded 2 (size % 60) ++ fraction

/-- The distance to UTC, rounded to seconds with halves away from zero, as `Z` if it is zero and
else as `+hh:mm`, where seconds are left out. -/
def roundedOffsetText (offset : Int) : Text :=
  let size := (offset.natAbs + microsecondsPerSecond / 2) / microsecondsPerSecond
  if size = 0 then ['Z'] else hoursAndMinutes (offset < 0) size

def timeText (c : Clock) : Text :=
  zeroPadded 2 c.hour ++ ':' :: zeroPadded 2 c.minute ++ ':' :: zeroPadded 2 c.second ++
    fractionText c.microsecond

def iso (c : Clock) : Text :=
  c.timeText ++ (c.offset.map offsetText).getD []

/-- The ISO form in which a time at UTC ends in `Z`, and any other distance to UTC is in minutes. -/
def isoUtc (c : Clock) : Text :=
  c.timeText ++ (c.offset.map roundedOffsetText).getD []

/-- Hour and minute, and the seconds and microseconds up to the last one that is not zero. -/
def shownParts (c : Clock) : List Nat :=
  [c.hour, c.minute] ++
    if c.microsecond = 0 then if c.second = 0 then [] else [c.second]
    else [c.second, c.microsecond]

/-- A time zone in constructor form; a distance is whole days, and the seconds and microseconds that
come on top of them. -/
def zoneForm : Option Int → Text
  | none => []
  | some 0 => ", tzinfo=datetime.timezone.utc".toList
  | some offset =>
    let size := offset / (microsecondsPerSecond : Int)
    let parts := [("days=", size / 86400), ("seconds=", size % 86400),
      ("microseconds=", offset % (microsecondsPerSecond : Int))]
    ", tzinfo=datetime.timezone(datetime.timedelta(".toList ++
      [',', ' '].intercalate ((parts.filter (·.2 != 0)).map fun part =>
        part.1.toList ++ Numeral.ofInt part.2) ++
      [')', ')']

def constructorForm (c : Clock) : Text :=
  "datetime.time(".toList ++ commaSeparated c.shownParts ++ zoneForm c.offset ++ [')']

end Clock

namespace Moment

/-- The ISO form with `separator` between date and time. -/
def isoWith (separator : Char) (m : Moment) : Text :=
  m.date.iso ++ separator :: m.clock.iso

def iso (m : Moment) : Text :=
  m.isoWith 'T'

def isoUtc (m : Moment) : Text :=
  m.date.iso ++ 'T' :: m.clock.isoUtc

def constructorForm (m : Moment) : Text :=
  "datetime.datetime(".toList ++
    commaSeparated ([m.date.year, m.date.month, m.date.day] ++ m.clock.shownParts) ++
    Clock.zoneForm m.clock.offset ++ [')']

end Moment

/-- The number written by exactly `width` digits at the start, and the rest. -/
def readFixed? (width : Nat) (t : Text) : Option (Nat × Text) :=
  let digits := t.take width
  if digits.length = width ∧ digits.all isDecimal then
    some (Numeral.value digits, t.drop width)
  else none

/-- A two digit number behind a colon, or zero where no colon follows. -/
def readColonPart (t : Text) : Nat × Text :=
  match t with
  | ':' :: rest => (readFixed? 2 rest).getD (0, t)
  | _ => (0, t)

namespace Date

def split? (t : Text) : Option (Date × Text) := do
  let (year, t) ← readFixed? 4 t
  let ('-' :: t) := t | none
  let (month, t) ← readFixed? 2 t
  let ('-' :: t) := t | none
  let (day, t) ← readFixed? 2 t
  if 1 ≤ year ∧ 1 ≤ month ∧ month ≤ 12 ∧ 1 ≤ day ∧ day ≤ 31 then
    return (⟨year, month, day⟩, t)
  else none

def read? (t : Text) : Option Date :=
  match split? t with
  | some (d, []) => some d
  | _ => none

end Date

namespace Clock

/-- The first six digits of a fraction as microseconds, and what follows the fraction. -/
def readFraction (t : Text) : Nat × Text :=
  match t with
  | '.' :: rest =>
    let digits := rest.takeWhile isDecimal
    (Numeral.value ((digits ++ List.replicate 6 '0').take 6), rest.dropWhile isDecimal)
  | _ => (0, t)

def readOffset? : Text → Option (Option Int)
  | [] => some none
  | ['Z'] => some (some 0)
  | sign :: rest =>
    if sign = '+' ∨ sign = '-' then do
      let (hours, rest) ← readFixed? 2 rest
      let (minutes, rest) := readColonPart rest
      let (seconds, rest) := readColonPart rest
      let (microseconds, rest) := readFraction rest
      if rest.isEmpty then
        let size : Int :=
          ((hours * 60 + minutes) * 60 + seconds) * microsecondsPerSecond + microseconds
        return some (if sign = '-' then -size else size)
      else none
    else none

def read? (t : Text) : Option Clock := do
  let (hour, t) ← readFixed? 2 t
  let (minute, t) := readColonPart t
  let (second, t) := readColonPart t
  let (microsecond, t) := readFraction t
  let offset ← readOffset? t
  if hour < 24 ∧ minute < 60 ∧ second < 60 then
    return ⟨hour, minute, second, microsecond, offset⟩
  else none

end Clock

namespace Moment

def midnight : Clock := ⟨0, 0, 0, 0, none⟩

def read? (t : Text) : Option Moment := do
  let (date, rest) ← Date.split? t
  match rest with
  | [] => return ⟨date, midnight⟩
  | _ :: rest => return ⟨date, ← Clock.read? rest⟩

end Moment

end SqlCanvas
