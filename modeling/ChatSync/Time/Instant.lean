import ChatSync.Time.Civil

/-!
# Instants

An instant of UTC time: whole seconds since 1970-01-01T00:00:00Z and the
nanoseconds into that second. An inserted leap second carries the number of
the second before it and nanoseconds from `10^9` on, so instants order
lexicographically and `23:59:60.5` comes right after `23:59:59.999999999`.

The printed form is RFC 3339 in UTC with the suffix `Z`. The years 0000 to
9999 take four digits; other years carry a sign and at least four digits.
-/

namespace ChatSync

/-- A point of UTC time. -/
structure Instant where
  /-- Whole seconds since the epoch; a leap second shares the number of the second before it. -/
  seconds : Int
  /-- Nanoseconds into the second; `10^9` and more mark the leap second. -/
  nanos : Nat
  deriving DecidableEq, Repr

namespace Instant

/-- Nanoseconds in a second. -/
def nanosPerSecond : Nat := 1000000000

/-- Chronological order: by second, then by nanosecond. -/
def cmp (a b : Instant) : Ordering :=
  (compare a.seconds b.seconds).then (compare a.nanos b.nanos)

/-- The instant with its nanoseconds cut to whole microseconds. -/
def truncMicros (t : Instant) : Instant :=
  { t with nanos := t.nanos / 1000 * 1000 }

/-- The instant a given number of whole seconds later. -/
def addSeconds (t : Instant) (n : Int) : Instant :=
  { t with seconds := t.seconds + n }

/-- The day number (days since 1970-01-01) of the instant. -/
def dayNumber (t : Instant) : Int := t.seconds / 86400

/-- The second of the day, from 0 to 86399. -/
def secondOfDay (t : Instant) : Nat := (t.seconds % 86400).toNat

/-- The calendar date of the instant. -/
def date (t : Instant) : Time.Date := Time.Date.ofDays t.dayNumber

/-- The instant at a date and a second of that day. -/
def ofDateSeconds (d : Time.Date) (secondOfDay : Int) (nanos : Nat) : Instant :=
  { seconds := d.toDays * 86400 + secondOfDay, nanos := nanos }

/-! ## Printing -/

/-- How many fraction digits a printed instant shows. -/
inductive Precision where
  /-- The fewest of 0, 3, 6 or 9 digits that show every nonzero nanosecond. -/
  | auto
  /-- Always six digits: the nanoseconds are cut to microseconds. -/
  | micros
  deriving DecidableEq, Repr

/-- The decimal digits of a number, at least `width` of them, zeros in front. -/
def padded (width n : Nat) : List Char :=
  let ds := Nat.toDigits 10 n
  List.replicate (width - ds.length) '0' ++ ds

/-- The year: four digits from 0000 to 9999, otherwise a sign and at least four digits. -/
def yearDigits (y : Int) : List Char :=
  if 0 ≤ y ∧ y ≤ 9999 then padded 4 y.toNat
  else (if y < 0 then '-' else '+') :: padded 4 y.natAbs

/-- The fraction of a second, point included, as the precision asks. -/
def fractionDigits : Precision → Nat → List Char
  | .auto, f =>
    if f = 0 then []
    else if f % 1000000 = 0 then '.' :: padded 3 (f / 1000000)
    else if f % 1000 = 0 then '.' :: padded 6 (f / 1000)
    else '.' :: padded 9 f
  | .micros, f => '.' :: padded 6 (f / 1000)

/-- The text of the instant in UTC: the date, `separator`, the time with the
fraction `p` asks for, then `zone`. A leap second prints as second 60. -/
def layout (separator : Char) (zone : List Char) (p : Precision) (t : Instant) : String :=
  let d := t.date
  let s := t.secondOfDay
  let (sec, frac) :=
    if t.nanos < nanosPerSecond then (s % 60, t.nanos) else (s % 60 + 1, t.nanos - nanosPerSecond)
  String.ofList <|
    yearDigits d.year ++ '-' :: padded 2 d.month ++ '-' :: padded 2 d.day ++
    separator :: padded 2 (s / 3600) ++ ':' :: padded 2 (s / 60 % 60) ++ ':' :: padded 2 sec ++
    fractionDigits p frac ++ zone

/-- The RFC 3339 text of the instant in UTC. -/
def render (p : Precision) (t : Instant) : String := layout 'T' ['Z'] p t

/-- The text shown to people and peers: the fewest fraction digits that lose nothing. -/
def toText (t : Instant) : String := render .auto t

/-- The fixed-width text a store keeps, cut to microseconds. Within the years
0000 to 9999 its text order is the chronological order. -/
def toStoredText (t : Instant) : String := render .micros t

/-- The text written for people: a space between date and time, and the zone
spelled out after it. -/
def toReadableText (t : Instant) : String := layout ' ' " UTC".toList .auto t

example : toText ⟨0, 0⟩ = "1970-01-01T00:00:00Z" := by decide
example : toText ⟨1704067200, 500000000⟩ = "2024-01-01T00:00:00.500Z" := by decide
example : toStoredText ⟨1704067200, 123456789⟩ = "2024-01-01T00:00:00.123456Z" := by decide
example : toText ⟨1483228799, 1500000000⟩ = "2016-12-31T23:59:60.500Z" := by decide
example : toReadableText ⟨1704067250, 0⟩ = "2024-01-01 00:00:50 UTC" := by decide

end Instant

end ChatSync
