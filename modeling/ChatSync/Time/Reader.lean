import ChatSync.Text.Blank
import ChatSync.Time.Instant

/-!
# Reading instants

Two readers of RFC 3339 text.

* `Instant.ofText?` is lenient, as messages from peers need: blanks may
  stand around the fields, fields may have fewer digits, the year may carry
  a sign and more digits, the offset may be `Z`, `UTC` or `±hh:mm` (with
  `:` or blanks between hours and minutes), and digits beyond the ninth
  fraction digit are ignored.
* `Instant.ofStrictText?` takes exactly `yyyy-mm-ddThh:mm:ss[.f]` with an
  offset `Z` or `±hh:mm`, the form a store writes back.

Both accept second 60 as a leap second and convert the offset to UTC.
-/

namespace ChatSync.Time

open ChatSync.Text

/-- A reader of a prefix: the value and the characters after it. -/
abbrev Scan (α : Type) := List Char → Option (α × List Char)

/-- The value of a decimal digit. -/
def digitValue (c : Char) : Nat := c.toNat - '0'.toNat

/-- Reads at least `least` and at most `most` decimal digits as a number. -/
def scanNumber (least most : Nat) : Scan Nat := fun cs =>
  let ds := (cs.take most).takeWhile Char.isDigit
  if ds.length < least then none
  else some (ds.foldl (fun n c => 10 * n + digitValue c) 0, cs.drop ds.length)

/-- Reads one given character. -/
def scanChar (c : Char) : Scan Unit
  | d :: cs => if d = c then some ((), cs) else none
  | [] => none

/-- Reads the fraction digits after a point as nanoseconds: up to nine count,
further digits are skipped. -/
def scanFraction : Scan Nat := fun cs => do
  let (n, rest) ← scanNumber 1 9 cs
  let used := cs.length - rest.length
  some (n * Nat.pow 10 (9 - used), rest.dropWhile Char.isDigit)

/-- An optional fraction: nanoseconds after a point, or zero without one. -/
def scanOptFraction : Scan Nat
  | '.' :: cs => scanFraction cs
  | cs => some (0, cs)

/-- Reads a signed year: with a sign any number of digits, without one up to four. -/
def scanLenientYear : Scan Int
  | '-' :: cs => (scanNumber 1 cs.length cs).map fun (n, r) => (-(n : Int), r)
  | '+' :: cs => (scanNumber 1 cs.length cs).map fun (n, r) => ((n : Int), r)
  | cs => (scanNumber 1 4 cs).map fun (n, r) => ((n : Int), r)

/-- Reads an offset east of UTC in seconds: `Z`, or a sign (`+`, `-` or the
minus sign U+2212), two hour digits, separators, two minute digits. The
separators are `:` and blanks when `lenient` holds, else exactly one `:`.
Offsets of a day or more are refused. -/
def scanOffset (lenient : Bool) : Scan Int
  | 'Z' :: cs | 'z' :: cs => some (0, cs)
  | c :: cs => do
    let negative ← if c = '+' then some false
      else if c = '-' ∨ c = '−' then some true else none
    let (h, cs) ← scanNumber 2 2 cs
    let cs ← if lenient then some (cs.dropWhile fun d => d = ':' || isBlank d)
      else (scanChar ':' cs).map Prod.snd
    let (m, cs) ← scanNumber 2 2 cs
    if 59 < m then none else
    let total : Int := h * 3600 + m * 60
    if 86400 ≤ total then none else
    some (if negative then -total else total, cs)
  | [] => none

/-- The fields of a written time, before it is checked and placed on the time line. -/
structure Fields where
  date : Date
  hour : Nat
  minute : Nat
  second : Nat
  nanos : Nat
  offset : Int

/-- The first year and the last year an instant may fall in. -/
def yearRange : Int × Int := (-262143, 262142)

/-- Checks the fields and converts them to UTC. Second 60 is a leap second
of whatever minute it ends. -/
def Fields.toInstant? (f : Fields) : Option Instant :=
  if !f.date.isValid || 23 < f.hour || 59 < f.minute || 60 < f.second then none
  else if f.date.year < yearRange.1 || yearRange.2 < f.date.year then none
  else
    let (sec, nanos) := if f.second = 60 then (59, f.nanos + Instant.nanosPerSecond)
      else (f.second, f.nanos)
    let t := Instant.ofDateSeconds f.date (f.hour * 3600 + f.minute * 60 + sec - f.offset) nanos
    if t.date.year < yearRange.1 || yearRange.2 < t.date.year then none else some t

/-- Reads the lenient form up to its offset, returning the fields and the rest. -/
def scanLenient : Scan Fields := fun cs => do
  let (year, cs) ← scanLenientYear (dropBlanks cs)
  let ((), cs) ← scanChar '-' (dropBlanks cs)
  let (month, cs) ← scanNumber 1 2 (dropBlanks cs)
  let ((), cs) ← scanChar '-' (dropBlanks cs)
  let (day, cs) ← scanNumber 1 2 (dropBlanks cs)
  let cs ← match cs with
    | c :: rest => if c = 'T' ∨ c = 't' ∨ c = ' ' then some rest else none
    | [] => none
  let (hour, cs) ← scanNumber 1 2 (dropBlanks cs)
  let ((), cs) ← scanChar ':' (dropBlanks cs)
  let (minute, cs) ← scanNumber 1 2 (dropBlanks cs)
  let ((), cs) ← scanChar ':' (dropBlanks cs)
  let (second, cs) ← scanNumber 1 2 (dropBlanks cs)
  let (nanos, cs) ← scanOptFraction cs
  let cs := dropBlanks cs
  let (offset, cs) ← match cs with
    | u :: t :: c :: rest =>
      if u.toUpper = 'U' ∧ t.toUpper = 'T' ∧ c.toUpper = 'C' then some (0, rest)
      else scanOffset true cs
    | _ => scanOffset true cs
  some ({ date := ⟨year, month, day⟩, hour, minute, second, nanos, offset }, cs)

/-- Reads the strict form up to its offset. -/
def scanStrict : Scan Fields := fun cs => do
  let (year, cs) ← scanNumber 4 4 cs
  let ((), cs) ← scanChar '-' cs
  let (month, cs) ← scanNumber 2 2 cs
  let ((), cs) ← scanChar '-' cs
  let (day, cs) ← scanNumber 2 2 cs
  let cs ← match cs with
    | c :: rest => if c = 'T' ∨ c = 't' ∨ c = ' ' then some rest else none
    | [] => none
  let (hour, cs) ← scanNumber 2 2 cs
  let ((), cs) ← scanChar ':' cs
  let (minute, cs) ← scanNumber 2 2 cs
  let ((), cs) ← scanChar ':' cs
  let (second, cs) ← scanNumber 2 2 cs
  let (nanos, cs) ← scanOptFraction cs
  let (offset, cs) ← scanOffset false cs
  some ({ date := ⟨year, month, day⟩, hour, minute, second, nanos, offset }, cs)

end ChatSync.Time

namespace ChatSync.Instant

open ChatSync.Time ChatSync.Text

/-- Reads the lenient RFC 3339 form; blanks may follow it. -/
def ofText? (s : String) : Option Instant := do
  let (f, rest) ← scanLenient s.toList
  if (dropBlanks rest).isEmpty then f.toInstant? else none

/-- Reads the strict RFC 3339 form, nothing after it. -/
def ofStrictText? (s : String) : Option Instant := do
  let (f, rest) ← scanStrict s.toList
  if rest.isEmpty then f.toInstant? else none

example : ofText? "2024-01-01T12:00:00+02:00" = some ⟨1704103200, 0⟩ := by decide
example : ofText? "2016-12-31T23:59:60.5Z" = some ⟨1483228799, 1500000000⟩ := by decide
example : ofText? "2024-01-01T00:01:40.1234567Z" = some ⟨1704067300, 123456700⟩ := by decide
example : ofStrictText? "+10000-01-01T00:00:00.000000Z" = none := by decide
example : ofStrictText? "2024-01-01T00:00:00.123456Z" = some ⟨1704067200, 123456000⟩ := by decide

end ChatSync.Instant
