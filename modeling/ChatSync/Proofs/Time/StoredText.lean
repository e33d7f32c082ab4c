import ChatSync.Time.Reader
import Mathlib.Tactic.IntervalCases

/-!
# Stored instants read back

A store keeps an instant as its fixed-width text, cut to microseconds, and
reads it back with the strict reader. The text of an instant that is a whole
number of microseconds, in the years 0000 to 9999, with a leap second only
at the end of a minute, reads back as the instant itself.

The calendar half of the argument is the inverse law of the day-number
conversion. `Date.ofDays` finds the year of the 400-year era by dividing an
index of the day that skips the leap days (`yearIndex`) by 365; that this
finds the right year is the fact behind everything else:

* **`yearStart_yearOfEra_le`**, **`dayOfYear_le`** — the day of the year that
  `Date.ofDays` works with lies within the year, its 366th day only in a
  year that ends with a leap day;
* **`toDays_ofDays`** — `Date.toDays` inverts `Date.ofDays`;
* **`isValid_ofDays`** — `Date.ofDays` gives a valid date;
* **`scanStrict_padded`** — the strict reader takes back fields written with
  the widths it expects;
* **`Instant.ofStrictText_toStoredText`** — a storable instant reads back
  from its stored text.
-/

namespace ChatSync.Time

/-! ## Years of an era -/

/-- The day of the era on which year `y` of the era begins (years begin in March). -/
def yearStart (y : Int) : Int := 365 * y + y / 4 - y / 100

/-- The day of the era less the leap days before it, roughly: a year of the
era covers 365 consecutive values of this index. -/
def yearIndex (doe : Int) : Int := doe - doe / 1460 + doe / 36524 - doe / 146096

/-- The year of the era that a day of the era falls in. -/
def yearOfEra (doe : Int) : Int := yearIndex doe / 365

theorem yearIndex_yearStart {y : Int} (h0 : 0 ≤ y) (h1 : y ≤ 399) :
    yearIndex (yearStart y) = 365 * y := by
  unfold yearIndex yearStart
  -- the year starts after `y / 4` leap days, `y / 100` of them skipped
  have hc : y / 100 = y / 4 / 25 := by omega
  have h4 : (365 * y + y / 4 - y / 100) / 1460 = y / 4 := by omega
  have h100 : (365 * y + y / 4 - y / 100) / 36524 = y / 100 := by omega
  have h400 : (365 * y + y / 4 - y / 100) / 146096 = 0 := by omega
  omega

/-- The last day before a year begins is indexed below the year. At the end
of a century the index falls two short, so this is not an equation. -/
theorem yearIndex_yearStart_pred_lt {y : Int} (h0 : 1 ≤ y) (h1 : y ≤ 399) :
    yearIndex (yearStart y - 1) < 365 * y := by
  unfold yearIndex yearStart
  have hc : y / 100 = y / 4 / 25 := by omega
  have h4 : (365 * y + y / 4 - y / 100 - 1) / 1460 = y / 4 := by omega
  have h100 : y / 100 - 1 ≤ (365 * y + y / 4 - y / 100 - 1) / 36524 := by omega
  have h400 : (365 * y + y / 4 - y / 100 - 1) / 146096 = 0 := by omega
  omega

theorem yearIndex_le_succ {d : Int} (h0 : 0 ≤ d) (h1 : d < 146096) :
    yearIndex d ≤ yearIndex (d + 1) := by
  unfold yearIndex
  omega

theorem yearIndex_mono {d e : Int} (h0 : 0 ≤ d) (hde : d ≤ e) (he : e ≤ 146096) :
    yearIndex d ≤ yearIndex e := by
  obtain ⟨k, rfl⟩ := Int.le.dest hde
  induction k with
  | zero => simp
  | succ k ih =>
    have hk := ih (by omega) (by omega)
    have hstep := yearIndex_le_succ (d := d + k) (by omega) (by omega)
    rw [Nat.cast_succ, ← Int.add_assoc]
    exact Int.le_trans hk hstep

theorem yearOfEra_nonneg {doe : Int} (h0 : 0 ≤ doe) : 0 ≤ yearOfEra doe := by
  unfold yearOfEra yearIndex
  omega

theorem yearOfEra_le {doe : Int} (h0 : 0 ≤ doe) (h1 : doe ≤ 146096) : yearOfEra doe ≤ 399 := by
  have hmax : yearIndex doe ≤ yearIndex 146096 := yearIndex_mono h0 h1 (Int.le_refl _)
  have hval : yearIndex 146096 = 145999 := by decide
  unfold yearOfEra
  omega

/-- The year `Date.ofDays` finds has begun by the day. -/
theorem yearStart_yearOfEra_le {doe : Int} (h0 : 0 ≤ doe) (h1 : doe ≤ 146096) :
    yearStart (yearOfEra doe) ≤ doe := by
  have hy0 := yearOfEra_nonneg h0
  have hy1 := yearOfEra_le h0 h1
  have hlow : 365 * yearOfEra doe ≤ yearIndex doe := by unfold yearOfEra; omega
  by_contra hlt
  -- a day before the year begins is indexed below the year
  have hpos : 1 ≤ yearOfEra doe := by
    by_contra hzero
    have : yearOfEra doe = 0 := by omega
    simp [this, yearStart] at hlt
    omega
  have hmono := yearIndex_mono h0 (show doe ≤ yearStart (yearOfEra doe) - 1 by omega) (by
    unfold yearStart; omega)
  have hbelow := yearIndex_yearStart_pred_lt hpos hy1
  omega

theorem isLeapYear_iff (y : Int) :
    isLeapYear y = true ↔ y % 4 = 0 ∧ (y % 100 ≠ 0 ∨ y % 400 = 0) := by
  simp [isLeapYear]

theorem isLeapYear_add_era (y era : Int) : isLeapYear (y + era * 400) = isLeapYear y := by
  apply Bool.eq_iff_iff.2
  rw [isLeapYear_iff, isLeapYear_iff]
  omega

/-- A year of an era has 365 days, or 366 when the February that ends it
has a leap day. -/
theorem yearStart_succ (y : Int) :
    yearStart (y + 1) = yearStart y + 365 ∨
      yearStart (y + 1) = yearStart y + 366 ∧ isLeapYear (y + 1) = true := by
  rw [isLeapYear_iff]
  unfold yearStart
  omega

/-- The day of the year that `Date.ofDays` works with: within the 365 days of
the year, or the 366th day of a year that ends with a leap day. -/
theorem dayOfYear_le {doe : Int} (h0 : 0 ≤ doe) (h1 : doe ≤ 146096) :
    doe - yearStart (yearOfEra doe) ≤ 364 ∨
      doe - yearStart (yearOfEra doe) = 365 ∧ isLeapYear (yearOfEra doe + 1) = true := by
  have hy0 := yearOfEra_nonneg h0
  have hy1 := yearOfEra_le h0 h1
  rcases (show yearOfEra doe ≤ 398 ∨ yearOfEra doe = 399 by omega) with hy | hy
  · -- the next year has not begun, or its index would be reached
    have hnext : doe < yearStart (yearOfEra doe + 1) := by
      by_contra hge
      have hmono := yearIndex_mono (by unfold yearStart; omega) (Int.not_lt.1 hge) h1
      rw [yearIndex_yearStart (by omega) (by omega)] at hmono
      have hdef : yearOfEra doe = yearIndex doe / 365 := rfl
      omega
    rcases yearStart_succ (yearOfEra doe) with hlen | ⟨hlen, hleap⟩
    · omega
    · by_cases h365 : doe - yearStart (yearOfEra doe) = 365
      · exact .inr ⟨h365, hleap⟩
      · omega
  · -- the last year of an era ends with the leap day of a year divisible by 400
    rw [hy]
    have hlast : yearStart 399 = 145731 := by decide
    by_cases h365 : doe - 145731 = 365
    · exact .inr ⟨by omega, by decide⟩
    · omega

/-! ## Days and dates -/

/-- The day of the 400-year era of a day number; eras begin on a 1 March. -/
def dayOfEra (z : Int) : Int := z + 719468 - (z + 719468) / 146097 * 146097

/-- The date of day `doy` of year `yoe` of era `era`, years beginning in March:
the second half of `Date.ofDays`. -/
def marchDate (era yoe doy : Int) : Date :=
  let mp := (5 * doy + 2) / 153
  let day := doy - (153 * mp + 2) / 5 + 1
  let month := if mp < 10 then mp + 3 else mp - 9
  let year := yoe + era * 400
  { year := if month ≤ 2 then year + 1 else year, month := month.toNat, day := day.toNat }

theorem ofDays_eq_marchDate (z : Int) :
    Date.ofDays z = marchDate ((z + 719468) / 146097) (yearOfEra (dayOfEra z))
      (dayOfEra z - yearStart (yearOfEra (dayOfEra z))) := rfl

theorem toDays_marchDate {era yoe doy : Int} (hy0 : 0 ≤ yoe) (hy1 : yoe ≤ 399) (hd0 : 0 ≤ doy)
    (hd1 : doy ≤ 365) :
    (marchDate era yoe doy).toDays = era * 146097 + yearStart yoe + doy - 719468 := by
  unfold marchDate Date.toDays yearStart
  simp only
  generalize hmp : (5 * doy + 2) / 153 = mp
  have hmp0 : 0 ≤ mp := by omega
  have hmp1 : mp ≤ 11 := by omega
  have hfirst : (153 * mp + 2) / 5 ≤ doy := by omega
  -- the March-based year lies in its era, and the day is at least the first
  have hera : (yoe + era * 400) / 400 = era := by omega
  have hera' : (yoe + era * 400 + 1 - 1) / 400 = era := by omega
  have hday : (((doy - (153 * mp + 2) / 5 + 1).toNat : Nat) : Int) = doy - (153 * mp + 2) / 5 + 1 := by
    omega
  rw [hday]
  by_cases h : mp < 10
  · have hm : ((((mp + 3).toNat + 9) % 12 : Nat) : Int) = mp := by omega
    simp only [h, if_true, show ¬ (mp + 3).toNat ≤ 2 by omega, if_false, hm]
    omega
  · have hm : ((((mp - 9).toNat + 9) % 12 : Nat) : Int) = mp := by omega
    simp only [h, if_false, show (mp - 9).toNat ≤ 2 by omega, if_true, hm]
    omega

/-- From March to January a month of the March-based year has the days
between the start `(153 * mp + 2) / 5` of month `mp` and the start of the next. -/
theorem length_le_daysInMonth (y : Int) {mp : Int} (h0 : 0 ≤ mp) (h1 : mp ≤ 10) :
    (153 * (mp + 1) + 2) / 5 - (153 * mp + 2) / 5 ≤
      daysInMonth y (if mp < 10 then mp + 3 else mp - 9).toNat := by
  interval_cases mp <;> simp [daysInMonth]

theorem isValid_marchDate {era yoe doy : Int} (hd0 : 0 ≤ doy)
    (hd1 : doy ≤ 364 ∨ doy = 365 ∧ isLeapYear (yoe + 1) = true) :
    (marchDate era yoe doy).isValid = true := by
  unfold marchDate Date.isValid
  simp only [Bool.and_eq_true, decide_eq_true_eq]
  generalize hmp : (5 * doy + 2) / 153 = mp
  have hmp0 : 0 ≤ mp := by omega
  have hfirst : (153 * mp + 2) / 5 ≤ doy := by omega
  have hnext : doy < (153 * (mp + 1) + 2) / 5 := by omega
  rcases (show mp < 11 ∨ mp = 11 by omega) with hlt | rfl
  · -- March to January: the day comes before the next month starts
    have hlen := length_le_daysInMonth
      (if (if mp < 10 then mp + 3 else mp - 9) ≤ 2 then yoe + era * 400 + 1 else yoe + era * 400)
      hmp0 (by omega)
    by_cases h : mp < 10 <;> simp only [h, if_true, if_false] at hlen ⊢ <;> omega
  · -- February: its 29th day is the last day of a year only before a leap year
    have hleap : isLeapYear (yoe + era * 400 + 1) = isLeapYear (yoe + 1) := by
      rw [Int.add_right_comm, isLeapYear_add_era]
    simp [daysInMonth, hleap]
    rcases hd1 with hd1 | ⟨rfl, hl⟩
    · split <;> omega
    · simp [hl]

/-- `Date.toDays` inverts `Date.ofDays`. -/
theorem toDays_ofDays (z : Int) : (Date.ofDays z).toDays = z := by
  have h0 : 0 ≤ dayOfEra z := by unfold dayOfEra; omega
  have h1 : dayOfEra z ≤ 146096 := by unfold dayOfEra; omega
  have hstart := yearStart_yearOfEra_le h0 h1
  have hlen : dayOfEra z - yearStart (yearOfEra (dayOfEra z)) ≤ 365 := by
    rcases dayOfYear_le h0 h1 with h | h <;> omega
  rw [ofDays_eq_marchDate, toDays_marchDate (yearOfEra_nonneg h0) (yearOfEra_le h0 h1) (by omega) hlen]
  unfold dayOfEra
  omega

/-- `Date.ofDays` gives a valid date. -/
theorem isValid_ofDays (z : Int) : (Date.ofDays z).isValid = true := by
  have h0 : 0 ≤ dayOfEra z := by unfold dayOfEra; omega
  have h1 : dayOfEra z ≤ 146096 := by unfold dayOfEra; omega
  rw [ofDays_eq_marchDate]
  exact isValid_marchDate (by have := yearStart_yearOfEra_le h0 h1; omega) (dayOfYear_le h0 h1)

theorem month_le_of_isValid {d : Date} (h : d.isValid = true) : d.month ≤ 12 := by
  simp only [Date.isValid, Bool.and_eq_true, decide_eq_true_eq] at h
  exact h.1.1.2

theorem day_le_of_isValid {d : Date} (h : d.isValid = true) : d.day ≤ 31 := by
  simp only [Date.isValid, Bool.and_eq_true, decide_eq_true_eq] at h
  have hdays : daysInMonth d.year d.month ≤ 31 := by
    unfold daysInMonth
    split
    any_goals split
    all_goals omega
  omega

/-! ## Digits -/

open Instant

theorem isDigit_of_mem_padded {w n : Nat} {c : Char} (h : c ∈ padded w n) : c.isDigit = true := by
  unfold padded at h
  rcases List.mem_append.1 h with h | h
  · rw [(List.mem_replicate.1 h).2]
    rfl
  · exact Nat.isDigit_of_mem_toDigits (by decide) (by decide) h

theorem length_padded {w n : Nat} (hw : 0 < w) (hn : n < Nat.pow 10 w) : (padded w n).length = w := by
  have hlen := (Nat.length_toDigits_le_iff (by decide) hw).2 hn
  unfold padded
  simp only [List.length_append, List.length_replicate]
  omega

theorem ofDigitChars_padded (w n : Nat) : Nat.ofDigitChars 10 (padded w n) 0 = n := by
  unfold padded
  rw [Nat.ofDigitChars_append, Nat.ofDigitChars_replicate_zero, Nat.mul_zero,
    Nat.ofDigitChars_ten_toDigits]

/-- A run of digits with no further digit within reach reads as its value. -/
theorem scanNumber_append {least most : Nat} {ds rest : List Char} (hds : ∀ c ∈ ds, c.isDigit = true)
    (hl : least ≤ ds.length) (hm : ds.length ≤ most)
    (hstop : (rest.take (most - ds.length)).takeWhile Char.isDigit = []) :
    scanNumber least most (ds ++ rest) = some (Nat.ofDigitChars 10 ds 0, rest) := by
  have htake : ((ds ++ rest).take most).takeWhile Char.isDigit = ds := by
    rw [List.take_append, List.take_of_length_le hm, List.takeWhile_append_of_pos hds, hstop,
      List.append_nil]
  unfold scanNumber
  simp only [htake, show ¬ ds.length < least by omega, if_false, List.drop_left]
  rfl

theorem scanNumber_padded {w n : Nat} (hw : 0 < w) (hn : n < Nat.pow 10 w) (rest : List Char) :
    scanNumber w w (padded w n ++ rest) = some (n, rest) := by
  rw [scanNumber_append (fun _ => isDigit_of_mem_padded) (length_padded hw hn).ge
    (length_padded hw hn).le (by simp [length_padded hw hn]), ofDigitChars_padded]

/-- Six fraction digits before the zone read as that many microseconds. -/
theorem scanFraction_micros {u : Nat} (hu : u < 1000000) :
    scanFraction (padded 6 u ++ ['Z']) = some (u * 1000, ['Z']) := by
  have hlen := @length_padded 6 u (by decide) hu
  unfold scanFraction
  rw [scanNumber_append (fun _ => isDigit_of_mem_padded) (by omega) (by omega)
    (by rw [hlen]; decide), ofDigitChars_padded]
  simp [hlen]

theorem scanChar_cons_self (c : Char) (cs : List Char) : scanChar c (c :: cs) = some ((), cs) := by
  simp [scanChar]

/-- The strict reader takes back the fields of a text written with the widths
it expects. -/
theorem scanStrict_padded {year month day hour minute second u : Nat} (hy : year < 10000)
    (hmo : month < 100) (hd : day < 100) (hh : hour < 100) (hmi : minute < 100) (hs : second < 100)
    (hu : u < 1000000) :
    scanStrict (padded 4 year ++ '-' :: padded 2 month ++ '-' :: padded 2 day ++ 'T' :: padded 2 hour ++
        ':' :: padded 2 minute ++ ':' :: padded 2 second ++ '.' :: padded 6 u ++ ['Z']) =
      some ({ date := ⟨year, month, day⟩, hour, minute, second, nanos := u * 1000, offset := 0 }, []) := by
  simp only [List.append_assoc, List.cons_append]
  unfold scanStrict
  -- each field in turn: its digits, then the separator after it; `dsimp`
  -- passes each value on to the rest of the reader
  rw [@scanNumber_padded 4 year (by decide) hy]
  dsimp only [bind, Option.bind]
  rw [scanChar_cons_self]
  dsimp only
  rw [@scanNumber_padded 2 month (by decide) hmo]
  dsimp only
  rw [scanChar_cons_self]
  dsimp only
  rw [@scanNumber_padded 2 day (by decide) hd]
  dsimp only
  simp only [true_or, if_true]
  rw [@scanNumber_padded 2 hour (by decide) hh]
  dsimp only
  rw [scanChar_cons_self]
  dsimp only
  rw [@scanNumber_padded 2 minute (by decide) hmi]
  dsimp only
  rw [scanChar_cons_self]
  dsimp only
  rw [@scanNumber_padded 2 second (by decide) hs]
  dsimp only
  rw [show scanOptFraction ('.' :: (padded 6 u ++ ['Z'])) = scanFraction (padded 6 u ++ ['Z']) from rfl,
    scanFraction_micros hu]
  rfl

end ChatSync.Time

namespace ChatSync.Instant

open ChatSync.Time

/-- An instant that its stored text keeps exactly: a whole number of
microseconds, a leap second only as the last second of a minute, and a year
from 0000 to 9999. -/
def Storable (t : Instant) : Prop :=
  t.nanos % 1000 = 0 ∧
    (t.nanos < nanosPerSecond ∨ t.secondOfDay % 60 = 59 ∧ t.nanos < 2 * nanosPerSecond) ∧
    0 ≤ t.date.year ∧ t.date.year ≤ 9999

instance : DecidablePred Storable := fun _ => inferInstanceAs (Decidable (_ ∧ _))

theorem secondOfDay_lt (t : Instant) : t.secondOfDay < 86400 := by
  unfold secondOfDay
  omega

/-- The date and the second of the day place the instant back on the time line. -/
theorem toDays_date (t : Instant) : t.date.toDays * 86400 + t.secondOfDay = t.seconds := by
  rw [date, toDays_ofDays]
  unfold dayNumber secondOfDay
  omega

/-- The years 0000 to 9999 lie in the range the readers take. -/
theorem not_outside_yearRange {y : Int} (h0 : 0 ≤ y) (h1 : y ≤ 9999) :
    ¬ (decide (y < yearRange.1) || decide (yearRange.2 < y)) = true := by
  show ¬ (decide (y < -262143) || decide (262142 < y)) = true
  simp only [Bool.or_eq_true, decide_eq_true_eq, not_or, not_lt]
  omega

/-- Fields that spell out the date, the time of day and the nanoseconds of
an instant in the years 0000 to 9999, in UTC, convert back to the instant; a
second 60 carries the leap second. -/
theorem toInstant?_of_fields {f : Fields} {t : Instant} (hdate : f.date = t.date)
    (hhour : f.hour = t.secondOfDay / 3600) (hminute : f.minute = t.secondOfDay / 60 % 60)
    (hsecond : f.second = t.secondOfDay % 60 ∧ f.nanos = t.nanos ∨
      f.second = 60 ∧ t.secondOfDay % 60 = 59 ∧ f.nanos + nanosPerSecond = t.nanos)
    (hoffset : f.offset = 0) (hy0 : 0 ≤ t.date.year) (hy1 : t.date.year ≤ 9999) :
    f.toInstant? = some t := by
  have hvalid : f.date.isValid = true := hdate ▸ isValid_ofDays t.dayNumber
  have hs := secondOfDay_lt t
  have hsec := toDays_date t
  -- the second and nanoseconds the reader places on the time line
  have hplace : (if f.second = 60 then ((59 : Nat), f.nanos + nanosPerSecond) else (f.second, f.nanos)) =
      (t.secondOfDay % 60, t.nanos) := by
    rcases hsecond with ⟨h, hn⟩ | ⟨h, h59, hn⟩
    · rw [if_neg (by omega), h, hn]
    · rw [if_pos h, h59, hn]
  have ht : ofDateSeconds f.date (f.hour * 3600 + f.minute * 60 + (t.secondOfDay % 60 : Nat) - f.offset)
      t.nanos = t := by
    unfold ofDateSeconds
    rw [hdate, hhour, hminute, hoffset]
    cases t
    simp only [Instant.mk.injEq, and_true]
    simp only at hsec hs
    omega
  unfold Fields.toInstant?
  have hcheck : ¬ (!f.date.isValid || decide (23 < f.hour) || decide (59 < f.minute) ||
      decide (60 < f.second)) = true := by
    simp only [hvalid, hhour, hminute, Bool.not_true, Bool.false_or, Bool.or_eq_true, decide_eq_true_eq,
      not_or, not_lt]
    omega
  rw [if_neg hcheck, hdate, if_neg (not_outside_yearRange hy0 hy1), hplace]
  dsimp only
  rw [← hdate, ht, if_neg (not_outside_yearRange hy0 hy1)]

/-- A storable instant reads back from its stored text. -/
theorem ofStrictText_toStoredText {t : Instant} (h : t.Storable) :
    ofStrictText? t.toStoredText = some t := by
  obtain ⟨hmicro, hleap, hy0, hy1⟩ := h
  have hvalid : t.date.isValid = true := isValid_ofDays t.dayNumber
  have hmonth := month_le_of_isValid hvalid
  have hday := day_le_of_isValid hvalid
  have hs := secondOfDay_lt t
  have hyear : yearDigits t.date.year = padded 4 t.date.year.toNat := if_pos ⟨hy0, hy1⟩
  have hdate : ({ year := (t.date.year.toNat : Int), month := t.date.month, day := t.date.day } : Date) =
      t.date := by
    rw [Int.toNat_of_nonneg hy0]
  -- the widths of the fields the text writes
  have hY : t.date.year.toNat < 10000 := by omega
  have hM : t.date.month < 100 := by omega
  have hD : t.date.day < 100 := by omega
  have hH : t.secondOfDay / 3600 < 100 := by omega
  have hMi : t.secondOfDay / 60 % 60 < 100 := by omega
  unfold ofStrictText? toStoredText render layout
  by_cases hn : t.nanos < nanosPerSecond
  · -- an ordinary second: its fraction is the nanoseconds
    have hS : t.secondOfDay % 60 < 100 := by omega
    have hU : t.nanos / 1000 < 1000000 := by unfold nanosPerSecond at hn; omega
    simp only [if_pos hn, hyear, fractionDigits, String.toList_ofList]
    rw [scanStrict_padded hY hM hD hH hMi hS hU]
    simp only [Option.bind_eq_bind, Option.bind_some, List.isEmpty_nil, if_true]
    exact toInstant?_of_fields hdate rfl rfl
      (.inl ⟨rfl, Nat.div_mul_cancel (Nat.dvd_of_mod_eq_zero hmicro)⟩) rfl hy0 hy1
  · -- a leap second: written as second 60, with the nanoseconds past the second
    obtain ⟨h59, hn2⟩ := hleap.resolve_left hn
    have hS : t.secondOfDay % 60 + 1 < 100 := by omega
    have hU : (t.nanos - nanosPerSecond) / 1000 < 1000000 := by unfold nanosPerSecond at hn2 ⊢; omega
    have hfrac : (t.nanos - nanosPerSecond) / 1000 * 1000 + nanosPerSecond = t.nanos := by
      unfold nanosPerSecond at hn ⊢
      omega
    simp only [if_neg hn, hyear, fractionDigits, String.toList_ofList]
    rw [scanStrict_padded hY hM hD hH hMi hS hU]
    simp only [Option.bind_eq_bind, Option.bind_some, List.isEmpty_nil, if_true]
    exact toInstant?_of_fields hdate rfl rfl
      (.inr ⟨(by omega : t.secondOfDay % 60 + 1 = 60), h59, hfrac⟩) rfl hy0 hy1

end ChatSync.Instant
