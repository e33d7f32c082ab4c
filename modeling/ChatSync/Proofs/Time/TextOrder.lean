import ChatSync.Proofs.Time.StoredText
import ChatSync.Store.Basic

/-!
# Stored times sort as they happen

A store keeps send times as fixed-width text and sorts them as text. For the
instants it keeps exactly, the years 0000 to 9999 at whole microseconds, that
text order is the chronological order. Three facts carry it:

* **`toDays_lt_toDays_iff`** — on valid dates, day numbers follow the calendar
  order (year, month, day);
* **`spellFields_lt_iff`** — texts made of fixed-width decimal fields and
  separators compare as the lists of their numbers;
* **`storedFields_lt_iff`** — the numbers a stored time spells, date then clock,
  compare as the instants do.

Together they give **`toStoredText_lt_iff`**: stored texts sort as the instants
they keep.

A UTC time (`IsUtc`: a leap second only at the end of a minute) is stored cut
to whole microseconds. In the years 0000 to 9999 its stored text sorts and
compares as the time cut so, and reads back as it; in other years the year
carries a sign, which the strict reader refuses
(**`ofStrictText_toStoredText_of_signed`**). **`stored_times_sort_and_read_back`**
says all of it for the column reader of the store.
-/

namespace ChatSync.Time

open Instant

section Lex

variable {α : Type} [LT α]

theorem append_lt_append_iff {a a' b b' : List α} (h : a.length = a'.length) :
    a ++ b < a' ++ b' ↔ a < a' ∨ a = a' ∧ b < b' := by
  induction a generalizing a' with
  | nil =>
    obtain rfl := List.eq_nil_of_length_eq_zero h.symm
    simp
  | cons x a ih =>
    obtain ⟨y, a', rfl⟩ := List.exists_cons_of_length_eq_add_one h.symm
    simp only [List.cons_append, List.cons_lt_cons_iff, List.cons.injEq,
      ih (Nat.succ.inj h)]
    tauto

end Lex

/-! ## The calendar in order

`Date.toDays` counts years from March, so that February ends the year. Counted
that way, month `n` of the time line (`n / 12` years and `n % 12` months after
March of year 0) starts on day `monthStart n`, and a valid date is that day
plus its day of the month. -/

/-- The first day, counted from 1 March of year 0, of the March-based year `y`. -/
def marchYearStart (y : Int) : Int := 365 * y + y / 4 - y / 100 + y / 400

/-- A March-based year has eleven months of 337 days, then February. -/
theorem marchYearStart_succ (y : Int) :
    marchYearStart (y + 1) = marchYearStart y + 337 + daysInMonth (y + 1) 2 := by
  simp only [marchYearStart, daysInMonth]
  by_cases h : isLeapYear (y + 1) = true
  · rw [if_pos h]
    rw [isLeapYear_iff] at h
    omega
  · rw [if_neg h]
    rw [isLeapYear_iff] at h
    omega

theorem february_ge (y : Int) : 28 ≤ daysInMonth y 2 := by
  simp only [daysInMonth]
  split <;> omega

/-- The day number of the first day of month `n`, counting months from March of year 0. -/
def monthStart (n : Int) : Int := marchYearStart (n / 12) + (153 * (n % 12) + 2) / 5 - 719468

/-- The month of a date, counted from March of year 0. -/
def Date.monthNumber (d : Date) : Int := d.year * 12 + d.month - 3

theorem monthStart_add (y r : Int) (h0 : 0 ≤ r) (h1 : r < 12) :
    monthStart (y * 12 + r) = marchYearStart y + (153 * r + 2) / 5 - 719468 := by
  have hq : (y * 12 + r) / 12 = y := by omega
  have hr : (y * 12 + r) % 12 = r := by omega
  rw [monthStart, hq, hr]

theorem monthStart_month (y : Int) {m : Nat} (h1 : 1 ≤ m) (h12 : m ≤ 12) :
    monthStart (y * 12 + m - 3) =
      marchYearStart (if m ≤ 2 then y - 1 else y) + (153 * ((m + 9) % 12 : Nat) + 2) / 5 - 719468 := by
  split
  · rw [show y * 12 + m - 3 = (y - 1) * 12 + ((m + 9) % 12 : Nat) by omega,
      monthStart_add _ _ (by omega) (by omega)]
  · rw [show y * 12 + m - 3 = y * 12 + ((m + 9) % 12 : Nat) by omega,
      monthStart_add _ _ (by omega) (by omega)]

/-- A date is the first day of its month plus its day of the month. -/
theorem toDays_eq_monthStart {d : Date} (h1 : 1 ≤ d.month) (h12 : d.month ≤ 12) :
    d.toDays = monthStart d.monthNumber + d.day - 1 := by
  rw [Date.monthNumber, monthStart_month _ h1 h12]
  unfold Date.toDays marchYearStart
  simp only
  split <;> omega

/-- Every month has at least 28 days. -/
theorem monthStart_succ (n : Int) : monthStart n + 28 ≤ monthStart (n + 1) := by
  obtain ⟨y, r, h0, h1, rfl⟩ : ∃ y r, 0 ≤ r ∧ r < 12 ∧ n = y * 12 + r :=
    ⟨n / 12, n % 12, by omega, by omega, by omega⟩
  rcases (show r < 11 ∨ r = 11 by omega) with hr | rfl
  · rw [add_assoc, monthStart_add _ _ h0 h1, monthStart_add _ _ (by omega) (by omega)]
    omega
  · rw [show y * 12 + 11 + 1 = (y + 1) * 12 + 0 by omega, monthStart_add _ _ h0 h1,
      monthStart_add _ _ (le_refl 0) (by omega)]
    have := marchYearStart_succ y
    have := february_ge (y + 1)
    omega

theorem monthStart_mono {n n' : Int} (h : n ≤ n') : monthStart n ≤ monthStart n' := by
  induction n', h using Int.leInduction with
  | base => exact le_refl _
  | succ k _ ih => have := monthStart_succ k; omega

theorem isValid_bounds {d : Date} (h : d.isValid = true) :
    1 ≤ d.month ∧ d.month ≤ 12 ∧ 1 ≤ d.day ∧ d.day ≤ daysInMonth d.year d.month := by
  simpa [Date.isValid, and_assoc] using h

/-- A valid date comes before the next month starts. -/
theorem toDays_lt_monthStart {d : Date} (hd : d.isValid = true) :
    d.toDays < monthStart (d.monthNumber + 1) := by
  obtain ⟨h1, h12, -, hdim⟩ := isValid_bounds hd
  rw [toDays_eq_monthStart h1 h12, Date.monthNumber, monthStart_month _ h1 h12]
  obtain ⟨y, m, day⟩ := d
  simp only at *
  rcases (show m < 12 ∨ m = 12 by omega) with hm | rfl
  · rw [show y * 12 + m - 3 + 1 = y * 12 + (m + 1 : Nat) - 3 by omega, monthStart_month _ (by omega) hm]
    rcases (show m = 2 ∨ m ≠ 2 by omega) with rfl | hfeb
    · -- February ends the March-based year: 28 days, or 29 before a leap year
      have hlen := marchYearStart_succ (y - 1)
      rw [Int.sub_add_cancel] at hlen
      simp only [show ¬ (3 ≤ 2) by omega, le_refl, if_true, if_false]
      omega
    · interval_cases m <;> simp [daysInMonth] at hdim hfeb ⊢ <;> omega
  · rw [show y * 12 + (12 : Nat) - 3 + 1 = (y + 1) * 12 + (1 : Nat) - 3 by omega,
      monthStart_month _ (le_refl 1) (by omega)]
    simp [daysInMonth] at hdim ⊢
    omega

/-- Calendar order: by year, then month, then day. -/
def Date.Before (d d' : Date) : Prop :=
  d.year < d'.year ∨ d.year = d'.year ∧ (d.month < d'.month ∨ d.month = d'.month ∧ d.day < d'.day)

theorem Date.before_trichotomy (d d' : Date) : d.Before d' ∨ d = d' ∨ d'.Before d := by
  obtain ⟨y, m, day⟩ := d
  obtain ⟨y', m', day'⟩ := d'
  simp only [Date.Before, Date.mk.injEq]
  omega

theorem toDays_lt_toDays {d d' : Date} (hd : d.isValid = true) (hd' : d'.isValid = true) (h : d.Before d') :
    d.toDays < d'.toDays := by
  obtain ⟨h1, h12, -, -⟩ := isValid_bounds hd
  obtain ⟨h1', h12', hday', -⟩ := isValid_bounds hd'
  have hmonth : d.monthNumber < d'.monthNumber ∨ d.monthNumber = d'.monthNumber ∧ d.day < d'.day := by
    unfold Date.monthNumber Date.Before at *
    omega
  rcases hmonth with hlt | ⟨heq, hday⟩
  · -- a later month starts after the last day of this one
    calc d.toDays < monthStart (d.monthNumber + 1) := toDays_lt_monthStart hd
      _ ≤ monthStart d'.monthNumber := monthStart_mono hlt
      _ ≤ d'.toDays := by rw [toDays_eq_monthStart h1' h12']; omega
  · rw [toDays_eq_monthStart h1 h12, toDays_eq_monthStart h1' h12', heq]
    omega

/-- On valid dates, day numbers follow the calendar. -/
theorem toDays_lt_toDays_iff {d d' : Date} (hd : d.isValid = true) (hd' : d'.isValid = true) :
    d.toDays < d'.toDays ↔ d.Before d' := by
  refine ⟨fun h => ?_, toDays_lt_toDays hd hd'⟩
  rcases Date.before_trichotomy d d' with hb | rfl | hb
  · exact hb
  · exact absurd h (lt_irrefl _)
  · exact absurd (toDays_lt_toDays hd' hd hb) (lt_asymm h)

/-- On valid dates, one day number names one date. -/
theorem toDays_inj {d d' : Date} (hd : d.isValid = true) (hd' : d'.isValid = true) :
    d.toDays = d'.toDays ↔ d = d' := by
  refine ⟨fun h => ?_, congrArg Date.toDays⟩
  rcases Date.before_trichotomy d d' with hb | heq | hb
  · exact absurd h (ne_of_lt (toDays_lt_toDays hd hd' hb))
  · exact heq
  · exact absurd h.symm (ne_of_lt (toDays_lt_toDays hd' hd hb))

/-! ## Digits in order -/

/-- The value of a run of digits is below ten to its length. -/
theorem ofDigitChars_lt {l : List Char} (hl : ∀ c ∈ l, c.isDigit = true) :
    Nat.ofDigitChars 10 l 0 < 10 ^ l.length := by
  induction l with
  | nil => simp
  | cons c l ih =>
    have hc := Char.isDigit_iff_toNat.1 (hl c (List.mem_cons_self ..))
    have hv := ih fun d hd => hl d (List.mem_cons_of_mem _ hd)
    have hdig : c.toNat - '0'.toNat ≤ 9 := by simp at hc ⊢; omega
    rw [Nat.ofDigitChars_cons, Nat.ofDigitChars_eq_ofDigitChars_zero, Nat.mul_zero, Nat.zero_add,
      List.length_cons, Nat.pow_succ]
    have := Nat.mul_le_mul_left (10 ^ l.length) hdig
    omega

/-- Below a common power, a number with a greater leading digit is greater. -/
theorem mul_add_lt_mul_add_iff {p a a' v v' : Nat} (hv : v < p) (hv' : v' < p) :
    p * a + v < p * a' + v' ↔ a < a' ∨ a = a' ∧ v < v' := by
  rcases Nat.lt_trichotomy a a' with h | rfl | h
  · have : p * (a + 1) ≤ p * a' := Nat.mul_le_mul_left p h
    rw [Nat.mul_succ] at this
    omega
  · omega
  · have : p * (a' + 1) ≤ p * a := Nat.mul_le_mul_left p h
    rw [Nat.mul_succ] at this
    omega

/-- Runs of digits of one length compare as the numbers they spell. -/
theorem digits_lt_iff {l l' : List Char} (hl : ∀ c ∈ l, c.isDigit = true)
    (hl' : ∀ c ∈ l', c.isDigit = true) (hlen : l.length = l'.length) :
    l < l' ↔ Nat.ofDigitChars 10 l 0 < Nat.ofDigitChars 10 l' 0 := by
  induction l generalizing l' with
  | nil =>
    obtain rfl := List.eq_nil_of_length_eq_zero hlen.symm
    simp
  | cons c l ih =>
    obtain ⟨c', l', rfl⟩ := List.exists_cons_of_length_eq_add_one hlen.symm
    have hc := Char.isDigit_iff_toNat.1 (hl c (List.mem_cons_self ..))
    have hc' := Char.isDigit_iff_toNat.1 (hl' c' (List.mem_cons_self ..))
    have hrest : ∀ d ∈ l, d.isDigit = true := fun d hd => hl d (List.mem_cons_of_mem _ hd)
    have hrest' : ∀ d ∈ l', d.isDigit = true := fun d hd => hl' d (List.mem_cons_of_mem _ hd)
    have hlen' : l.length = l'.length := Nat.succ.inj hlen
    rw [List.cons_lt_cons_iff, ih hrest hrest' hlen', Nat.ofDigitChars_cons, Nat.ofDigitChars_cons,
      Nat.mul_zero, Nat.zero_add, Nat.zero_add, @Nat.ofDigitChars_eq_ofDigitChars_zero l (c.toNat - '0'.toNat),
      @Nat.ofDigitChars_eq_ofDigitChars_zero l' (c'.toNat - '0'.toNat), ← hlen',
      mul_add_lt_mul_add_iff (ofDigitChars_lt hrest) (hlen' ▸ ofDigitChars_lt hrest'),
      Char.lt_def, UInt32.lt_iff_toNat_lt, ← Char.toNat_inj]
    -- both are digits, so their codes minus that of `0` keep their order
    have hcode : c.val.toNat = c.toNat ∧ c'.val.toNat = c'.toNat := ⟨rfl, rfl⟩
    constructor <;> rintro (h | ⟨h, hv⟩) <;> omega

/-! ## Texts of fixed-width fields -/

theorem padded_lt_padded_iff {w x x' : Nat} (hw : 0 < w) (hx : x < 10 ^ w) (hx' : x' < 10 ^ w) :
    padded w x < padded w x' ↔ x < x' := by
  rw [digits_lt_iff (fun _ h => isDigit_of_mem_padded h) (fun _ h => isDigit_of_mem_padded h)
    (by rw [length_padded hw hx, length_padded hw hx']), ofDigitChars_padded, ofDigitChars_padded]

theorem padded_inj {w x x' : Nat} : padded w x = padded w x' ↔ x = x' :=
  ⟨fun h => by rw [← ofDigitChars_padded w x, h, ofDigitChars_padded], fun h => h ▸ rfl⟩

/-- Fixed-width decimal fields, each followed by its separator. -/
def spellFields : List (Nat × Char) → List Nat → List Char
  | (w, c) :: fmt, x :: xs => padded w x ++ c :: spellFields fmt xs
  | _, _ => []

/-- Each value fits the width of its field. -/
def FitFields (fmt : List (Nat × Char)) (xs : List Nat) : Prop :=
  List.Forall₂ (fun f x => 0 < f.1 ∧ x < 10 ^ f.1) fmt xs

/-- Texts spelled in one format of fixed-width fields compare as the lists of
their values. -/
theorem spellFields_lt_iff {fmt : List (Nat × Char)} {xs xs' : List Nat} (h : FitFields fmt xs)
    (h' : FitFields fmt xs') : spellFields fmt xs < spellFields fmt xs' ↔ xs < xs' := by
  induction h generalizing xs' with
  | nil =>
    cases h'
    simp [spellFields]
  | @cons f x fmt xs hx _ ih =>
    cases h' with
    | cons hx' hrest' =>
      obtain ⟨w, c⟩ := f
      rw [spellFields, spellFields, append_lt_append_iff (by rw [length_padded hx.1 hx.2, length_padded hx.1 hx'.2]),
        padded_lt_padded_iff hx.1 hx.2 hx'.2, padded_inj, List.cons_lt_cons_self, ih hrest', List.cons_lt_cons_iff]

/-- The layout of a stored time: year, month and day, hour, minute and second,
microseconds, each with the character that follows it. -/
def storedFormat : List (Nat × Char) :=
  [(4, '-'), (2, '-'), (2, 'T'), (2, ':'), (2, ':'), (2, '.'), (6, 'Z')]

theorem spellFields_storedFormat (a b c d e f g : Nat) : spellFields storedFormat [a, b, c, d, e, f, g] =
    padded 4 a ++ '-' :: padded 2 b ++ '-' :: padded 2 c ++ 'T' :: padded 2 d ++ ':' :: padded 2 e ++
      ':' :: padded 2 f ++ '.' :: padded 6 g ++ ['Z'] := by
  simp [spellFields, storedFormat]

end ChatSync.Time

namespace ChatSync.Instant

open ChatSync.Time

/-- The numbers of the clock a stored time shows: hour, minute, second (60
in a leap second) and microseconds. -/
def clockFields (t : Instant) : List Nat :=
  let s := t.secondOfDay
  let (sec, frac) :=
    if t.nanos < nanosPerSecond then (s % 60, t.nanos) else (s % 60 + 1, t.nanos - nanosPerSecond)
  [s / 3600, s / 60 % 60, sec, frac / 1000]

/-- The numbers a stored time spells, in the order it spells them. -/
def storedFields (t : Instant) : List Nat :=
  [t.date.year.toNat, t.date.month, t.date.day] ++ t.clockFields

/-- In the years 0000 to 9999 a stored time spells its numbers in the stored format. -/
theorem toStoredText_eq_spellFields {t : Instant} (hy0 : 0 ≤ t.date.year) (hy1 : t.date.year ≤ 9999) :
    t.toStoredText = String.ofList (spellFields storedFormat t.storedFields) := by
  have hyear : yearDigits t.date.year = padded 4 t.date.year.toNat := if_pos ⟨hy0, hy1⟩
  unfold toStoredText render layout storedFields clockFields
  by_cases hn : t.nanos < nanosPerSecond <;> simp only [hn, if_true, if_false, List.cons_append, List.nil_append] <;>
    rw [spellFields_storedFormat, hyear] <;> rfl

theorem fitFields_storedFields {t : Instant} (ht : t.Storable) : FitFields storedFormat t.storedFields := by
  obtain ⟨-, hleap, hy0, hy1⟩ := ht
  have hvalid : t.date.isValid = true := isValid_ofDays t.dayNumber
  have hmonth := month_le_of_isValid hvalid
  have hday := day_le_of_isValid hvalid
  have hs := secondOfDay_lt t
  unfold storedFields clockFields FitFields storedFormat
  unfold nanosPerSecond at *
  by_cases hn : t.nanos < 1000000000 <;>
    simp only [hn, if_true, if_false, List.cons_append, List.nil_append, List.forall₂_cons,
      List.Forall₂.nil, and_true, Nat.reducePow] <;> omega

theorem cmp_eq_lt_iff {t u : Instant} :
    t.cmp u = .lt ↔ t.seconds < u.seconds ∨ t.seconds = u.seconds ∧ t.nanos < u.nanos := by
  simp [cmp, Ordering.then_eq_lt, compare_lt_iff_lt]

theorem cmp_eq_eq_iff {t u : Instant} : t.cmp u = .eq ↔ t = u := by
  obtain ⟨s, n⟩ := t
  obtain ⟨s', n'⟩ := u
  simp [cmp]

/-- The clock of a stored time runs with the second of the day, then the
nanoseconds; a leap second shows as second 60 of its minute. -/
theorem clockFields_lt_iff {t u : Instant} (ht : t.Storable) (hu : u.Storable) :
    t.clockFields < u.clockFields ↔
      t.secondOfDay < u.secondOfDay ∨ t.secondOfDay = u.secondOfDay ∧ t.nanos < u.nanos := by
  obtain ⟨hmicro, hleap, -, -⟩ := ht
  obtain ⟨hmicro', hleap', -, -⟩ := hu
  have hs := secondOfDay_lt t
  have hs' := secondOfDay_lt u
  unfold clockFields
  unfold nanosPerSecond at *
  by_cases hn : t.nanos < 1000000000 <;> by_cases hn' : u.nanos < 1000000000 <;>
    simp only [hn, hn', if_true, if_false, List.cons_lt_cons_iff, List.not_lt_nil, and_false, or_false] <;>
    omega

theorem dateFields_lt_iff {d d' : Date} (hd : d.isValid = true) (hd' : d'.isValid = true) (h0 : 0 ≤ d.year)
    (h0' : 0 ≤ d'.year) :
    [d.year.toNat, d.month, d.day] < [d'.year.toNat, d'.month, d'.day] ↔ d.toDays < d'.toDays := by
  rw [toDays_lt_toDays_iff hd hd', Date.Before]
  simp only [List.cons_lt_cons_iff, List.not_lt_nil, and_false, or_false]
  omega

theorem dateFields_eq_iff {d d' : Date} (hd : d.isValid = true) (hd' : d'.isValid = true) (h0 : 0 ≤ d.year)
    (h0' : 0 ≤ d'.year) :
    [d.year.toNat, d.month, d.day] = [d'.year.toNat, d'.month, d'.day] ↔ d.toDays = d'.toDays := by
  rw [toDays_inj hd hd']
  obtain ⟨y, m, day⟩ := d
  obtain ⟨y', m', day'⟩ := d'
  simp only [List.cons.injEq, Date.mk.injEq, and_true] at *
  omega

/-- The numbers a stored time spells compare as the instants do. -/
theorem storedFields_lt_iff {t u : Instant} (ht : t.Storable) (hu : u.Storable) :
    t.storedFields < u.storedFields ↔ t.cmp u = .lt := by
  have hvalid : t.date.isValid = true := isValid_ofDays t.dayNumber
  have hvalid' : u.date.isValid = true := isValid_ofDays u.dayNumber
  have hs := secondOfDay_lt t
  have hs' := secondOfDay_lt u
  rw [storedFields, storedFields, append_lt_append_iff (by rfl), dateFields_lt_iff hvalid hvalid' ht.2.2.1 hu.2.2.1,
    dateFields_eq_iff hvalid hvalid' ht.2.2.1 hu.2.2.1, clockFields_lt_iff ht hu, cmp_eq_lt_iff,
    ← toDays_date t, ← toDays_date u]
  omega

/-- Stored texts sort as the instants they keep. -/
theorem toStoredText_lt_iff {t u : Instant} (ht : t.Storable) (hu : u.Storable) :
    t.toStoredText < u.toStoredText ↔ t.cmp u = .lt := by
  rw [toStoredText_eq_spellFields ht.2.2.1 ht.2.2.2, toStoredText_eq_spellFields hu.2.2.1 hu.2.2.2, String.lt_iff,
    String.toList_ofList, String.toList_ofList,
    spellFields_lt_iff (fitFields_storedFields ht) (fitFields_storedFields hu), storedFields_lt_iff ht hu]

/-- Two storable instants with one stored text are one instant. -/
theorem toStoredText_inj {t u : Instant} (ht : t.Storable) (hu : u.Storable) :
    t.toStoredText = u.toStoredText ↔ t = u := by
  refine ⟨fun h => Option.some.inj ?_, congrArg _⟩
  rw [← ofStrictText_toStoredText ht, h, ofStrictText_toStoredText hu]

/-! ## Instants cut to microseconds -/

/-- Cutting an instant to whole microseconds keeps its stored text. -/
theorem toStoredText_truncMicros (t : Instant) : t.truncMicros.toStoredText = t.toStoredText := by
  unfold toStoredText render layout
  -- the date and the second of the day come from the seconds, which the cut keeps
  have hdate : t.truncMicros.date = t.date := rfl
  have hsod : t.truncMicros.secondOfDay = t.secondOfDay := rfl
  have hcut : t.truncMicros.nanos = t.nanos / 1000 * 1000 := rfl
  rw [hdate, hsod, hcut]
  unfold nanosPerSecond
  by_cases hn : t.nanos < 1000000000
  · have hn' : t.nanos / 1000 * 1000 < 1000000000 := by omega
    simp only [hn, hn', if_true, fractionDigits, Nat.mul_div_cancel _ (by decide : 0 < 1000)]
  · have hn' : ¬ t.nanos / 1000 * 1000 < 1000000000 := by omega
    have hfrac : (t.nanos / 1000 * 1000 - 1000000000) / 1000 = (t.nanos - 1000000000) / 1000 := by omega
    simp only [hn, hn', if_false, fractionDigits, hfrac]

/-- A well-formed instant of the years 0000 to 9999, cut to whole
microseconds, is one its stored text keeps exactly. -/
theorem storable_truncMicros {t : Instant}
    (hleap : t.nanos < nanosPerSecond ∨ t.secondOfDay % 60 = 59 ∧ t.nanos < 2 * nanosPerSecond)
    (hy0 : 0 ≤ t.date.year) (hy1 : t.date.year ≤ 9999) : t.truncMicros.Storable := by
  have hcut : t.truncMicros.nanos = t.nanos / 1000 * 1000 := rfl
  refine ⟨by rw [hcut]; omega, ?_, hy0, hy1⟩
  rw [hcut]
  exact hleap.imp (fun h => by omega) fun h => ⟨h.1, by omega⟩

/-! ## Send times as the store writes and reads them -/

/-- A time as UTC holds it: its nanoseconds fall within the second, or past it
in a leap second, which ends a minute. -/
def IsUtc (t : Instant) : Prop :=
  t.nanos < nanosPerSecond ∨ t.secondOfDay % 60 = 59 ∧ t.nanos < 2 * nanosPerSecond

/-- A text that does not begin with a digit holds no number. -/
theorem scanNumber_of_not_digit {least most : Nat} (hl : 0 < least) (hm : 0 < most) {c : Char}
    (hc : c.isDigit = false) (cs : List Char) : scanNumber least most (c :: cs) = none := by
  obtain ⟨k, rfl⟩ : ∃ k, most = k + 1 := ⟨most - 1, by omega⟩
  unfold scanNumber
  rw [List.take_succ_cons, List.takeWhile_cons_of_neg (by simp [hc])]
  exact if_pos hl

/-- Outside the years 0000 to 9999 the stored text starts with the sign of
its year, and the strict reader, which wants four digits, refuses it. -/
theorem ofStrictText_toStoredText_of_signed {t : Instant} (h : t.date.year < 0 ∨ 9999 < t.date.year) :
    ofStrictText? t.toStoredText = none := by
  have hyear : yearDigits t.date.year = (if t.date.year < 0 then '-' else '+') :: padded 4 t.date.year.natAbs :=
    if_neg (by omega)
  have hsign : (if t.date.year < 0 then '-' else '+').isDigit = false := by
    split <;> rfl
  unfold ofStrictText? toStoredText render layout
  simp only [hyear, String.toList_ofList, List.cons_append]
  unfold scanStrict
  rw [scanNumber_of_not_digit (by decide) (by decide) hsign]
  rfl

/-- Stored texts of UTC times in the years 0000 to 9999 sort as the times cut
to whole microseconds, are equal exactly when those are, and read back from
their column as them; in other years the stored text does not read back. -/
theorem stored_times_sort_and_read_back :
    (∀ t u : Instant, t.IsUtc → u.IsUtc → 0 ≤ t.date.year ∧ t.date.year ≤ 9999 →
      0 ≤ u.date.year ∧ u.date.year ≤ 9999 →
      (t.toStoredText < u.toStoredText ↔ t.truncMicros.cmp u.truncMicros = .lt) ∧
      (t.toStoredText = u.toStoredText ↔ t.truncMicros = u.truncMicros)) ∧
    (∀ (t : Instant) (c : Nat), t.IsUtc → 0 ≤ t.date.year ∧ t.date.year ≤ 9999 →
      readTimeColumn c t.toStoredText = .ok t.truncMicros) ∧
    (∀ (t : Instant) (c : Nat), t.date.year < 0 ∨ 9999 < t.date.year →
      readTimeColumn c t.toStoredText = .error (.database (.badText c unreadableTime))) := by
  refine ⟨fun t u ht hu hyt hyu => ?_, fun t c ht hyt => ?_, fun t c hy => ?_⟩
  · -- a stored text is the stored text of the time cut to microseconds, which it keeps exactly
    have hst := storable_truncMicros ht hyt.1 hyt.2
    have hsu := storable_truncMicros hu hyu.1 hyu.2
    rw [← toStoredText_truncMicros t, ← toStoredText_truncMicros u]
    exact ⟨toStoredText_lt_iff hst hsu, toStoredText_inj hst hsu⟩
  · unfold readTimeColumn
    rw [← toStoredText_truncMicros t, ofStrictText_toStoredText (storable_truncMicros ht hyt.1 hyt.2)]
  · unfold readTimeColumn
    rw [ofStrictText_toStoredText_of_signed hy]

end ChatSync.Instant
