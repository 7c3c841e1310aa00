import SailsProtocol.Text.Digits

/-!
# Instants and their ISO text

An instant is a number of milliseconds since 1970, as in `Date`. `toISOString`
writes it as `YYYY-MM-DDTHH:mm:ss.sssZ`, and `newDate` reads that shape back. As in
the engine, a day past the end of its month rolls over into the next one and hour
24 into the next day, so a text that `newDate` accepts need not be the text of the
instant it gives. The text of an instant of the years 0 to 9999 always is read back
to that instant (`newDate_toISOString`).
-/

namespace Text

/-- The milliseconds of a day. -/
def msPerDay : ℤ := 86400000

/-! ## Years -/

/-- The day on which the year `y` starts. -/
def dayFromYear (y : ℤ) : ℤ :=
  365 * (y - 1970) + (y - 1969) / 4 - (y - 1901) / 100 + (y - 1601) / 400

/-- The year of a day : the estimate from the mean length of a year is off by at
most one. -/
def yearFromDay (d : ℤ) : ℤ :=
  let e := 1970 + d * 400 / 146097
  if d < dayFromYear e then e - 1 else if dayFromYear (e + 1) ≤ d then e + 1 else e

/-- Leap years of the proleptic Gregorian calendar. -/
def isLeapYear (y : ℤ) : Bool := y % 4 == 0 && (y % 100 != 0 || y % 400 == 0)

/-- The year of a day has begun on it. -/
theorem dayFromYear_yearFromDay_le (d : ℤ) : dayFromYear (yearFromDay d) ≤ d := by
  unfold yearFromDay
  simp only []
  split
  · unfold dayFromYear
    omega
  · next h =>
    split
    · assumption
    · exact not_lt.mp h

/-- The year after has not. -/
theorem lt_dayFromYear_yearFromDay (d : ℤ) : d < dayFromYear (yearFromDay d + 1) := by
  unfold yearFromDay
  simp only []
  split
  · next h => rwa [sub_add_cancel]
  · split
    · unfold dayFromYear
      omega
    · next h => exact not_le.mp h

theorem dayFromYear_succ (y : ℤ) :
    dayFromYear (y + 1) = dayFromYear y + if isLeapYear y then 366 else 365 := by
  unfold dayFromYear isLeapYear
  simp only [Bool.and_eq_true, Bool.or_eq_true, beq_iff_eq, bne_iff_ne]
  split <;> omega

/-! ## Months -/

/-- The days of a year before its month `m`, for `m` from 1 to 12. -/
def daysBeforeMonth (leap : Bool) (m : ℕ) : ℕ :=
  [0, 0, 31, 59, 90, 120, 151, 181, 212, 243, 273, 304, 334].getD m 0
    + if leap && 3 ≤ m then 1 else 0

/-- The month of the `k`-th day of a year, counted from 0. -/
def monthFromDay (leap : Bool) (k : ℕ) : ℕ :=
  ((List.range 12).filter fun i => daysBeforeMonth leap (i + 1) ≤ k).length

theorem monthFromDay_spec : ∀ (leap : Bool) (k : ℕ), k < (if leap then 366 else 365) →
    1 ≤ monthFromDay leap k ∧ monthFromDay leap k ≤ 12 ∧
      daysBeforeMonth leap (monthFromDay leap k) ≤ k ∧
      k - daysBeforeMonth leap (monthFromDay leap k) < 31 := by
  decide +kernel

/-! ## Instants -/

/-- What a timestamp spells out. -/
structure DateFields where
  year : ℤ
  month : ℕ
  day : ℕ
  hour : ℕ
  minute : ℕ
  second : ℕ
  ms : ℕ
  deriving DecidableEq, Repr

/-- The day of a date ; a day past the end of the month rolls over. -/
def DateFields.makeDay (f : DateFields) : ℤ :=
  dayFromYear f.year + daysBeforeMonth (isLeapYear f.year) f.month + (f.day - 1)

/-- `MakeTime`: the milliseconds into the day. -/
def DateFields.makeTime (f : DateFields) : ℤ :=
  ((f.hour * 60 + f.minute) * 60 + f.second) * 1000 + f.ms

/-- `MakeDate`: the instant the fields name. -/
def DateFields.instant (f : DateFields) : ℤ := f.makeDay * msPerDay + f.makeTime

/-- The ranges in which a field is accepted at all. -/
def DateFields.inRange (f : DateFields) : Bool :=
  1 ≤ f.month && f.month ≤ 12 && 1 ≤ f.day && f.day ≤ 31 &&
    (f.hour ≤ 23 && f.minute ≤ 59 && f.second ≤ 59 ||
      f.hour == 24 && f.minute == 0 && f.second == 0 && f.ms == 0)

/-- The fields of an instant. -/
def fieldsOf (t : ℤ) : DateFields :=
  let d := t / msPerDay
  let y := yearFromDay d
  let k := (d - dayFromYear y).toNat
  let m := monthFromDay (isLeapYear y) k
  let r := (t % msPerDay).toNat
  { year := y
    month := m
    day := k - daysBeforeMonth (isLeapYear y) m + 1
    hour := r / 3600000
    minute := r / 60000 % 60
    second := r / 1000 % 60
    ms := r % 1000 }

/-- The year of an instant, in UTC. -/
def yearOf (t : ℤ) : ℤ := yearFromDay (t / msPerDay)

/-- `\d{n}-\d{2}-\d{2}T\d{2}:\d{2}:\d{2}\.\d{3}Z`, with `n` digits for the year. -/
def timestampShape (n : ℕ) : List (ℕ × UInt16) :=
  [(n, 0x2D), (2, 0x2D), (2, 0x54), (2, 0x3A), (2, 0x3A), (2, 0x2E), (3, 0x5A)]

/-- The numbers a timestamp prints. -/
def DateFields.numbers (f : DateFields) : List ℕ :=
  [f.year.natAbs, f.month, f.day, f.hour, f.minute, f.second, f.ms]

/-- A year outside 0 to 9999 takes a sign and six digits. -/
def DateFields.text (f : DateFields) : JsString :=
  if 0 ≤ f.year ∧ f.year ≤ 9999 then render (timestampShape 4) f.numbers
  else (if f.year < 0 then 0x2D else 0x2B) :: render (timestampShape 6) f.numbers

/-- `date.toISOString()`. -/
def toISOString (t : ℤ) : JsString := (fieldsOf t).text

/-- The fields of a text of the shape `\d{4}-\d{2}-\d{2}T\d{2}:\d{2}:\d{2}\.\d{3}Z`. -/
def scanTimestamp (s : JsString) : Option DateFields :=
  match scan (timestampShape 4) s with
  | some [year, month, day, hour, minute, second, ms] =>
    some ⟨year, month, day, hour, minute, second, ms⟩
  | _ => none

/-- `new Date(s).getTime()` for a text of that shape, and none for an invalid date. -/
def newDate (s : JsString) : Option ℤ :=
  (scanTimestamp s).bind fun f => if f.inRange then some f.instant else none

theorem DateFields.inRange_iff {f : DateFields} : f.inRange = true ↔
    1 ≤ f.month ∧ f.month ≤ 12 ∧ 1 ≤ f.day ∧ f.day ≤ 31 ∧
      (f.hour ≤ 23 ∧ f.minute ≤ 59 ∧ f.second ≤ 59 ∨
        f.hour = 24 ∧ f.minute = 0 ∧ f.second = 0 ∧ f.ms = 0) := by
  simp [inRange, and_assoc]

theorem dayOfYear_lt (d : ℤ) : (d - dayFromYear (yearFromDay d)).toNat <
    if isLeapYear (yearFromDay d) then 366 else 365 := by
  have hlt := lt_dayFromYear_yearFromDay d
  rw [dayFromYear_succ] at hlt
  split at hlt
  · next h =>
    rw [if_pos h]
    omega
  · next h =>
    rw [if_neg h]
    omega

/-- The fields of an instant are in their ranges. -/
theorem fieldsOf_inRange (t : ℤ) : (fieldsOf t).inRange = true := by
  have hr : 0 ≤ t % msPerDay ∧ t % msPerDay < 86400000 := by
    unfold msPerDay
    omega
  obtain ⟨h1, h12, -, h31⟩ := monthFromDay_spec _ _ (dayOfYear_lt (t / msPerDay))
  rw [DateFields.inRange_iff]
  simp only [fieldsOf]
  omega

/-- The fields of an instant name it. -/
theorem instant_fieldsOf (t : ℤ) : (fieldsOf t).instant = t := by
  have hr : 0 ≤ t % msPerDay ∧ t % msPerDay < 86400000 := by
    unfold msPerDay
    omega
  have hle := dayFromYear_yearFromDay_le (t / msPerDay)
  obtain ⟨-, -, hm, -⟩ := monthFromDay_spec _ _ (dayOfYear_lt (t / msPerDay))
  have hday : (fieldsOf t).makeDay = t / msPerDay := by
    simp only [fieldsOf, DateFields.makeDay]
    omega
  have htime : (fieldsOf t).makeTime = t % msPerDay := by
    simp only [fieldsOf, DateFields.makeTime]
    omega
  rw [DateFields.instant, hday, htime]
  exact Int.ediv_mul_add_emod t msPerDay

theorem DateFields.fits_numbers {f : DateFields} {n : ℕ} (hy : f.year.natAbs < 10 ^ n)
    (hr : f.inRange = true) (hms : f.ms < 1000) : Fits (timestampShape n) f.numbers := by
  rw [DateFields.inRange_iff] at hr
  simp only [Fits, timestampShape, DateFields.numbers, List.forall₂_cons, List.Forall₂.nil,
    and_true]
  omega

theorem ms_fieldsOf_lt (t : ℤ) : (fieldsOf t).ms < 1000 := by
  simp only [fieldsOf]
  omega

theorem scanTimestamp_text {f : DateFields} (hy : 0 ≤ f.year ∧ f.year ≤ 9999)
    (hr : f.inRange = true) (hms : f.ms < 1000) : scanTimestamp f.text = some f := by
  have hfit : Fits (timestampShape 4) f.numbers := f.fits_numbers (by omega) hr hms
  have hyear : (f.year.natAbs : ℤ) = f.year := by omega
  rw [DateFields.text, if_pos hy, scanTimestamp, scan_render hfit]
  simp only [DateFields.numbers, hyear]

/-- The text of an instant is read back to that instant. -/
theorem newDate_toISOString {t : ℤ} (hy : 0 ≤ yearOf t ∧ yearOf t ≤ 9999) :
    newDate (toISOString t) = some t := by
  rw [newDate, toISOString, scanTimestamp_text hy (fieldsOf_inRange t) (ms_fieldsOf_lt t),
    Option.bind_some, if_pos (fieldsOf_inRange t), instant_fieldsOf]

/-- A text of the shape is what is written of the numbers it spells out. -/
theorem render_of_scanTimestamp {s : JsString} {f : DateFields} (h : scanTimestamp s = some f) :
    s = render (timestampShape 4) f.numbers := by
  unfold scanTimestamp at h
  split at h
  · next hscan =>
    rw [← Option.some.inj h]
    exact (render_of_scan hscan).2
  · cases h

/-- The instants a date can hold : 100,000,000 days before and after 1970. -/
def Clipped (t : ℤ) : Prop := t.natAbs ≤ 8640000000000000

instance (t : ℤ) : Decidable (Clipped t) := inferInstanceAs (Decidable (_ ≤ _))

/-- A valid `Date`. -/
structure Date where
  ms : ℤ
  clipped : Clipped ms
  deriving DecidableEq

/-- The year of a `Date` has at most six digits. -/
theorem natAbs_yearOf_lt {t : ℤ} (h : Clipped t) : (yearOf t).natAbs < 10 ^ 6 := by
  have hd : -100000001 ≤ t / msPerDay ∧ t / msPerDay ≤ 100000001 := by
    unfold Clipped at h
    unfold msPerDay
    omega
  unfold yearOf yearFromDay
  generalize t / msPerDay = d at hd
  simp only []
  split
  · omega
  · split <;> omega

theorem DateFields.numbers_injective {f g : DateFields} (h : f.numbers = g.numbers)
    (hsign : f.year < 0 ↔ g.year < 0) : f = g := by
  cases f
  cases g
  simp only [DateFields.numbers, List.cons.injEq, and_true] at h hsign
  simp only [DateFields.mk.injEq]
  omega

/-- Only a signed year is written with a sign. -/
theorem render_ne_sign {n : ℕ} (hn : 0 < n) (f g : DateFields) (r : JsString) :
    render (timestampShape n) f.numbers ≠ (if g.year < 0 then 0x2D else 0x2B) :: r := by
  intro h
  cases hp : padded n f.year.natAbs with
  | nil =>
    have hlen := length_padded n f.year.natAbs
    rw [hp, List.length_nil] at hlen
    omega
  | cons u rest =>
    have hdigit : isDigit u = true := isDigit_of_mem_padded (hp ▸ List.mem_cons_self)
    simp only [DateFields.numbers, timestampShape, render, hp, List.cons_append,
      List.cons.injEq] at h
    rw [h.1] at hdigit
    split at hdigit
    · exact absurd hdigit (by decide)
    · exact absurd hdigit (by decide)

/-- Only a year of four digits is written in the shape. -/
theorem yearOf_of_scanTimestamp {t : ℤ} {f : DateFields}
    (h : scanTimestamp (toISOString t) = some f) : 0 ≤ yearOf t ∧ yearOf t ≤ 9999 := by
  by_contra hy
  have htext := render_of_scanTimestamp h
  change ¬ (0 ≤ (fieldsOf t).year ∧ (fieldsOf t).year ≤ 9999) at hy
  rw [toISOString, DateFields.text, if_neg hy] at htext
  exact absurd htext.symm (render_ne_sign (by decide) _ _ _)

/-- Two dates with the same text are the same instant. -/
theorem toISOString_injective {t t' : ℤ} (ht : Clipped t) (ht' : Clipped t')
    (h : toISOString t = toISOString t') : t = t' := by
  have hnumbers : ∀ {n : ℕ}, (yearOf t).natAbs < 10 ^ n → (yearOf t').natAbs < 10 ^ n →
      render (timestampShape n) (fieldsOf t).numbers =
        render (timestampShape n) (fieldsOf t').numbers →
      (fieldsOf t).numbers = (fieldsOf t').numbers := by
    intro n hy hy' hr
    have hscan := congrArg (scan (timestampShape n)) hr
    rw [scan_render ((fieldsOf t).fits_numbers hy (fieldsOf_inRange t) (ms_fieldsOf_lt t)),
      scan_render ((fieldsOf t').fits_numbers hy' (fieldsOf_inRange t') (ms_fieldsOf_lt t'))]
      at hscan
    exact Option.some.inj hscan
  have hfields : fieldsOf t = fieldsOf t' := by
    rw [toISOString, toISOString, DateFields.text, DateFields.text] at h
    by_cases hy : 0 ≤ (fieldsOf t).year ∧ (fieldsOf t).year ≤ 9999 <;>
      by_cases hy' : 0 ≤ (fieldsOf t').year ∧ (fieldsOf t').year ≤ 9999
    · rw [if_pos hy, if_pos hy'] at h
      refine DateFields.numbers_injective (hnumbers (n := 4) ?_ ?_ h) (by omega)
      · exact (show (fieldsOf t).year.natAbs < 10 ^ 4 by omega)
      · exact (show (fieldsOf t').year.natAbs < 10 ^ 4 by omega)
    · rw [if_pos hy, if_neg hy'] at h
      exact absurd h (render_ne_sign (by decide) _ _ _)
    · rw [if_neg hy, if_pos hy'] at h
      exact absurd h.symm (render_ne_sign (by decide) _ _ _)
    · rw [if_neg hy, if_neg hy'] at h
      obtain ⟨hsign, hrest⟩ := List.cons.inj h
      refine DateFields.numbers_injective
        (hnumbers (natAbs_yearOf_lt ht) (natAbs_yearOf_lt ht') hrest) ?_
      split at hsign <;> split at hsign
      · omega
      · exact absurd hsign (by decide)
      · exact absurd hsign (by decide)
      · omega
  rw [← instant_fieldsOf t, ← instant_fieldsOf t', hfields]

/-- `Date.prototype.toISOString`. -/
def Date.toISOString (d : Date) : JsString := Text.toISOString d.ms

theorem Date.toISOString_inj {d d' : Date} (h : d.toISOString = d'.toISOString) : d = d' := by
  cases d
  cases d'
  rw [Date.mk.injEq]
  exact Text.toISOString_injective (by assumption) (by assumption) h

end Text
