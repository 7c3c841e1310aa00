import SailsProtocol.Text.Calendar

/-!
# The order of timestamps

Strings are compared by their code units. Texts of numbers in one shape are ordered as the
numbers (`render_lt`), and the fields of instants as the instants (`numbers_lt`), so the
timestamps of the years 0 to 9999 are ordered as the instants they stand for
(`toISOString_lt`). A later year is written with a sign, which is before every digit.
-/

namespace Text

/-- What strings are compared by. -/
def codeUnits (s : JsString) : List ℕ := s.map UInt16.toNat

/-! ## Numbers in a shape -/

/-- What comes after texts of one length does not change their order. -/
theorem append_lt_append {l l' : List ℕ} (h : l < l') (hlen : l.length = l'.length)
    (r r' : List ℕ) : l ++ r < l' ++ r' := by
  induction l generalizing l' with
  | nil =>
    cases l' with
    | nil => exact absurd h (lt_irrefl _)
    | cons b l' => cases hlen
  | cons a l ih =>
    cases l' with
    | nil => cases hlen
    | cons b l' =>
      rcases List.cons_lt_cons_iff.mp h with hab | ⟨rfl, hrest⟩
      · exact List.cons_lt_cons_iff.mpr (Or.inl hab)
      · exact List.cons_lt_cons_iff.mpr (Or.inr ⟨rfl, ih hrest (Nat.succ.inj hlen)⟩)

/-- Padded numbers are ordered as the numbers are. -/
theorem padded_lt {w n m : ℕ} (h : n < m) (hm : m < 10 ^ w) :
    codeUnits (padded w n) < codeUnits (padded w m) := by
  induction w generalizing n m with
  | zero => omega
  | succ w ih =>
    have hlen : (codeUnits (padded w (n / 10))).length =
        (codeUnits (padded w (m / 10))).length := by
      simp [codeUnits, length_padded]
    have hm' : m / 10 < 10 ^ w := by
      rw [pow_succ] at hm
      omega
    simp only [padded, codeUnits, List.map_append, List.map_cons, List.map_nil]
    rcases Nat.lt_or_ge (n / 10) (m / 10) with hlt | hge
    · exact append_lt_append (ih hlt hm') hlen _ _
    · have heq : n / 10 = m / 10 := by omega
      have hdigit : n % 10 < m % 10 := by omega
      rw [heq]
      refine List.append_left_lt (List.cons_lt_cons_iff.mpr (Or.inl ?_))
      rw [toNat_digitUnit (by omega), toNat_digitUnit (by omega)]
      omega

/-- Rendered numbers are ordered as the lists of numbers are. -/
theorem render_lt {shape : List (ℕ × UInt16)} {ns ms : List ℕ} (hms : Fits shape ms)
    (hlen : ns.length = shape.length) (h : ns < ms) :
    codeUnits (render shape ns) < codeUnits (render shape ms) := by
  induction hms generalizing ns with
  | nil =>
    obtain rfl := List.length_eq_zero_iff.mp hlen
    exact absurd h (lt_irrefl _)
  | @cons p m shape ms hm _ ih =>
    obtain ⟨w, u⟩ := p
    cases ns with
    | nil => cases hlen
    | cons n ns =>
      simp only [render, codeUnits, List.map_append, List.map_cons]
      rcases List.cons_lt_cons_iff.mp h with hnm | ⟨rfl, hrest⟩
      · exact append_lt_append (padded_lt hnm hm) (by simp [codeUnits, length_padded]) _ _
      · refine List.append_left_lt (List.cons_lt_cons_iff.mpr (Or.inr ⟨rfl, ?_⟩))
        exact ih (Nat.succ.inj hlen) hrest

/-! ## Fields of instants -/

theorem dayFromYear_mono {y y' : ℤ} (h : y ≤ y') : dayFromYear y ≤ dayFromYear y' := by
  unfold dayFromYear
  omega

theorem yearFromDay_mono {d d' : ℤ} (h : d ≤ d') : yearFromDay d ≤ yearFromDay d' := by
  by_contra hlt
  have hyear : yearFromDay d' + 1 ≤ yearFromDay d := by omega
  have hle := dayFromYear_yearFromDay_le d
  have hgt := lt_dayFromYear_yearFromDay d'
  have hmono := dayFromYear_mono hyear
  omega

theorem monthFromDay_mono (leap : Bool) {k k' : ℕ} (h : k ≤ k') :
    monthFromDay leap k ≤ monthFromDay leap k' := by
  unfold monthFromDay
  refine List.Sublist.length_le (List.monotone_filter_right _ fun i hi => ?_)
  rw [decide_eq_true_eq] at hi ⊢
  omega

theorem cons_lt_of_le {a b : ℕ} {l l' : List ℕ} (hab : a ≤ b) (hrest : a = b → l < l') :
    a :: l < b :: l' := by
  rcases Nat.lt_or_eq_of_le hab with hlt | heq
  · exact List.cons_lt_cons_iff.mpr (Or.inl hlt)
  · exact List.cons_lt_cons_iff.mpr (Or.inr ⟨heq, hrest heq⟩)

theorem time_lt {r r' : ℕ} (h : r < r') :
    [r / 3600000, r / 60000 % 60, r / 1000 % 60, r % 1000] <
      [r' / 3600000, r' / 60000 % 60, r' / 1000 % 60, r' % 1000] := by
  refine cons_lt_of_le (by omega) fun hhour => cons_lt_of_le (by omega) fun hminute =>
    cons_lt_of_le (by omega) fun hsecond => List.cons_lt_cons_iff.mpr (Or.inl ?_)
  omega

/-- Later instants have later fields : the first number that differs is the greater one. -/
theorem numbers_lt {t t' : ℤ} (h : t < t') (hy : 0 ≤ yearOf t) :
    (fieldsOf t).numbers < (fieldsOf t').numbers := by
  have hday : t / msPerDay ≤ t' / msPerDay := Int.ediv_le_ediv (by decide) (Int.le_of_lt h)
  have hyears : yearOf t ≤ yearOf t' := yearFromDay_mono hday
  have hle := dayFromYear_yearFromDay_le (t / msPerDay)
  have hle' := dayFromYear_yearFromDay_le (t' / msPerDay)
  obtain ⟨-, -, hmonth, -⟩ := monthFromDay_spec _ _ (dayOfYear_lt (t / msPerDay))
  obtain ⟨-, -, hmonth', -⟩ := monthFromDay_spec _ _ (dayOfYear_lt (t' / msPerDay))
  simp only [DateFields.numbers, fieldsOf]
  rw [yearOf] at hy hyears
  rw [yearOf] at hyears
  refine cons_lt_of_le (by omega) fun hyear => ?_
  have hyear' : yearFromDay (t' / msPerDay) = yearFromDay (t / msPerDay) := by omega
  rw [hyear'] at hle' hmonth' ⊢
  refine cons_lt_of_le (monthFromDay_mono _ (by omega)) fun hmonths => ?_
  rw [← hmonths] at hmonth' ⊢
  refine cons_lt_of_le (by omega) fun hdays => time_lt ?_
  have hsame : t / msPerDay = t' / msPerDay := by omega
  unfold msPerDay at hsame ⊢
  omega

/-! ## Timestamps -/

/-- The timestamps of the years 0 to 9999 are ordered as their instants. -/
theorem toISOString_lt {t t' : ℤ} (h : t < t') (hy : 0 ≤ yearOf t) (hy' : yearOf t' ≤ 9999) :
    codeUnits (toISOString t) < codeUnits (toISOString t') := by
  have hyears : yearOf t ≤ yearOf t' :=
    yearFromDay_mono (Int.ediv_le_ediv (by decide) (Int.le_of_lt h))
  have hin : 0 ≤ (fieldsOf t).year ∧ (fieldsOf t).year ≤ 9999 := ⟨hy, hyears.trans hy'⟩
  have hin' : 0 ≤ (fieldsOf t').year ∧ (fieldsOf t').year ≤ 9999 := ⟨hy.trans hyears, hy'⟩
  rw [toISOString, toISOString, DateFields.text, DateFields.text, if_pos hin, if_pos hin']
  refine render_lt ?_ rfl (numbers_lt h hy)
  exact (fieldsOf t').fits_numbers (by omega) (fieldsOf_inRange t') (ms_fieldsOf_lt t')

/-! ## Texts of timestamps -/

/-- A plus or a minus. -/
def isSign (u : UInt16) : Bool := u == 0x2D || u == 0x2B

/-- The shapes `toISOString` writes, with a year of four digits or of a sign and six. -/
def isTimestamp : JsString → Bool
  | [] => false
  | u :: s => if isSign u then (scan (timestampShape 6) s).isSome else
      (scan (timestampShape 4) (u :: s)).isSome

/-- An ISO-8601 timestamp. -/
@[ext] structure IsoTimestamp where
  text : JsString
  shape : isTimestamp text = true

/-- The fields of a text with a signed year. The year `-000000` is none. -/
def scanSigned : JsString → Option DateFields
  | [] => none
  | u :: s =>
    match scan (timestampShape 6) s with
    | some [year, month, day, hour, minute, second, ms] =>
      if u = 0x2B then some ⟨year, month, day, hour, minute, second, ms⟩
      else if u = 0x2D ∧ year ≠ 0 then some ⟨-year, month, day, hour, minute, second, ms⟩
      else none
    | _ => none

/-- `new Date(ms)`, none for an invalid date. -/
def dateOfMs (ms : ℤ) : Option Date :=
  if h : Clipped ms then some ⟨ms, h⟩ else none

/-- `new Date(s)` for a timestamp, none for an invalid date. -/
def IsoTimestamp.toDate (s : IsoTimestamp) : Option Date :=
  ((scanTimestamp s.text).orElse fun _ => scanSigned s.text).bind fun f =>
    if f.inRange then dateOfMs f.instant else none

theorem isSign_of_isDigit {u : UInt16} (h : isDigit u = true) : isSign u = false := by
  by_contra hsign
  rw [Bool.not_eq_false, isSign, Bool.or_eq_true, beq_iff_eq, beq_iff_eq] at hsign
  rcases hsign with rfl | rfl <;> exact absurd h (by decide)

/-- The first unit of a text of numbers is a digit. -/
theorem render_lead {w : ℕ} (u : UInt16) (shape : List (ℕ × UInt16)) (n : ℕ) (ns : List ℕ) :
    ∃ v s, render ((w + 1, u) :: shape) (n :: ns) = v :: s ∧ isDigit v = true := by
  cases hp : padded (w + 1) n with
  | nil =>
    have hlen := length_padded (w + 1) n
    rw [hp] at hlen
    cases hlen
  | cons v s =>
    refine ⟨v, s ++ u :: render shape ns, ?_, isDigit_of_mem_padded (hp ▸ List.mem_cons_self)⟩
    rw [render, hp, List.cons_append]

/-- What is printed is recognised as a timestamp. -/
theorem isTimestamp_toISOString {t : ℤ} (ht : Clipped t) : isTimestamp (toISOString t) = true := by
  rw [toISOString, DateFields.text]
  split
  · next hy =>
    obtain ⟨v, s, htext, hv⟩ := @render_lead 3 0x2D _ (fieldsOf t).year.natAbs
      ((fieldsOf t).numbers.tail)
    have hfit := (fieldsOf t).fits_numbers (show (fieldsOf t).year.natAbs < 10 ^ 4 by omega)
      (fieldsOf_inRange t) (ms_fieldsOf_lt t)
    have hscan := scan_render hfit
    change render (timestampShape 4) (fieldsOf t).numbers = v :: s at htext
    rw [htext] at hscan ⊢
    rw [isTimestamp, if_neg (by simp [isSign_of_isDigit hv]), hscan]
    rfl
  · have hfit := (fieldsOf t).fits_numbers (natAbs_yearOf_lt ht) (fieldsOf_inRange t)
      (ms_fieldsOf_lt t)
    have hsign : isSign (if (fieldsOf t).year < 0 then 0x2D else 0x2B) = true := by
      split <;> decide
    rw [isTimestamp, if_pos hsign, scan_render hfit]
    rfl

/-- `date.toISOString()`. -/
def Date.iso (d : Date) : IsoTimestamp := ⟨d.toISOString, isTimestamp_toISOString d.clipped⟩

/-- A timestamp of the years 0 to 9999 is read back to its date. -/
theorem Date.toDate_iso {d : Date} (hy : 0 ≤ yearOf d.ms ∧ yearOf d.ms ≤ 9999) :
    d.iso.toDate = some d := by
  have hscan : scanTimestamp d.iso.text = some (fieldsOf d.ms) :=
    scanTimestamp_text hy (fieldsOf_inRange d.ms) (ms_fieldsOf_lt d.ms)
  rw [IsoTimestamp.toDate, hscan, Option.orElse_some, Option.bind_some,
    if_pos (fieldsOf_inRange d.ms), instant_fieldsOf, dateOfMs, dif_pos d.clipped]

/-- The length of what is rendered. -/
theorem length_render {shape : List (ℕ × UInt16)} {ns : List ℕ} (h : Fits shape ns) :
    (render shape ns).length = (shape.map fun p => p.1 + 1).sum := by
  induction h with
  | nil => rfl
  | cons hn _ ih =>
    rw [render, List.length_append, length_padded, List.length_cons, ih, List.map_cons,
      List.sum_cons]
    omega

theorem length_of_scan {shape : List (ℕ × UInt16)} {s : JsString}
    (h : (scan shape s).isSome = true) : s.length = (shape.map fun p => p.1 + 1).sum := by
  obtain ⟨ns, hns⟩ := Option.isSome_iff_exists.mp h
  obtain ⟨hfit, rfl⟩ := render_of_scan hns
  exact length_render hfit

/-- The first unit of a timestamp tells its length. -/
theorem IsoTimestamp.length_text (p : IsoTimestamp) :
    ∃ u s, p.text = u :: s ∧ p.text.length = if isSign u then 27 else 24 := by
  obtain ⟨text, shape⟩ := p
  cases text with
  | nil => cases shape
  | cons u s =>
    refine ⟨u, s, rfl, ?_⟩
    rw [isTimestamp] at shape
    split at shape
    · next hu =>
      rw [if_pos hu, List.length_cons, length_of_scan shape]
      rfl
    · next hu =>
      rw [if_neg hu, length_of_scan shape]
      rfl

/-- A timestamp holds digits, signs and the delimiters of its fields only. -/
theorem IsoTimestamp.ascii (p : IsoTimestamp) {u : UInt16} (hu : u ∈ p.text) : u.toNat < 0x80 := by
  have hshape : ∀ {n : ℕ} {s : JsString}, (scan (timestampShape n) s).isSome = true → u ∈ s →
      u.toNat < 0x80 := by
    intro n s hscan hmem
    obtain ⟨ns, hns⟩ := Option.isSome_iff_exists.mp hscan
    obtain ⟨-, rfl⟩ := render_of_scan hns
    rcases mem_render hmem with hdigit | hdelim
    · have := isDigit_iff.mp hdigit
      omega
    · simp only [timestampShape, List.map_cons, List.map_nil, List.mem_cons, List.not_mem_nil,
        or_false] at hdelim
      rcases hdelim with rfl | rfl | rfl | rfl | rfl | rfl | rfl <;> decide
  obtain ⟨text, shape⟩ := p
  cases text with
  | nil => cases hu
  | cons v s =>
    rw [isTimestamp] at shape
    split at shape
    · next hsign =>
      rcases List.mem_cons.mp hu with rfl | hu
      · rw [isSign, Bool.or_eq_true, beq_iff_eq, beq_iff_eq] at hsign
        rcases hsign with rfl | rfl <;> decide
      · exact hshape shape hu
    · exact hshape shape hu

/-- Where a timestamp ends is known from the timestamp. -/
theorem IsoTimestamp.append_inj {p p' : IsoTimestamp} {r r' : JsString}
    (h : p.text ++ r = p'.text ++ r') : p.text = p'.text ∧ r = r' := by
  obtain ⟨u, s, htext, hlen⟩ := p.length_text
  obtain ⟨u', s', htext', hlen'⟩ := p'.length_text
  have hhead : u = u' := by
    rw [htext, htext', List.cons_append, List.cons_append] at h
    exact (List.cons.inj h).1
  refine List.append_inj h ?_
  rw [hlen, hlen', hhead]

end Text
