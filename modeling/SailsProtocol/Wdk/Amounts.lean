import SailsProtocol.Text.Digest
import SailsProtocol.Text.PlainDecimal
import SailsProtocol.Wallet.Expectation
import SailsProtocol.Wdk.Provider

/-!
# Amounts as texts

The WDK provider converts between texts of amounts and units of a token
(`wdk-settlement.provider.ts`), and compares the amount of a retry with the recorded one by its
normalised text (`wdk-execution-truth.ts`). An amount comes from a `Decimal(24,8)` column as
`Decimal.toString()` (`decimalText`), or from `fromBaseUnits`.

Both are plain texts, but for amounts between zero and a millionth, which `toString()` writes
with an exponent. Plain texts are converted to the floor and compared by value
(`toBaseUnits_plain`, `normalize_eq_iff`). A text with an exponent is converted to nothing, as
`BigInt` throws on it, and equals no plain text of its value (`toBaseUnits_exponential`,
`not_mem_normalize_plain`).
-/

namespace Sails.Wdk.Amounts

open Text

/-! ## BigInt -/

/-- Digits of a base. -/
def readDigits (base : ℕ) (s : JsString) : Option ℕ :=
  if s = [] then none
  else (s.mapM fun u => (hexUnitValue u).filter (· < base)).map fun digits =>
    Nat.ofDigits base digits.reverse

/-- The base a letter after a leading zero stands for. -/
def radix (u : UInt16) : Option ℕ :=
  if u = 0x78 ∨ u = 0x58 then some 16
  else if u = 0x6F ∨ u = 0x4F then some 8
  else if u = 0x62 ∨ u = 0x42 then some 2
  else none

/-- Digits after `0x`, `0o` or `0b`. -/
def readPrefixed : JsString → Option ℕ
  | zero :: u :: digits =>
    if zero = zeroUnit then (radix u).bind fun base => readDigits base digits else none
  | _ => none

/-- `BigInt(s)`, and none where it throws. -/
def bigInt (s : JsString) : Option ℤ :=
  match Wallet.trim s with
  | [] => some 0
  | u :: digits =>
    if u = minusSign then (readDigits 10 digits).map fun n => -(n : ℤ)
    else if u = 0x2B then (readDigits 10 digits).map fun n => (n : ℤ)
    else ((readPrefixed (u :: digits)).orElse fun _ => readDigits 10 (u :: digits)).map
      fun n => (n : ℤ)

/-- `s || '0'`. -/
def orZero (s : JsString) : JsString := if s = [] then [zeroUnit] else s

/-! ## Conversions -/

/-- `toBaseUnits`. -/
def toBaseUnits (decimalAmount : JsString) (decimals : ℕ) : Option ℤ := do
  let (whole, fraction) := splitPoint decimalAmount
  let truncatedFraction := padEnd decimals (fraction.take decimals)
  let wholeUnits ← bigInt (orZero whole)
  let fractionUnits ← bigInt (orZero truncatedFraction)
  return wholeUnits * 10 ^ decimals + fractionUnits

/-- `fromBaseUnits`. -/
def fromBaseUnits (baseUnits : ℤ) (decimals : ℕ) : JsString :=
  let abs := baseUnits.natAbs
  let divisor := 10 ^ decimals
  let fractionDigits := padStart decimals (natText (abs % divisor))
  (if baseUnits < 0 then [minusSign] else []) ++ natText (abs / divisor) ++ point :: fractionDigits

/-- `s.replace(/^0+(?=\d)/, '')`. -/
def dropLeadingZeros : JsString → JsString
  | u :: v :: s => if u = zeroUnit ∧ isDigit v = true then dropLeadingZeros (v :: s) else u :: v :: s
  | s => s

/-- `normalizeDecimalString`. -/
def normalizeDecimalString (value : JsString) : JsString :=
  let (wholeRaw, fractionRaw) := splitPoint (Wallet.trim value)
  let whole := orZero (dropLeadingZeros wholeRaw)
  let fraction := stripZeros fractionRaw
  if fraction = [] then whole else whole ++ point :: fraction

/-- `decimalAmountsEqual`. -/
def decimalAmountsEqual (a b : JsString) : Bool :=
  normalizeDecimalString a = normalizeDecimalString b

/-! ## Amounts -/

/-- A value of a `Decimal(24,8)` column, in units of its last place. -/
structure ColumnAmount where
  units : ℤ
  fits : units.natAbs < 10 ^ 24
  deriving DecidableEq

namespace ColumnAmount

/-- The value of a column. -/
def value (a : ColumnAmount) : ℚ := a.units / 10 ^ 8

/-- `Decimal.toString()`. -/
def decimalText (a : ColumnAmount) : JsString :=
  if a.units = 0 then [zeroUnit]
  else (if a.units < 0 then [minusSign] else []) ++ scientific a.units.natAbs (-8)

/-- Not zero and below a millionth. -/
def Tiny (a : ColumnAmount) : Prop := a.units ≠ 0 ∧ a.units.natAbs < 100

instance (a : ColumnAmount) : Decidable a.Tiny :=
  inferInstanceAs (Decidable (a.units ≠ 0 ∧ a.units.natAbs < 100))

end ColumnAmount

/-- The texts an amount is given as. -/
inductive Spelling where
  | decimal (a : ColumnAmount)
  | baseUnits (n : ℤ) (decimals : ℕ)

namespace Spelling

/-- The text of a spelling. -/
def text : Spelling → JsString
  | decimal a => a.decimalText
  | baseUnits n decimals => fromBaseUnits n decimals

/-- The value of a spelling. -/
def value : Spelling → ℚ
  | decimal a => a.value
  | baseUnits n decimals => n / 10 ^ decimals

/-- Written with an exponent. -/
def Exponential : Spelling → Prop
  | decimal a => a.Tiny
  | baseUnits _ _ => False

instance : DecidablePred Exponential := fun a =>
  match a with
  | decimal a => inferInstanceAs (Decidable a.Tiny)
  | baseUnits _ _ => inferInstanceAs (Decidable False)

end Spelling

/-! ## Reading digits -/

/-- Digits are read one by one. -/
theorem mapM_digits {s : JsString} (hs : ∀ u ∈ s, isDigit u = true) :
    (s.mapM fun u => (hexUnitValue u).filter (· < 10)) = some (s.map digitValue) := by
  induction s with
  | nil => rfl
  | cons u s ih =>
    have hu := hs u List.mem_cons_self
    have hvalue : (hexUnitValue u).filter (· < 10) = some (digitValue u) := by
      have hlt := digitValue_lt hu
      rw [hexUnitValue, if_pos hu, Option.filter_some, if_pos]
      · rfl
      · simpa [digitValue] using hlt
    rw [List.mapM_cons, hvalue, ih fun v hv => hs v (List.mem_cons_of_mem _ hv)]
    rfl

theorem readDigits_digits {s : JsString} (hne : s ≠ []) (hs : ∀ u ∈ s, isDigit u = true) :
    readDigits 10 s = some (natValue s) := by
  rw [readDigits, if_neg hne, mapM_digits hs]
  rfl

/-- A minus is no digit. -/
theorem readDigits_minus {base : ℕ} {s : JsString} (h : minusSign ∈ s) :
    readDigits base s = none := by
  have hnone : (hexUnitValue minusSign).filter (· < base) = none := by
    have : hexUnitValue minusSign = none := by decide
    rw [this]
    rfl
  rw [readDigits]
  split_ifs
  · rfl
  · rw [Option.map_eq_none_iff]
    induction s with
    | nil => cases h
    | cons u s ih =>
      rw [List.mapM_cons]
      rcases List.mem_cons.mp h with rfl | h
      · rw [hnone]
        rfl
      · cases (hexUnitValue u).filter (· < base) with
        | none => rfl
        | some d =>
          rw [Option.bind_eq_bind, Option.bind_some, ih h (List.ne_nil_of_mem h)]
          rfl

/-- No white space stands in a number. -/
theorem isSpace_eq_false {u : UInt16} (h : isNumberUnit u = true) : Wallet.isSpace u = false := by
  simp only [isNumberUnit, isDigit, Bool.or_eq_true, Bool.and_eq_true, decide_eq_true_eq,
    beq_iff_eq] at h
  rcases h with (((h | rfl) | rfl) | rfl) | rfl
  · have : u.toNat ∉ [0x09, 0x0A, 0x0B, 0x0C, 0x0D, 0x20, 0xA0, 0x1680, 0x2028, 0x2029, 0x202F,
        0x205F, 0x3000, 0xFEFF] := by
      simp only [List.mem_cons, List.not_mem_nil, or_false, not_or]
      omega
    simp only [Wallet.isSpace, Bool.or_eq_false_iff, decide_eq_false_iff_not, Bool.and_eq_false_iff]
    exact ⟨this, Or.inl (by omega)⟩
  all_goals decide

/-- Nothing is trimmed from a number. -/
theorem trim_eq {s : JsString} (hs : ∀ u ∈ s, isNumberUnit u = true) : Wallet.trim s = s := by
  have hdrop : ∀ t : JsString, (∀ u ∈ t, isNumberUnit u = true) →
      t.dropWhile Wallet.isSpace = t := by
    intro t ht
    cases t with
    | nil => rfl
    | cons u t =>
      rw [List.dropWhile_cons_of_neg]
      rw [isSpace_eq_false (ht u List.mem_cons_self)]
      exact Bool.false_ne_true
  rw [Wallet.trim, hdrop s hs, hdrop _ fun u hu => hs u (List.mem_reverse.mp hu),
    List.reverse_reverse]

/-- `BigInt` reads digits as their number. -/
theorem bigInt_digits {s : JsString} (hne : s ≠ []) (hs : ∀ u ∈ s, isDigit u = true) :
    bigInt s = some (natValue s : ℤ) := by
  have hradix : readPrefixed s = none := by
    rcases s with _ | ⟨zero, _ | ⟨u, digits⟩⟩
    · rfl
    · rfl
    · have hu := hs u (by simp)
      have hradix : radix u = none := by
        have hletter : ∀ {v : UInt16}, isDigit v = false → u ≠ v := by
          rintro v hv rfl
          rw [hu] at hv
          cases hv
        simp [radix, hletter (v := 0x78) (by decide), hletter (v := 0x58) (by decide),
          hletter (v := 0x6F) (by decide), hletter (v := 0x4F) (by decide),
          hletter (v := 0x62) (by decide), hletter (v := 0x42) (by decide)]
      rw [readPrefixed, hradix]
      split_ifs <;> rfl
  obtain ⟨u, t, rfl⟩ := List.exists_cons_of_ne_nil hne
  have hu := hs u List.mem_cons_self
  have hminus : u ≠ minusSign := by
    rintro rfl
    exact absurd hu (by decide)
  have hplus : u ≠ 0x2B := by
    rintro rfl
    exact absurd hu (by decide)
  rw [bigInt, trim_eq fun v hv => isNumberUnit_of_isDigit (hs v hv)]
  dsimp only
  rw [if_neg hminus, if_neg hplus, hradix, readDigits_digits hne hs]
  rfl

/-- `BigInt` reads a minus before digits. -/
theorem bigInt_minus {s : JsString} (hne : s ≠ []) (hs : ∀ u ∈ s, isDigit u = true) :
    bigInt (minusSign :: s) = some (-(natValue s : ℤ)) := by
  have hunits : ∀ u ∈ minusSign :: s, isNumberUnit u = true := by
    intro u hu
    rcases List.mem_cons.mp hu with rfl | hu
    · decide
    · exact isNumberUnit_of_isDigit (hs u hu)
  rw [bigInt, trim_eq hunits]
  dsimp only
  rw [if_pos rfl, readDigits_digits hne hs]
  rfl

/-- A sign stands only at the front of a whole number. -/
theorem bigInt_eq_none {u : UInt16} {s : JsString} (hs : ∀ v ∈ u :: s, isNumberUnit v = true)
    (h : minusSign ∈ s) : bigInt (u :: s) = none := by
  have hradix : readPrefixed (u :: s) = none := by
    cases s with
    | nil => rfl
    | cons v s =>
      rw [readPrefixed]
      split_ifs
      · rcases List.mem_cons.mp h with rfl | h
        · rfl
        · cases radix v with
          | none => rfl
          | some base => exact readDigits_minus h
      · rfl
  rw [bigInt, trim_eq hs]
  dsimp only
  rw [hradix, readDigits_minus h, Option.orElse_none, readDigits_minus (List.mem_cons_of_mem _ h)]
  split_ifs <;> rfl

theorem orZero_cons (u : UInt16) (s : JsString) : orZero (u :: s) = u :: s :=
  if_neg (List.cons_ne_nil _ _)

theorem dropLeadingZeros_of_head {s : JsString} (h : s.head? ≠ some zeroUnit) :
    dropLeadingZeros s = s := by
  rcases s with _ | ⟨u, _ | ⟨v, s⟩⟩
  · rfl
  · rfl
  · rw [dropLeadingZeros, if_neg]
    rintro ⟨rfl, -⟩
    exact h rfl

/-! ## Plain texts -/

section Plain

variable {p q : PlainDecimal}

theorem isNumberUnit_of_mem_text {u : UInt16} (h : u ∈ p.text) : isNumberUnit u = true := by
  rcases List.mem_append.mp h with h | h
  · rcases PlainDecimal.mem_wholeText h with rfl | hdigit
    · decide
    · exact isNumberUnit_of_isDigit hdigit
  · split_ifs at h
    · cases h
    · rcases List.mem_cons.mp h with rfl | h
      · decide
      · exact isNumberUnit_of_isDigit (p.digits u h)

/-- The whole part is read with its sign. -/
theorem bigInt_wholeText : bigInt (orZero p.wholeText) =
    some (if p.negative = true then -(p.whole : ℤ) else p.whole) := by
  have hne : p.wholeText ≠ [] := List.append_ne_nil_of_right_ne_nil _ (natText_ne_nil _)
  have hdigits : ∀ u ∈ natText p.whole, isDigit u = true := fun _ => isDigit_of_mem_natText
  rw [orZero, if_neg hne, PlainDecimal.wholeText]
  split_ifs
  · rw [List.singleton_append, bigInt_minus (natText_ne_nil _) hdigits, natValue_natText]
  · rw [List.nil_append, bigInt_digits (natText_ne_nil _) hdigits, natValue_natText]

theorem bigInt_fraction {s : JsString} (hs : ∀ u ∈ s, isDigit u = true) :
    bigInt (orZero s) = some (natValue s : ℤ) := by
  unfold orZero
  split_ifs with h
  · rw [h]
    decide
  · exact bigInt_digits h hs

/-- The sign goes with the whole part only. -/
theorem toBaseUnits_text (decimals : ℕ) : toBaseUnits p.text decimals =
    some ((if p.negative = true then -(p.whole : ℤ) else p.whole) * 10 ^ decimals +
      ⌊fractionValue p.fraction * 10 ^ decimals⌋) := by
  have hdigits : ∀ u ∈ padEnd decimals (p.fraction.take decimals), isDigit u = true := by
    intro u hu
    rcases List.mem_append.mp hu with hu | hu
    · exact p.digits u (List.mem_of_mem_take hu)
    · exact isDigit_of_mem_zeros hu
  rw [toBaseUnits, PlainDecimal.splitPoint_text]
  dsimp only
  rw [bigInt_wholeText, bigInt_fraction hdigits, natValue_padEnd_take p.digits]
  rfl

/-- Amounts that are not negative are cut off. -/
theorem toBaseUnits_plain (h : p.negative = false) (decimals : ℕ) :
    toBaseUnits p.text decimals = some ⌊p.size * 10 ^ decimals⌋ := by
  have hsplit : p.size * 10 ^ decimals =
      ((p.whole * 10 ^ decimals : ℤ) : ℚ) + fractionValue p.fraction * 10 ^ decimals := by
    rw [PlainDecimal.size]
    push_cast
    ring
  rw [toBaseUnits_text, if_neg (by rw [h]; exact Bool.false_ne_true), hsplit, Int.floor_intCast_add]

/-- The amount with its sign. -/
def valueOf (p : PlainDecimal) : ℚ := if p.negative = true then -p.size else p.size

/-- Zero has no sign. -/
def Signed (p : PlainDecimal) : Prop := p.negative = true → p.size ≠ 0

theorem size_nonneg (p : PlainDecimal) : 0 ≤ p.size := by
  have := fractionValue_nonneg p.fraction
  rw [PlainDecimal.size]
  positivity

/-- Signed decimals of one value have the same sign and size. -/
theorem valueOf_eq_iff (hp : Signed p) (hq : Signed q) :
    valueOf p = valueOf q ↔ p.negative = q.negative ∧ p.size = q.size := by
  have hp0 := size_nonneg p
  have hq0 := size_nonneg q
  unfold valueOf
  cases hpn : p.negative <;> cases hqn : q.negative
  · simp
  · have := hq hqn
    simp only [Bool.false_eq_true, if_false, if_true, false_and, iff_false]
    intro h
    exact this (by linarith)
  · have := hp hpn
    simp only [Bool.false_eq_true, if_false, if_true, false_and, iff_false, Bool.true_eq_false]
    intro h
    exact this (by linarith)
  · simp

/-- A whole part has no zeros to drop. -/
theorem dropLeadingZeros_wholeText (p : PlainDecimal) :
    orZero (dropLeadingZeros p.wholeText) = p.wholeText := by
  have hne : p.wholeText ≠ [] := List.append_ne_nil_of_right_ne_nil _ (natText_ne_nil _)
  by_cases hhead : p.wholeText.head? = some zeroUnit
  · have hzero : p.wholeText = [zeroUnit] := by
      unfold PlainDecimal.wholeText at hhead ⊢
      split_ifs at hhead ⊢
      · exact absurd (Option.some.inj hhead) (by decide)
      · by_contra hwhole
        refine head_natText (fun h => hwhole ?_) hhead
        rw [h]
        rfl
    rw [hzero]
    rfl
  · rw [dropLeadingZeros_of_head hhead, orZero, if_neg hne]

/-- The amount without zeros at its end. -/
def stripped (p : PlainDecimal) : PlainDecimal :=
  { p with
    fraction := stripZeros p.fraction
    digits := isDigit_of_mem_stripZeros p.digits }

/-- A plain decimal is normalised to itself without the zeros at its end. -/
theorem normalize_text (p : PlainDecimal) : normalizeDecimalString p.text = (stripped p).text := by
  rw [normalizeDecimalString, trim_eq fun _ => isNumberUnit_of_mem_text,
    PlainDecimal.splitPoint_text]
  dsimp only
  rw [dropLeadingZeros_wholeText, PlainDecimal.text]
  have hwhole : (stripped p).wholeText = p.wholeText := rfl
  have hfraction : (stripped p).fraction = stripZeros p.fraction := rfl
  rw [hwhole, hfraction]
  split_ifs
  · rw [List.append_nil]
  · rfl

theorem wholeText_inj (h : p.wholeText = q.wholeText) :
    p.negative = q.negative ∧ p.whole = q.whole := by
  have hsign : ∀ {n m : ℕ}, minusSign :: natText n ≠ natText m := by
    intro n m heq
    have hmem : minusSign ∈ natText m := heq ▸ List.mem_cons_self
    exact absurd (isDigit_of_mem_natText hmem) (by decide)
  unfold PlainDecimal.wholeText at h
  cases hp : p.negative <;> cases hq : q.negative <;>
    simp only [hp, hq, Bool.false_eq_true, if_false, if_true, List.nil_append,
      List.singleton_append] at h
  · exact ⟨rfl, natText_injective h⟩
  · exact absurd h.symm hsign
  · exact absurd h hsign
  · exact ⟨rfl, natText_injective (List.cons.inj h).2⟩

/-- Plain texts are normalised to one text exactly when they are of one amount. -/
theorem normalize_eq_iff (hp : Signed p) (hq : Signed q) :
    normalizeDecimalString p.text = normalizeDecimalString q.text ↔ valueOf p = valueOf q := by
  rw [normalize_text, normalize_text, valueOf_eq_iff hp hq, PlainDecimal.size_eq_iff]
  constructor
  · intro h
    have hsplit := PlainDecimal.splitPoint_text (p := stripped p)
    rw [h, PlainDecimal.splitPoint_text] at hsplit
    obtain ⟨hwhole, hfraction⟩ := Prod.mk.inj hsplit
    have hinj := wholeText_inj hwhole.symm
    exact ⟨hinj.1, hinj.2, hfraction.symm⟩
  · rintro ⟨hnegative, hwhole, hfraction⟩
    have hstripped : stripped p = stripped q := by
      simp only [stripped, PlainDecimal.mk.injEq]
      exact ⟨hnegative, hwhole, hfraction⟩
    rw [hstripped]

/-- A plain decimal is normalised to one without exponent. -/
theorem not_mem_normalize_plain : exponentMark ∉ normalizeDecimalString p.text := by
  rw [normalize_text]
  intro h
  rcases List.mem_append.mp h with h | h
  · rcases PlainDecimal.mem_wholeText h with h | h <;> exact absurd h (by decide)
  · split_ifs at h
    · cases h
    · rcases List.mem_cons.mp h with h | h
      · exact absurd h (by decide)
      · exact absurd ((stripped p).digits _ h) (by decide)

end Plain

/-! ## Plain spellings -/

/-- The value of a fraction padded at the front. -/
theorem fractionValue_padStart {d r : ℕ} (h : r < 10 ^ d) :
    fractionValue (padStart d (natText r)) = r / 10 ^ d := by
  have hvalue : natValue (padStart d (natText r)) = r := by
    rw [padStart, natValue_zeros_append, natValue_natText]
  rw [fractionValue, hvalue]
  rcases Nat.eq_zero_or_pos d with rfl | hd
  · have hr : r = 0 := by simpa using h
    simp [hr]
  · have hlength : (padStart d (natText r)).length = d := by
      have := length_natText_le hd h
      rw [padStart, List.length_append, List.length_replicate]
      omega
    rw [hlength]

/-- What `fromBaseUnits` writes. -/
def plainUnits (n : ℤ) (decimals : ℕ) : PlainDecimal where
  negative := decide (n < 0)
  whole := n.natAbs / 10 ^ decimals
  fraction := padStart decimals (natText (n.natAbs % 10 ^ decimals))
  digits u hu := by
    rcases List.mem_append.mp hu with hu | hu
    · exact isDigit_of_mem_zeros hu
    · exact isDigit_of_mem_natText hu

theorem text_plainUnits (n : ℤ) (decimals : ℕ) :
    (plainUnits n decimals).text = fromBaseUnits n decimals := by
  have hne : (plainUnits n decimals).fraction ≠ [] :=
    List.append_ne_nil_of_right_ne_nil _ (natText_ne_nil _)
  rw [PlainDecimal.text, if_neg hne, PlainDecimal.wholeText, fromBaseUnits]
  simp only [plainUnits, decide_eq_true_eq]

/-- The size of base units. -/
theorem size_plainUnits (n : ℤ) (decimals : ℕ) :
    (plainUnits n decimals).size = n.natAbs / 10 ^ decimals := by
  have hdiv := Nat.div_add_mod' n.natAbs (10 ^ decimals)
  have hfraction : fractionValue (plainUnits n decimals).fraction =
      (n.natAbs % 10 ^ decimals : ℕ) / 10 ^ decimals :=
    fractionValue_padStart (Nat.mod_lt _ (by positivity))
  have hwhole : (plainUnits n decimals).whole = n.natAbs / 10 ^ decimals := rfl
  rw [PlainDecimal.size, hfraction, hwhole, eq_div_iff (by positivity), add_mul,
    div_mul_cancel₀ _ (by positivity)]
  exact_mod_cast hdiv

/-- What was written is read back. -/
theorem toBaseUnits_fromBaseUnits (n decimals : ℕ) :
    toBaseUnits (fromBaseUnits n decimals) decimals = some (n : ℤ) := by
  have hnegative : (plainUnits n decimals).negative = false := by
    simp [plainUnits]
  rw [← text_plainUnits, toBaseUnits_plain hnegative, size_plainUnits, Int.natAbs_natCast,
    div_mul_cancel₀ _ (by positivity), Int.floor_natCast]

/-- Three digits or more are written plainly. -/
theorem length_natText_gt {s : ℕ} (h : 100 ≤ s) : 2 < (natText s).length := by
  by_contra hle
  rw [not_lt] at hle
  have hvalue := natValue_lt fun u (hu : u ∈ natText s) => isDigit_of_mem_natText hu
  rw [natValue_natText] at hvalue
  have hpow : 10 ^ (natText s).length ≤ 10 ^ 2 := Nat.pow_le_pow_right (by decide) hle
  omega

/-- A `Decimal` that is not tiny is written plainly. -/
theorem exists_plainDecimal {a : ColumnAmount} (h : ¬ a.Tiny) :
    ∃ p : PlainDecimal, p.text = a.decimalText ∧ p.negative = decide (a.units < 0) ∧
      p.size = a.units.natAbs / 10 ^ 8 := by
  by_cases hzero : a.units = 0
  · refine ⟨⟨false, 0, [], nofun⟩, ?_, ?_, ?_⟩
    · rw [ColumnAmount.decimalText, if_pos hzero]
      rfl
    · simp [hzero]
    · simp [PlainDecimal.size, fractionValue, natValue, hzero]
  · have hlarge : 100 ≤ a.units.natAbs := by
      by_contra hlt
      exact h ⟨hzero, by omega⟩
    have hlength := length_natText_gt hlarge
    have hmost := length_natText_le (by decide) a.fits
    obtain ⟨p, hp, htext, hsize⟩ := exists_plain (s := a.units.natAbs) (e := -8)
      (by omega) (by omega) (by omega)
    refine ⟨{ p with negative := decide (a.units < 0) }, ?_, rfl, ?_⟩
    · have hwhole : p.text = natText p.whole ++
          if p.fraction = [] then [] else point :: p.fraction := by
        rw [PlainDecimal.text, PlainDecimal.wholeText, hp]
        rfl
      rw [ColumnAmount.decimalText, if_neg hzero, ← htext, hwhole, PlainDecimal.text,
        PlainDecimal.wholeText]
      simp only [decide_eq_true_eq, List.append_assoc]
    · have hscale : (10 : ℚ) ^ (-8 : ℤ) = 1 / 10 ^ 8 := by norm_num
      rw [hscale, mul_one_div] at hsize
      exact hsize

/-! ## Texts with an exponent -/

/-- A digit, perhaps a second one after a point, and a negative exponent of one digit. -/
inductive ExponentShape : JsString → Prop
  | one {d v : UInt16} (hd : isDigit d = true) (hlead : d ≠ zeroUnit) (hv : isDigit v = true)
      (hlast : v ≠ zeroUnit) : ExponentShape [d, exponentMark, minusSign, v]
  | two {d g v : UInt16} (hd : isDigit d = true) (hlead : d ≠ zeroUnit) (hg : isDigit g = true)
      (hv : isDigit v = true) (hlast : v ≠ zeroUnit) :
      ExponentShape [d, point, g, exponentMark, minusSign, v]

theorem exponentText_small {n : ℤ} (hlow : -8 ≤ n) (hhigh : n ≤ -7) :
    ∃ v, exponentText n = [minusSign, v] ∧ isDigit v = true ∧ v ≠ zeroUnit := by
  obtain rfl | rfl : n = -8 ∨ n = -7 := by omega
  · exact ⟨0x38, rfl, by decide, by decide⟩
  · exact ⟨0x37, rfl, by decide, by decide⟩

/-- A tiny column is written with an exponent. -/
theorem scientific_tiny {s : ℕ} (hs : s ≠ 0) (hsmall : s < 100) :
    ExponentShape (scientific s (-8)) := by
  have hne := stripZeros_natText_ne_nil hs
  have hdigits : ∀ u ∈ stripZeros (natText s), isDigit u = true :=
    isDigit_of_mem_stripZeros fun _ => isDigit_of_mem_natText
  have hhead := head_stripZeros hs
  have hlength : (natText s).length ≤ 2 := length_natText_le (by decide) (by omega)
  have hpos : 0 < (natText s).length := List.length_pos_of_ne_nil (natText_ne_nil s)
  have hstrip : (stripZeros (natText s)).length ≤ (natText s).length :=
    (List.rdropWhile_prefix _ _).length_le
  obtain ⟨v, hexponent, hv, hlast⟩ :=
    exponentText_small (n := -8 + (natText s).length - 1) (by omega) (by omega)
  rw [scientific]
  rcases hstripped : stripZeros (natText s) with _ | ⟨d, _ | ⟨g, rest⟩⟩
  · exact absurd hstripped hne
  · rw [hstripped] at hdigits hhead hstrip
    have hlead : d ≠ zeroUnit := fun h => hhead (congrArg some h)
    rw [layout, if_neg (by simp; omega), if_neg (by omega), if_neg (by omega), hexponent]
    exact .one (hdigits d List.mem_cons_self) hlead hv hlast
  · rw [hstripped] at hdigits hhead hstrip
    have hlead : d ≠ zeroUnit := fun h => hhead (congrArg some h)
    have hrest : rest = [] := by
      rw [List.length_cons, List.length_cons] at hstrip
      exact List.length_eq_zero_iff.mp (by omega)
    subst hrest
    rw [layout, if_neg (by simp; omega), if_neg (by omega), if_neg (by omega), hexponent]
    exact .two (hdigits d List.mem_cons_self) hlead (hdigits g (by simp)) hv hlast

section Exponential

variable {sign s : JsString}

theorem ExponentShape.units (h : ExponentShape s) : ∀ u ∈ s, isNumberUnit u = true := by
  cases h with
  | one hd _ hv _ =>
    simp only [List.forall_mem_cons]
    exact ⟨isNumberUnit_of_isDigit hd, by decide, by decide, isNumberUnit_of_isDigit hv, nofun⟩
  | two hd _ hg hv _ =>
    simp only [List.forall_mem_cons]
    exact ⟨isNumberUnit_of_isDigit hd, by decide, isNumberUnit_of_isDigit hg, by decide, by decide,
      isNumberUnit_of_isDigit hv, nofun⟩

/-- A sign or none. -/
def IsSign (sign : JsString) : Prop := sign = [] ∨ sign = [minusSign]

theorem isSign_ite (c : Prop) [Decidable c] : IsSign (if c then [minusSign] else []) := by
  split_ifs
  · exact Or.inr rfl
  · exact Or.inl rfl

theorem ExponentShape.signed_units (h : ExponentShape s) (hsign : IsSign sign) :
    ∀ u ∈ sign ++ s, isNumberUnit u = true := by
  intro u hu
  rcases List.mem_append.mp hu with hu | hu
  · rcases hsign with rfl | rfl
    · cases hu
    · rw [List.mem_singleton.mp hu]
      decide
  · exact h.units u hu

theorem IsSign.point_not_mem (hsign : IsSign sign) : point ∉ sign := by
  rcases hsign with rfl | rfl <;> decide

section Split

variable {d g v : UInt16}

theorem splitPoint_one (hsign : IsSign sign) (hd : isDigit d = true) (hv : isDigit v = true) :
    splitPoint (sign ++ [d, exponentMark, minusSign, v]) =
      (sign ++ [d, exponentMark, minusSign, v], []) := by
  refine splitPoint_of_not_mem ?_
  simp only [List.mem_append, List.mem_cons, List.not_mem_nil, or_false, not_or]
  exact ⟨hsign.point_not_mem, (ne_point_of_isDigit hd).symm, by decide, by decide,
    (ne_point_of_isDigit hv).symm⟩

theorem splitPoint_two (hsign : IsSign sign) (hd : isDigit d = true) (hg : isDigit g = true)
    (hv : isDigit v = true) :
    splitPoint (sign ++ [d, point, g, exponentMark, minusSign, v]) =
      (sign ++ [d], [g, exponentMark, minusSign, v]) := by
  have hwhole : point ∉ sign ++ [d] := by
    simp only [List.mem_append, List.mem_singleton, not_or]
    exact ⟨hsign.point_not_mem, (ne_point_of_isDigit hd).symm⟩
  have hfraction : point ∉ [g, exponentMark, minusSign, v] := by
    simp only [List.mem_cons, List.not_mem_nil, or_false, not_or]
    exact ⟨(ne_point_of_isDigit hg).symm, by decide, by decide, (ne_point_of_isDigit hv).symm⟩
  rw [← splitPoint_append hwhole hfraction]
  simp

end Split

/-- `BigInt` throws on the part the exponent stands in. -/
theorem toBaseUnits_exponential (h : ExponentShape s) (hsign : IsSign sign) :
    toBaseUnits (sign ++ s) 6 = none := by
  have hunits := h.signed_units hsign
  cases h with
  | @one d v hd hlead hv hlast =>
    have hnone : bigInt (orZero (sign ++ [d, exponentMark, minusSign, v])) = none := by
      rcases hsign with rfl | rfl
      · exact bigInt_eq_none hunits (by simp)
      · exact bigInt_eq_none hunits (by simp)
    rw [toBaseUnits, splitPoint_one hsign hd hv]
    dsimp only
    rw [hnone]
    rfl
  | @two d g v hd hlead hg hv hlast =>
    have hpadded : padEnd 6 ([g, exponentMark, minusSign, v].take 6) =
        [g, exponentMark, minusSign, v, zeroUnit, zeroUnit] := rfl
    have hnone : bigInt (orZero [g, exponentMark, minusSign, v, zeroUnit, zeroUnit]) = none := by
      rw [orZero_cons]
      refine bigInt_eq_none ?_ (by simp)
      simp only [List.forall_mem_cons]
      exact ⟨isNumberUnit_of_isDigit hg, by decide, by decide, isNumberUnit_of_isDigit hv,
        by decide, by decide, nofun⟩
    rw [toBaseUnits, splitPoint_two hsign hd hg hv]
    dsimp only
    rw [hpadded, hnone]
    cases bigInt (orZero (sign ++ [d])) <;> rfl

/-- A text with an exponent is its own normal form. -/
theorem normalize_exponential (h : ExponentShape s) (hsign : IsSign sign) :
    normalizeDecimalString (sign ++ s) = sign ++ s := by
  have hwhole : ∀ {d : UInt16} {t : JsString}, d ≠ zeroUnit →
      orZero (dropLeadingZeros (sign ++ d :: t)) = sign ++ d :: t := by
    intro d t hlead
    rw [dropLeadingZeros_of_head, orZero,
      if_neg (List.append_ne_nil_of_right_ne_nil _ (List.cons_ne_nil _ _))]
    rcases hsign with rfl | rfl
    · exact fun heq => hlead (Option.some.inj heq)
    · exact fun heq => absurd (Option.some.inj heq) (by decide)
  rw [normalizeDecimalString, trim_eq (h.signed_units hsign)]
  cases h with
  | @one d v hd hlead hv hlast =>
    rw [splitPoint_one hsign hd hv]
    exact hwhole hlead
  | @two d g v hd hlead hg hv hlast =>
    have hstrip : stripZeros [g, exponentMark, minusSign, v] = [g, exponentMark, minusSign, v] :=
      List.rdropWhile_concat_neg (fun u => decide (u = zeroUnit)) [g, exponentMark, minusSign] v
        (by simpa using hlast)
    rw [splitPoint_two hsign hd hg hv]
    dsimp only
    rw [hstrip, if_neg (List.cons_ne_nil _ _), hwhole hlead]
    simp

theorem ExponentShape.mem (h : ExponentShape s) : exponentMark ∈ s := by
  cases h <;> simp

end Exponential

/-! ## Spellings -/

theorem decimalText_tiny {a : ColumnAmount} (h : a.Tiny) :
    ∃ sign, IsSign sign ∧ ExponentShape (scientific a.units.natAbs (-8)) ∧
      a.decimalText = sign ++ scientific a.units.natAbs (-8) := by
  obtain ⟨hzero, hsmall⟩ := h
  refine ⟨if a.units < 0 then [minusSign] else [], isSign_ite _,
    scientific_tiny (by omega) hsmall, ?_⟩
  rw [ColumnAmount.decimalText, if_neg hzero]

/-- Tiny columns of one text have one value. -/
theorem tiny_inj {a b : ColumnAmount} (ha : a.Tiny) (hb : b.Tiny) :
    a.decimalText = b.decimalText ↔ a.value = b.value := by
  have hunits : a.value = b.value ↔ a.units = b.units := by
    rw [ColumnAmount.value, ColumnAmount.value, div_left_inj' (by positivity)]
    exact_mod_cast Iff.rfl
  rw [hunits]
  refine ⟨fun h => ?_, fun h => by rw [ColumnAmount.decimalText, ColumnAmount.decimalText, h]⟩
  have hane : a.units.natAbs ≠ 0 := Int.natAbs_ne_zero.mpr ha.1
  have hbne : b.units.natAbs ≠ 0 := Int.natAbs_ne_zero.mpr hb.1
  have hsize : ∀ {s t : ℕ}, s ≠ 0 → t ≠ 0 → scientific s (-8) = scientific t (-8) → s = t := by
    intro s t hs ht heq
    have := mul_right_cancel₀ (zpow_ne_zero _ (by norm_num)) (scientific_inj hs ht heq)
    exact_mod_cast this
  have hsign : ∀ {s t : ℕ}, t ≠ 0 → minusSign :: scientific s (-8) ≠ scientific t (-8) := by
    intro s t ht heq
    obtain ⟨u, r, hr, hu⟩ := head_scientific ht (-8)
    rw [hr] at heq
    obtain ⟨rfl, -⟩ := List.cons.inj heq
    exact absurd hu (by decide)
  rw [ColumnAmount.decimalText, ColumnAmount.decimalText, if_neg ha.1, if_neg hb.1] at h
  split_ifs at h with hneg hneg' hneg'
  · have := hsize hane hbne (List.cons.inj h).2
    omega
  · exact absurd h (hsign hbne)
  · exact absurd h.symm (hsign hane)
  · have := hsize hane hbne h
    omega

/-- The value of signed units. -/
theorem signed_of_units {p : PlainDecimal} {z : ℤ} {k : ℚ} (hk : 0 < k)
    (hnegative : p.negative = decide (z < 0)) (hsize : p.size = z.natAbs / k) :
    Signed p ∧ valueOf p = z / k := by
  simp only [Signed, valueOf, hnegative, hsize, decide_eq_true_eq]
  by_cases hz : z < 0
  · have habs : ((z.natAbs : ℕ) : ℚ) = -z := by
      rw [Nat.cast_natAbs, abs_of_neg hz]
      push_cast
      rfl
    have hne : (z : ℚ) ≠ 0 := by exact_mod_cast hz.ne
    rw [if_pos hz, habs]
    refine ⟨fun _ => div_ne_zero (neg_ne_zero.mpr hne) hk.ne', ?_⟩
    rw [neg_div, neg_neg]
  · have habs : ((z.natAbs : ℕ) : ℚ) = z := by
      rw [Nat.cast_natAbs, abs_of_nonneg (not_lt.mp hz)]
    rw [if_neg hz, habs]
    exact ⟨fun h => absurd h hz, rfl⟩

/-- The text of an amount without an exponent. -/
theorem exists_plain_spelling {a : Spelling} (h : ¬ a.Exponential) :
    ∃ p : PlainDecimal, p.text = a.text ∧ Signed p ∧ valueOf p = a.value := by
  cases a with
  | decimal a =>
    obtain ⟨p, htext, hnegative, hsize⟩ := exists_plainDecimal h
    exact ⟨p, htext, signed_of_units (by positivity) hnegative hsize⟩
  | baseUnits n decimals =>
    exact ⟨plainUnits n decimals, text_plainUnits n decimals,
      signed_of_units (by positivity) rfl (size_plainUnits n decimals)⟩

/-- A text with an exponent is that of a tiny column. -/
theorem exponential_spelling {a : Spelling} (h : a.Exponential) :
    ∃ c : ColumnAmount, c.Tiny ∧ a = .decimal c ∧ normalizeDecimalString a.text = a.text ∧
      exponentMark ∈ a.text := by
  cases a with
  | decimal a =>
    obtain ⟨sign, hsign, hshape, htext⟩ := decimalText_tiny h
    have htext' : (Spelling.decimal a).text = sign ++ scientific a.units.natAbs (-8) := htext
    rw [htext']
    exact ⟨a, h, rfl, normalize_exponential hshape hsign, List.mem_append_right _ hshape.mem⟩
  | baseUnits n decimals => exact h.elim

/-- Two texts are taken for one amount exactly when their amounts are equal and both or neither
has an exponent. -/
theorem decimalAmountsEqual_iff (a b : Spelling) :
    decimalAmountsEqual a.text b.text = true ↔
      a.value = b.value ∧ (a.Exponential ↔ b.Exponential) := by
  rw [decimalAmountsEqual, decide_eq_true_eq]
  by_cases ha : a.Exponential <;> by_cases hb : b.Exponential
  · obtain ⟨c, hc, rfl, hnormal, -⟩ := exponential_spelling ha
    obtain ⟨c', hc', rfl, hnormal', -⟩ := exponential_spelling hb
    rw [hnormal, hnormal', and_iff_left (iff_of_true ha hb)]
    exact tiny_inj hc hc'
  · obtain ⟨c, -, rfl, hnormal, hmem⟩ := exponential_spelling ha
    obtain ⟨q, hq, -, -⟩ := exists_plain_spelling hb
    refine iff_of_false (fun h => ?_) fun h => hb (h.2.mp ha)
    rw [← hnormal, h, ← hq] at hmem
    exact not_mem_normalize_plain hmem
  · obtain ⟨c, -, rfl, hnormal, hmem⟩ := exponential_spelling hb
    obtain ⟨p, hp, -, -⟩ := exists_plain_spelling ha
    refine iff_of_false (fun h => ?_) fun h => ha (h.2.mpr hb)
    rw [← hnormal, ← h, ← hp] at hmem
    exact not_mem_normalize_plain hmem
  · obtain ⟨p, hp, hsigned, hvalue⟩ := exists_plain_spelling ha
    obtain ⟨q, hq, hsigned', hvalue'⟩ := exists_plain_spelling hb
    rw [← hp, ← hq, normalize_eq_iff hsigned hsigned', hvalue, hvalue',
      and_iff_left (iff_of_false ha hb)]

/-! ## The floor of a column -/

/-- Zero, at least a millionth, or a negative whole number. -/
def ColumnAmount.Convertible (a : ColumnAmount) : Prop :=
  a.units = 0 ∨ 100 ≤ a.units ∨ (a.units < 0 ∧ 10 ^ 8 ∣ a.units)

instance (a : ColumnAmount) : Decidable a.Convertible :=
  inferInstanceAs (Decidable (_ ∨ _))

/-- The fraction of a negative amount is added where it should be taken away. -/
theorem toBaseUnits_negative_iff {p : PlainDecimal} (h : p.negative = true) (decimals : ℕ) :
    toBaseUnits p.text decimals = some ⌊-p.size * 10 ^ decimals⌋ ↔
      fractionValue p.fraction = 0 := by
  have hsplit : -p.size * 10 ^ decimals =
      ((-(p.whole : ℤ) * 10 ^ decimals : ℤ) : ℚ) + -(fractionValue p.fraction * 10 ^ decimals) := by
    rw [PlainDecimal.size]
    push_cast
    ring
  have hnonneg : 0 ≤ fractionValue p.fraction * 10 ^ decimals :=
    mul_nonneg (fractionValue_nonneg _) (by positivity)
  rw [toBaseUnits_text, if_pos h, hsplit, Int.floor_intCast_add, Option.some.injEq,
    add_right_inj]
  constructor
  · intro hfloor
    have hneg : (0 : ℤ) ≤ ⌊-(fractionValue p.fraction * 10 ^ decimals)⌋ :=
      hfloor ▸ Int.floor_nonneg.mpr hnonneg
    have hzero : fractionValue p.fraction * 10 ^ decimals = 0 := by
      have := Int.floor_nonneg.mp hneg
      linarith
    exact (mul_eq_zero.mp hzero).resolve_right (by positivity)
  · intro hzero
    rw [hzero, zero_mul, neg_zero]

/-- A whole number has no fraction. -/
theorem fractionValue_eq_zero_iff {p : PlainDecimal} {n k : ℕ} (hk : 0 < k)
    (hsize : p.size = n / k) : fractionValue p.fraction = 0 ↔ k ∣ n := by
  have hpos : (0 : ℚ) < k := by exact_mod_cast hk
  rw [PlainDecimal.size, eq_div_iff hpos.ne'] at hsize
  constructor
  · intro hzero
    rw [hzero, add_zero] at hsize
    exact ⟨p.whole, by rw [mul_comm]; exact_mod_cast hsize.symm⟩
  · rintro ⟨m, rfl⟩
    have hm : (m : ℚ) = p.whole + fractionValue p.fraction := by
      refine mul_right_cancel₀ hpos.ne' ?_
      rw [hsize]
      push_cast
      ring
    have hfloor : ((p.whole : ℤ) : ℚ) + fractionValue p.fraction = ((m : ℤ) : ℚ) := by
      push_cast
      exact hm.symm
    have hwhole : (p.whole : ℤ) = m := by
      have hlt := fractionValue_lt_one p.digits
      have hge := fractionValue_nonneg p.fraction
      have h1 : ((m : ℤ) : ℚ) < ((p.whole + 1 : ℤ) : ℚ) := by
        push_cast
        push_cast at hfloor
        linarith
      have h2 : ((p.whole : ℤ) : ℚ) ≤ ((m : ℤ) : ℚ) := by linarith
      have h1' : (m : ℤ) < p.whole + 1 := by exact_mod_cast h1
      have h2' : (p.whole : ℤ) ≤ m := by exact_mod_cast h2
      omega
    rw [hwhole] at hfloor
    linarith

/-- A column is converted to its base units when it is convertible. -/
theorem toBaseUnits_decimalText_iff (a : ColumnAmount) :
    toBaseUnits a.decimalText 6 = some ⌊a.value * 10 ^ 6⌋ ↔ a.Convertible := by
  by_cases htiny : a.Tiny
  · obtain ⟨sign, hsign, hshape, htext⟩ := decimalText_tiny htiny
    rw [htext, toBaseUnits_exponential hshape hsign]
    refine iff_of_false nofun ?_
    obtain ⟨hzero, hsmall⟩ := htiny
    rintro (h | h | ⟨-, k, hk⟩) <;> omega
  · obtain ⟨p, htext, hnegative, hsize⟩ := exists_plainDecimal htiny
    obtain ⟨-, hvalue⟩ := signed_of_units (by positivity) hnegative hsize
    have hnontiny : a.units = 0 ∨ 100 ≤ a.units.natAbs := by
      by_contra hnot
      exact htiny ⟨by omega, by omega⟩
    rw [← htext, ColumnAmount.value, ← hvalue, valueOf, hnegative]
    by_cases hunits : a.units < 0
    · rw [decide_eq_true hunits] at hnegative ⊢
      rw [if_pos rfl, toBaseUnits_negative_iff hnegative,
        fractionValue_eq_zero_iff (n := a.units.natAbs) (k := 10 ^ 8) (by positivity)
          (by rw [hsize]; norm_num)]
      rw [ColumnAmount.Convertible, ← Int.natCast_dvd_natCast, Int.dvd_natAbs]
      constructor
      · intro h
        exact Or.inr (Or.inr ⟨hunits, by exact_mod_cast h⟩)
      · rintro (h | h | ⟨-, h⟩)
        · omega
        · omega
        · exact_mod_cast h
    · rw [decide_eq_false hunits] at hnegative ⊢
      rw [if_neg Bool.false_ne_true, toBaseUnits_plain hnegative]
      refine iff_of_true rfl ?_
      rw [ColumnAmount.Convertible]
      omega

/-- What is written in units is read back; a column is converted to the floor of its units
exactly when it is convertible; and two texts are compared by their amounts exactly unless one
amount is written with an exponent and without. -/
theorem amounts_convert_iff (n decimals : ℕ) (c : ColumnAmount) (a b : Spelling) :
    toBaseUnits (fromBaseUnits n decimals) decimals = some (n : ℤ) ∧
    (toBaseUnits c.decimalText 6 = some ⌊c.value * 10 ^ 6⌋ ↔ c.Convertible) ∧
    ((decimalAmountsEqual a.text b.text = true ↔ a.value = b.value) ↔
      (a.value = b.value → (a.Exponential ↔ b.Exponential))) := by
  refine ⟨toBaseUnits_fromBaseUnits n decimals, toBaseUnits_decimalText_iff c, ?_⟩
  rw [decimalAmountsEqual_iff]
  exact and_iff_left_iff_imp

/-! ## The amounts of the provider -/

/-- On plain texts the conversion is the one the provider's transfers use. -/
theorem toBaseUnits_provider {p : PlainDecimal} (h : p.negative = false) (decimals : ℕ) :
    toBaseUnits p.text decimals = some (Wdk.toBaseUnits p.text decimals : ℤ) := by
  have hwhole : p.wholeText = natText p.whole := by
    rw [PlainDecimal.wholeText, h]
    rfl
  rw [toBaseUnits_text, h, if_neg Bool.false_ne_true, Wdk.toBaseUnits, decimalUnits,
    PlainDecimal.splitPoint_text, hwhole, natValue_natText, ← natValue_padEnd_take p.digits]
  push_cast
  rfl

/-- The columns that are not tiny. -/
theorem not_tiny_iff (a : ColumnAmount) : ¬ a.Tiny ↔ a.value = 0 ∨ 1 / 10 ^ 6 ≤ |a.value| := by
  have hpos : (0 : ℚ) < 10 ^ 8 := by positivity
  have habs : |a.value| = (a.units.natAbs : ℚ) / 10 ^ 8 := by
    rw [ColumnAmount.value, abs_div, abs_of_pos hpos, Nat.cast_natAbs, Int.cast_abs]
  have hzero : a.value = 0 ↔ a.units = 0 := by
    rw [ColumnAmount.value, div_eq_zero_iff, or_iff_left hpos.ne']
    exact_mod_cast Iff.rfl
  have hlarge : 1 / 10 ^ 6 ≤ |a.value| ↔ 100 ≤ a.units.natAbs := by
    have hscale : (1 : ℚ) / 10 ^ 6 = ((100 : ℕ) : ℚ) / 10 ^ 8 := by norm_num
    rw [habs, hscale, div_le_div_iff_of_pos_right hpos, Nat.cast_le]
  rw [hzero, hlarge, ColumnAmount.Tiny]
  omega

/-- A recorded amount is compared with a plain text as the provider compares their values. -/
theorem decimalAmountsEqual_provider (a : ColumnAmount) {b : Spelling} (hb : ¬ b.Exponential) :
    decimalAmountsEqual a.decimalText b.text = Wdk.decimalAmountsEqual a.value b.value := by
  have hiff := decimalAmountsEqual_iff (.decimal a) b
  rw [iff_false_right hb, Spelling.Exponential, not_tiny_iff] at hiff
  rw [Bool.eq_iff_iff, Wdk.decimalAmountsEqual, decide_eq_true_eq]
  exact hiff

/-! ### Twelve units of the last place -/

/-- A tiny column. -/
def tiny : ColumnAmount := ⟨12, by norm_num⟩

theorem text_tiny : tiny.decimalText = js "1.2e-7" := by
  decide

/-- The amount is not cut off to zero but thrown on, and its two texts are taken for two
amounts. -/
theorem tiny_not_converted :
    tiny.decimalText = js "1.2e-7" ∧ toBaseUnits tiny.decimalText 6 = none ∧
      ⌊tiny.value * 10 ^ 6⌋ = 0 ∧
      (Spelling.decimal tiny).value = (Spelling.baseUnits 12 8).value ∧
      decimalAmountsEqual (Spelling.decimal tiny).text (Spelling.baseUnits 12 8).text = false := by
  refine ⟨text_tiny, ?_, ?_, rfl, ?_⟩
  · rw [text_tiny]
    decide
  · rw [ColumnAmount.value, tiny]
    norm_num
  · have htext : (Spelling.decimal tiny).text = js "1.2e-7" := text_tiny
    rw [htext]
    decide

end Sails.Wdk.Amounts
