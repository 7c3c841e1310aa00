import SailsProtocol.Text.Digits

/-!
# Decimal texts

An amount as text : its whole part, a point and a fixed number of places
(`fixedText`). `decimalUnits` reads such a text as a number of units of the last place,
and gives the number back that was written (`decimalUnits_fixedText`).
-/

namespace Text

/-- The decimal point. -/
def point : UInt16 := 0x2E

/-- `padEnd(width, '0')`. -/
def padEnd (width : ℕ) (s : JsString) : JsString :=
  s ++ List.replicate (width - s.length) (digitUnit 0)

/-- The first two parts of `split('.')`, the second empty when there is no point. -/
def splitPoint (s : JsString) : JsString × JsString :=
  (s.takeWhile (· ≠ point), ((s.dropWhile (· ≠ point)).drop 1).takeWhile (· ≠ point))

/-- `n` units of the last of `decimals` places. -/
def fixedText (decimals n : ℕ) : JsString :=
  natText (n / 10 ^ decimals) ++ point :: padded decimals (n % 10 ^ decimals)

/-- The units of the last of `decimals` places in a text, further places cut off. -/
def decimalUnits (decimals : ℕ) (s : JsString) : ℕ :=
  natValue (splitPoint s).1 * 10 ^ decimals +
    natValue (padEnd decimals ((splitPoint s).2.take decimals))

theorem ne_point_of_isDigit {u : UInt16} (h : isDigit u = true) : u ≠ point := by
  rintro rfl
  exact absurd h (by decide)

/-- The value of digits in two parts. -/
theorem natValue_append (s t : JsString) :
    natValue (s ++ t) = natValue s * 10 ^ t.length + natValue t := by
  induction t using List.reverseRecOn with
  | nil => simp [natValue]
  | append_singleton t u ih =>
    rw [← List.append_assoc, natValue_concat, natValue_concat, ih, List.length_append,
      List.length_singleton, pow_succ]
    ring

theorem splitPoint_of_not_mem {s : JsString} (hs : point ∉ s) : splitPoint s = (s, []) := by
  have hne : ∀ u ∈ s, decide (u ≠ point) = true := fun u hu =>
    decide_eq_true (ne_of_mem_of_not_mem hu hs)
  rw [splitPoint, List.takeWhile_eq_self_iff.mpr hne, List.dropWhile_eq_nil_iff.mpr hne]
  rfl

theorem splitPoint_append {s t : JsString} (hs : point ∉ s) (ht : point ∉ t) :
    splitPoint (s ++ point :: t) = (s, t) := by
  have hne : ∀ u ∈ s, decide (u ≠ point) = true := fun u hu =>
    decide_eq_true (ne_of_mem_of_not_mem hu hs)
  rw [splitPoint, List.takeWhile_append_of_pos hne, List.dropWhile_append_of_pos hne]
  simpa using fun u hu => ne_of_mem_of_not_mem hu ht

theorem point_not_mem {s : JsString} (hs : ∀ u ∈ s, isDigit u = true) : point ∉ s := fun h =>
  ne_point_of_isDigit (hs point h) rfl

theorem splitPoint_digits {s t : JsString} (hs : ∀ u ∈ s, isDigit u = true)
    (ht : ∀ u ∈ t, isDigit u = true) : splitPoint (s ++ point :: t) = (s, t) :=
  splitPoint_append (point_not_mem hs) (point_not_mem ht)

theorem splitPoint_fixedText (decimals n : ℕ) : splitPoint (fixedText decimals n) =
    (natText (n / 10 ^ decimals), padded decimals (n % 10 ^ decimals)) :=
  splitPoint_digits (fun _ => isDigit_of_mem_natText) fun _ => isDigit_of_mem_padded

@[simp] theorem padEnd_padded (w n : ℕ) : padEnd w (padded w n) = padded w n := by
  simp [padEnd]

/-- The text of an amount is read back. -/
theorem decimalUnits_fixedText (decimals n : ℕ) :
    decimalUnits decimals (fixedText decimals n) = n := by
  rw [decimalUnits, splitPoint_fixedText, List.take_of_length_le (by simp), padEnd_padded,
    natValue_natText, natValue_padded, Nat.mod_mod]
  exact Nat.div_add_mod' n (10 ^ decimals)

end Text
