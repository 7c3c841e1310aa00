import SailsProtocol.Text.CodeUnits

/-!
# Digit strings

Decimal numbers as text : `natText n` is `String(n)`, `padded w n` is `n` written
with exactly `w` digits. A digit string is the padded text of its value
(`padded_natValue`), and one with no leading zero is the `natText` of its value
(`natText_natValue`), so neither a number nor its text is lost by going through the
other.

`scan` reads a text of a fixed shape, numbers of given widths with a delimiter after
each, and `render` writes one ; each undoes the other (`scan_render`,
`render_of_scan`).
-/

namespace Text

/-- A decimal digit. -/
def isDigit (u : UInt16) : Bool := 0x30 ≤ u.toNat && u.toNat ≤ 0x39

/-- The value of a digit. -/
def digitValue (u : UInt16) : ℕ := u.toNat - 0x30

/-- The unit of a digit. -/
def digitUnit (d : ℕ) : UInt16 := UInt16.ofNat (0x30 + d)

/-- The number a digit string denotes. -/
def natValue (s : JsString) : ℕ := Nat.ofDigits 10 (s.map digitValue).reverse

/-- `String(n)` of a natural number. -/
def natText (n : ℕ) : JsString :=
  if n = 0 then [digitUnit 0] else (Nat.digits 10 n).reverse.map digitUnit

/-- The last `w` digits of `n`, padded with zeros. -/
def padded : ℕ → ℕ → JsString
  | 0, _ => []
  | w + 1, n => padded w (n / 10) ++ [digitUnit (n % 10)]

/-- Read `w` digits. -/
def takeDigits (w : ℕ) (s : JsString) : Option (ℕ × JsString) :=
  if w ≤ s.length && (s.take w).all isDigit then some (natValue (s.take w), s.drop w) else none

/-- Read the code unit `u`. -/
def expect (u : UInt16) : JsString → Option JsString
  | [] => none
  | v :: s => if v = u then some s else none

/-! ## Single digits -/

theorem isDigit_iff {u : UInt16} : isDigit u = true ↔ 0x30 ≤ u.toNat ∧ u.toNat ≤ 0x39 := by
  simp [isDigit]

theorem toNat_digitUnit {d : ℕ} (h : d < 10) : (digitUnit d).toNat = 0x30 + d := by
  unfold digitUnit
  rw [UInt16.toNat_ofNat']
  omega

theorem digitValue_digitUnit {d : ℕ} (h : d < 10) : digitValue (digitUnit d) = d := by
  rw [digitValue, toNat_digitUnit h]
  omega

theorem isDigit_digitUnit {d : ℕ} (h : d < 10) : isDigit (digitUnit d) = true := by
  rw [isDigit_iff, toNat_digitUnit h]
  omega

theorem digitValue_lt {u : UInt16} (h : isDigit u = true) : digitValue u < 10 := by
  rw [isDigit_iff] at h
  unfold digitValue
  omega

theorem digitUnit_digitValue {u : UInt16} (h : isDigit u = true) :
    digitUnit (digitValue u) = u := by
  have hlt := digitValue_lt h
  rw [isDigit_iff] at h
  apply UInt16.toNat_inj.mp
  rw [toNat_digitUnit hlt, digitValue]
  omega

theorem map_digitUnit_digitValue {s : JsString} (h : ∀ u ∈ s, isDigit u = true) :
    (s.map digitValue).map digitUnit = s := by
  rw [List.map_map]
  conv_rhs => rw [← List.map_id s]
  exact List.map_congr_left fun u hu => digitUnit_digitValue (h u hu)

theorem map_digitValue_digitUnit {l : List ℕ} (h : ∀ d ∈ l, d < 10) :
    (l.map digitUnit).map digitValue = l := by
  rw [List.map_map]
  conv_rhs => rw [← List.map_id l]
  exact List.map_congr_left fun d hd => digitValue_digitUnit (h d hd)

/-! ## Padded numbers -/

theorem natValue_concat (s : JsString) (u : UInt16) :
    natValue (s ++ [u]) = 10 * natValue s + digitValue u := by
  simp only [natValue, List.map_append, List.map_cons, List.map_nil, List.reverse_append,
    List.reverse_cons, List.reverse_nil, List.nil_append, List.singleton_append,
    Nat.ofDigits_cons]
  omega

@[simp] theorem length_padded (w n : ℕ) : (padded w n).length = w := by
  induction w generalizing n with
  | zero => rfl
  | succ w ih => simp [padded, ih]

/-- A padded number consists of digits. -/
theorem isDigit_of_mem_padded {w n : ℕ} {u : UInt16} (h : u ∈ padded w n) :
    isDigit u = true := by
  induction w generalizing n with
  | zero => simp [padded] at h
  | succ w ih =>
    rcases List.mem_append.mp h with h | h
    · exact ih h
    · rw [List.mem_singleton.mp h]
      exact isDigit_digitUnit (Nat.mod_lt _ (by omega))

theorem natValue_padded (w n : ℕ) : natValue (padded w n) = n % 10 ^ w := by
  induction w generalizing n with
  | zero => simp [padded, natValue, Nat.mod_one]
  | succ w ih =>
    rw [padded, natValue_concat, ih, digitValue_digitUnit (Nat.mod_lt _ (by omega)), pow_succ',
      Nat.mod_mul]
    omega

/-- Digits are the padded number of their value. -/
theorem padded_natValue {s : JsString} (h : ∀ u ∈ s, isDigit u = true) :
    padded s.length (natValue s) = s := by
  induction s using List.reverseRecOn with
  | nil => rfl
  | append_singleton s u ih =>
    have hu := digitValue_lt (h u (by simp))
    have hs := ih fun v hv => h v (by simp [hv])
    rw [List.length_append, List.length_singleton, padded, natValue_concat]
    rw [show (10 * natValue s + digitValue u) / 10 = natValue s by omega, hs,
      show (10 * natValue s + digitValue u) % 10 = digitValue u by omega,
      digitUnit_digitValue (h u (by simp))]

theorem natValue_lt {s : JsString} (h : ∀ u ∈ s, isDigit u = true) :
    natValue s < 10 ^ s.length := by
  have hv := natValue_padded s.length (natValue s)
  rw [padded_natValue h] at hv
  rw [hv]
  exact Nat.mod_lt _ (by positivity)

/-! ## Numbers with no leading zero -/

theorem digits_reverse_lt {n : ℕ} : ∀ d ∈ (Nat.digits 10 n).reverse, d < 10 := by
  intro d hd
  exact Nat.digits_lt_base (by omega) (List.mem_reverse.mp hd)

theorem isDigit_of_mem_natText {n : ℕ} {u : UInt16} (h : u ∈ natText n) : isDigit u = true := by
  unfold natText at h
  split at h
  · rw [List.mem_singleton.mp h]
    exact isDigit_digitUnit (by omega)
  · obtain ⟨d, hd, rfl⟩ := List.mem_map.mp h
    exact isDigit_digitUnit (digits_reverse_lt d hd)

theorem natValue_natText (n : ℕ) : natValue (natText n) = n := by
  unfold natText natValue
  split
  · next h => simp [h, digitValue_digitUnit]
  · rw [map_digitValue_digitUnit digits_reverse_lt, List.reverse_reverse, Nat.ofDigits_digits]

theorem natText_injective : Function.Injective natText :=
  Function.LeftInverse.injective natValue_natText

theorem natText_ne_nil (n : ℕ) : natText n ≠ [] := by
  unfold natText
  split
  · simp
  · next h => simpa using Nat.digits_ne_nil_iff_ne_zero.mpr h

/-- The text of a positive number starts with a digit other than zero. -/
theorem head_natText {n : ℕ} (h : n ≠ 0) : (natText n).head? ≠ some (digitUnit 0) := by
  have hne : Nat.digits 10 n ≠ [] := Nat.digits_ne_nil_iff_ne_zero.mpr h
  have hlast := Nat.getLast_digit_ne_zero 10 h
  have hlt := Nat.digits_lt_base (by omega : 1 < 10) (List.getLast_mem hne)
  rw [natText, if_neg h, List.head?_map, List.head?_reverse, List.getLast?_eq_getLast_of_ne_nil hne]
  intro heq
  have hv := congrArg digitValue (Option.some.inj heq)
  rw [digitValue_digitUnit hlt, digitValue_digitUnit (by omega)] at hv
  exact hlast hv

theorem length_natText_le {n k : ℕ} (hk : 0 < k) (h : n < 10 ^ k) : (natText n).length ≤ k := by
  unfold natText
  split
  · exact hk
  · rw [List.length_map, List.length_reverse]
    exact (Nat.digits_length_le_iff (by omega) n).mpr h

/-- A digit string with no leading zero is the text of its value. -/
theorem natText_natValue {u : UInt16} {s : JsString} (h : ∀ v ∈ u :: s, isDigit v = true)
    (hlead : u = digitUnit 0 → s = []) : natText (natValue (u :: s)) = u :: s := by
  by_cases hu : u = digitUnit 0
  · rw [hlead hu, hu]
    rfl
  · have hlast : ∀ hne : ((u :: s).map digitValue).reverse ≠ [],
        (((u :: s).map digitValue).reverse).getLast hne ≠ 0 := by
      intro hne
      rw [List.getLast_reverse]
      change digitValue u ≠ 0
      intro h0
      exact hu (by rw [← h0, digitUnit_digitValue (h u (by simp))])
    have hdig : ∀ d ∈ ((u :: s).map digitValue).reverse, d < 10 := by
      intro d hd
      obtain ⟨v, hv, rfl⟩ := List.mem_map.mp (List.mem_reverse.mp hd)
      exact digitValue_lt (h v hv)
    have hdigits := Nat.digits_ofDigits 10 (by omega) _ hdig hlast
    have hne : natValue (u :: s) ≠ 0 := by
      intro h0
      rw [natValue] at h0
      rw [h0] at hdigits
      simp at hdigits
    rw [natText, if_neg hne, natValue, hdigits, List.reverse_reverse, map_digitUnit_digitValue h]

/-! ## Reading a fixed shape -/

/-- A padded number is taken from the front of a text. -/
theorem takeDigits_padded (w n : ℕ) (s : JsString) :
    takeDigits w (padded w n ++ s) = some (n % 10 ^ w, s) := by
  have hlen := length_padded w n
  have htake : (padded w n ++ s).take w = padded w n := by simp
  have hall : (padded w n).all isDigit = true :=
    List.all_eq_true.mpr fun u hu => isDigit_of_mem_padded hu
  rw [takeDigits, htake, hall, natValue_padded]
  simp

@[simp] theorem expect_cons (u : UInt16) (s : JsString) : expect u (u :: s) = some s := by
  simp [expect]

/-- What is taken from the front of a text is a padded number. -/
theorem takeDigits_eq_some {w n : ℕ} {s t : JsString} (h : takeDigits w s = some (n, t)) :
    n < 10 ^ w ∧ s = padded w n ++ t := by
  unfold takeDigits at h
  split at h
  · next hc =>
    simp only [Bool.and_eq_true, decide_eq_true_eq, List.all_eq_true] at hc
    obtain ⟨hlen, hall⟩ := hc
    obtain ⟨rfl, rfl⟩ := Prod.mk.inj (Option.some.inj h)
    have hw : (s.take w).length = w := by simp [hlen]
    have hp := padded_natValue hall
    have hlt := natValue_lt hall
    rw [hw] at hp hlt
    rw [hp]
    exact ⟨hlt, (List.take_append_drop w s).symm⟩
  · cases h

/-- What is expected is at the front. -/
theorem expect_eq_some {u : UInt16} {s t : JsString} (h : expect u s = some t) : s = u :: t := by
  cases s with
  | nil => cases h
  | cons v s =>
    by_cases hv : v = u
    · rw [expect, if_pos hv] at h
      rw [hv, Option.some.inj h]
    · rw [expect, if_neg hv] at h
      cases h

/-- Read numbers of fixed width, each followed by its delimiter, and nothing after. -/
def scan : List (ℕ × UInt16) → JsString → Option (List ℕ)
  | [], s => if s = [] then some [] else none
  | (w, u) :: shape, s => do
    let (n, s) ← takeDigits w s
    let s ← expect u s
    let ns ← scan shape s
    some (n :: ns)

/-- Write numbers of fixed width, each followed by its delimiter. -/
def render : List (ℕ × UInt16) → List ℕ → JsString
  | (w, u) :: shape, n :: ns => padded w n ++ u :: render shape ns
  | _, _ => []

/-- Every number has at most as many digits as the shape gives it. -/
def Fits (shape : List (ℕ × UInt16)) (ns : List ℕ) : Prop :=
  List.Forall₂ (fun p n => n < 10 ^ p.1) shape ns

theorem scan_render {shape : List (ℕ × UInt16)} {ns : List ℕ} (h : Fits shape ns) :
    scan shape (render shape ns) = some ns := by
  induction h with
  | nil => rfl
  | cons hn _ ih =>
    simp [scan, render, takeDigits_padded, Nat.mod_eq_of_lt hn, ih]

/-- A text that was read is what is written of the numbers read off it. -/
theorem render_of_scan {shape : List (ℕ × UInt16)} {s : JsString} {ns : List ℕ}
    (h : scan shape s = some ns) : Fits shape ns ∧ s = render shape ns := by
  induction shape generalizing s ns with
  | nil =>
    by_cases hs : s = []
    · rw [scan, if_pos hs] at h
      obtain rfl := Option.some.inj h
      exact ⟨.nil, hs⟩
    · rw [scan, if_neg hs] at h
      cases h
  | cons p shape ih =>
    obtain ⟨w, u⟩ := p
    simp only [scan, Option.bind_eq_bind, Option.bind_eq_some_iff, Prod.exists] at h
    obtain ⟨n, s1, h1, s2, h2, ns', h3, h4⟩ := h
    obtain rfl := Option.some.inj h4
    obtain ⟨hn, rfl⟩ := takeDigits_eq_some h1
    obtain rfl := expect_eq_some h2
    obtain ⟨hfit, rfl⟩ := ih h3
    exact ⟨.cons hn hfit, rfl⟩

/-- What is rendered consists of digits and separators. -/
theorem mem_render {shape : List (ℕ × UInt16)} {ns : List ℕ} {u : UInt16}
    (h : u ∈ render shape ns) : isDigit u = true ∨ u ∈ shape.map Prod.snd := by
  fun_induction render shape ns with
  | case1 w v shape n ns ih =>
    rcases List.mem_append.mp h with h | h
    · exact Or.inl (isDigit_of_mem_padded h)
    · rcases List.mem_cons.mp h with rfl | h
      · exact Or.inr (by simp)
      · exact (ih h).imp_right (List.mem_cons_of_mem _)
  | case2 => cases h

end Text
