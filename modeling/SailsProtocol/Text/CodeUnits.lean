import Mathlib

/-!
# Strings of UTF-16 code units and their UTF-8 bytes

A JavaScript string is a list of UTF-16 code units, with no promise that surrogates
come in pairs. Encoding it as UTF-8 reads the units as scalar values (`scalars`) :
a high surrogate followed by a low one is one scalar, and a surrogate with no
partner is replaced by U+FFFD. `toWellFormed` is the same replacement on units.

Two strings have the same bytes exactly when they have the same well-formed form
(`toUtf8_eq_iff`). A separator that is no surrogate splits the encoding where it
splits the string, so a join of fields that do not hold it is encoded field by
field (`toUtf8_join_eq_iff`).
-/

namespace Text

/-- A JavaScript string. -/
abbrev JsString := List UInt16

/-- The first unit of a surrogate pair. -/
def isHighSurrogate (u : UInt16) : Bool := 0xD800 ≤ u.toNat && u.toNat ≤ 0xDBFF

/-- The second unit of a surrogate pair. -/
def isLowSurrogate (u : UInt16) : Bool := 0xDC00 ≤ u.toNat && u.toNat ≤ 0xDFFF

/-- A unit of a surrogate pair. -/
def isSurrogate (u : UInt16) : Bool := 0xD800 ≤ u.toNat && u.toNat ≤ 0xDFFF

/-- U+FFFD, what stands for a surrogate with no partner. -/
def replacement : UInt16 := 0xFFFD

/-- The scalar of a code unit that stands alone. -/
def unitScalar (u : UInt16) : Char :=
  if isSurrogate u then Char.ofNat 0xFFFD else Char.ofNat u.toNat

/-- The scalar of a surrogate pair. -/
def pairScalar (hi lo : UInt16) : Char :=
  Char.ofNat (0x10000 + (hi.toNat - 0xD800) * 0x400 + (lo.toNat - 0xDC00))

/-- The scalar values a string reads as. -/
def scalars : JsString → List Char
  | [] => []
  | [u] => [unitScalar u]
  | u :: v :: rest =>
    if isHighSurrogate u && isLowSurrogate v then pairScalar u v :: scalars rest
    else unitScalar u :: scalars (v :: rest)

/-- `Buffer.from(s, 'utf8')`. -/
def toUtf8 (s : JsString) : List UInt8 := (scalars s).flatMap String.utf8EncodeChar

/-- A unit, with the replacement character for a lone surrogate. -/
def unitWellFormed (u : UInt16) : UInt16 := if isSurrogate u then replacement else u

/-- `s.toWellFormed()` : every surrogate with no partner becomes U+FFFD. -/
def toWellFormed : JsString → JsString
  | [] => []
  | [u] => [unitWellFormed u]
  | u :: v :: rest =>
    if isHighSurrogate u && isLowSurrogate v then u :: v :: toWellFormed rest
    else unitWellFormed u :: toWellFormed (v :: rest)

/-- The code units of one scalar. -/
def charUnits (c : Char) : JsString :=
  if c.toNat < 0x10000 then [UInt16.ofNat c.toNat]
  else [UInt16.ofNat (0xD800 + (c.toNat - 0x10000) / 0x400),
    UInt16.ofNat (0xDC00 + (c.toNat - 0x10000) % 0x400)]

/-- The string of a literal. -/
def js (s : String) : JsString := s.toList.flatMap charUnits

/-- `fields.join(sep)` for a separator of one code unit. -/
def join (sep : UInt16) (fields : List JsString) : JsString := List.intercalate [sep] fields

/-- A text is read off its characters. -/
theorem js_ofList (l : List Char) : js (String.ofList l) = l.flatMap charUnits := by
  rw [js, String.toList_ofList]

theorem js_append (s t : String) : js (s ++ t) = js s ++ js t := by
  rw [js, String.toList_append, List.flatMap_append, js, js]

/-! ## Surrogates -/

theorem isSurrogate_of_high {u : UInt16} (h : isHighSurrogate u = true) : isSurrogate u = true := by
  unfold isHighSurrogate at h
  unfold isSurrogate
  simp only [Bool.and_eq_true, decide_eq_true_eq] at h ⊢
  omega

theorem isSurrogate_of_low {u : UInt16} (h : isLowSurrogate u = true) : isSurrogate u = true := by
  unfold isLowSurrogate at h
  unfold isSurrogate
  simp only [Bool.and_eq_true, decide_eq_true_eq] at h ⊢
  omega

theorem not_high_of_plain {u : UInt16} (h : isSurrogate u = false) : isHighSurrogate u = false := by
  by_contra hu
  rw [isSurrogate_of_high (by simpa using hu)] at h
  exact Bool.noConfusion h

theorem not_low_of_plain {u : UInt16} (h : isSurrogate u = false) : isLowSurrogate u = false := by
  by_contra hu
  rw [isSurrogate_of_low (by simpa using hu)] at h
  exact Bool.noConfusion h

/-- The scalar of a plain unit is its number. -/
theorem toNat_unitScalar {u : UInt16} (h : isSurrogate u = false) :
    (unitScalar u).toNat = u.toNat := by
  have hu := u.toNat_lt
  unfold isSurrogate at h
  unfold unitScalar
  simp only [Bool.and_eq_false_iff, decide_eq_false_iff_not] at h
  rw [if_neg (by simp [isSurrogate]; omega), Char.toNat_ofNat, if_pos]
  unfold Nat.isValidChar
  omega

/-- The scalar of a surrogate pair. -/
theorem toNat_pairScalar {u v : UInt16} (hu : isHighSurrogate u = true)
    (hv : isLowSurrogate v = true) :
    (pairScalar u v).toNat = 0x10000 + (u.toNat - 0xD800) * 0x400 + (v.toNat - 0xDC00) := by
  unfold isHighSurrogate at hu
  unfold isLowSurrogate at hv
  simp only [Bool.and_eq_true, decide_eq_true_eq] at hu hv
  unfold pairScalar
  rw [Char.toNat_ofNat, if_pos]
  unfold Nat.isValidChar
  omega

/-! ## Well-formed strings and scalars -/

/-- A plain unit is the unit of its scalar. -/
theorem charUnits_unitScalar (u : UInt16) : charUnits (unitScalar u) = [unitWellFormed u] := by
  cases h : isSurrogate u with
  | true =>
    rw [unitScalar, unitWellFormed, if_pos h, if_pos h]
    decide
  | false =>
    have hn := toNat_unitScalar h
    have hu := u.toNat_lt
    rw [charUnits, unitWellFormed, if_pos (by omega), hn, if_neg (by simp [h])]
    simp

/-- A pair is the pair of its scalar. -/
theorem charUnits_pairScalar {u v : UInt16} (hu : isHighSurrogate u = true)
    (hv : isLowSurrogate v = true) : charUnits (pairScalar u v) = [u, v] := by
  have hn := toNat_pairScalar hu hv
  unfold isHighSurrogate at hu
  unfold isLowSurrogate at hv
  simp only [Bool.and_eq_true, decide_eq_true_eq] at hu hv
  rw [charUnits, if_neg (by omega), hn]
  have hhi : 0xD800 + (0x10000 + (u.toNat - 0xD800) * 0x400 + (v.toNat - 0xDC00) - 0x10000) / 0x400
      = u.toNat := by omega
  have hlo : 0xDC00 + (0x10000 + (u.toNat - 0xD800) * 0x400 + (v.toNat - 0xDC00) - 0x10000) % 0x400
      = v.toNat := by omega
  rw [hhi, hlo]
  simp

/-- The scalars of a string, written back as code units, are its well-formed form. -/
theorem flatMap_charUnits_scalars (s : JsString) :
    (scalars s).flatMap charUnits = toWellFormed s := by
  fun_induction scalars s with
  | case1 => rfl
  | case2 u => simp [charUnits_unitScalar, toWellFormed]
  | case3 u v rest h ih =>
    have h' := Bool.and_eq_true_iff.mp h
    rw [List.flatMap_cons, ih, charUnits_pairScalar h'.1 h'.2, toWellFormed, if_pos h]
    rfl
  | case4 u v rest h ih =>
    rw [List.flatMap_cons, ih, charUnits_unitScalar, toWellFormed, if_neg h]
    rfl

theorem unitWellFormed_plain (u : UInt16) : isSurrogate (unitWellFormed u) = false := by
  unfold unitWellFormed
  split
  · decide
  · simp_all

theorem unitScalar_unitWellFormed (u : UInt16) :
    unitScalar (unitWellFormed u) = unitScalar u := by
  cases h : isSurrogate u with
  | true =>
    rw [unitWellFormed, if_pos h, unitScalar, unitScalar, if_pos h]
    decide
  | false => rw [unitWellFormed, if_neg (by simp [h])]

theorem scalars_cons_plain {u : UInt16} (h : isSurrogate u = false) (s : JsString) :
    scalars (u :: s) = unitScalar u :: scalars s := by
  cases s with
  | nil => rfl
  | cons v s => rw [scalars, if_neg (by simp [not_high_of_plain h])]

/-- A string and its well-formed form read as the same scalars. -/
theorem scalars_toWellFormed (s : JsString) : scalars (toWellFormed s) = scalars s := by
  fun_induction toWellFormed s with
  | case1 => rfl
  | case2 u => simp [scalars, unitScalar_unitWellFormed]
  | case3 u v rest h ih => rw [scalars, if_pos h, ih, scalars, if_pos h]
  | case4 u v rest h ih =>
    rw [scalars_cons_plain (unitWellFormed_plain u), ih, unitScalar_unitWellFormed, scalars,
      if_neg h]

theorem scalars_eq_iff {s t : JsString} : scalars s = scalars t ↔ toWellFormed s = toWellFormed t := by
  constructor
  · intro h
    rw [← flatMap_charUnits_scalars, ← flatMap_charUnits_scalars, h]
  · intro h
    rw [← scalars_toWellFormed s, h, scalars_toWellFormed]

/-- UTF-8 is injective on texts. -/
theorem flatMap_utf8EncodeChar_injective :
    Function.Injective (List.flatMap String.utf8EncodeChar) := by
  intro l l' h
  have h' : l.utf8Encode.utf8Decode? = l'.utf8Encode.utf8Decode? := by
    unfold List.utf8Encode
    exact congrArg (fun bytes => (List.toByteArray bytes).utf8Decode?) h
  rw [List.utf8Decode?_utf8Encode, List.utf8Decode?_utf8Encode] at h'
  simpa using h'

/-- Two strings have the same bytes exactly when they have the same well-formed form. -/
theorem toUtf8_eq_iff {s t : JsString} : toUtf8 s = toUtf8 t ↔ toWellFormed s = toWellFormed t :=
  flatMap_utf8EncodeChar_injective.eq_iff.trans scalars_eq_iff

/-- A text without surrogates is well formed. -/
theorem toWellFormed_of_plain {s : JsString} (h : ∀ u ∈ s, isSurrogate u = false) :
    toWellFormed s = s := by
  fun_induction toWellFormed s with
  | case1 => rfl
  | case2 u => simp [unitWellFormed, h u (by simp)]
  | case3 u v rest huv ih =>
    simp [not_high_of_plain (h u (by simp))] at huv
  | case4 u v rest huv ih =>
    rw [ih fun w hw => h w (List.mem_cons_of_mem u hw), unitWellFormed,
      if_neg (by simp [h u (by simp)])]

/-! ## Joins -/

/-- A plain unit separates the scalars of the texts on both sides. -/
theorem scalars_append_plain {u : UInt16} (h : isSurrogate u = false) (s t : JsString) :
    scalars (s ++ u :: t) = scalars s ++ unitScalar u :: scalars t := by
  fun_induction scalars s with
  | case1 => exact scalars_cons_plain h t
  | case2 v =>
    change scalars (v :: u :: t) = _
    rw [scalars, if_neg (by simp [not_low_of_plain h]), scalars_cons_plain h]
    rfl
  | case3 v w rest hvw ih =>
    change scalars (v :: w :: (rest ++ u :: t)) = _
    rw [scalars, if_pos hvw, ih]
    rfl
  | case4 v w rest hvw ih =>
    change scalars (v :: w :: (rest ++ u :: t)) = _
    rw [scalars, if_neg hvw]
    exact congrArg (unitScalar v :: ·) ih

/-- The scalars of joined texts are the joined scalars. -/
theorem scalars_join {sep : UInt16} (h : isSurrogate sep = false) :
    ∀ fields : List JsString,
      scalars (join sep fields) = List.intercalate [unitScalar sep] (fields.map scalars)
  | [] => rfl
  | [s] => by simp [join]
  | s :: t :: rest => by
    have ih := scalars_join h (t :: rest)
    simp only [join, List.intercalate_cons_cons, List.map_cons] at ih ⊢
    rw [List.append_assoc, List.singleton_append, scalars_append_plain h, ih]
    simp

/-- A separator among the scalars is one among the units. -/
theorem unitScalar_mem_scalars {sep : UInt16} (h : isSurrogate sep = false) (s : JsString)
    (hmem : unitScalar sep ∈ scalars s) (hrep : sep ≠ replacement) : sep ∈ s := by
  have hsep : charUnits (unitScalar sep) = [sep] := by
    rw [charUnits_unitScalar, unitWellFormed, if_neg (by simp [h])]
  have hwf : sep ∈ toWellFormed s := by
    rw [← flatMap_charUnits_scalars]
    exact List.mem_flatMap.mpr ⟨_, hmem, by simp [hsep]⟩
  clear hmem hsep
  fun_induction toWellFormed s with
  | case1 => exact hwf
  | case2 u =>
    unfold unitWellFormed at hwf
    split at hwf <;> simp_all
  | case3 u v rest huv ih => grind
  | case4 u v rest huv ih =>
    unfold unitWellFormed at hwf
    split at hwf <;> grind

/-- Joins of as many fields, none of which holds the separator, have the same bytes
exactly when the fields have the same well-formed forms one by one. -/
theorem toUtf8_join_eq_iff {sep : UInt16} (h : isSurrogate sep = false)
    (hrep : sep ≠ replacement) {as bs : List JsString} (ha : ∀ s ∈ as, sep ∉ s)
    (hb : ∀ s ∈ bs, sep ∉ s) (hane : as ≠ []) (hbne : bs ≠ []) :
    toUtf8 (join sep as) = toUtf8 (join sep bs) ↔ as.map toWellFormed = bs.map toWellFormed := by
  have hsplit : ∀ fields : List JsString, (∀ s ∈ fields, sep ∉ s) → fields ≠ [] →
      (scalars (join sep fields)).splitOn (unitScalar sep) = fields.map scalars := by
    intro fields hf hne
    rw [scalars_join h]
    refine List.splitOn_intercalate _ ?_ (by simpa using hne)
    intro l hl hmem
    obtain ⟨s, hs, rfl⟩ := List.mem_map.mp hl
    exact hf s hs (unitScalar_mem_scalars h s hmem hrep)
  have hmap : ∀ fields : List JsString,
      (fields.map scalars).map (List.flatMap charUnits) = fields.map toWellFormed := by
    intro fields
    rw [List.map_map]
    exact List.map_congr_left fun s _ => flatMap_charUnits_scalars s
  constructor
  · intro heq
    have hs := flatMap_utf8EncodeChar_injective heq
    rw [← hmap, ← hmap, ← hsplit as ha hane, ← hsplit bs hb hbne, hs]
  · intro heq
    have hs : as.map scalars = bs.map scalars := by
      have := congrArg (List.map scalars) heq
      simpa [List.map_map, Function.comp_def, scalars_toWellFormed] using this
    unfold toUtf8
    rw [scalars_join h, scalars_join h, hs]

end Text
