import SailsProtocol.Text.Digits

/-!
# The text of a flat object

`stringify` is `JSON.stringify` of an object whose members are null, Booleans,
integers, strings or lists of strings. A string is quoted as the language
specifies : seven characters have a short escape, and every other control character
and every surrogate with no partner is written as `\uXXXX`.

The text determines the object (`stringify_injective`) : a quoted string is read
back by `readQuoted`, and the kind of every other member can be told from the first
character of its text. It has no unpaired surrogate either, so its UTF-8 encoding
still determines it (`toUtf8_stringify_injective`).
-/

namespace Text

/-! ## Quoting -/

/-- A lower case hexadecimal digit. -/
def hexUnit (d : ℕ) : UInt16 := UInt16.ofNat (if d < 10 then 0x30 + d else 0x57 + d)

/-- The value of a lower-case hex digit. -/
def hexDigitValue (u : UInt16) : ℕ := if u.toNat ≤ 0x39 then u.toNat - 0x30 else u.toNat - 0x57

/-- `\uXXXX`. -/
def unicodeEscape (u : UInt16) : JsString :=
  [0x5C, 0x75, hexUnit (u.toNat / 0x1000), hexUnit (u.toNat / 0x100 % 16),
    hexUnit (u.toNat / 16 % 16), hexUnit (u.toNat % 16)]

/-- The characters with a short escape, and the letter after the backslash. -/
def shortEscapes : List (UInt16 × UInt16) :=
  [(0x08, 0x62), (0x09, 0x74), (0x0A, 0x6E), (0x0C, 0x66), (0x0D, 0x72), (0x22, 0x22),
    (0x5C, 0x5C)]

/-- The letter of a short escape. -/
def shortEscape (u : UInt16) : Option UInt16 := (shortEscapes.find? fun p => p.1 == u).map Prod.snd

/-- What the letter of a short escape stands for. -/
def shortMeaning (l : UInt16) : UInt16 :=
  ((shortEscapes.find? fun p => p.2 == l).map Prod.fst).getD l

/-- A unit inside a quoted text. -/
def escapeUnit (u : UInt16) : JsString :=
  match shortEscape u with
  | some l => [0x5C, l]
  | none => if u.toNat < 0x20 || isSurrogate u then unicodeEscape u else [u]

/-- The characters of a string between its quotation marks. -/
def escape : JsString → JsString
  | [] => []
  | [u] => escapeUnit u
  | u :: v :: rest =>
    if isHighSurrogate u && isLowSurrogate v then u :: v :: escape rest
    else escapeUnit u ++ escape (v :: rest)

/-- `QuoteJSONString`. -/
def quote (s : JsString) : JsString := 0x22 :: escape s ++ [0x22]

/-- A unit more at the front of what was read. -/
def prepend (u : UInt16) (r : Option (JsString × JsString)) : Option (JsString × JsString) :=
  r.map fun p => (u :: p.1, p.2)

/-- Read to the closing quotation mark : the string, and what follows. -/
def readQuoted : JsString → Option (JsString × JsString)
  | [] => none
  | u :: s =>
    if u = 0x22 then some ([], s)
    else if u = 0x5C then
      match s with
      | [] => none
      | l :: s =>
        if l = 0x75 then
          match s with
          | a :: b :: c :: d :: s =>
            prepend (UInt16.ofNat
              (hexDigitValue a * 0x1000 + hexDigitValue b * 0x100 + hexDigitValue c * 16 + hexDigitValue d))
              (readQuoted s)
          | _ => none
        else prepend (shortMeaning l) (readQuoted s)
    else prepend u (readQuoted s)

theorem hexDigitValue_hexUnit {d : ℕ} (h : d < 16) : hexDigitValue (hexUnit d) = d := by
  unfold hexDigitValue hexUnit
  rw [UInt16.toNat_ofNat']
  split <;> split at * <;> omega

theorem readQuoted_close (s : JsString) : readQuoted (0x22 :: s) = some ([], s) := by
  rw [readQuoted.eq_def]
  simp

theorem readQuoted_plain {u : UInt16} (hq : u ≠ 0x22) (hb : u ≠ 0x5C) (s : JsString) :
    readQuoted (u :: s) = prepend u (readQuoted s) := by
  rw [readQuoted.eq_def]
  simp only [if_neg hq, if_neg hb]

/-- A short escape is read back. -/
theorem shortMeaning_of_shortEscape {u l : UInt16} (h : shortEscape u = some l) :
    shortMeaning l = u ∧ l ≠ 0x75 := by
  have htable : shortEscapes.all (fun p => shortMeaning p.2 == p.1 && p.2 != 0x75) = true := by
    decide
  obtain ⟨p, hp, rfl⟩ := Option.map_eq_some_iff.mp h
  have hu : p.1 = u := by simpa using List.find?_some hp
  have := List.all_eq_true.mp htable p (List.mem_of_find?_eq_some hp)
  simp only [Bool.and_eq_true, beq_iff_eq, bne_iff_ne] at this
  exact ⟨this.1.trans hu, this.2⟩

/-- A unicode escape is read back. -/
theorem readQuoted_unicodeEscape (u : UInt16) (s : JsString) :
    readQuoted (unicodeEscape u ++ s) = prepend u (readQuoted s) := by
  have hu := u.toNat_lt
  have hvalue : UInt16.ofNat (u.toNat / 0x1000 * 0x1000 + u.toNat / 0x100 % 16 * 0x100 +
      u.toNat / 16 % 16 * 16 + u.toNat % 16) = u := by
    rw [show u.toNat / 0x1000 * 0x1000 + u.toNat / 0x100 % 16 * 0x100 +
      u.toNat / 16 % 16 * 16 + u.toNat % 16 = u.toNat by omega]
    exact UInt16.ofNat_toNat
  rw [unicodeEscape]
  simp only [List.cons_append, List.nil_append]
  rw [readQuoted.eq_def]
  simp only [if_neg (by decide : ¬ (0x5C : UInt16) = 0x22), if_true]
  rw [hexDigitValue_hexUnit (by omega), hexDigitValue_hexUnit (by omega), hexDigitValue_hexUnit (by omega),
    hexDigitValue_hexUnit (by omega), hvalue]

/-- An escaped unit is read back. -/
theorem readQuoted_escapeUnit (u : UInt16) (s : JsString) :
    readQuoted (escapeUnit u ++ s) = prepend u (readQuoted s) := by
  unfold escapeUnit
  split
  · next l hl =>
    obtain ⟨hmeaning, hne⟩ := shortMeaning_of_shortEscape hl
    simp only [List.cons_append, List.nil_append]
    rw [readQuoted.eq_def]
    simp [hne, hmeaning]
  · next hl =>
    split
    · exact readQuoted_unicodeEscape u s
    · refine readQuoted_plain ?_ ?_ s
      · rintro rfl
        exact absurd hl (by decide)
      · rintro rfl
        exact absurd hl (by decide)

/-- An escaped text is read back. -/
theorem readQuoted_escape (s r : JsString) :
    readQuoted (escape s ++ 0x22 :: r) = some (s, r) := by
  fun_induction escape s with
  | case1 => exact readQuoted_close r
  | case2 u =>
    rw [readQuoted_escapeUnit, readQuoted_close]
    rfl
  | case3 u v rest h ih =>
    have hu : isHighSurrogate u = true := by simp_all
    have hv : isLowSurrogate v = true := by simp_all
    simp only [List.cons_append]
    rw [readQuoted_plain, readQuoted_plain, ih]
    · rfl
    all_goals
      rintro rfl
      first
        | exact absurd hv (by decide)
        | exact absurd hu (by decide)
  | case4 u v rest _ ih =>
    rw [List.append_assoc, readQuoted_escapeUnit, ih]
    rfl

theorem quote_append_eq {s t r r' : JsString} (h : quote s ++ r = quote t ++ r') :
    s = t ∧ r = r' := by
  simp only [quote, List.cons_append, List.append_assoc, List.nil_append, List.cons.injEq,
    true_and] at h
  have hr := congrArg readQuoted h
  rw [readQuoted_escape, readQuoted_escape] at hr
  exact Prod.mk.inj (Option.some.inj hr)

/-! ## Members -/

/-- What a member of the object holds. -/
inductive Value where
  | null
  | bool (b : Bool)
  | num (n : ℤ)
  | str (s : JsString)
  | strs (l : List JsString)
  deriving DecidableEq

/-- An integer in decimal. -/
def intText (n : ℤ) : JsString := if n < 0 then 0x2D :: natText n.natAbs else natText n.natAbs

/-- The strings of a list after its first, and the closing bracket. -/
def strsTail : List JsString → JsString
  | [] => [0x5D]
  | s :: l => 0x2C :: quote s ++ strsTail l

/-- An array of texts. -/
def strsText : List JsString → JsString
  | [] => [0x5B, 0x5D]
  | s :: l => 0x5B :: quote s ++ strsTail l

/-- `JSON.stringify` of a value. -/
def Value.text : Value → JsString
  | null => [0x6E, 0x75, 0x6C, 0x6C]
  | bool true => [0x74, 0x72, 0x75, 0x65]
  | bool false => [0x66, 0x61, 0x6C, 0x73, 0x65]
  | num n => intText n
  | str s => quote s
  | strs l => strsText l

/-- The members of an object after its first, and the closing brace. -/
def membersTail : List (JsString × Value) → JsString
  | [] => [0x7D]
  | (k, v) :: l => 0x2C :: quote k ++ 0x3A :: v.text ++ membersTail l

/-- `JSON.stringify` of an object with these members. -/
def stringify : List (JsString × Value) → JsString
  | [] => [0x7B, 0x7D]
  | (k, v) :: l => 0x7B :: quote k ++ 0x3A :: v.text ++ membersTail l

/-- What follows the text of a member. -/
def Delimited (r : JsString) : Prop := ∃ u s, r = u :: s ∧ (u = 0x2C ∨ u = 0x7D)

theorem delimited_membersTail : ∀ l : List (JsString × Value), Delimited (membersTail l)
  | [] => ⟨0x7D, [], rfl, Or.inr rfl⟩
  | (_, _) :: _ => ⟨0x2C, _, rfl, Or.inl rfl⟩

theorem Delimited.takeWhile {r : JsString} (h : Delimited r) : r.takeWhile isDigit = [] := by
  obtain ⟨u, s, rfl, rfl | rfl⟩ := h
  · rfl
  · rfl

/-- Where a number ends does not depend on what follows. -/
theorem natText_append_eq {n m : ℕ} {r r' : JsString} (hr : Delimited r) (hr' : Delimited r')
    (h : natText n ++ r = natText m ++ r') : n = m ∧ r = r' := by
  have htake := congrArg (List.takeWhile isDigit) h
  rw [List.takeWhile_append_of_pos (fun u hu => isDigit_of_mem_natText hu),
    List.takeWhile_append_of_pos (fun u hu => isDigit_of_mem_natText hu), hr.takeWhile,
    hr'.takeWhile, List.append_nil, List.append_nil] at htake
  rw [htake] at h
  exact ⟨natText_injective htake, List.append_cancel_left h⟩

theorem head_natText_digit (n : ℕ) : ∃ u s, natText n = u :: s ∧ isDigit u = true := by
  cases h : natText n with
  | nil => exact absurd h (natText_ne_nil n)
  | cons u s => exact ⟨u, s, rfl, isDigit_of_mem_natText (h ▸ List.mem_cons_self)⟩

/-- Where an integer ends does not depend on what follows. -/
theorem intText_append_eq {n m : ℤ} {r r' : JsString} (hr : Delimited r) (hr' : Delimited r')
    (h : intText n ++ r = intText m ++ r') : n = m ∧ r = r' := by
  have hminus : isDigit 0x2D = false := by decide
  unfold intText at h
  split at h <;> split at h
  · obtain ⟨habs, hrest⟩ := natText_append_eq hr hr' (List.cons.inj h).2
    exact ⟨by omega, hrest⟩
  · obtain ⟨u, s, hs, hu⟩ := head_natText_digit m.natAbs
    rw [hs] at h
    rw [← (List.cons.inj h).1, hminus] at hu
    cases hu
  · obtain ⟨u, s, hs, hu⟩ := head_natText_digit n.natAbs
    rw [hs] at h
    rw [(List.cons.inj h).1, hminus] at hu
    cases hu
  · obtain ⟨habs, hrest⟩ := natText_append_eq hr hr' h
    exact ⟨by omega, hrest⟩

/-- Where the rest of an array ends does not depend on what follows. -/
theorem strsTail_append_eq : ∀ {l l' : List JsString} {r r' : JsString},
    strsTail l ++ r = strsTail l' ++ r' → l = l' ∧ r = r'
  | [], [], _, _, h => ⟨rfl, (List.cons.inj h).2⟩
  | [], _ :: _, _, _, h => absurd (List.cons.inj h).1 (by decide)
  | _ :: _, [], _, _, h => absurd (List.cons.inj h).1 (by decide)
  | s :: l, t :: l', r, r', h => by
    simp only [strsTail, List.cons_append, List.append_assoc, List.cons.injEq, true_and] at h
    obtain ⟨rfl, htail⟩ := quote_append_eq h
    obtain ⟨rfl, rfl⟩ := strsTail_append_eq htail
    exact ⟨rfl, rfl⟩

/-- Where an array ends does not depend on what follows. -/
theorem strsText_append_eq {l l' : List JsString} {r r' : JsString}
    (h : strsText l ++ r = strsText l' ++ r') : l = l' ∧ r = r' := by
  cases l with
  | nil =>
    cases l' with
    | nil => exact ⟨rfl, (List.cons.inj (List.cons.inj h).2).2⟩
    | cons t l' => exact absurd (List.cons.inj (List.cons.inj h).2).1 (by decide)
  | cons s l =>
    cases l' with
    | nil => exact absurd (List.cons.inj (List.cons.inj h).2).1 (by decide)
    | cons t l' =>
      simp only [strsText, List.cons_append, List.append_assoc, List.cons.injEq, true_and] at h
      obtain ⟨rfl, htail⟩ := quote_append_eq h
      obtain ⟨rfl, rfl⟩ := strsTail_append_eq htail
      exact ⟨rfl, rfl⟩

/-- The kind of a member, as its first character tells it. -/
def leadKind (u : UInt16) : ℕ :=
  if u = 0x6E then 0 else if u = 0x74 ∨ u = 0x66 then 1 else if u = 0x22 then 3
  else if u = 0x5B then 4 else 2

/-- The kind of a value. -/
def Value.kind : Value → ℕ
  | null => 0
  | bool _ => 1
  | num _ => 2
  | str _ => 3
  | strs _ => 4

theorem leadKind_digit {u : UInt16} (h : isDigit u = true) : leadKind u = 2 := by
  have hne : ∀ v : UInt16, isDigit v = false → u ≠ v := by
    rintro v hv rfl
    rw [h] at hv
    cases hv
  simp [leadKind, hne 0x6E (by decide), hne 0x74 (by decide), hne 0x66 (by decide),
    hne 0x22 (by decide), hne 0x5B (by decide)]

/-- The first unit of a value tells its kind. -/
theorem Value.lead_text (v : Value) : ∃ u s, v.text = u :: s ∧ leadKind u = v.kind := by
  cases v with
  | null => exact ⟨_, _, rfl, by decide⟩
  | bool b => cases b <;> exact ⟨_, _, rfl, by decide⟩
  | num n =>
    simp only [Value.text, Value.kind, intText]
    split
    · exact ⟨_, _, rfl, by decide⟩
    · obtain ⟨u, s, hs, hu⟩ := head_natText_digit n.natAbs
      exact ⟨u, s, hs, leadKind_digit hu⟩
  | str s => exact ⟨_, _, rfl, by simp [leadKind, Value.kind]⟩
  | strs l => cases l <;> exact ⟨_, _, rfl, by simp [leadKind, Value.kind]⟩

/-- Where a value ends does not depend on what follows. -/
theorem Value.text_append_eq {v w : Value} {r r' : JsString} (hr : Delimited r)
    (hr' : Delimited r') (h : v.text ++ r = w.text ++ r') : v = w ∧ r = r' := by
  have hkind : v.kind = w.kind := by
    obtain ⟨u, s, hs, hu⟩ := v.lead_text
    obtain ⟨u', s', hs', hu'⟩ := w.lead_text
    rw [hs, hs'] at h
    rw [← hu, ← hu', (List.cons.inj h).1]
  cases v <;> cases w <;> try cases hkind
  case null => exact ⟨rfl, List.append_cancel_left h⟩
  case bool b b' =>
    cases b <;> cases b'
    · exact ⟨rfl, List.append_cancel_left h⟩
    · exact absurd (List.cons.inj h).1 (by decide)
    · exact absurd (List.cons.inj h).1 (by decide)
    · exact ⟨rfl, List.append_cancel_left h⟩
  case num n m =>
    obtain ⟨rfl, hrest⟩ := intText_append_eq hr hr' h
    exact ⟨rfl, hrest⟩
  case str s t =>
    obtain ⟨rfl, hrest⟩ := quote_append_eq h
    exact ⟨rfl, hrest⟩
  case strs l l' =>
    obtain ⟨rfl, hrest⟩ := strsText_append_eq h
    exact ⟨rfl, hrest⟩

/-- The rest of an object is determined by its text. -/
theorem membersTail_injective : ∀ {l l' : List (JsString × Value)},
    membersTail l = membersTail l' → l = l'
  | [], [], _ => rfl
  | [], (_, _) :: _, h => absurd (List.cons.inj h).1 (by decide)
  | (_, _) :: _, [], h => absurd (List.cons.inj h).1 (by decide)
  | (k, v) :: l, (k', v') :: l', h => by
    simp only [membersTail, List.cons_append, List.append_assoc, List.cons.injEq, true_and] at h
    obtain ⟨rfl, hvalue⟩ := quote_append_eq h
    obtain ⟨rfl, htail⟩ := Value.text_append_eq (delimited_membersTail l)
      (delimited_membersTail l') (List.cons.inj hvalue).2
    rw [membersTail_injective htail]

/-- Objects of one text are one object. -/
theorem stringify_injective : Function.Injective stringify := by
  intro l l' h
  cases l with
  | nil =>
    cases l' with
    | nil => rfl
    | cons _ _ => exact absurd (List.cons.inj (List.cons.inj h).2).1 (by decide)
  | cons _ _ =>
    cases l' with
    | nil => exact absurd (List.cons.inj (List.cons.inj h).2).1 (by decide)
    | cons _ _ =>
      simp only [stringify, List.cons_append, List.append_assoc, List.cons.injEq, true_and] at h
      obtain ⟨hk, hvalue⟩ := quote_append_eq h
      obtain ⟨hv, htail⟩ := Value.text_append_eq (delimited_membersTail _)
        (delimited_membersTail _) (List.cons.inj hvalue).2
      rw [membersTail_injective htail, Prod.ext hk hv]

/-! ## Encoding -/

/-- A text that `toWellFormed` leaves as it is, whatever follows. -/
def Whole (p : JsString) : Prop := ∀ t, toWellFormed (p ++ t) = p ++ toWellFormed t

theorem Whole.append {p q : JsString} (hp : Whole p) (hq : Whole q) : Whole (p ++ q) := by
  intro t
  rw [List.append_assoc, hp, hq, List.append_assoc]

theorem whole_nil : Whole [] := fun _ => rfl

theorem Whole.cons {u : UInt16} {p : JsString} (h : isSurrogate u = false) (hp : Whole p) :
    Whole (u :: p) := by
  intro t
  rw [List.cons_append, List.cons_append, ← hp t]
  cases hs : p ++ t with
  | nil => simp [toWellFormed, unitWellFormed, h]
  | cons v s => simp [toWellFormed, not_high_of_plain h, unitWellFormed, h]

theorem whole_of_plain {p : JsString} (h : ∀ u ∈ p, isSurrogate u = false) : Whole p := by
  induction p with
  | nil => exact whole_nil
  | cons u p ih =>
    exact (ih fun v hv => h v (List.mem_cons_of_mem u hv)).cons (h u List.mem_cons_self)

theorem Whole.toWellFormed_eq {p : JsString} (h : Whole p) : toWellFormed p = p := by
  simpa [toWellFormed] using h []

theorem plain_of_lt {u : UInt16} (h : u.toNat < 0xD800) : isSurrogate u = false := by
  simp only [isSurrogate, Bool.and_eq_false_iff, decide_eq_false_iff_not]
  omega

theorem plain_hexUnit {d : ℕ} (h : d < 16) : isSurrogate (hexUnit d) = false := by
  refine plain_of_lt ?_
  rw [hexUnit, UInt16.toNat_ofNat']
  split <;> omega

theorem whole_escapeUnit (u : UInt16) : Whole (escapeUnit u) := by
  unfold escapeUnit
  split
  · next l hl =>
    have htable : shortEscapes.all (fun p => !isSurrogate p.2) = true := by decide
    obtain ⟨p, hp, rfl⟩ := Option.map_eq_some_iff.mp hl
    have := List.all_eq_true.mp htable p (List.mem_of_find?_eq_some hp)
    exact Whole.cons (by decide) (Whole.cons (by simpa using this) whole_nil)
  · split
    · have hu := u.toNat_lt
      exact Whole.cons (by decide) <| Whole.cons (by decide) <|
        Whole.cons (plain_hexUnit (by omega)) <| Whole.cons (plain_hexUnit (by omega)) <|
        Whole.cons (plain_hexUnit (by omega)) <| Whole.cons (plain_hexUnit (by omega)) whole_nil
    · next hs =>
      simp only [Bool.or_eq_true, not_or, Bool.not_eq_true] at hs
      exact Whole.cons hs.2 whole_nil

/-- An escaped text is whole. -/
theorem whole_escape (s : JsString) : Whole (escape s) := by
  fun_induction escape s with
  | case1 => exact whole_nil
  | case2 u => exact whole_escapeUnit u
  | case3 u v rest h ih =>
    intro t
    rw [List.cons_append, List.cons_append, toWellFormed, if_pos (by simpa using h), ih]
    rfl
  | case4 u v rest _ ih => exact (whole_escapeUnit u).append ih

theorem whole_quote (s : JsString) : Whole (quote s) :=
  (Whole.cons (by decide) (whole_escape s)).append (Whole.cons (by decide) whole_nil)

theorem whole_natText (n : ℕ) : Whole (natText n) :=
  whole_of_plain fun u hu => plain_of_lt <| by
    have := isDigit_iff.mp (isDigit_of_mem_natText hu)
    omega

theorem whole_strsTail : ∀ l : List JsString, Whole (strsTail l)
  | [] => Whole.cons (by decide) whole_nil
  | s :: l => (Whole.cons (by decide) (whole_quote s)).append (whole_strsTail l)

/-- The text of a value is whole. -/
theorem Value.whole_text (v : Value) : Whole v.text := by
  cases v with
  | null => exact whole_of_plain (List.forall_iff_forall_mem.mp (by decide))
  | bool b => cases b <;> exact whole_of_plain (List.forall_iff_forall_mem.mp (by decide))
  | num n =>
    simp only [Value.text, intText]
    split
    · exact Whole.cons (by decide) (whole_natText _)
    · exact whole_natText _
  | str s => exact whole_quote s
  | strs l =>
    cases l with
    | nil => exact Whole.cons (by decide) (Whole.cons (by decide) whole_nil)
    | cons s l => exact (Whole.cons (by decide) (whole_quote s)).append (whole_strsTail l)

theorem whole_member (k : JsString) (v : Value) : Whole (quote k ++ 0x3A :: v.text) :=
  (whole_quote k).append (Whole.cons (by decide) v.whole_text)

theorem whole_membersTail : ∀ l : List (JsString × Value), Whole (membersTail l)
  | [] => Whole.cons (by decide) whole_nil
  | (k, v) :: l => (Whole.cons (by decide) (whole_member k v)).append (whole_membersTail l)

theorem whole_stringify : ∀ l : List (JsString × Value), Whole (stringify l)
  | [] => Whole.cons (by decide) (Whole.cons (by decide) whole_nil)
  | (k, v) :: l => (Whole.cons (by decide) (whole_member k v)).append (whole_membersTail l)

theorem toUtf8_stringify_injective : Function.Injective fun l => toUtf8 (stringify l) := by
  intro l l' h
  have hw := toUtf8_eq_iff.mp h
  rw [(whole_stringify l).toWellFormed_eq, (whole_stringify l').toWellFormed_eq] at hw
  exact stringify_injective hw

end Text
