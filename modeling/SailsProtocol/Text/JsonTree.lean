import SailsProtocol.Text.Json

/-!
# JSON values

A JSON value with all its nesting, its `JSON.stringify` text and the `JSON.parse` of such a
text. A number stands for its `Number::toString` text, from which the same number is read.
A text that was written is read back to its value (`parse_stringify`), and it has no lone
surrogate (`Json.whole_stringify`).
-/

namespace Text

/-- What a number is written with. -/
def isNumberUnit (u : UInt16) : Bool :=
  isDigit u || u == 0x2D || u == 0x2B || u == 0x2E || u == 0x65

/-- The text of a finite number. -/
structure NumberText where
  text : JsString
  nonempty : text ≠ []
  units : text.all isNumberUnit = true

/-- A value of JSON with its numbers as texts. -/
inductive Json where
  | null
  | bool (b : Bool)
  | num (n : NumberText)
  | str (s : JsString)
  | arr (items : List Json)
  | obj (members : List (JsString × Json))

/-! ## Writing -/

/-- The text of a boolean. -/
def boolText : Bool → JsString
  | true => [0x74, 0x72, 0x75, 0x65]
  | false => [0x66, 0x61, 0x6C, 0x73, 0x65]

/-- The text of `null`. -/
def nullText : JsString := [0x6E, 0x75, 0x6C, 0x6C]

/-- The comma before an item that is not the first. -/
def comma (first : Bool) : JsString := if first then [] else [0x2C]

mutual

/-- `JSON.stringify(value)`. -/
def Json.stringify : Json → JsString
  | .null => nullText
  | .bool b => boolText b
  | .num n => n.text
  | .str s => quote s
  | .arr items => 0x5B :: itemsText true items
  | .obj members => 0x7B :: membersText true members

/-- The items of an array and its end. -/
def itemsText : Bool → List Json → JsString
  | _, [] => [0x5D]
  | first, v :: items => comma first ++ (v.stringify ++ itemsText false items)

/-- The members of an object and its end. -/
def membersText : Bool → List (JsString × Json) → JsString
  | _, [] => [0x7D]
  | first, (k, v) :: members =>
    comma first ++ (quote k ++ 0x3A :: (v.stringify ++ membersText false members))

end

/-! ## Reading -/

/-- Read over the comma before an item that is not the first. -/
def skipComma : Bool → JsString → Option JsString
  | true, s => some s
  | false, s => expect 0x2C s

/-- A number at the front of a text. -/
def readNumber (s : JsString) : Option (Json × JsString) :=
  if h : s.takeWhile isNumberUnit = [] then none
  else some (.num ⟨s.takeWhile isNumberUnit, h, List.all_takeWhile⟩, s.dropWhile isNumberUnit)

/-- Read over a literal. -/
def readLiteral (literal : JsString) (v : Json) (s : JsString) : Option (Json × JsString) :=
  if s.take literal.length = literal then some (v, s.drop literal.length) else none

mutual

/-- Read one value. -/
def parseValue : ℕ → JsString → Option (Json × JsString)
  | 0, _ => none
  | _ + 1, [] => none
  | fuel + 1, u :: s =>
    if u = 0x22 then do
      let (t, s) ← readQuoted s
      some (.str t, s)
    else if u = 0x5B then do
      let (items, s) ← parseItems fuel true s
      some (.arr items, s)
    else if u = 0x7B then do
      let (members, s) ← parseMembers fuel true s
      some (.obj members, s)
    else if u = 0x6E then readLiteral nullText .null (u :: s)
    else if u = 0x74 then readLiteral (boolText true) (.bool true) (u :: s)
    else if u = 0x66 then readLiteral (boolText false) (.bool false) (u :: s)
    else readNumber (u :: s)

/-- Read items up to the closing bracket. -/
def parseItems : ℕ → Bool → JsString → Option (List Json × JsString)
  | 0, _, _ => none
  | fuel + 1, first, s =>
    if s.head? = some 0x5D then some ([], s.tail)
    else do
      let s ← skipComma first s
      let (v, s) ← parseValue fuel s
      let (items, s) ← parseItems fuel false s
      some (v :: items, s)

/-- Read members up to the closing brace. -/
def parseMembers : ℕ → Bool → JsString → Option (List (JsString × Json) × JsString)
  | 0, _, _ => none
  | fuel + 1, first, s =>
    if s.head? = some 0x7D then some ([], s.tail)
    else do
      let s ← skipComma first s
      let s ← expect 0x22 s
      let (k, s) ← readQuoted s
      let s ← expect 0x3A s
      let (v, s) ← parseValue fuel s
      let (members, s) ← parseMembers fuel false s
      some ((k, v) :: members, s)

end

/-- `JSON.parse(s)`, for a text without white space. -/
def Json.parse (s : JsString) : Option Json :=
  match parseValue (s.length + 1) s with
  | some (v, []) => some v
  | _ => none

/-! ## What was written is read back -/

/-- What follows a value is no part of a number. -/
def Ends (r : JsString) : Prop := ∀ u, r.head? = some u → isNumberUnit u = false

/-- No number goes on into the rest of an array. -/
theorem ends_itemsText (items : List Json) (r : JsString) : Ends (itemsText false items ++ r) := by
  intro u hu
  cases items with
  | nil =>
    obtain rfl := Option.some.inj hu
    decide
  | cons v items =>
    obtain rfl := Option.some.inj hu
    decide

/-- No number goes on into the rest of an object. -/
theorem ends_membersText (members : List (JsString × Json)) (r : JsString) :
    Ends (membersText false members ++ r) := by
  intro u hu
  rcases members with _ | ⟨⟨k, v⟩, members⟩
  · obtain rfl := Option.some.inj hu
    decide
  · obtain rfl := Option.some.inj hu
    decide

/-- A number begins with a unit of a number. -/
theorem NumberText.lead (n : NumberText) :
    ∃ u s, n.text = u :: s ∧ isNumberUnit u = true := by
  obtain ⟨text, nonempty, units⟩ := n
  cases text with
  | nil => exact absurd rfl nonempty
  | cons u s =>
    rw [List.all_cons, Bool.and_eq_true] at units
    exact ⟨u, s, rfl, units.1⟩

/-- No value starts with the closing bracket. -/
theorem Json.lead (v : Json) : ∃ u s, v.stringify = u :: s ∧ u ≠ 0x5D := by
  cases v with
  | null => exact ⟨_, _, rfl, by decide⟩
  | bool b => cases b <;> exact ⟨_, _, rfl, by decide⟩
  | num n =>
    obtain ⟨u, s, htext, hu⟩ := n.lead
    refine ⟨u, s, htext, ?_⟩
    rintro rfl
    exact absurd hu (by decide)
  | str s => exact ⟨_, _, rfl, by decide⟩
  | arr items => exact ⟨_, _, rfl, by decide⟩
  | obj members => exact ⟨_, _, rfl, by decide⟩

theorem length_itemsText_pos (first : Bool) (items : List Json) :
    0 < (itemsText first items).length := by
  cases items with
  | nil => exact Nat.one_pos
  | cons v items =>
    obtain ⟨u, s, hlead, -⟩ := v.lead
    rw [itemsText, hlead]
    simp

theorem length_membersText_pos (first : Bool) (members : List (JsString × Json)) :
    0 < (membersText first members).length := by
  rcases members with _ | ⟨⟨k, v⟩, members⟩
  · exact Nat.one_pos
  · simp [membersText, quote]

theorem readLiteral_append (literal : JsString) (v : Json) (r : JsString) :
    readLiteral literal v (literal ++ r) = some (v, r) := by
  rw [readLiteral, List.take_left, if_pos rfl, List.drop_left]

/-- A number is read back. -/
theorem readNumber_append (n : NumberText) {r : JsString} (hr : Ends r) :
    readNumber (n.text ++ r) = some (.num n, r) := by
  have hunits : ∀ u ∈ n.text, isNumberUnit u = true := List.all_eq_true.mp n.units
  have htake : (n.text ++ r).takeWhile isNumberUnit = n.text := by
    rw [List.takeWhile_append_of_pos hunits]
    cases r with
    | nil => simp
    | cons u r => simp [hr u rfl]
  have hdrop : (n.text ++ r).dropWhile isNumberUnit = r := by
    rw [List.dropWhile_append_of_pos hunits]
    cases r with
    | nil => rfl
    | cons u r => simp [hr u rfl]
  have hne : ¬ (n.text ++ r).takeWhile isNumberUnit = [] := by
    rw [htake]
    exact n.nonempty
  rw [readNumber, dif_neg hne, hdrop]
  simp only [htake]

/-- The first unit of a number is that of no other value. -/
theorem parseValue_number {u : UInt16} {s : JsString} (hu : isNumberUnit u = true) (fuel : ℕ) :
    parseValue (fuel + 1) (u :: s) = readNumber (u :: s) := by
  have hne : ∀ w : UInt16, isNumberUnit w = false → u ≠ w := by
    rintro w hw rfl
    rw [hu] at hw
    cases hw
  rw [parseValue, if_neg (hne _ (by decide)), if_neg (hne _ (by decide)),
    if_neg (hne _ (by decide)), if_neg (hne _ (by decide)), if_neg (hne _ (by decide)),
    if_neg (hne _ (by decide))]

theorem skipComma_append (first : Bool) (s : JsString) :
    skipComma first (comma first ++ s) = some s := by
  cases first with
  | true => rfl
  | false => exact expect_cons 0x2C s

/-- Items that are left do not start with the closing bracket. -/
theorem head_comma_append {first : Bool} {s : JsString} {w : UInt16} (hw : w ≠ 0x2C)
    (hs : s.head? ≠ some w) : (comma first ++ s).head? ≠ some w := by
  cases first with
  | true => exact hs
  | false =>
    intro h
    exact hw (Option.some.inj h).symm

mutual

/-- A value is read back. -/
theorem parseValue_stringify : ∀ (v : Json) {fuel : ℕ} {r : JsString},
    v.stringify.length < fuel → Ends r → parseValue fuel (v.stringify ++ r) = some (v, r)
  | v, 0, _, hfuel, _ => absurd hfuel (Nat.not_lt_zero _)
  | .null, _ + 1, r, _, _ => readLiteral_append nullText .null r
  | .bool true, _ + 1, r, _, _ => readLiteral_append (boolText true) _ r
  | .bool false, _ + 1, r, _, _ => readLiteral_append (boolText false) _ r
  | .num n, fuel + 1, r, _, hr => by
    obtain ⟨u, s, htext, hu⟩ := n.lead
    have hread := readNumber_append n hr
    rw [Json.stringify]
    rw [htext, List.cons_append] at hread ⊢
    rw [parseValue_number hu, hread]
  | .str s, fuel + 1, r, _, _ => by
    have hread := readQuoted_escape s r
    rw [Json.stringify, quote, List.append_assoc, List.cons_append, List.singleton_append,
      parseValue, if_pos rfl, hread]
    rfl
  | .arr items, fuel + 1, r, hfuel, _ => by
    have hlen : (itemsText true items).length < fuel := by
      rw [Json.stringify, List.length_cons] at hfuel
      omega
    have hread := @parseItems_text items true fuel r hlen
    rw [Json.stringify, List.cons_append, parseValue, if_neg (by decide), if_pos rfl, hread]
    rfl
  | .obj members, fuel + 1, r, hfuel, _ => by
    have hlen : (membersText true members).length < fuel := by
      rw [Json.stringify, List.length_cons] at hfuel
      omega
    have hread := @parseMembers_text members true fuel r hlen
    rw [Json.stringify, List.cons_append, parseValue, if_neg (by decide), if_neg (by decide),
      if_pos rfl, hread]
    rfl

/-- The items of an array are read back. -/
theorem parseItems_text : ∀ (items : List Json) (first : Bool) {fuel : ℕ} {r : JsString},
    (itemsText first items).length < fuel →
      parseItems fuel first (itemsText first items ++ r) = some (items, r)
  | _, _, 0, _, hfuel => absurd hfuel (Nat.not_lt_zero _)
  | [], _, _ + 1, _, _ => rfl
  | v :: items, first, fuel + 1, r, hfuel => by
    obtain ⟨u, s, hlead, hu⟩ := v.lead
    have hhead : (v.stringify ++ itemsText false items ++ r).head? ≠ some 0x5D := by
      rw [hlead]
      exact fun h => hu (Option.some.inj h)
    have hlen := congrArg List.length hlead
    have hrest := length_itemsText_pos false items
    rw [itemsText, List.length_append, List.length_append] at hfuel
    rw [List.length_cons] at hlen
    have hvalue := @parseValue_stringify v fuel (itemsText false items ++ r) (by omega)
      (ends_itemsText items r)
    have hitems := @parseItems_text items false fuel r (by omega)
    rw [itemsText, List.append_assoc, parseItems, if_neg (head_comma_append (by decide) hhead),
      skipComma_append, Option.bind_eq_bind, Option.bind_some, List.append_assoc, hvalue,
      Option.bind_eq_bind, Option.bind_some]
    dsimp only
    rw [hitems]
    rfl

/-- The members of an object are read back. -/
theorem parseMembers_text : ∀ (members : List (JsString × Json)) (first : Bool) {fuel : ℕ}
    {r : JsString}, (membersText first members).length < fuel →
      parseMembers fuel first (membersText first members ++ r) = some (members, r)
  | _, _, 0, _, hfuel => absurd hfuel (Nat.not_lt_zero _)
  | [], _, _ + 1, _, _ => rfl
  | (k, v) :: members, first, fuel + 1, r, hfuel => by
    have htext : membersText first ((k, v) :: members) ++ r =
        comma first ++ 0x22 :: (escape k ++
          0x22 :: 0x3A :: (v.stringify ++ (membersText false members ++ r))) := by
      simp [membersText, quote]
    have hhead : (0x22 :: (escape k ++ 0x22 :: 0x3A :: (v.stringify ++
        (membersText false members ++ r)))).head? ≠ some (0x7D : UInt16) := by
      rw [List.head?_cons]
      decide
    have hrest := length_membersText_pos false members
    rw [membersText, List.length_append, List.length_append, List.length_cons,
      List.length_append] at hfuel
    have hvalue := @parseValue_stringify v fuel (membersText false members ++ r) (by omega)
      (ends_membersText members r)
    have hmembers := @parseMembers_text members false fuel r (by omega)
    rw [htext, parseMembers, if_neg (head_comma_append (by decide) hhead), skipComma_append,
      Option.bind_eq_bind, Option.bind_some, expect_cons, Option.bind_eq_bind, Option.bind_some,
      readQuoted_escape, Option.bind_eq_bind, Option.bind_some]
    dsimp only
    rw [expect_cons, Option.bind_eq_bind, Option.bind_some, hvalue, Option.bind_some]
    dsimp only
    rw [hmembers]
    rfl

end

/-- What `JSON.stringify` wrote, `JSON.parse` reads back. -/
theorem Json.parse_stringify (v : Json) : Json.parse v.stringify = some v := by
  have hread := @parseValue_stringify v (v.stringify.length + 1) [] (Nat.lt_succ_self _) nofun
  rw [List.append_nil] at hread
  rw [Json.parse, hread]

/-! ## Encoding -/

theorem NumberText.whole (n : NumberText) : Whole n.text := by
  refine whole_of_plain fun u hu => plain_of_lt ?_
  have hunit := List.all_eq_true.mp n.units u hu
  simp only [isNumberUnit, isDigit, Bool.or_eq_true, Bool.and_eq_true, decide_eq_true_eq,
    beq_iff_eq] at hunit
  rcases hunit with (((hdigit | rfl) | rfl) | rfl) | rfl
  · omega
  all_goals decide

theorem whole_comma (first : Bool) : Whole (comma first) := by
  cases first with
  | true => exact whole_nil
  | false => exact Whole.cons (by decide) whole_nil

mutual

/-- The text of a value has no lone surrogate. -/
theorem Json.whole_stringify : ∀ v : Json, Whole v.stringify
  | .null => whole_of_plain (List.forall_iff_forall_mem.mp (by decide))
  | .bool true => whole_of_plain (List.forall_iff_forall_mem.mp (by decide))
  | .bool false => whole_of_plain (List.forall_iff_forall_mem.mp (by decide))
  | .num n => n.whole
  | .str s => whole_quote s
  | .arr items => Whole.cons (by decide) (whole_itemsText true items)
  | .obj members => Whole.cons (by decide) (whole_membersText true members)

theorem whole_itemsText : ∀ (first : Bool) (items : List Json), Whole (itemsText first items)
  | _, [] => Whole.cons (by decide) whole_nil
  | first, v :: items =>
    (whole_comma first).append (v.whole_stringify.append (whole_itemsText false items))

theorem whole_membersText : ∀ (first : Bool) (members : List (JsString × Json)),
    Whole (membersText first members)
  | _, [] => Whole.cons (by decide) whole_nil
  | first, (k, v) :: members =>
    (whole_comma first).append ((whole_quote k).append
      (Whole.cons (by decide) (v.whole_stringify.append (whole_membersText false members))))

end

end Text
