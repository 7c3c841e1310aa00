import SailsProtocol.Numeric.Shortest
import SailsProtocol.Order.Sorting
import SailsProtocol.Text.JsonTree

/-!
# The canonical text of a JSON value

`JSON.parse` returns null, a Boolean, a finite number, a string, an array or an object, which
has each of its keys once (`ParsedJson`). `canonicalize` writes an object with its keys sorted.
It is `JSON.stringify` of the value with the members of its objects in order
(`canonicalize_eq_stringify`), so what was written can be read back.

`canonicalize_eq_iff` : two values have one canonical text exactly when they are the same
(`Same`) up to the order of the members of objects and the sign of zero. The UTF-8 encoding
of the text has no loss either (`toUtf8_canonicalize_eq_iff`).
-/

namespace Text

open Sails.Numeric

/-- A value of JSON as JavaScript holds it. -/
inductive Tree where
  | null
  | bool (b : Bool)
  | num (negative : Bool) (size : Magnitude)
  | str (s : JsString)
  | arr (items : List Tree)
  | obj (members : List (JsString × Tree))

/-- Induction over a value, its items and the values of its members. -/
theorem Tree.induct {motive : Tree → Prop} (null : motive .null) (bool : ∀ b, motive (.bool b))
    (num : ∀ negative size, motive (.num negative size)) (str : ∀ s, motive (.str s))
    (arr : ∀ items, (∀ v ∈ items, motive v) → motive (.arr items))
    (obj : ∀ members : List (JsString × Tree), (∀ p ∈ members, motive p.2) →
      motive (.obj members)) (v : Tree) : motive v :=
  @Tree.rec motive (fun l => ∀ v ∈ l, motive v) (fun l => ∀ p ∈ l, motive p.2)
    (fun p => motive p.2)
    null bool num str (fun items ih => arr items ih) (fun members ih => obj members ih)
    (fun _ h => absurd h List.not_mem_nil)
    (fun _ _ hv hl w hw => (List.mem_cons.mp hw).elim (fun h => h ▸ hv) (hl w))
    (fun _ h => absurd h List.not_mem_nil)
    (fun _ _ hp hl q hq => (List.mem_cons.mp hq).elim (fun h => h ▸ hp) (hl q))
    (fun _ _ hv => hv) v

/-- The order of `Array.prototype.sort` without a comparison. -/
def unitsLe (s t : JsString) : Bool := decide (s ≤ t)

mutual

/-- `canonicalize(value)`. -/
def canonicalize : Tree → JsString
  | .null => js "null"
  | .bool b => if b then js "true" else js "false"
  | .num negative size => numberText (.finite negative size)
  | .str s => quote s
  | .arr items => 0x5B :: join 0x2C (canonicalizeItems items) ++ [0x5D]
  | .obj members =>
    let texts := canonicalizeMembers members
    let keys := (members.map Prod.fst).mergeSort unitsLe
    0x7B :: join 0x2C (keys.map fun k => quote k ++ 0x3A :: (texts.lookup k).getD []) ++ [0x7D]

/-- The items of an array, each in its canonical text. -/
def canonicalizeItems : List Tree → List JsString
  | [] => []
  | v :: items => canonicalize v :: canonicalizeItems items

/-- The members of an object, each in its canonical text. -/
def canonicalizeMembers : List (JsString × Tree) → List (JsString × JsString)
  | [] => []
  | (k, v) :: members => (k, canonicalize v) :: canonicalizeMembers members

end

mutual

/-- The same value, up to the order of the members of objects. -/
def Tree.Same : Tree → Tree → Prop
  | .null, .null => True
  | .bool b, .bool b' => b = b'
  | .num negative size, .num negative' size' =>
    (JsNumber.finite negative size).Same (.finite negative' size')
  | .str s, .str s' => s = s'
  | .arr items, .arr items' => Tree.SameItems items items'
  | .obj members, .obj members' =>
    members.length = members'.length ∧ Tree.SameMembers members members'
  | _, _ => False

/-- The same items in the same order. -/
def Tree.SameItems : List Tree → List Tree → Prop
  | [], [] => True
  | v :: items, v' :: items' => v.Same v' ∧ Tree.SameItems items items'
  | _, _ => False

/-- Each member is one of the others too. -/
def Tree.SameMembers : List (JsString × Tree) → List (JsString × Tree) → Prop
  | [], _ => True
  | (k, v) :: members, members' =>
    (∃ v', (k, v') ∈ members' ∧ v.Same v') ∧ Tree.SameMembers members members'

end

mutual

/-- No object has a key twice. -/
def Tree.Distinct : Tree → Prop
  | .arr items => Tree.DistinctItems items
  | .obj members => (members.map Prod.fst).Nodup ∧ Tree.DistinctMembers members
  | _ => True

/-- Items whose objects have distinct keys. -/
def Tree.DistinctItems : List Tree → Prop
  | [] => True
  | v :: items => v.Distinct ∧ Tree.DistinctItems items

/-- Members whose objects have distinct keys. -/
def Tree.DistinctMembers : List (JsString × Tree) → Prop
  | [] => True
  | (_, v) :: members => v.Distinct ∧ Tree.DistinctMembers members

end

/-- A value `JSON.parse` returns, its numbers finite. -/
structure ParsedJson where
  tree : Tree
  distinct : tree.Distinct

/-! ## Sorted values -/

/-- A number as its text. -/
def numeral (negative : Bool) (size : Magnitude) : NumberText where
  text := numberText (.finite negative size)
  nonempty := by
    obtain ⟨u, s, h, -⟩ := size.head_text
    rw [numberText, signed, h]
    split_ifs <;> exact List.cons_ne_nil _ _
  units := List.all_eq_true.mpr fun _ => isNumberUnit_of_mem_signed

mutual

/-- The value with the members of its objects in order. -/
def Tree.sorted : Tree → Json
  | .null => .null
  | .bool b => .bool b
  | .num negative size => .num (numeral negative size)
  | .str s => .str s
  | .arr items => .arr (Tree.sortedItems items)
  | .obj members =>
    let values := Tree.sortedMembers members
    .obj (((members.map Prod.fst).mergeSort unitsLe).map fun k =>
      (k, (values.lookup k).getD .null))

/-- The items with the keys of their objects in order. -/
def Tree.sortedItems : List Tree → List Json
  | [] => []
  | v :: items => v.sorted :: Tree.sortedItems items

/-- The members with the keys of their objects in order. -/
def Tree.sortedMembers : List (JsString × Tree) → List (JsString × Json)
  | [] => []
  | (k, v) :: members => (k, v.sorted) :: Tree.sortedMembers members

end

theorem canonicalizeItems_eq (items : List Tree) :
    canonicalizeItems items = items.map canonicalize := by
  induction items with
  | nil => rfl
  | cons v items ih => rw [canonicalizeItems, ih, List.map_cons]

theorem canonicalizeMembers_eq (members : List (JsString × Tree)) :
    canonicalizeMembers members = members.map fun p => (p.1, canonicalize p.2) := by
  induction members with
  | nil => rfl
  | cons p members ih => rw [canonicalizeMembers, ih, List.map_cons]

namespace Tree

theorem sortedItems_eq (items : List Tree) : sortedItems items = items.map sorted := by
  induction items with
  | nil => rfl
  | cons v items ih => rw [sortedItems, ih, List.map_cons]

theorem sortedMembers_eq (members : List (JsString × Tree)) :
    sortedMembers members = members.map fun p => (p.1, p.2.sorted) := by
  induction members with
  | nil => rfl
  | cons p members ih => rw [sortedMembers, ih, List.map_cons]

theorem sameItems_iff : ∀ {items items' : List Tree},
    SameItems items items' ↔ List.Forall₂ Same items items'
  | [], [] => by simp [SameItems]
  | [], _ :: _ => by simp [SameItems]
  | _ :: _, [] => by simp [SameItems]
  | _ :: _, _ :: _ => by rw [SameItems, List.forall₂_cons, sameItems_iff]

theorem sameMembers_iff {members members' : List (JsString × Tree)} :
    SameMembers members members' ↔
      ∀ p ∈ members, ∃ v', (p.1, v') ∈ members' ∧ p.2.Same v' := by
  induction members with
  | nil => simp [SameMembers]
  | cons p members ih => rw [SameMembers, ih, List.forall_mem_cons]

theorem distinctItems_iff {items : List Tree} :
    DistinctItems items ↔ ∀ v ∈ items, v.Distinct := by
  induction items with
  | nil => simp [DistinctItems]
  | cons v items ih => rw [DistinctItems, ih, List.forall_mem_cons]

theorem distinctMembers_iff {members : List (JsString × Tree)} :
    DistinctMembers members ↔ ∀ p ∈ members, p.2.Distinct := by
  induction members with
  | nil => simp [DistinctMembers]
  | cons p members ih => rw [DistinctMembers, ih, List.forall_mem_cons]

end Tree

/-! ## Lookups -/

section Lookup

variable {α β : Type} {members : List (JsString × α)} {k : JsString}

theorem lookup_map_snd (f : α → β) :
    (members.map fun p => (p.1, f p.2)).lookup k = (members.lookup k).map f := by
  induction members with
  | nil => rfl
  | cons p members ih =>
    rw [List.map_cons, List.lookup_cons, List.lookup_cons, ih]
    split <;> rfl

/-- Among distinct keys a member is what its key looks up. -/
theorem lookup_of_mem {v : α} (hkeys : (members.map Prod.fst).Nodup) (h : (k, v) ∈ members) :
    members.lookup k = some v := by
  induction members with
  | nil => exact absurd h List.not_mem_nil
  | cons p members ih =>
    rw [List.map_cons, List.nodup_cons] at hkeys
    rcases List.mem_cons.mp h with rfl | h
    · simp
    · have hne : k ≠ p.1 := by
        rintro rfl
        exact hkeys.1 (List.mem_map.mpr ⟨_, h, rfl⟩)
      rw [List.lookup_cons, beq_eq_false_iff_ne.mpr hne]
      exact ih hkeys.2 h

/-- A key that is there is looked up. -/
theorem exists_lookup (h : k ∈ members.map Prod.fst) :
    ∃ v, members.lookup k = some v ∧ (k, v) ∈ members := by
  cases hlookup : members.lookup k with
  | none =>
    obtain ⟨p, hp, rfl⟩ := List.mem_map.mp h
    have hne := List.lookup_eq_none_iff.mp hlookup p hp
    simp at hne
  | some v =>
    obtain ⟨l, l', rfl, -⟩ := List.lookup_eq_some_iff.mp hlookup
    exact ⟨v, rfl, by simp⟩

end Lookup

/-! ## The text of the sorted value -/

theorem itemsText_false (items : List Json) :
    itemsText false items = items.flatMap (fun v => 0x2C :: v.stringify) ++ [0x5D] := by
  induction items with
  | nil => rfl
  | cons v items ih =>
    rw [itemsText, ih, comma]
    simp

theorem membersText_false (members : List (JsString × Json)) :
    membersText false members =
      members.flatMap (fun p => 0x2C :: (quote p.1 ++ 0x3A :: p.2.stringify)) ++ [0x7D] := by
  induction members with
  | nil => rfl
  | cons p members ih =>
    rw [membersText, ih, comma]
    simp

theorem join_cons (sep : UInt16) (s : JsString) (l : List JsString) :
    join sep (s :: l) = s ++ l.flatMap (sep :: ·) := by
  induction l generalizing s with
  | nil => simp [join]
  | cons t l ih =>
    have h := ih t
    simp only [join, List.intercalate_cons_cons] at h ⊢
    rw [h]
    simp

theorem itemsText_true (items : List Json) :
    itemsText true items = join 0x2C (items.map Json.stringify) ++ [0x5D] := by
  cases items with
  | nil => rfl
  | cons v items =>
    rw [itemsText, itemsText_false, List.map_cons, join_cons, List.flatMap_map, comma]
    simp

/-- The text of an object as a join. -/
theorem membersText_true (members : List (JsString × Json)) :
    membersText true members =
      join 0x2C (members.map fun p => quote p.1 ++ 0x3A :: p.2.stringify) ++ [0x7D] := by
  cases members with
  | nil => rfl
  | cons p members =>
    rw [membersText, membersText_false, List.map_cons, join_cons, List.flatMap_map, comma]
    simp

/-- Sorting the keys while writing is writing the sorted value. -/
theorem canonicalize_eq_stringify (v : Tree) : canonicalize v = v.sorted.stringify := by
  induction v using Tree.induct with
  | null => decide
  | bool b => cases b <;> decide
  | num negative size => rfl
  | str s => rfl
  | arr items ih =>
    rw [canonicalize, Tree.sorted, Json.stringify, itemsText_true, canonicalizeItems_eq,
      Tree.sortedItems_eq, List.map_map, List.map_congr_left ih]
    rfl
  | obj members ih =>
    rw [canonicalize, Tree.sorted, Json.stringify, membersText_true, canonicalizeMembers_eq,
      Tree.sortedMembers_eq, List.map_map, List.cons_append]
    congr 3
    refine List.map_congr_left fun k hk => ?_
    obtain ⟨v, hv, hmem⟩ := exists_lookup (List.mem_mergeSort.mp hk)
    rw [Function.comp_apply, lookup_map_snd, lookup_map_snd, hv]
    exact congrArg (fun t => quote k ++ 0x3A :: t) (ih _ hmem)

theorem stringify_inj {v w : Json} : v.stringify = w.stringify ↔ v = w := by
  refine ⟨fun h => ?_, fun h => h ▸ rfl⟩
  have hread := v.parse_stringify
  rw [h, w.parse_stringify] at hread
  exact (Option.some.inj hread).symm

/-! ## Equal texts -/

/-- Keys are sorted in one way only. -/
theorem mergeSort_unitsLe_of_perm {l l' : List JsString} (h : l.Perm l') :
    l.mergeSort unitsLe = l'.mergeSort unitsLe := by
  refine Sorting.mergeSort_eq_of_perm ⟨?_, ?_, ?_⟩ h
  · intro a _ b _ c _ hab hbc
    exact decide_eq_true (List.le_trans (of_decide_eq_true hab) (of_decide_eq_true hbc))
  · intro a _ b _
    exact (List.le_total a b).imp decide_eq_true decide_eq_true
  · intro a _ b _ hab hba
    exact List.le_antisymm (of_decide_eq_true hab) (of_decide_eq_true hba)

theorem perm_of_mergeSort_eq {l l' : List JsString}
    (h : l.mergeSort unitsLe = l'.mergeSort unitsLe) : l.Perm l' :=
  (List.mergeSort_perm l unitsLe).symm.trans (h ▸ List.mergeSort_perm l' unitsLe)

namespace Tree

theorem numeral_eq_iff {negative negative' : Bool} {size size' : Magnitude} :
    numeral negative size = numeral negative' size' ↔
      (JsNumber.finite negative size).Same (.finite negative' size') := by
  rw [← numberText_eq_iff]
  exact NumberText.mk.injEq .. ▸ Iff.rfl

/-- Members whose values are told apart by what they are sorted to. -/
theorem sorted_obj_eq_iff {members members' : List (JsString × Tree)}
    (hkeys : (members.map Prod.fst).Nodup) (hkeys' : (members'.map Prod.fst).Nodup)
    (ih : ∀ p ∈ members, ∀ p' ∈ members', p.2.sorted = p'.2.sorted ↔ p.2.Same p'.2) :
    (obj members).sorted = (obj members').sorted ↔ (obj members).Same (obj members') := by
  rw [sorted, sorted, Same, sameMembers_iff, sortedMembers_eq, sortedMembers_eq, Json.obj.injEq]
  constructor
  · intro h
    have hfst := congrArg (List.map Prod.fst) h
    rw [List.map_map, List.map_map] at hfst
    have hsort : (members.map Prod.fst).mergeSort unitsLe =
        (members'.map Prod.fst).mergeSort unitsLe := by
      simpa [Function.comp_def] using hfst
    have hperm := perm_of_mergeSort_eq hsort
    refine ⟨by simpa using hperm.length_eq, fun p hp => ?_⟩
    have hk : p.1 ∈ members.map Prod.fst := List.mem_map_of_mem hp
    obtain ⟨v', hv', hmem'⟩ := exists_lookup (hperm.mem_iff.mp hk)
    refine ⟨v', hmem', (ih p hp _ hmem').mp ?_⟩
    rw [hsort] at h
    have hvalue := List.map_inj_left.mp h p.1 (List.mem_mergeSort.mpr (hperm.mem_iff.mp hk))
    rw [lookup_map_snd, lookup_map_snd, lookup_of_mem hkeys hp, hv'] at hvalue
    exact (Prod.mk.inj hvalue).2
  · rintro ⟨hlength, hsame⟩
    have hsub : members.map Prod.fst ⊆ members'.map Prod.fst := by
      intro k hk
      obtain ⟨p, hp, rfl⟩ := List.mem_map.mp hk
      obtain ⟨v', hmem', -⟩ := hsame p hp
      exact List.mem_map.mpr ⟨_, hmem', rfl⟩
    have hperm : (members.map Prod.fst).Perm (members'.map Prod.fst) :=
      (hkeys.subperm hsub).perm_of_length_le (by simp [hlength])
    rw [mergeSort_unitsLe_of_perm hperm]
    refine List.map_congr_left fun k hk => ?_
    obtain ⟨v, hv, hmem⟩ := exists_lookup (hperm.mem_iff.mpr (List.mem_mergeSort.mp hk))
    obtain ⟨v', hmem', hvv'⟩ := hsame _ hmem
    rw [lookup_map_snd, lookup_map_snd, hv, lookup_of_mem hkeys' hmem']
    exact congrArg (Prod.mk k) ((ih _ hmem _ hmem').mpr hvv')

/-- Items sorted alike are the same items. -/
theorem map_sorted_eq_iff {items items' : List Tree}
    (ih : ∀ v ∈ items, ∀ v' ∈ items', v.sorted = v'.sorted ↔ v.Same v') :
    items.map sorted = items'.map sorted ↔ List.Forall₂ Same items items' := by
  induction items generalizing items' with
  | nil => cases items' <;> simp
  | cons v items hl =>
    cases items' with
    | nil => simp
    | cons v' items' =>
      rw [List.map_cons, List.map_cons, List.cons.injEq, List.forall₂_cons,
        ih v List.mem_cons_self v' List.mem_cons_self,
        hl fun a ha b hb => ih a (List.mem_cons_of_mem _ ha) b (List.mem_cons_of_mem _ hb)]

theorem sorted_arr_eq_iff {items items' : List Tree}
    (ih : ∀ v ∈ items, ∀ v' ∈ items', v.sorted = v'.sorted ↔ v.Same v') :
    (arr items).sorted = (arr items').sorted ↔ (arr items).Same (arr items') := by
  rw [sorted, sorted, Same, sameItems_iff, sortedItems_eq, sortedItems_eq, Json.arr.injEq,
    map_sorted_eq_iff ih]

/-- Values sorted alike are the same value. -/
theorem sorted_eq_iff {v w : Tree} (hv : v.Distinct) (hw : w.Distinct) :
    v.sorted = w.sorted ↔ v.Same w := by
  induction v using Tree.induct generalizing w with
  | null => cases w <;> simp [sorted, Same]
  | bool b => cases w <;> simp [sorted, Same]
  | num negative size => cases w <;> simp [sorted, Same, numeral_eq_iff]
  | str s => cases w <;> simp [sorted, Same]
  | arr items ih =>
    cases w with
    | arr items' =>
      rw [Distinct, distinctItems_iff] at hv hw
      exact sorted_arr_eq_iff fun a ha b hb => ih a ha (hv a ha) (hw b hb)
    | _ => simp [sorted, Same]
  | obj members ih =>
    cases w with
    | obj members' =>
      rw [Distinct, distinctMembers_iff] at hv hw
      exact sorted_obj_eq_iff hv.1 hw.1 fun p hp q hq => ih p hp (hv.2 p hp) (hw.2 q hq)
    | _ => simp [sorted, Same]

end Tree

/-- The canonical text identifies the same values and no others. -/
theorem canonicalize_eq_iff (a b : ParsedJson) :
    canonicalize a.tree = canonicalize b.tree ↔ a.tree.Same b.tree := by
  rw [canonicalize_eq_stringify, canonicalize_eq_stringify, stringify_inj,
    Tree.sorted_eq_iff a.distinct b.distinct]

theorem whole_canonicalize (v : Tree) : Whole (canonicalize v) := by
  rw [canonicalize_eq_stringify]
  exact v.sorted.whole_stringify

/-- Nor does its encoding lose anything. -/
theorem toUtf8_canonicalize_eq_iff (a b : ParsedJson) :
    toUtf8 (canonicalize a.tree) = toUtf8 (canonicalize b.tree) ↔ a.tree.Same b.tree := by
  rw [toUtf8_eq_iff, (whole_canonicalize _).toWellFormed_eq, (whole_canonicalize _).toWellFormed_eq,
    canonicalize_eq_iff]

end Text
