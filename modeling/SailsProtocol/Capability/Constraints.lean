import SailsProtocol.Text.Tree

/-!
# The constraints of a grant

`canonicalJson` of `capability-grant-repository.ts` compares the constraints of two grants. It is
the canonical text of the value with each empty object replaced by null (`canonicalJson_eq`), so
it takes constraints for the same exactly when they are so up to the order of members, empty
objects and the sign of zero (`sameConstraints_iff`).
-/

namespace Sails.Capability

open Text

mutual

/-- `canonicalJson` of the repository. -/
def canonicalJson : Tree → JsString
  | .arr items => 0x5B :: join 0x2C (canonicalJsonItems items) ++ [0x5D]
  | .obj members =>
    let entries := (canonicalJsonMembers members).mergeSort fun a b => unitsLe a.1 b.1
    if entries = [] then js "null"
    else 0x7B :: join 0x2C (entries.map fun e => quote e.1 ++ 0x3A :: e.2) ++ [0x7D]
  | v => canonicalize v

/-- The texts of the items of an array. -/
def canonicalJsonItems : List Tree → List JsString
  | [] => []
  | v :: items => canonicalJson v :: canonicalJsonItems items

/-- The members of an object with their texts. -/
def canonicalJsonMembers : List (JsString × Tree) → List (JsString × JsString)
  | [] => []
  | (k, v) :: members => (k, canonicalJson v) :: canonicalJsonMembers members

end

mutual

/-- The value with null for each empty object. -/
def collapse : Tree → Tree
  | .arr items => .arr (collapseItems items)
  | .obj [] => .null
  | .obj (p :: members) => .obj (collapseMembers (p :: members))
  | v => v

/-- The items of an array with null for each empty object. -/
def collapseItems : List Tree → List Tree
  | [] => []
  | v :: items => collapse v :: collapseItems items

/-- The members of an object with null for each empty object. -/
def collapseMembers : List (JsString × Tree) → List (JsString × Tree)
  | [] => []
  | (k, v) :: members => (k, collapse v) :: collapseMembers members

end

theorem canonicalJsonItems_eq (items : List Tree) :
    canonicalJsonItems items = items.map canonicalJson := by
  induction items with
  | nil => rfl
  | cons v items ih => rw [canonicalJsonItems, ih, List.map_cons]

theorem canonicalJsonMembers_eq (members : List (JsString × Tree)) :
    canonicalJsonMembers members = members.map fun p => (p.1, canonicalJson p.2) := by
  induction members with
  | nil => rfl
  | cons p members ih => rw [canonicalJsonMembers, ih, List.map_cons]

theorem collapseItems_eq (items : List Tree) : collapseItems items = items.map collapse := by
  induction items with
  | nil => rfl
  | cons v items ih => rw [collapseItems, ih, List.map_cons]

theorem collapseMembers_eq (members : List (JsString × Tree)) :
    collapseMembers members = members.map fun p => (p.1, collapse p.2) := by
  induction members with
  | nil => rfl
  | cons p members ih => rw [collapseMembers, ih, List.map_cons]

/-- The collapsed value has no key twice either. -/
theorem collapse_distinct (v : Tree) (h : v.Distinct) : (collapse v).Distinct := by
  induction v using Tree.induct with
  | null => exact h
  | bool b => exact h
  | num negative size => exact h
  | str s => exact h
  | arr items ih =>
    rw [collapse, collapseItems_eq]
    refine Tree.distinctItems_iff.mpr fun w hw => ?_
    obtain ⟨v, hv, rfl⟩ := List.mem_map.mp hw
    exact ih v hv (Tree.distinctItems_iff.mp h v hv)
  | obj members ih =>
    cases members with
    | nil => trivial
    | cons p members =>
      rw [collapse, collapseMembers_eq]
      refine ⟨?_, Tree.distinctMembers_iff.mpr fun q hq => ?_⟩
      · rw [List.map_map]
        exact h.1
      · obtain ⟨r, hr, rfl⟩ := List.mem_map.mp hq
        exact ih r hr (Tree.distinctMembers_iff.mp h.2 r hr)

/-- Sorting members sorts their keys. -/
theorem sorted_members {members : List (JsString × JsString)}
    (hkeys : (members.map Prod.fst).Nodup) :
    (members.mergeSort fun a b => unitsLe a.1 b.1).map (fun e => quote e.1 ++ 0x3A :: e.2) =
      ((members.map Prod.fst).mergeSort unitsLe).map
        fun k => quote k ++ 0x3A :: (members.lookup k).getD [] := by
  rw [← List.map_mergeSort (r := fun a b => unitsLe a.1 b.1) (fun _ _ _ _ => rfl), List.map_map]
  refine List.map_congr_left fun e he => ?_
  have hmem : (e.1, e.2) ∈ members := List.mem_mergeSort.mp he
  rw [Function.comp_apply, lookup_of_mem hkeys hmem, Option.getD_some]

/-- The text of a value is the canonical text of the collapsed one. -/
theorem canonicalJson_eq (v : Tree) (h : v.Distinct) :
    canonicalJson v = canonicalize (collapse v) := by
  induction v using Tree.induct with
  | null => rfl
  | bool b => rfl
  | num negative size => rfl
  | str s => rfl
  | arr items ih =>
    rw [canonicalJson, collapse, canonicalize, canonicalJsonItems_eq, canonicalizeItems_eq,
      collapseItems_eq, List.map_map]
    congr 2
    refine congrArg _ (List.map_congr_left fun w hw => ?_)
    exact ih w hw (Tree.distinctItems_iff.mp h w hw)
  | obj members ih =>
    cases members with
    | nil =>
      rw [canonicalJson, canonicalJsonMembers, List.mergeSort_nil]
      rfl
    | cons p members =>
      have hentries : canonicalJsonMembers (p :: members) =
          canonicalizeMembers (collapseMembers (p :: members)) := by
        rw [canonicalJsonMembers_eq, collapseMembers_eq, canonicalizeMembers_eq, List.map_map]
        refine List.map_congr_left fun q hq => ?_
        rw [Function.comp_apply, ih q hq (Tree.distinctMembers_iff.mp h.2 q hq)]
      have hkeys : (canonicalizeMembers (collapseMembers (p :: members))).map Prod.fst =
          (collapseMembers (p :: members)).map Prod.fst := by
        rw [canonicalizeMembers_eq, List.map_map]
        rfl
      have hdistinct := (collapse_distinct _ h).1
      rw [canonicalJson, collapse, canonicalize, hentries, if_neg ?_,
        sorted_members (hkeys ▸ hdistinct), hkeys]
      intro hnil
      have hlength := congrArg List.length hnil
      rw [List.length_mergeSort, collapseMembers, canonicalizeMembers] at hlength
      cases hlength

/-- The constraints of a grant that has some, with null for each empty object. -/
def collapsed (constraints : Option ParsedJson) : ParsedJson :=
  match constraints with
  | some v => ⟨collapse v.tree, collapse_distinct v.tree v.distinct⟩
  | none => ⟨.null, trivial⟩

/-- `sameConstraints` of the repository. -/
def sameConstraints (a b : Option ParsedJson) : Bool :=
  canonicalJson (a.elim .null ParsedJson.tree) = canonicalJson (b.elim .null ParsedJson.tree)

theorem canonicalJson_elim (constraints : Option ParsedJson) :
    canonicalJson (constraints.elim .null ParsedJson.tree) =
      canonicalize (collapsed constraints).tree := by
  cases constraints with
  | none => rfl
  | some v => exact canonicalJson_eq v.tree v.distinct

theorem sameConstraints_iff {a b : Option ParsedJson} : sameConstraints a b = true ↔
    (collapsed a).tree.Same (collapsed b).tree := by
  rw [sameConstraints, decide_eq_true_iff, canonicalJson_elim, canonicalJson_elim]
  exact canonicalize_eq_iff _ _

end Sails.Capability
