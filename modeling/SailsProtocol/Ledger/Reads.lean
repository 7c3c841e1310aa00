import Mathlib.Data.List.Sort
import Mathlib.Order.Basic

/-!
# Ordered reads

A query that orders rows by a column says nothing about rows with equal values : they come in
any order. `Ascending` is every answer to `orderBy asc`, and `Latest` every answer to the
first row of `orderBy desc`. When the values of rows increase in the order of their commits,
there is one answer to each, the rows as they were committed and the last of them.
-/

namespace Reads

variable {R K : Type} [LinearOrder K] (key : R → K)

/-- An answer to `findMany` ordered by the column, ascending. -/
def Ascending (rows out : List R) : Prop :=
  out.Perm rows ∧ out.Pairwise fun a b => key a ≤ key b

/-- An answer to `findFirst` ordered by the column, descending. -/
def Latest (rows : List R) : Option R → Prop
  | none => rows = []
  | some r => r ∈ rows ∧ ∀ r' ∈ rows, key r' ≤ key r

/-- The values increase in the order of the rows. -/
def Increasing (rows : List R) : Prop := rows.Pairwise fun a b => key a < key b

instance (rows : List R) : Decidable (Increasing key rows) :=
  inferInstanceAs (Decidable (List.Pairwise _ _))

variable {key} {rows : List R}

theorem Increasing.key_inj (h : Increasing key rows) {a b : R} (ha : a ∈ rows) (hb : b ∈ rows)
    (hab : key a = key b) : a = b := by
  have hnodup : (rows.map key).Nodup := List.pairwise_map.mpr (h.imp fun hlt => ne_of_lt hlt)
  exact List.inj_on_of_nodup_map hnodup ha hb hab

/-- With increasing keys there is one order. -/
theorem Increasing.ascending_iff (h : Increasing key rows) {out : List R} :
    Ascending key rows out ↔ out = rows := by
  have hle : rows.Pairwise fun a b => key a ≤ key b := h.imp fun hlt => le_of_lt hlt
  refine ⟨fun ⟨hperm, hsorted⟩ => ?_, ?_⟩
  · refine List.Perm.eq_of_pairwise (fun a b ha hb hab hba => ?_) hsorted hle hperm
    exact h.key_inj (hperm.mem_iff.mp ha) hb (le_antisymm hab hba)
  · rintro rfl
    exact ⟨List.Perm.refl _, hle⟩

/-- With increasing keys there is one latest row. -/
theorem Increasing.latest_iff (h : Increasing key rows) {r : Option R} :
    Latest key rows r ↔ r = rows.getLast? := by
  rcases List.eq_nil_or_concat' rows with rfl | ⟨init, l, rfl⟩
  · cases r with
    | none => exact iff_of_true rfl rfl
    | some r => exact iff_of_false (fun hr => nomatch hr.1) nofun
  · rw [List.getLast?_concat]
    obtain ⟨-, -, hlast⟩ := List.pairwise_append.mp h
    cases r with
    | none => exact iff_of_false (fun hr => by simp [Latest] at hr) nofun
    | some r =>
      constructor
      · intro ⟨hmem, hmax⟩
        rcases List.mem_append.mp hmem with hr | hr
        · have hlt := hlast r hr l (List.mem_singleton_self l)
          exact absurd (hmax l (by simp)) (not_le.mpr hlt)
        · rw [List.mem_singleton.mp hr]
      · rintro ⟨⟩
        refine ⟨by simp, fun r' hr' => ?_⟩
        rcases List.mem_append.mp hr' with hr' | hr'
        · exact le_of_lt (hlast r' hr' l (List.mem_singleton_self l))
        · rw [List.mem_singleton.mp hr']

/-- A row after all the others keeps the values increasing. -/
theorem Increasing.concat (h : Increasing key rows) {r : R} (hr : ∀ a ∈ rows, key a < key r) :
    Increasing key (rows ++ [r]) := by
  refine List.pairwise_append.mpr ⟨h, List.pairwise_singleton _ _, fun a ha b hb => ?_⟩
  rw [List.mem_singleton.mp hb]
  exact hr a ha

/-- It is enough that it comes after the last one. -/
theorem Increasing.lt_of_getLast? (h : Increasing key rows) {l : R} {k : K}
    (hl : rows.getLast? = some l) (hk : key l < k) : ∀ a ∈ rows, key a < k := by
  have hlatest : Latest key rows (some l) := h.latest_iff.mpr hl.symm
  exact fun a ha => lt_of_le_of_lt (hlatest.2 a ha) hk

end Reads
