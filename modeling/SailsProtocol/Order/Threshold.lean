import Mathlib.Data.List.Sublists
import Mathlib.Data.List.Perm.Basic
import Mathlib.Order.BoundedOrder.Lattice
import Mathlib.Order.Lattice

/-!
# Thresholds over a bounded linear order

`conj` and `disj` are the least and the greatest element of a list, and `best n` is the
greatest, over all sublists of `n` positions, of the least element of each. Above the
bottom element `best n` is a count : it reaches `v` exactly when at least `n` elements of
the list do (`le_best_iff`). The order of the list then does not matter (`best_perm`),
`best n` grows with each element (`best_mono`) and falls with `n` (`best_anti`); at one it
is `disj` and at the length of the list it is `conj`.
-/

namespace Threshold

variable {α : Type} [LinearOrder α] [BoundedOrder α]

/-- The least element of a list. -/
def conj (l : List α) : α :=
  l.foldr (· ⊓ ·) ⊤

/-- The greatest element of a list. -/
def disj (l : List α) : α :=
  l.foldr (· ⊔ ·) ⊥

/-- The greatest, over the sublists of `n` positions, of the least element of each. -/
def best (n : ℕ) (l : List α) : α :=
  disj ((l.sublistsLen n).map conj)

variable {v : α} {l l' : List α} {n m : ℕ}

@[simp] theorem conj_nil : conj ([] : List α) = ⊤ := rfl

@[simp] theorem conj_cons (a : α) (l : List α) : conj (a :: l) = a ⊓ conj l := rfl

@[simp] theorem disj_nil : disj ([] : List α) = ⊥ := rfl

@[simp] theorem disj_cons (a : α) (l : List α) : disj (a :: l) = a ⊔ disj l := rfl

theorem le_conj_iff : v ≤ conj l ↔ ∀ a ∈ l, v ≤ a := by
  induction l with
  | nil => simp
  | cons a l ih => simp [ih]

theorem le_disj_iff (hv : v ≠ ⊥) : v ≤ disj l ↔ ∃ a ∈ l, v ≤ a := by
  induction l with
  | nil => simp [hv]
  | cons a l ih => simp [ih, le_sup_iff]

/-- A value is below the best when so many members are above it. -/
theorem le_best_iff_exists (hv : v ≠ ⊥) :
    v ≤ best n l ↔ ∃ s, List.Sublist s l ∧ s.length = n ∧ ∀ a ∈ s, v ≤ a := by
  unfold best
  rw [le_disj_iff hv]
  simp only [List.mem_map, List.mem_sublistsLen, exists_exists_and_eq_and, le_conj_iff]
  constructor
  · rintro ⟨s, ⟨hs, hn⟩, hle⟩
    exact ⟨s, hs, hn, hle⟩
  · rintro ⟨s, hs, hn, hle⟩
    exact ⟨s, ⟨hs, hn⟩, hle⟩

/-- Above the bottom, `best n` counts : it reaches what `n` elements reach. -/
theorem le_best_iff (hv : v ≠ ⊥) : v ≤ best n l ↔ n ≤ l.countP (v ≤ ·) := by
  rw [le_best_iff_exists hv, List.countP_eq_length_filter]
  constructor
  · rintro ⟨s, hs, rfl, hle⟩
    have hself : s.filter (v ≤ ·) = s := by
      rw [List.filter_eq_self]
      exact fun a ha => by simpa using hle a ha
    have hsub : List.Sublist (s.filter (v ≤ ·)) (l.filter (v ≤ ·)) := hs.filter _
    rw [hself] at hsub
    exact hsub.length_le
  · intro hn
    refine ⟨(l.filter (v ≤ ·)).take n, ?_, ?_, ?_⟩
    · exact (List.take_sublist _ _).trans List.filter_sublist
    · rw [List.length_take]
      omega
    · intro a ha
      simpa using List.of_mem_filter (List.mem_of_mem_take ha)

/-- `best m l'` is as great as `best n l` when it reaches whatever that one reaches. -/
theorem best_le_of (h : ∀ v : α, v ≠ ⊥ → n ≤ l.countP (v ≤ ·) → m ≤ l'.countP (v ≤ ·)) :
    best n l ≤ best m l' := by
  by_cases hbot : best n l = ⊥
  · rw [hbot]
    exact bot_le
  · rw [le_best_iff hbot]
    exact h _ hbot ((le_best_iff hbot).1 le_rfl)

theorem best_perm (h : l.Perm l') : best n l = best n l' := by
  refine le_antisymm (best_le_of ?_) (best_le_of ?_) <;>
  · intro v _ hv
    rw [h.countP_eq] at *
    exact hv

omit [BoundedOrder α] in
/-- Larger members count no less. -/
theorem countP_mono (h : List.Forall₂ (· ≤ ·) l l') :
    l.countP (v ≤ ·) ≤ l'.countP (v ≤ ·) := by
  induction h with
  | nil => exact le_rfl
  | @cons a b l l' hab _ ih =>
    rw [List.countP_cons, List.countP_cons]
    have hhead : (if decide (v ≤ a) = true then 1 else 0)
        ≤ (if decide (v ≤ b) = true then 1 else 0) := by
      by_cases hva : v ≤ a
      · simp [hva, hva.trans hab]
      · simp [hva]
    omega

/-- `best n` grows with every element. -/
theorem best_mono (h : List.Forall₂ (· ≤ ·) l l') : best n l ≤ best n l' :=
  best_le_of fun _ _ hn => hn.trans (countP_mono h)

/-- `best n` falls as `n` grows. -/
theorem best_anti (h : n ≤ m) : best m l ≤ best n l :=
  best_le_of fun _ _ hm => h.trans hm

theorem best_one : best 1 l = disj l := by
  refine eq_of_forall_le_iff fun v => ?_
  by_cases hv : v = ⊥
  · simp [hv]
  · rw [le_best_iff hv, le_disj_iff hv, Nat.one_le_iff_ne_zero, ← Nat.pos_iff_ne_zero,
      List.countP_pos_iff]
    simp

theorem best_length : best l.length l = conj l := by
  unfold best
  rw [List.sublistsLen_length]
  simp

/-- No sublist is longer than the list. -/
theorem best_of_length_lt (h : l.length < n) : best n l = ⊥ := by
  by_contra hne
  have hcount := (le_best_iff hne).1 le_rfl
  have hle := List.countP_le_length (p := fun a => decide (best n l ≤ a)) (l := l)
  omega

end Threshold
