import Mathlib.Data.List.Basic

/-!
# Histories

A history is the list of what happened, newest first. `Lawful A` says that each entry was admitted
by what had happened before it. Of two entries one came after the other, so it was admitted with
the other one in its past (`Lawful.ordered`).
-/

namespace Async.History

variable {α : Type} {A : α → List α → Prop}

/-- Each entry was admitted by the entries before it. -/
def Lawful (A : α → List α → Prop) : List α → Prop
  | [] => True
  | e :: h => Lawful A h ∧ A e h

theorem Lawful.of_append : ∀ {h₁ h₂ : List α}, Lawful A (h₁ ++ h₂) → Lawful A h₂
  | [], _, hl => hl
  | _ :: _, _, hl => Lawful.of_append hl.1

/-- Of two entries one was admitted with the other one in its past. -/
theorem Lawful.ordered {h : List α} (hl : Lawful A h) {e e' : α} (he : e ∈ h) (he' : e' ∈ h)
    (hne : e ≠ e') : (∃ h₁ h₂, h = h₁ ++ e :: h₂ ∧ A e h₂ ∧ e' ∈ h₂) ∨
      ∃ h₁ h₂, h = h₁ ++ e' :: h₂ ∧ A e' h₂ ∧ e ∈ h₂ := by
  induction h with
  | nil => cases he
  | cons a h ih =>
    rcases List.mem_cons.mp he with heq | hmem
    · subst heq
      have hmem' : e' ∈ h := (List.mem_cons.mp he').resolve_left (Ne.symm hne)
      exact Or.inl ⟨[], h, rfl, hl.2, hmem'⟩
    · rcases List.mem_cons.mp he' with heq | hmem'
      · subst heq
        exact Or.inr ⟨[], h, rfl, hl.2, hmem⟩
      · rcases ih hl.1 hmem hmem' with ⟨h₁, h₂, rfl, hA⟩ | ⟨h₁, h₂, rfl, hA⟩
        · exact Or.inl ⟨a :: h₁, h₂, rfl, hA⟩
        · exact Or.inr ⟨a :: h₁, h₂, rfl, hA⟩

end Async.History
