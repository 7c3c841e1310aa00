import Mathlib.Data.List.Basic

/-!
# Runs of a step function

`run` is the state a list of steps leads to, and `Along` says that every step of the list
meets a condition on the state it is taken in. What such steps preserve holds at the end
of the run (`Along.invariant`), and what they give with the invariant is met along the run
(`Along.imp`).

`changes` is the history of one part of the state : its values before and after each step
that changes it. A quantity that every step of one kind raises by one counts the changes of
that kind (`count_changes`).
-/

namespace Async.Steps

variable {σ α : Type}

/-- The state after a list of steps. -/
def run (step : σ → α → σ) (s : σ) (as : List α) : σ :=
  as.foldl step s

/-- Every step meets the condition `A`. -/
def Along (step : σ → α → σ) (A : σ → α → Prop) : σ → List α → Prop
  | _, [] => True
  | s, a :: as => A s a ∧ Along step A (step s a) as

instance decidableAlong {step : σ → α → σ} {A : σ → α → Prop} [∀ s a, Decidable (A s a)] :
    ∀ s as, Decidable (Along step A s as)
  | _, [] => isTrue trivial
  | s, a :: as =>
    have : Decidable (Along step A (step s a) as) := decidableAlong (step s a) as
    inferInstanceAs (Decidable (A s a ∧ Along step A (step s a) as))

variable {step : σ → α → σ} {A B : σ → α → Prop} {I : σ → Prop} {s : σ} {as : List α}

theorem along_append : ∀ {s : σ} {as bs : List α},
    Along step A s (as ++ bs) ↔ Along step A s as ∧ Along step A (run step s as) bs
  | _, [], _ => by simp [Along, run]
  | s, a :: as, bs => by
    simp only [List.cons_append, Along, and_assoc]
    exact and_congr_right fun _ => along_append

theorem Along.and (h : Along step A s as) (h' : Along step B s as) :
    Along step (fun s a => A s a ∧ B s a) s as := by
  induction as generalizing s with
  | nil => trivial
  | cons a as ih => exact ⟨⟨h.1, h'.1⟩, ih h.2 h'.2⟩

theorem Along.invariant (h : Along step A s as) (hs : I s)
    (hstep : ∀ s a, I s → A s a → I (step s a)) : I (run step s as) := by
  induction as generalizing s with
  | nil => exact hs
  | cons a as ih => exact ih h.2 (hstep s a hs h.1)

theorem Along.imp (h : Along step A s as) (hs : I s)
    (hstep : ∀ s a, I s → A s a → I (step s a)) (himp : ∀ s a, I s → A s a → B s a) :
    Along step B s as := by
  induction as generalizing s with
  | nil => trivial
  | cons a as ih => exact ⟨himp s a hs h.1, ih h.2 (hstep s a hs h.1)⟩

/-- What every step gives with an invariant that every step keeps. -/
theorem along_of_invariant (hs : I s) (hstep : ∀ s a, I s → I (step s a))
    (hA : ∀ s a, I s → A s a) : Along step A s as := by
  induction as generalizing s with
  | nil => trivial
  | cons a as ih => exact ⟨hA s a hs, ih (hstep s a hs)⟩

/-! ## Histories -/

section Changes

variable {β : Type} [DecidableEq β] {f : σ → β}

/-- The values of `f` before and after each step that changes it, oldest first. -/
def changes (step : σ → α → σ) (f : σ → β) : σ → List α → List (β × β)
  | _, [] => []
  | s, a :: as =>
    if f (step s a) = f s then changes step f (step s a) as
    else (f s, f (step s a)) :: changes step f (step s a) as

/-- What holds of each change of an observed value. -/
theorem changes_forall {R : β × β → Prop} (hs : I s) (hstep : ∀ s a, I s → I (step s a))
    (hR : ∀ s a, I s → f (step s a) ≠ f s → R (f s, f (step s a))) :
    ∀ m ∈ changes step f s as, R m := by
  induction as generalizing s with
  | nil => simp [changes]
  | cons a as ih =>
    rw [changes]
    split_ifs with hf
    · exact ih (hstep s a hs)
    · rw [List.forall_mem_cons]
      exact ⟨hR s a hs hf, ih (hstep s a hs)⟩

/-- A counter that counts one kind of change. -/
theorem count_changes {g : σ → ℕ} {m : β × β} (hm : m.1 ≠ m.2) (hs : I s)
    (hstep : ∀ s a, I s → I (step s a))
    (hg : ∀ s a, I s → g (step s a) = g s + if (f s, f (step s a)) = m then 1 else 0) :
    g (run step s as) = g s + (changes step f s as).countP (· = m) := by
  induction as generalizing s with
  | nil => rfl
  | cons a as ih =>
    have hrest : g (run step s (a :: as)) =
        g (step s a) + (changes step f (step s a) as).countP (· = m) := ih (hstep s a hs)
    rw [hrest, hg s a hs, changes]
    split_ifs with hc hf hf
    · subst hc
      exact absurd hf.symm hm
    · rw [List.countP_cons, if_pos (by simpa using hc)]
      omega
    · rfl
    · rw [List.countP_cons, if_neg (by simpa using hc)]
      rfl

end Changes

end Async.Steps
