import Mathlib.Data.List.Basic

/-!
# Values that are used up

A store holds a value under each key. Writing a key replaces its value, and using a value takes
it away. A history is the list of the changes that took effect, newest first. It is `Lawful`
when only a held value was used.

In a lawful history a value is used at most as often as it was written (`Lawful.used_le`), so a
value that is written once and used is not held any more (`Lawful.not_held_of_used`).
-/

namespace Async.SingleUse

variable {κ ν : Type} [DecidableEq κ]

/-- A change of a key that holds at most one value at a time. -/
inductive Change (κ ν : Type)
  | written (key : κ) (value : ν)
  | used (key : κ) (value : ν)
  deriving DecidableEq

/-- The value of a key after a history. -/
def held : List (Change κ ν) → κ → Option ν
  | [], _ => none
  | .written key value :: h, k => if key = k then some value else held h k
  | .used key _ :: h, k => if key = k then none else held h k

/-- Only held values are used. -/
def Lawful : List (Change κ ν) → Prop
  | [] => True
  | .written _ _ :: h => Lawful h
  | .used key value :: h => Lawful h ∧ held h key = some value

variable [DecidableEq ν]

/-- A held value is not used yet : each use has a writing of its own. -/
theorem Lawful.used_le : ∀ {h : List (Change κ ν)}, Lawful h → ∀ (k : κ) (v : ν),
    h.count (.used k v) + (if held h k = some v then 1 else 0) ≤ h.count (.written k v)
  | [], _, k, v => by simp [held]
  | .written key value :: h, hl, k, v => by
    have ih := Lawful.used_le (h := h) hl k v
    rw [List.count_cons_of_ne (by simp), List.count_cons]
    by_cases hkey : key = k
    · subst hkey
      by_cases hvalue : value = v
      · subst hvalue
        simp only [held, if_true, beq_self_eq_true]
        split_ifs at ih <;> omega
      · have hne : ¬ (some value = some v) := fun h => hvalue (Option.some.inj h)
        simp only [held, if_true, if_neg hne]
        omega
    · simp only [held, if_neg hkey]
      omega
  | .used key value :: h, hl, k, v => by
    have ih := Lawful.used_le hl.1 k v
    rw [List.count_cons_of_ne (a := Change.written k v) (by simp), List.count_cons]
    by_cases hkey : key = k
    · subst hkey
      rw [hl.2] at ih
      by_cases hvalue : value = v
      · subst hvalue
        simp only [held, if_true, beq_self_eq_true, reduceCtorEq, if_false] at ih ⊢
        omega
      · have hne : (Change.used key value == Change.used key v) = false := by simp [hvalue]
        simp only [held, if_true, hne, reduceCtorEq, if_false, Bool.false_eq_true]
        omega
    · have hne : (Change.used key value == Change.used k v) = false := by simp [hkey]
      simp only [held, if_neg hkey, hne, Bool.false_eq_true, if_false]
      omega

/-- A value that is written once is gone for good when it is used. -/
theorem Lawful.not_held_of_used {h : List (Change κ ν)} (hl : Lawful h) {k : κ} {v : ν}
    (honce : h.count (.written k v) ≤ 1) (hu : .used k v ∈ h) : held h k ≠ some v := by
  intro hheld
  have hcount := hl.used_le k v
  have hpos := List.count_pos_iff.mpr hu
  rw [if_pos hheld] at hcount
  omega

end Async.SingleUse
