import Mathlib.Algebra.Order.Field.Rat
import Mathlib.Tactic.NormNum
import SailsProtocol.Order.Threshold

/-!
# The algebra of condition results

A condition evaluates to one of four results, and the frozen order of the algebra ranks
them. `conditionAnd` and `conditionOr` go through the ranks with a minimum and a maximum;
`conditionThreshold` counts the results of each kind and decides by four tests in order.

The order makes the results a bounded linear order, in which `conditionAnd` is `conj`
(`conditionAnd_eq`), `conditionOr` is `disj` (`conditionOr_eq`), and the four tests are
the count that `best` comes down to (`conditionThreshold_eq`).
-/

namespace Sails.Core

open Threshold

/-- The frozen four-state vocabulary. -/
inductive ConditionResult where
  | SATISFIED
  | NOT_YET_SATISFIED
  | UNSATISFIABLE
  | UNKNOWN
  deriving DecidableEq, Repr

open ConditionResult

/-- `CONDITION_RESULTS`. -/
def CONDITION_RESULTS : List ConditionResult :=
  [UNSATISFIABLE, UNKNOWN, NOT_YET_SATISFIED, SATISFIED]

/-- `ORDER` : the one frozen total order the algebra rests on. -/
def ORDER : ConditionResult → ℕ
  | UNSATISFIABLE => 0
  | UNKNOWN => 1
  | NOT_YET_SATISFIED => 2
  | SATISFIED => 3

theorem ORDER_injective : Function.Injective ORDER := by
  intro a b h
  cases a <;> cases b <;> first | rfl | cases h

instance : LinearOrder ConditionResult := LinearOrder.lift' ORDER ORDER_injective

theorem le_iff {a b : ConditionResult} : a ≤ b ↔ ORDER a ≤ ORDER b := Iff.rfl

instance : BoundedOrder ConditionResult where
  top := SATISFIED
  le_top a := by cases a <;> decide
  bot := UNSATISFIABLE
  bot_le a := by cases a <;> decide

/-! ## The combinators -/

/-- `fromOrder`. -/
def fromOrder (value : ℕ) : Except String ConditionResult :=
  match CONDITION_RESULTS.find? (fun r => ORDER r = value) with
  | some found => .ok found
  | none => .error s!"invalid ConditionResult order value: {value}"

/-- `conditionAnd` : the minimum over the frozen order. -/
def conditionAnd (results : List ConditionResult) : Except String ConditionResult :=
  match results.map ORDER with
  | [] => .error "conditionAnd requires at least one ConditionResult"
  | r :: rs => fromOrder (rs.foldl min r)

/-- `conditionOr` : the maximum over the frozen order. -/
def conditionOr (results : List ConditionResult) : Except String ConditionResult :=
  match results.map ORDER with
  | [] => .error "conditionOr requires at least one ConditionResult"
  | r :: rs => fromOrder (rs.foldl max r)

/-- The loop `for (const r of results) counts[r] += 1`. -/
def counts (results : List ConditionResult) : ConditionResult → ℕ :=
  results.foldl (fun counts r => Function.update counts r (counts r + 1)) fun _ => 0

/-- `conditionThreshold`. -/
def conditionThreshold (n : ℚ) (results : List ConditionResult) :
    Except String ConditionResult :=
  if n.den ≠ 1 ∨ n < 1 then .error "conditionThreshold requires an integer n >= 1"
  else if results.length = 0 then
    .error "conditionThreshold requires at least one ConditionResult"
  else
    let s := counts results SATISFIED
    let p := counts results NOT_YET_SATISFIED
    let k := counts results UNKNOWN
    if n ≤ s then .ok SATISFIED
    else if s + p + k < n then .ok UNSATISFIABLE
    else if n ≤ s + p then .ok NOT_YET_SATISFIED
    else .ok UNKNOWN

/-! ## The minimum and the maximum -/

theorem fromOrder_ORDER (r : ConditionResult) : fromOrder (ORDER r) = .ok r := by
  cases r <;> rfl

theorem ORDER_inf (a b : ConditionResult) : ORDER (a ⊓ b) = min (ORDER a) (ORDER b) := by
  cases a <;> cases b <;> decide

theorem ORDER_sup (a b : ConditionResult) : ORDER (a ⊔ b) = max (ORDER a) (ORDER b) := by
  cases a <;> cases b <;> decide

/-- The fold of `evaluateAnd` is the meet. -/
theorem foldl_min (r : ConditionResult) (rs : List ConditionResult) :
    (rs.map ORDER).foldl min (ORDER r) = ORDER (conj (r :: rs)) := by
  induction rs generalizing r with
  | nil => simp
  | cons a rs ih =>
    have hstep := ih (r ⊓ a)
    rw [List.map_cons, List.foldl_cons, ← ORDER_inf, hstep]
    simp only [conj_cons, inf_assoc]

/-- The fold of `evaluateOr` is the join. -/
theorem foldl_max (r : ConditionResult) (rs : List ConditionResult) :
    (rs.map ORDER).foldl max (ORDER r) = ORDER (disj (r :: rs)) := by
  induction rs generalizing r with
  | nil => simp
  | cons a rs ih =>
    have hstep := ih (r ⊔ a)
    rw [List.map_cons, List.foldl_cons, ← ORDER_sup, hstep]
    simp only [disj_cons, sup_assoc]

variable {results results' : List ConditionResult} {n m : ℕ}

/-- `conditionAnd` is the least result of a list with an element. -/
theorem conditionAnd_eq (h : results ≠ []) : conditionAnd results = .ok (conj results) := by
  cases results with
  | nil => exact absurd rfl h
  | cons r rs =>
    simp only [conditionAnd, List.map_cons]
    rw [foldl_min, fromOrder_ORDER]

/-- `conditionOr` is the greatest result of a list with an element. -/
theorem conditionOr_eq (h : results ≠ []) : conditionOr results = .ok (disj results) := by
  cases results with
  | nil => exact absurd rfl h
  | cons r rs =>
    simp only [conditionOr, List.map_cons]
    rw [foldl_max, fromOrder_ORDER]

/-! ## The four tests -/

/-- The fold of the tally counts each result. -/
theorem foldl_counts (start : ConditionResult → ℕ) (r : ConditionResult) :
    results.foldl (fun counts r => Function.update counts r (counts r + 1)) start r
      = start r + results.count r := by
  induction results generalizing start with
  | nil => simp
  | cons a rs ih =>
    rw [List.foldl_cons, ih, List.count_cons]
    by_cases hra : r = a
    · subst hra
      simp only [Function.update_self, beq_self_eq_true, if_true]
      omega
    · have hne : (a == r) = false := by simpa using fun h => hra h.symm
      simp [Function.update_of_ne hra, hne]

/-- The loop counts how often each result occurs. -/
theorem counts_eq (r : ConditionResult) : counts results r = results.count r := by
  simp [counts, foldl_counts]

theorem countP_satisfied : results.countP (SATISFIED ≤ ·) = counts results SATISFIED := by
  rw [counts_eq, List.count]
  congr 1
  funext a
  cases a <;> decide

theorem countP_not_yet_satisfied :
    results.countP (NOT_YET_SATISFIED ≤ ·)
      = counts results SATISFIED + counts results NOT_YET_SATISFIED := by
  simp only [counts_eq]
  induction results with
  | nil => rfl
  | cons a rs ih =>
    cases a <;> simp [le_iff, ORDER] at ih ⊢ <;> omega

theorem countP_unknown :
    results.countP (UNKNOWN ≤ ·)
      = counts results SATISFIED + counts results NOT_YET_SATISFIED + counts results UNKNOWN := by
  simp only [counts_eq]
  induction results with
  | nil => rfl
  | cons a rs ih =>
    cases a <;> simp [le_iff, ORDER] at ih ⊢ <;> omega

/-- The four tests compute the greatest, over the sublists of `n` positions, of the least
result of each. -/
theorem conditionThreshold_eq (hn : 1 ≤ n) (hne : results ≠ []) :
    conditionThreshold n results = .ok (best n results) := by
  have hlen : results.length ≠ 0 := by simpa using hne
  have hlow : ¬ ((n : ℚ) < 1) := by
    rw [not_lt]
    exact_mod_cast hn
  have hs : SATISFIED ≤ best n results ↔ n ≤ counts results SATISFIED := by
    rw [le_best_iff (by decide), countP_satisfied]
  have hp : NOT_YET_SATISFIED ≤ best n results
      ↔ n ≤ counts results SATISFIED + counts results NOT_YET_SATISFIED := by
    rw [le_best_iff (by decide), countP_not_yet_satisfied]
  have hk : UNKNOWN ≤ best n results
      ↔ n ≤ counts results SATISFIED + counts results NOT_YET_SATISFIED
        + counts results UNKNOWN := by
    rw [le_best_iff (by decide), countP_unknown]
  unfold conditionThreshold
  rw [if_neg (by simp [hlow]), if_neg hlen]
  dsimp only
  norm_cast
  generalize best n results = b at hs hp hk
  simp only [← not_le, ← hs, ← hp, ← hk]
  cases b <;> rfl

/-- The sublists of `n` positions have an AND when `n` is positive. -/
theorem mapM_conditionAnd (hn : 1 ≤ n) :
    (results.sublistsLen n).mapM conditionAnd = .ok ((results.sublistsLen n).map conj) := by
  have hmem : ∀ s ∈ results.sublistsLen n, s ≠ [] := by
    intro s hs
    have hlen := (List.mem_sublistsLen.1 hs).2
    rintro rfl
    simp at hlen
    omega
  generalize results.sublistsLen n = ss at hmem
  induction ss with
  | nil => rfl
  | cons s ss ih =>
    have hhead := conditionAnd_eq (hmem s List.mem_cons_self)
    have htail := ih fun t ht => hmem t (List.mem_cons_of_mem _ ht)
    rw [List.mapM_cons, hhead, htail]
    rfl

/-- Within the length of the list, the OR of the ANDs is `best`. -/
theorem or_of_ands (hn : 1 ≤ n) (hle : n ≤ results.length) :
    ((results.sublistsLen n).mapM conditionAnd >>= conditionOr) = .ok (best n results) := by
  have hne : (results.sublistsLen n).map conj ≠ [] := by
    rw [Ne, List.map_eq_nil_iff, ← List.length_eq_zero_iff, List.length_sublistsLen]
    exact (Nat.choose_pos hle).ne'
  rw [mapM_conditionAnd hn]
  exact conditionOr_eq hne

/-- The threshold generalises AND and OR : it is the OR, over the sublists of `n`
positions, of the AND of each, so that it is the OR at one and the AND at the length, does
not depend on the order of the list, grows with every operand and falls with `n`. -/
theorem threshold_generalises (n : ℕ) (results : List ConditionResult) (hn : 1 ≤ n)
    (hne : results ≠ []) :
    (conditionThreshold n results
      = if n ≤ results.length then (results.sublistsLen n).mapM conditionAnd >>= conditionOr
        else .ok UNSATISFIABLE)
    ∧ (n = 1 → conditionThreshold n results = conditionOr results)
    ∧ (n = results.length → conditionThreshold n results = conditionAnd results)
    ∧ (∀ results', results.Perm results' →
        conditionThreshold n results' = conditionThreshold n results)
    ∧ (∀ results', List.Forall₂ (· ≤ ·) results results' →
        ∃ before after, conditionThreshold n results = .ok before
          ∧ conditionThreshold n results' = .ok after ∧ before ≤ after)
    ∧ ∀ m : ℕ, n ≤ m → ∃ atN atM, conditionThreshold n results = .ok atN
        ∧ conditionThreshold m results = .ok atM ∧ atM ≤ atN := by
  refine ⟨?_, ?_, ?_, ?_, ?_, ?_⟩
  · rw [conditionThreshold_eq hn hne]
    split
    · rename_i hle
      exact (or_of_ands hn hle).symm
    · rename_i hgt
      rw [best_of_length_lt (not_le.1 hgt)]
      rfl
  · rintro rfl
    rw [conditionThreshold_eq hn hne, conditionOr_eq hne, best_one]
  · rintro rfl
    rw [conditionThreshold_eq hn hne, conditionAnd_eq hne, best_length]
  · intro results' hperm
    have hne' : results' ≠ [] := fun h => hne (by simpa [h] using hperm)
    rw [conditionThreshold_eq hn hne, conditionThreshold_eq hn hne', best_perm hperm]
  · intro results' himp
    have hne' : results' ≠ [] := by
      rintro rfl
      cases himp
      exact hne rfl
    exact ⟨_, _, conditionThreshold_eq hn hne, conditionThreshold_eq hn hne', best_mono himp⟩
  · intro m hnm
    exact ⟨_, _, conditionThreshold_eq hn hne, conditionThreshold_eq (hn.trans hnm) hne,
      best_anti hnm⟩

/-- Two of three, read against the pairs. -/
theorem two_of_three :
    conditionThreshold (2 : ℕ) [SATISFIED, UNSATISFIABLE, UNKNOWN]
      = (List.sublistsLen 2 [SATISFIED, UNSATISFIABLE, UNKNOWN]).mapM conditionAnd
          >>= conditionOr := by
  have h := (threshold_generalises 2 [SATISFIED, UNSATISFIABLE, UNKNOWN] (by decide)
    (by decide)).1
  simpa using h

end Sails.Core
