import Mathlib.Data.Prod.Lex
import SailsProtocol.Order.Paging

/-!
# Searching the first rows of a sorted table

The answer to a query is cut off after `w` rows and searched for the first row that passes a
test. What may be found, over all arrangements of rows of equal key :

* `find_best` : a row that is found passes, no passing row has a better key, and fewer than
  `w` rows have (`Within`);
* `exists_find` : every such row is found in some arrangement;
* `exists_find_of_few` : something is found in every arrangement, if fewer than `w` rows
  fail the test and have a key as good as some row that passes;
* `exists_find_none` : otherwise there is an arrangement in which nothing is found.
-/

namespace Paging

variable {α κ : Type} [LinearOrder κ] {key : α → κ} {rows a : List α} {w : ℕ} {p : α → Bool}

/-- Fewer than `w` rows have a better key. -/
def Within (key : α → κ) (rows : List α) (w : ℕ) (x : α) : Prop :=
  rows.countP (fun y => decide (key y < key x)) < w

instance (key : α → κ) (rows : List α) (w : ℕ) (x : α) : Decidable (Within key rows w x) := by
  unfold Within
  infer_instance

theorem Within.of_le {x y : α} (h : Within key rows w y) (hle : key x ≤ key y) :
    Within key rows w x := by
  refine lt_of_le_of_lt (List.countP_mono_left fun z _ hz => ?_) h
  exact decide_eq_true ((of_decide_eq_true hz).trans_le hle)

/-- The rows that fail the test and have a key as good as that of `x`. -/
def failing (key : α → κ) (rows : List α) (p : α → Bool) (x : α) : ℕ :=
  rows.countP fun y => !p y && decide (key y ≤ key x)

theorem failing_mono {x y : α} (h : key x ≤ key y) :
    failing key rows p x ≤ failing key rows p y := by
  refine List.countP_mono_left fun z _ hz => ?_
  simp only [Bool.and_eq_true, decide_eq_true_eq] at hz ⊢
  exact ⟨hz.1, hz.2.trans h⟩

/-- Failing rows up to a row are counted there. -/
theorem length_le_failing {l : List α} {x : α} (hl : l.Sublist rows)
    (hfails : ∀ y ∈ l, p y = false ∧ key y ≤ key x) : l.length ≤ failing key rows p x := by
  have hall : l.countP (fun y => !p y && decide (key y ≤ key x)) = l.length := by
    refine List.countP_eq_length.mpr fun y hy => ?_
    rw [(hfails y hy).1, decide_eq_true (hfails y hy).2]
    rfl
  rw [← hall]
  exact hl.countP_le

/-- What is found is the best of the rows that pass. -/
theorem find_best (ha : Arranges key rows a) {x : α} (h : (a.take w).find? p = some x) :
    x ∈ rows ∧ p x = true ∧ (∀ y ∈ rows, p y = true → key x ≤ key y) ∧ Within key rows w x := by
  obtain ⟨hp, before, after, hsplit, hbefore⟩ := List.find?_eq_some_iff_append.mp h
  have hcut : a = before ++ x :: (after ++ a.drop w) := by
    rw [← List.cons_append, ← List.append_assoc, ← hsplit, List.take_append_drop]
  have hx : a[before.length]? = some x := by
    rw [hcut, List.getElem?_append_right le_rfl, Nat.sub_self]
    rfl
  refine ⟨ha.perm.mem_iff.mp (List.mem_of_getElem? hx), hp, fun y hy hpy => ?_, ?_⟩
  · have hmem : y ∈ before ++ x :: (after ++ a.drop w) := hcut ▸ ha.perm.mem_iff.mpr hy
    have hsorted := ha.sorted
    rw [hcut, List.pairwise_append, List.pairwise_cons] at hsorted
    rcases List.mem_append.mp hmem with hin | hin
    · exact absurd hpy (by simpa using hbefore y hin)
    · rcases List.mem_cons.mp hin with rfl | hin
      · exact le_rfl
      · exact hsorted.2.1.1 y hin
  · have hlen : before.length < w := by
      have := congrArg List.length hsplit
      rw [List.length_take, List.length_append, List.length_cons] at this
      omega
    exact (ha.countP_lt_le hx).trans_lt hlen

/-- When nothing is found, the first `w` rows fail the test. -/
theorem le_failing (ha : Arranges key rows a) (h : (a.take w).find? p = none) {y : α}
    (hy : y ∈ rows) (hp : p y = true) : w ≤ failing key rows p y := by
  rw [List.find?_eq_none] at h
  have hmem : y ∈ a.take w ++ a.drop w := by
    rw [List.take_append_drop]
    exact ha.perm.mem_iff.mpr hy
  have hdrop : y ∈ a.drop w := (List.mem_append.mp hmem).resolve_left fun hin => h y hin hp
  have hsorted := ha.sorted
  rw [← List.take_append_drop w a, List.pairwise_append] at hsorted
  have hfails : ∀ z ∈ a.take w, p z = false ∧ key z ≤ key y := fun z hz =>
    ⟨Bool.not_eq_true _ ▸ h z hz, hsorted.2.2 z hz y hdrop⟩
  have hlong : w < a.length := by
    have := List.length_pos_of_mem hdrop
    rw [List.length_drop] at this
    omega
  have hcount := length_le_failing (List.take_sublist w a) hfails
  rw [List.length_take, min_eq_left hlong.le, failing, ha.perm.countP_eq] at hcount
  exact hcount

theorem exists_find_of_few (ha : Arranges key rows a) {y : α} (hy : y ∈ rows) (hp : p y = true)
    (hfew : failing key rows p y < w) : ∃ x, (a.take w).find? p = some x := by
  rcases h : (a.take w).find? p with _ | x
  · exact absurd (le_failing ha h hy hp) (not_le.mpr hfew)
  · exact ⟨x, rfl⟩

/-- Some row is best among those that pass. -/
theorem exists_best {x : α} (hx : x ∈ rows) (hp : p x = true) :
    ∃ z ∈ rows, p z = true ∧ ∀ y ∈ rows, p y = true → key z ≤ key y := by
  have hfew : failing key rows p x < rows.length + 1 := Nat.lt_succ_of_le List.countP_le_length
  obtain ⟨z, hz⟩ := exists_find_of_few (arranges_mergeSort key rows) hx hp hfew
  obtain ⟨hrow, hpass, hbest, -⟩ := find_best (arranges_mergeSort key rows) hz
  exact ⟨z, hrow, hpass, hbest⟩

/-- A row that is best among those that pass can be the first of them. -/
theorem exists_find [DecidableEq α] {x : α} (hx : x ∈ rows) (hp : p x = true)
    (hbest : ∀ y ∈ rows, p y = true → key x ≤ key y) (hwithin : Within key rows w x) :
    ∃ a, Arranges key rows a ∧ (a.take w).find? p = some x := by
  have hb := arranges_mergeSort key rows
  set b := rows.mergeSort fun x y => decide (key x ≤ key y)
  let better : α → Bool := fun y => decide (key y < key x)
  let first := b.filter better
  let rest := (b.filter fun y => !better y).erase x
  have hmem : x ∈ b.filter fun y => !better y := by
    rw [List.mem_filter]
    exact ⟨hb.perm.mem_iff.mpr hx, by simp [better]⟩
  have hperm : (first ++ x :: rest).Perm rows :=
    (List.Perm.append_left _ (List.perm_cons_erase hmem).symm).trans
      ((List.filter_append_perm better b).trans hb.perm)
  have hrest : ∀ y ∈ rest, key x ≤ key y := by
    intro y hy
    have := (List.mem_filter.mp (List.mem_of_mem_erase hy)).2
    simpa [better] using this
  have hfirst : ∀ y ∈ first, key y < key x := fun y hy =>
    of_decide_eq_true (List.mem_filter.mp hy).2
  have hsorted : (first ++ x :: rest).Pairwise fun y z => key y ≤ key z := by
    rw [List.pairwise_append, List.pairwise_cons]
    refine ⟨hb.sorted.sublist List.filter_sublist, ⟨hrest, ?_⟩, fun y hy z hz => ?_⟩
    · exact hb.sorted.sublist (List.erase_sublist.trans List.filter_sublist)
    · rcases List.mem_cons.mp hz with rfl | hz
      · exact (hfirst y hy).le
      · exact (hfirst y hy).le.trans (hrest z hz)
  refine ⟨_, ⟨hperm, hsorted⟩, ?_⟩
  have hlen : first.length < w := by
    have := hb.perm.countP_eq better
    rw [← List.countP_eq_length_filter, this]
    exact hwithin
  obtain ⟨n, rfl⟩ : ∃ n, w = first.length + (n + 1) := ⟨w - first.length - 1, by omega⟩
  have hnone : first.find? p = none := by
    refine List.find?_eq_none.mpr fun y hy hpy => ?_
    have hrow : y ∈ rows := hb.perm.mem_iff.mp (List.mem_of_mem_filter hy)
    exact absurd (hbest y hrow hpy) (not_le.mpr (hfirst y hy))
  rw [List.take_length_add_append, List.take_succ_cons, List.find?_append, hnone,
    List.find?_cons_of_pos hp]
  rfl

/-- Among rows of equal key, those that pass can come last. -/
theorem exists_find_none (h : ∀ y ∈ rows, p y = true → w ≤ failing key rows p y) :
    ∃ a, Arranges key rows a ∧ (a.take w).find? p = none := by
  let fine : α → κ ×ₗ Bool := fun y => toLex (key y, p y)
  have ha := arranges_mergeSort fine rows
  set a := rows.mergeSort fun x y => decide (fine x ≤ fine y)
  have hcoarse : ∀ {x y : α}, fine x ≤ fine y → key x ≤ key y := by
    intro x y hle
    rcases Prod.Lex.toLex_le_toLex.mp hle with hlt | heq
    · exact hlt.le
    · exact heq.1.le
  refine ⟨a, ⟨ha.perm, ha.sorted.imp hcoarse⟩, List.find?_eq_none.mpr fun y hy hp => ?_⟩
  obtain ⟨i, hi, rfl⟩ := List.mem_take_iff_getElem.mp hy
  have hrow : a[i] ∈ rows := ha.perm.mem_iff.mp (List.getElem_mem _)
  have hbefore := ha.countP_lt_le (List.getElem?_eq_getElem (by omega : i < a.length))
  have hmono : failing key rows p a[i] ≤ rows.countP fun z => decide (fine z < fine a[i]) := by
    refine List.countP_mono_left fun z _ hz => ?_
    simp only [Bool.and_eq_true, Bool.not_eq_true', decide_eq_true_eq] at hz ⊢
    refine Prod.Lex.toLex_lt_toLex.mpr ?_
    rcases hz.2.lt_or_eq with hlt | heq
    · exact .inl hlt
    · refine .inr ⟨heq, ?_⟩
      rw [hz.1, hp]
      exact Bool.false_lt_true
  have := h _ hrow hp
  omega

end Paging
