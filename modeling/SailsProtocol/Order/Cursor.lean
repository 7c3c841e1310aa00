import SailsProtocol.Order.Paging

/-!
# Reading a sorted table behind a cursor

A reader asks for the first `cap` rows behind a cursor, takes the key of the last one as
the next cursor, and stops when nothing comes (`Follows`). Rows of that key behind the page
are then never read, so the reader gets everything exactly when no page ends within a group
of equal key (`follows_iff`). Whether it does is decided by the rows alone, not by the order
in which the queries return ties.
-/

namespace Paging

section Reader

variable {α β κ : Type} {key : α → κ} {c : Option κ}

/-- What a reader collects from call `k` and a cursor on, until a call brings nothing. -/
inductive Follows (page : ℕ → Option κ → List α) (key : α → κ) :
    ℕ → Option κ → List α → Prop
  | done {k : ℕ} {c : Option κ} : page k c = [] → Follows page key k c []
  | more {k : ℕ} {c : Option κ} {last : α} {xs : List α} : (page k c).getLast? = some last →
      Follows page key (k + 1) (some (key last)) xs → Follows page key k c (page k c ++ xs)

/-- The pages of mapped rows are followed alike. -/
theorem Follows.map {page : ℕ → Option κ → List α} {key' : β → κ} (f : α → β)
    (hkey : ∀ x, key' (f x) = key x) {k : ℕ} {xs : List α} (h : Follows page key k c xs) :
    Follows (fun k c => (page k c).map f) key' k c (xs.map f) := by
  induction h with
  | @done k c hnil => exact .done (by rw [hnil, List.map_nil])
  | @more k c last xs hlast _ ih =>
    rw [← hkey] at ih
    rw [List.map_append]
    have hlast' : ((page k c).map f).getLast? = some (f last) := by
      rw [List.getLast?_map, hlast, Option.map_some]
    exact .more hlast' ih

/-- What was followed of mapped rows was followed of the rows. -/
theorem Follows.of_map {page : ℕ → Option κ → List α} {key' : β → κ} {f : α → β}
    (hkey : ∀ x, key' (f x) = key x) {k : ℕ} {ys : List β}
    (h : Follows (fun k c => (page k c).map f) key' k c ys) :
    ∃ xs, Follows page key k c xs ∧ ys = xs.map f := by
  induction h with
  | done hnil => exact ⟨[], .done (List.map_eq_nil_iff.mp hnil), rfl⟩
  | @more k c last ys hlast _ ih =>
    rw [List.getLast?_map] at hlast
    obtain ⟨x, hx, rfl⟩ := Option.map_eq_some_iff.mp hlast
    obtain ⟨xs, hxs, rfl⟩ := ih
    rw [hkey] at hxs
    exact ⟨_, .more hx hxs, List.map_append.symm⟩

end Reader

variable {α κ : Type} [LinearOrder κ] {key : α → κ} {rows a : List α} {cap : ℕ} {c : Option κ}

/-! ## Rows behind a cursor -/

/-- The rows behind a cursor : those of a greater key, or all. -/
def behind (key : α → κ) (cursor : Option κ) (rows : List α) : List α :=
  match cursor with
  | none => rows
  | some c => rows.filter fun x => decide (c < key x)

/-- What is behind a later cursor is behind it among the rest. -/
theorem behind_behind {last : α} (h : last ∈ behind key c rows) :
    behind key (some (key last)) rows = behind key (some (key last)) (behind key c rows) := by
  cases c with
  | none => rfl
  | some c =>
    have hlt : c < key last := of_decide_eq_true (List.mem_filter.mp h).2
    rw [behind, behind, behind, List.filter_filter]
    refine List.filter_congr fun x _ => ?_
    by_cases hx : key last < key x
    · rw [decide_eq_true hx, decide_eq_true (hlt.trans hx), Bool.and_self]
    · rw [decide_eq_false hx, Bool.false_and]

/-! ## One page -/

/-- Behind a page that holds the rows up to a key, the groups are those of the table, moved
by the page. -/
theorem countP_behind {d : κ} {p : α → Bool} (hp : ∀ x, key x ≤ d → p x = true) :
    rows.countP p
      = rows.countP (fun x => decide (key x ≤ d)) + (behind key (some d) rows).countP p := by
  have hnot : ∀ x, decide (d < key x) = !decide (key x ≤ d) := fun x => by
    rw [← decide_not, decide_eq_decide, not_le]
  have hlow : (rows.filter fun x => decide (key x ≤ d)).countP p
      = (rows.filter fun x => decide (key x ≤ d)).length :=
    List.countP_eq_length.mpr fun x hx => hp x (of_decide_eq_true (List.mem_filter.mp hx).2)
  rw [List.countP_eq_countP_filter_add rows p fun x => decide (key x ≤ d), hlow,
    ← List.countP_eq_length_filter, behind]
  simp only [hnot]

theorem countP_add_length_behind (rows : List α) (d : κ) :
    rows.countP (fun x => decide (key x ≤ d)) + (behind key (some d) rows).length
      = rows.length := by
  have h := @countP_behind _ _ _ key rows d (fun _ => true) fun _ _ => rfl
  rw [List.countP_true] at h
  exact h.symm

/-- A cut behind a cursor is a cut of all rows. -/
theorem splits_behind_iff {d : κ} {x : α} (hx : d < key x) (i : ℕ) :
    (rows.countP (fun y => decide (key y < key x)) <
        rows.countP (fun y => decide (key y ≤ d)) + i ∧
      rows.countP (fun y => decide (key y ≤ d)) + i <
        rows.countP fun y => decide (key y ≤ key x)) ↔
      ((behind key (some d) rows).countP (fun y => decide (key y < key x)) < i ∧
        i < (behind key (some d) rows).countP fun y => decide (key y ≤ key x)) := by
  have hbelow := @countP_behind _ _ _ key rows d (fun y => decide (key y < key x))
    fun y hy => decide_eq_true (hy.trans_lt hx)
  have hupto := @countP_behind _ _ _ key rows d (fun y => decide (key y ≤ key x))
    fun y hy => decide_eq_true (hy.trans hx.le)
  omega

/-- The last row of a page has all the rows of the page up to its key. -/
theorem Arranges.le_countP_last (ha : Arranges key rows a) {last : α}
    (hlast : (a.take cap).getLast? = some last) :
    min cap rows.length ≤ rows.countP fun x => decide (key x ≤ key last) := by
  rw [List.getLast?_eq_getElem?, List.length_take, ha.length_eq] at hlast
  have hpos : 0 < min cap rows.length := by
    by_contra hzero
    have : a.take cap = [] := by
      rw [← List.length_eq_zero_iff, List.length_take, ha.length_eq]
      omega
    rw [this] at hlast
    cases hlast
  rw [List.getElem?_take_of_lt (by omega)] at hlast
  have := ha.lt_countP_le hlast
  omega

/-- A page that does not end within a group holds the rows up to the key of its last. -/
theorem Arranges.countP_last (ha : Arranges key rows a) {last : α}
    (hlast : (a.take cap).getLast? = some last) (hsplit : ¬ Splits key rows cap) :
    rows.countP (fun x => decide (key x ≤ key last)) = min cap rows.length := by
  have hle := ha.le_countP_last hlast
  have hall : rows.countP (fun x => decide (key x ≤ key last)) ≤ rows.length :=
    List.countP_le_length
  by_contra hne
  have hmem : last ∈ rows :=
    ha.perm.mem_iff.mp (List.mem_of_mem_take (List.mem_of_getLast? hlast))
  rw [List.getLast?_eq_getElem?, List.length_take, ha.length_eq] at hlast
  have hpos : 0 < min cap rows.length := by
    rcases Nat.eq_zero_or_pos (min cap rows.length) with hzero | hpos
    · have : a.take cap = [] := by
        rw [← List.length_eq_zero_iff, List.length_take, ha.length_eq, hzero]
      rw [this] at hlast
      cases hlast
    · exact hpos
  rw [List.getElem?_take_of_lt (by omega)] at hlast
  have hbelow := ha.countP_lt_le hlast
  exact hsplit ⟨last, hmem, by omega, by omega⟩

/-! ## All pages -/

section Following

variable {answers : ℕ → Option κ → List α} {k : ℕ} {xs : List α}

/-- Call `k` brings the first rows of an answer of its own. -/
def firstRows (cap : ℕ) (answers : ℕ → Option κ → List α) (k : ℕ) (c : Option κ) : List α :=
  (answers k c).take cap

/-- No more rows are followed than are behind the cursor. -/
theorem Follows.length_le (hanswers : ∀ k c, Arranges key (behind key c rows) (answers k c))
    (h : Follows (firstRows cap answers) key k c xs) :
    xs.length ≤ (behind key c rows).length := by
  induction h with
  | done _ => exact Nat.zero_le _
  | @more k c last xs hlast _ ih =>
    have hmem : last ∈ behind key c rows :=
      (hanswers k c).perm.mem_iff.mp (List.mem_of_mem_take (List.mem_of_getLast? hlast))
    have hcount := (hanswers k c).le_countP_last hlast
    have hsum := @countP_add_length_behind _ _ _ key (behind key c rows) (key last)
    rw [behind_behind hmem] at ih
    rw [List.length_append, firstRows, List.length_take, (hanswers k c).length_eq]
    omega

/-- A reader that gets as many rows as there are meets no page that ends within a group. -/
theorem Follows.not_splits (hcap : 0 < cap)
    (hanswers : ∀ k c, Arranges key (behind key c rows) (answers k c))
    (h : Follows (firstRows cap answers) key k c xs)
    (hlength : xs.length = (behind key c rows).length) (j : ℕ) :
    ¬ Splits key (behind key c rows) (j * cap) := by
  induction h generalizing j with
  | @done k c hnil =>
    rintro ⟨x, hx, -⟩
    have hempty : behind key c rows = [] := by
      rw [firstRows, List.take_eq_nil_iff] at hnil
      have hanswer := hnil.resolve_left hcap.ne'
      exact List.nil_perm.mp (hanswer ▸ (hanswers k c).perm)
    rw [hempty] at hx
    cases hx
  | @more k c last xs hlast hrest ih =>
    have hmem : last ∈ behind key c rows :=
      (hanswers k c).perm.mem_iff.mp (List.mem_of_mem_take (List.mem_of_getLast? hlast))
    have hcount := (hanswers k c).le_countP_last hlast
    have hsum := @countP_add_length_behind _ _ _ key (behind key c rows) (key last)
    have hle := hrest.length_le hanswers
    rw [behind_behind hmem] at ih hle
    rw [List.length_append, firstRows, List.length_take, (hanswers k c).length_eq] at hlength
    rintro ⟨x, hx, hlow, hhigh⟩
    obtain ⟨i, rfl⟩ : ∃ i, j = i + 1 := by
      cases j with
      | zero => omega
      | succ i => exact ⟨i, rfl⟩
    rw [Nat.succ_mul] at hlow hhigh
    rcases lt_or_ge (key last) (key x) with hlt | hge
    · have hin : x ∈ behind key (some (key last)) (behind key c rows) :=
        List.mem_filter.mpr ⟨hx, decide_eq_true hlt⟩
      have hpos := List.length_pos_of_mem hin
      refine ih (by omega) i ⟨x, hin, (splits_behind_iff hlt (i * cap)).mp ⟨?_, ?_⟩⟩ <;> omega
    · have hmono : (behind key c rows).countP (fun y => decide (key y ≤ key x)) ≤
          (behind key c rows).countP fun y => decide (key y ≤ key last) :=
        List.countP_mono_left fun y _ hy => decide_eq_true ((of_decide_eq_true hy).trans hge)
      omega

/-- If no page ends within a group, a reader gets every row behind the cursor once. -/
theorem exists_follows {k : ℕ} {c : Option κ} (hcap : 0 < cap)
    (hanswers : ∀ k c, Arranges key (behind key c rows) (answers k c))
    (hsplit : ∀ j, ¬ Splits key (behind key c rows) (j * cap)) :
    ∃ xs, Follows (firstRows cap answers) key k c xs ∧ xs.Perm (behind key c rows) := by
  have ha := hanswers k c
  rcases hlast : ((answers k c).take cap).getLast? with _ | last
  · have hnil : firstRows cap answers k c = [] := List.getLast?_eq_none_iff.mp hlast
    refine ⟨[], .done hnil, ?_⟩
    rw [firstRows, List.take_eq_nil_iff] at hnil
    exact hnil.resolve_left hcap.ne' ▸ ha.perm
  · have hmem : last ∈ behind key c rows :=
      ha.perm.mem_iff.mp (List.mem_of_mem_take (List.mem_of_getLast? hlast))
    have hcount := ha.countP_last hlast (by simpa using hsplit 1)
    have hsum := @countP_add_length_behind _ _ _ key (behind key c rows) (key last)
    have hpos := List.length_pos_of_mem hmem
    have hrest : ∀ j, ¬ Splits key (behind key (some (key last)) rows) (j * cap) := by
      rw [behind_behind hmem]
      rintro j ⟨x, hx, hlow, hhigh⟩
      have hlt : key last < key x := of_decide_eq_true (List.mem_filter.mp hx).2
      have := List.length_pos_of_mem hx
      obtain ⟨hlow', hhigh'⟩ := (splits_behind_iff hlt (j * cap)).mpr ⟨hlow, hhigh⟩
      refine hsplit (j + 1) ⟨x, List.mem_of_mem_filter hx, ?_, ?_⟩
      · rw [Nat.succ_mul]
        omega
      · rw [Nat.succ_mul]
        omega
    have hshorter : (behind key (some (key last)) rows).length < (behind key c rows).length := by
      rw [behind_behind hmem]
      omega
    obtain ⟨xs, hxs, hperm⟩ :=
      @exists_follows (k + 1) (some (key last)) hcap hanswers hrest
    refine ⟨_, .more hlast hxs, ?_⟩
    have hpage : (firstRows cap answers k c).Perm
        ((behind key c rows).filter fun x => decide (key x ≤ key last)) := by
      have htake := ha.take_countP_perm (lower_le (key last))
      rw [hcount] at htake
      have hcut : firstRows cap answers k c
          = (answers k c).take (min cap (behind key c rows).length) := by
        rw [firstRows, List.take_eq_take_iff, ha.length_eq]
        omega
      rw [hcut]
      exact htake
    have hnot : ∀ x, decide (key last < key x) = !decide (key x ≤ key last) := fun x => by
      rw [← decide_not, decide_eq_decide, not_le]
    refine (hpage.append (hperm.trans ?_)).trans
      (List.filter_append_perm (fun x => decide (key x ≤ key last)) _)
    rw [behind_behind hmem, behind]
    simp only [hnot]
    exact List.Perm.refl _
termination_by (behind key c rows).length

/-- A reader gets every row behind the cursor once exactly when no page ends within a group
of equal key. -/
theorem follows_iff (hcap : 0 < cap)
    (hanswers : ∀ k c, Arranges key (behind key c rows) (answers k c)) :
    (∃ xs, Follows (firstRows cap answers) key k c xs ∧ xs.Perm (behind key c rows)) ↔
      ∀ j, ¬ Splits key (behind key c rows) (j * cap) := by
  constructor
  · rintro ⟨xs, hxs, hperm⟩
    exact hxs.not_splits hcap hanswers hperm.length_eq
  · exact exists_follows hcap hanswers

end Following

end Paging
