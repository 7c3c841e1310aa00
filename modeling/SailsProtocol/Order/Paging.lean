import Mathlib.Data.List.Basic
import Mathlib.Order.Basic
import Mathlib.Tactic.Ring

/-!
# Reading a sorted table page by page

A query returns the rows of a table in the order of a key, rows of equal key in any order
(`Arranges`). A reader asks for one page after another as long as the table says that there
is more (`Reads`), and every page is cut from the answer to a query of its own, to a depth
that may be capped (`window`).

* `take_perm` : two answers agree on what comes before a border no group of equal key lies
  across (`Splits`);
* `reads_all` : if no page border splits a group and the cap is not reached, the pages are
  together one arrangement of the rows;
* `of_reads_all` : unless one page holds everything, both conditions are necessary.
-/

namespace Paging

variable {α κ : Type} [LinearOrder κ] {key : α → κ} {rows a b : List α}

/-! ## Arrangements -/

/-- An order a query may return the rows in : by the key, and ties anyhow. -/
structure Arranges (key : α → κ) (rows a : List α) : Prop where
  perm : a.Perm rows
  sorted : a.Pairwise fun x y => key x ≤ key y

theorem arranges_mergeSort (key : α → κ) (rows : List α) :
    Arranges key rows (rows.mergeSort fun x y => decide (key x ≤ key y)) := by
  refine ⟨List.mergeSort_perm _ _, ?_⟩
  have hsorted := @List.pairwise_mergeSort α (fun x y => decide (key x ≤ key y))
    (fun x y z hxy hyz => by simpa using (of_decide_eq_true hxy).trans (of_decide_eq_true hyz))
    (fun x y => by simpa using le_total (key x) (key y)) rows
  exact hsorted.imp fun h => of_decide_eq_true h

theorem Arranges.map_key (ha : Arranges key rows a) (hb : Arranges key rows b) :
    a.map key = b.map key := by
  refine ((ha.perm.trans hb.perm.symm).map key).eq_of_pairwise
    (fun x y _ _ hxy hyx => le_antisymm hxy hyx) ?_ ?_
  · exact List.pairwise_map.mpr ha.sorted
  · exact List.pairwise_map.mpr hb.sorted

theorem Arranges.length_eq (ha : Arranges key rows a) : a.length = rows.length :=
  ha.perm.length_eq

/-! ## Groups of equal key -/

/-- Rows of equal key lie on both sides of the border after the first `i` rows. -/
def Splits (key : α → κ) (rows : List α) (i : ℕ) : Prop :=
  ∃ x ∈ rows, rows.countP (fun y => decide (key y < key x)) < i ∧
    i < rows.countP (fun y => decide (key y ≤ key x))

instance (key : α → κ) (rows : List α) (i : ℕ) : Decidable (Splits key rows i) := by
  unfold Splits
  infer_instance

/-- In a sorted list, a lower part of the keys is a beginning of the list. -/
theorem filter_eq_take {p : α → Bool} (hsorted : a.Pairwise fun x y => key x ≤ key y)
    (hlower : ∀ x y, key x ≤ key y → p y = true → p x = true) :
    a.filter p = a.take (a.countP p) := by
  induction a with
  | nil => rfl
  | cons x a ih =>
    rw [List.pairwise_cons] at hsorted
    by_cases hx : p x = true
    · rw [List.filter_cons_of_pos hx, List.countP_cons_of_pos hx, List.take_succ_cons,
        ih hsorted.2]
    · have hnone : ∀ y ∈ a, ¬ p y = true := fun y hy hp => hx (hlower x y (hsorted.1 y hy) hp)
      rw [List.filter_cons_of_neg hx, List.countP_cons_of_neg hx, List.countP_eq_zero.mpr hnone,
        List.filter_eq_nil_iff.mpr hnone, List.take_zero]

theorem Arranges.take_countP_perm {p : α → Bool} (ha : Arranges key rows a)
    (hlower : ∀ x y, key x ≤ key y → p y = true → p x = true) :
    (a.take (rows.countP p)).Perm (rows.filter p) := by
  rw [← ha.perm.countP_eq p, ← filter_eq_take ha.sorted hlower]
  exact ha.perm.filter p

theorem lower_lt (c : κ) (x y : α) (hxy : key x ≤ key y) (hy : decide (key y < c) = true) :
    decide (key x < c) = true :=
  decide_eq_true (hxy.trans_lt (of_decide_eq_true hy))

theorem lower_le (c : κ) (x y : α) (hxy : key x ≤ key y) (hy : decide (key y ≤ c) = true) :
    decide (key x ≤ c) = true :=
  decide_eq_true (hxy.trans (of_decide_eq_true hy))

/-- The rows of a key below that of the row at `i` all come before it. -/
theorem Arranges.countP_lt_le (ha : Arranges key rows a) {i : ℕ} {x : α} (hx : a[i]? = some x) :
    rows.countP (fun y => decide (key y < key x)) ≤ i := by
  by_contra hlt
  rw [not_le] at hlt
  have hmem : x ∈ a.take (rows.countP fun y => decide (key y < key x)) :=
    List.mem_of_getElem? (i := i) (by rw [List.getElem?_take_of_lt hlt, hx])
  have hfilter := (ha.take_countP_perm (lower_lt (key x))).mem_iff.mp hmem
  exact lt_irrefl _ (of_decide_eq_true (List.mem_filter.mp hfilter).2)

/-- The row at `i` is one of those of a key up to its own. -/
theorem Arranges.lt_countP_le (ha : Arranges key rows a) {i : ℕ} {x : α} (hx : a[i]? = some x) :
    i < rows.countP (fun y => decide (key y ≤ key x)) := by
  have htake := filter_eq_take (p := fun y => decide (key y ≤ key x)) ha.sorted (lower_le (key x))
  have hmem : x ∈ a.drop i := List.mem_of_getElem? (i := 0) (by rw [List.getElem?_drop]; exact hx)
  rw [← ha.perm.countP_eq]
  by_contra hle
  rw [not_lt] at hle
  -- the rows up to the key of `x` end before `i`, where `x` is
  have hsplit := List.take_append_drop (a.countP fun y => decide (key y ≤ key x)) a
  have hcount := congrArg (List.countP fun y => decide (key y ≤ key x)) hsplit
  rw [List.countP_append, ← htake, List.countP_filter] at hcount
  simp only [Bool.and_self] at hcount
  have hzero : (a.drop (a.countP fun y => decide (key y ≤ key x))).countP
      (fun y => decide (key y ≤ key x)) = 0 := by omega
  have hdrop : x ∈ a.drop (a.countP fun y => decide (key y ≤ key x)) :=
    (List.drop_subset_drop_left a hle) hmem
  exact List.countP_eq_zero.mp hzero x hdrop (decide_eq_true le_rfl)

/-- Two answers have the same rows before a border that splits no group. -/
theorem take_perm (ha : Arranges key rows a) (hb : Arranges key rows b) {i : ℕ}
    (hsplit : ¬ Splits key rows i) : (a.take i).Perm (b.take i) := by
  rcases hx : a[i]? with _ | x
  · rw [List.getElem?_eq_none_iff] at hx
    have hx' : b.length ≤ i := by
      rw [hb.length_eq, ← ha.length_eq]
      exact hx
    rw [List.take_of_length_le hx, List.take_of_length_le hx']
    exact ha.perm.trans hb.perm.symm
  · have hmem : x ∈ rows := ha.perm.mem_iff.mp (List.mem_of_getElem? hx)
    have hcount : rows.countP (fun y => decide (key y < key x)) = i := by
      by_contra hne
      exact hsplit ⟨x, hmem, lt_of_le_of_ne (ha.countP_lt_le hx) hne, ha.lt_countP_le hx⟩
    rw [← hcount]
    exact (ha.take_countP_perm (lower_lt (key x))).trans
      (hb.take_countP_perm (lower_lt (key x))).symm

/-- Two answers that differ in the two rows at a border that splits a group. -/
theorem Splits.exists_swap {i : ℕ} (h : Splits key rows i) :
    ∃ (p q : List α) (x y : α), p.length + 1 = i ∧ Arranges key rows (p ++ x :: y :: q) ∧
      Arranges key rows (p ++ y :: x :: q) := by
  obtain ⟨z, hz, hlt, hle⟩ := h
  have ha := arranges_mergeSort key rows
  set a := rows.mergeSort fun x y => decide (key x ≤ key y)
  have hlen : i < a.length := by
    rw [ha.length_eq]
    exact hle.trans_le List.countP_le_length
  obtain ⟨j, rfl⟩ : ∃ j, i = j + 1 := ⟨i - 1, by omega⟩
  have hj : j < a.length := by omega
  have hcut : a = a.take j ++ a[j] :: a[j + 1] :: a.drop (j + 2) := by
    rw [List.getElem_cons_drop hlen, List.getElem_cons_drop hj, List.take_append_drop]
  -- the keys on both sides are that of the group
  have hleft : ¬ key a[j] < key z := by
    intro hkey
    have := ha.lt_countP_le (List.getElem?_eq_getElem hj)
    have hmono : rows.countP (fun y => decide (key y ≤ key a[j])) ≤
        rows.countP (fun y => decide (key y < key z)) :=
      List.countP_mono_left fun y _ hy => decide_eq_true ((of_decide_eq_true hy).trans_lt hkey)
    omega
  have hright : ¬ key z < key a[j + 1] := by
    intro hkey
    have := ha.countP_lt_le (List.getElem?_eq_getElem hlen)
    have hmono : rows.countP (fun y => decide (key y ≤ key z)) ≤
        rows.countP (fun y => decide (key y < key a[j + 1])) :=
      List.countP_mono_left fun y _ hy => decide_eq_true ((of_decide_eq_true hy).trans_lt hkey)
    omega
  have hswap : key a[j + 1] ≤ key a[j] := (not_lt.mp hright).trans (not_lt.mp hleft)
  refine ⟨a.take j, a.drop (j + 2), a[j], a[j + 1], by rw [List.length_take]; omega, ?_, ?_⟩
  · rw [← hcut]
    exact ha
  · have hsorted := ha.sorted
    rw [hcut, List.pairwise_append] at hsorted
    obtain ⟨hp, htail, hcross⟩ := hsorted
    simp only [List.pairwise_cons, List.mem_cons, forall_eq_or_imp] at htail hcross
    refine ⟨(List.Perm.append_left _ (List.Perm.swap _ _ _)).trans (hcut ▸ ha.perm), ?_⟩
    rw [List.pairwise_append]
    simp only [List.pairwise_cons, List.mem_cons, forall_eq_or_imp]
    exact ⟨hp, ⟨⟨hswap, htail.2.1⟩, htail.1.2, htail.2.2⟩,
      fun w hw => ⟨(hcross w hw).2.1, (hcross w hw).1, (hcross w hw).2.2⟩⟩

/-! ## Pages -/

/-- The rows of a page at `offset`, when at most `cap` rows of an answer are fetched. -/
def window (cap offset limit : ℕ) (a : List α) : List α :=
  (a.take (min (offset + limit) cap)).drop offset

/-- What a reader collects from page `k` on, reading while there is more. -/
inductive Reads (page : ℕ → List α × Bool) : ℕ → List α → Prop
  | last {k : ℕ} : (page k).2 = false → Reads page k (page k).1
  | more {k : ℕ} {xs : List α} : (page k).2 = true → Reads page (k + 1) xs →
      Reads page k ((page k).1 ++ xs)

section Reading

variable {cap step limit : ℕ} {answers : ℕ → List α}

/-- Page `k`, cut from the answer to query `k`, of a table of `n` rows. -/
def pages (cap step limit n : ℕ) (answers : ℕ → List α) (k : ℕ) : List α × Bool :=
  (window cap (k * step) limit (answers k), decide (k * step + limit < n))

theorem length_window (cap offset limit : ℕ) (a : List α) :
    (window cap offset limit a).length = min (min (offset + limit) cap) a.length - offset := by
  rw [window, List.length_drop, List.length_take]

theorem window_of_le {offset : ℕ} (h : a.length ≤ cap) :
    window cap offset limit a = (a.drop offset).take limit := by
  have htake : a.take (min (offset + limit) cap) = a.take (offset + limit) := by
    rw [List.take_eq_take_iff]
    omega
  rw [window, htake, List.take_drop]

/-- Between two borders that split no group, two answers have the same rows. -/
theorem drop_take_perm (ha : Arranges key rows a) (hb : Arranges key rows b) {offset : ℕ}
    (hstart : ¬ Splits key rows offset) (hend : ¬ Splits key rows (offset + limit)) :
    ((a.drop offset).take limit).Perm ((b.drop offset).take limit) := by
  have hsplit : ∀ l : List α,
      l.take (offset + limit) = l.take offset ++ (l.drop offset).take limit := by
    intro l
    rw [List.take_drop]
    conv_lhs => rw [← List.take_append_drop offset (l.take (offset + limit)), List.take_take,
      Nat.min_eq_left (Nat.le_add_right offset limit)]
  have hall := take_perm ha hb hend
  rw [hsplit a, hsplit b] at hall
  have hrest := ((take_perm ha hb hstart).symm.append_right _).trans hall
  rwa [List.perm_append_left_iff] at hrest

/-- From a page on, a reader gets the rest of the rows, in order. -/
theorem reads_rest (hanswers : ∀ k, Arranges key rows (answers k)) (hb : Arranges key rows b)
    (hlimit : 0 < limit) (hcap : rows.length ≤ cap)
    (hborders : ∀ k, ¬ Splits key rows (k * limit)) (m k : ℕ) (hm : rows.length ≤ k * limit + m) :
    ∃ xs, Reads (pages cap limit limit rows.length answers) k xs ∧
      xs.Perm (b.drop (k * limit)) ∧ xs.map key = (b.drop (k * limit)).map key := by
  have hlen := hb.length_eq
  have hnext : k * limit + limit = (k + 1) * limit := (Nat.succ_mul k limit).symm
  have hpage : (pages cap limit limit rows.length answers k).1
      = ((answers k).drop (k * limit)).take limit :=
    window_of_le ((hanswers k).length_eq.trans_le hcap)
  have hperm : (((answers k).drop (k * limit)).take limit).Perm
      ((b.drop (k * limit)).take limit) :=
    drop_take_perm (hanswers k) hb (hborders k) (by rw [hnext]; exact hborders (k + 1))
  have hkeys : (((answers k).drop (k * limit)).take limit).map key
      = ((b.drop (k * limit)).take limit).map key := by
    rw [List.map_take, List.map_drop, List.map_take, List.map_drop, (hanswers k).map_key hb]
  rw [← hpage] at hperm hkeys
  by_cases hmore : k * limit + limit < rows.length
  · obtain ⟨m, rfl⟩ : ∃ m', m = m' + 1 := ⟨m - 1, by omega⟩
    obtain ⟨xs, hreads, hrest, hrestkeys⟩ :=
      reads_rest hanswers hb hlimit hcap hborders m (k + 1) (by omega)
    have hcut : b.drop (k * limit)
        = (b.drop (k * limit)).take limit ++ b.drop ((k + 1) * limit) := by
      rw [← hnext, ← List.drop_drop, List.take_append_drop]
    refine ⟨_, .more (decide_eq_true hmore) hreads, ?_, ?_⟩
    · rw [hcut]
      exact hperm.append hrest
    · rw [hcut, List.map_append, List.map_append, hkeys, hrestkeys]
  · have hdone : (b.drop (k * limit)).length ≤ limit := by
      rw [List.length_drop]
      omega
    rw [List.take_of_length_le hdone] at hperm hkeys
    exact ⟨_, .last (decide_eq_false hmore), hperm, hkeys⟩

/-- The pages are together one arrangement of the rows. -/
theorem reads_all (hanswers : ∀ k, Arranges key rows (answers k)) (hlimit : 0 < limit)
    (hcap : rows.length ≤ cap) (hborders : ∀ k, ¬ Splits key rows (k * limit)) :
    ∃ xs, Reads (pages cap limit limit rows.length answers) 0 xs ∧ Arranges key rows xs := by
  have hb := arranges_mergeSort key rows
  set b := rows.mergeSort fun x y => decide (key x ≤ key y)
  obtain ⟨xs, hreads, hperm, hkeys⟩ :=
    reads_rest hanswers hb hlimit hcap hborders rows.length 0 (by omega)
  rw [Nat.zero_mul, List.drop_zero] at hperm hkeys
  refine ⟨xs, hreads, hperm.trans hb.perm, ?_⟩
  have hsorted := List.pairwise_map.mpr hb.sorted
  rw [← hkeys] at hsorted
  exact List.pairwise_map.mp hsorted

/-- A table that one page holds is read with it. -/
theorem reads_one (hanswers : ∀ k, Arranges key rows (answers k)) (hlimit : rows.length ≤ limit)
    (hcap : limit ≤ cap) :
    ∃ xs, Reads (pages cap step limit rows.length answers) 0 xs ∧ Arranges key rows xs := by
  have hlen := (hanswers 0).length_eq
  have hpage : (pages cap step limit rows.length answers 0).1 = answers 0 := by
    rw [pages, window_of_le (by omega), Nat.zero_mul, List.drop_zero,
      List.take_of_length_le (by omega)]
  have hlast : Reads (pages cap step limit rows.length answers) 0 _ :=
    .last (decide_eq_false (by omega))
  rw [hpage] at hlast
  exact ⟨answers 0, hlast, hanswers 0⟩

/-! ## What is read otherwise -/

theorem Reads.cases {page : ℕ → List α × Bool} {k : ℕ} {xs : List α} (h : Reads page k xs) :
    ((page k).2 = false ∧ xs = (page k).1) ∨
      ∃ ys, (page k).2 = true ∧ Reads page (k + 1) ys ∧ xs = (page k).1 ++ ys := by
  cases h with
  | last hlast => exact .inl ⟨hlast, rfl⟩
  | more hmore hrest => exact .inr ⟨_, hmore, hrest, rfl⟩

theorem Reads.map {β : Type} {page : ℕ → List α × Bool} (f : α → β) {k : ℕ} {xs : List α}
    (h : Reads page k xs) : Reads (fun k => ((page k).1.map f, (page k).2)) k (xs.map f) := by
  induction h with
  | last hlast => exact .last hlast
  | more hmore _ ih =>
    rw [List.map_append]
    exact .more hmore ih

/-- What was read of mapped rows was read of the rows. -/
theorem Reads.of_map {β : Type} {page : ℕ → List α × Bool} {f : α → β} {k : ℕ}
    {ys : List β} (h : Reads (fun k => ((page k).1.map f, (page k).2)) k ys) :
    ∃ xs, Reads page k xs ∧ ys = xs.map f := by
  induction h with
  | last hlast => exact ⟨_, .last hlast, rfl⟩
  | more hmore _ ih =>
    obtain ⟨xs, hxs, rfl⟩ := ih
    exact ⟨_, .more hmore hxs, List.map_append.symm⟩

/-- Pages that begin no earlier than the one before ends hold at most what is left. -/
theorem Reads.length_le (hstep : limit ≤ step) {n k : ℕ} {xs : List α}
    (hn : ∀ k, (answers k).length = n) (h : Reads (pages cap step limit n answers) k xs) :
    xs.length ≤ min n cap - k * step := by
  have hpage : ∀ k, ((pages cap step limit n answers k).1).length
      = min (min (k * step + limit) cap) n - k * step := fun k => by
    rw [pages, length_window, hn]
  have hnext : ∀ k, (k + 1) * step = k * step + step := fun k => Nat.succ_mul k step
  induction h with
  | @last k _ =>
    rw [hpage]
    omega
  | @more k xs _ _ ih =>
    have := hnext k
    rw [List.length_append, hpage]
    omega

/-- Two pages in a row of which the first is not the last are read after each other. -/
theorem Reads.two_pages {page : ℕ → List α × Bool} {i k : ℕ} {xs : List α} (h : Reads page i xs)
    (hik : i ≤ k) (hmore : ∀ j, j ≤ k → (page j).2 = true) :
    ((page k).1 ++ (page (k + 1)).1).Sublist xs := by
  induction h with
  | @last i hlast => rw [hmore i hik] at hlast; cases hlast
  | @more i xs _ hrest ih =>
    rcases hik.eq_or_lt with rfl | hlt
    · refine List.Sublist.append_left ?_ _
      rcases hrest.cases with ⟨_, rfl⟩ | ⟨ys, _, _, rfl⟩
      · exact List.Sublist.refl _
      · exact List.sublist_append_left _ _
    · exact (ih hlt).trans (List.sublist_append_right _ _)

/-- A row on two pages in a row is read twice. -/
theorem Reads.not_nodup {page : ℕ → List α × Bool} {k : ℕ} {xs : List α} {x : α}
    (h : Reads page 0 xs) (hmore : ∀ j, j ≤ k → (page j).2 = true) (hleft : x ∈ (page k).1)
    (hright : x ∈ (page (k + 1)).1) : ¬ xs.Nodup := by
  intro hnodup
  have htwo := hnodup.sublist (h.two_pages (Nat.zero_le k) hmore)
  exact (List.nodup_append.mp htwo).2.2 x hleft x hright rfl

theorem mem_window {offset i : ℕ} {x : α} (hx : a[i]? = some x) (hlow : offset ≤ i)
    (hhigh : i < offset + limit) (hcap : i < cap) : x ∈ window cap offset limit a := by
  refine List.mem_of_getElem? (i := i - offset) ?_
  rw [window, List.getElem?_drop, Nat.add_sub_cancel' hlow, List.getElem?_take_of_lt (by omega), hx]

/-- Unless one page holds everything, a reader that gets every row once, whatever the
answers, reads page after page, below the cap, and no border splits a group. -/
theorem of_reads_all (hlimit : 0 < limit) (hcap : limit ≤ cap)
    (hreads : ∀ answers : ℕ → List α, (∀ k, Arranges key rows (answers k)) →
      ∃ xs, Reads (pages cap step limit rows.length answers) 0 xs ∧ xs.Nodup ∧
        xs.length = rows.length) (hmany : limit < rows.length) :
    step = limit ∧ rows.length ≤ cap ∧ ∀ k, ¬ Splits key rows (k * limit) := by
  have ha := arranges_mergeSort key rows
  set a := rows.mergeSort fun x y => decide (key x ≤ key y)
  have hlen := ha.length_eq
  have hstep : limit ≤ step := by
    by_contra hlt
    rw [not_le] at hlt
    obtain ⟨xs, hxs, hnodup, -⟩ := hreads (fun _ => a) fun _ => ha
    have hx : a[step]? = some a[step] := List.getElem?_eq_getElem (by omega)
    have hmore : ∀ j ≤ 0, (pages cap step limit rows.length (fun _ => a) j).2 = true := by
      intro j hj
      obtain rfl := Nat.le_zero.mp hj
      exact decide_eq_true (by omega)
    refine hxs.not_nodup hmore (mem_window hx ?_ ?_ ?_) (mem_window hx ?_ ?_ ?_) hnodup
      <;> omega
  obtain ⟨xs, hxs, hnodup, hlength⟩ := hreads (fun _ => a) fun _ => ha
  have htotal := hxs.length_le hstep fun _ => hlen
  have heq : step = limit := by
    rcases hxs.cases with ⟨hlast, rfl⟩ | ⟨ys, -, hys, rfl⟩
    · have := of_decide_eq_false hlast
      omega
    · have hrest := hys.length_le hstep fun _ => hlen
      have hfirst : ((pages cap step limit rows.length (fun _ => a) 0).1).length ≤ limit := by
        rw [pages, length_window]
        omega
      rw [List.length_append] at hlength
      omega
  have hbelow : rows.length ≤ cap := by omega
  refine ⟨heq, hbelow, fun k hsplit => ?_⟩
  subst heq
  -- the answers to the two queries at the border swap the rows beside it
  obtain ⟨p, q, x, y, hp, hfirst, hsecond⟩ := hsplit.exists_swap
  obtain ⟨j, rfl⟩ : ∃ j, k = j + 1 := by
    cases k with
    | zero => omega
    | succ j => exact ⟨j, rfl⟩
  have hnext : (j + 1) * step = j * step + step := Nat.succ_mul j step
  have hlonger := hfirst.length_eq
  rw [List.length_append, List.length_cons, List.length_cons] at hlonger
  let swapped : ℕ → List α := fun k => if k ≤ j then p ++ x :: y :: q else p ++ y :: x :: q
  obtain ⟨xs, hxs, hnodup, -⟩ := hreads swapped fun k => by
    dsimp only [swapped]
    split_ifs
    · exact hfirst
    · exact hsecond
  have hmore : ∀ i ≤ j, (pages cap step step rows.length swapped i).2 = true := by
    intro i hi
    have := Nat.mul_le_mul_right step hi
    exact decide_eq_true (by omega)
  have hx : (swapped j)[p.length]? = some x := by
    dsimp only [swapped]
    rw [if_pos le_rfl, List.getElem?_append_right le_rfl, Nat.sub_self]
    rfl
  have hx' : (swapped (j + 1))[p.length + 1]? = some x := by
    dsimp only [swapped]
    rw [if_neg (by omega), List.getElem?_append_right (by omega), Nat.add_sub_cancel_left]
    rfl
  refine hxs.not_nodup hmore (mem_window hx ?_ ?_ ?_) (mem_window hx' ?_ ?_ ?_) hnodup
    <;> omega

end Reading

end Paging
