import Mathlib.Data.List.Basic

/-!
# Sorting by an order of the members

A comparison need only order the members of the list that is sorted. The sorted list is
then in order (`pairwise_mergeSort_of_mem`), and it is the same for every order the
members were given in (`mergeSort_eq_of_perm`).
-/

namespace Sorting

variable {α : Type} {le : α → α → Bool}

/-- `le` is a total order of the members of a list. -/
structure OrdersMembers (le : α → α → Bool) (l : List α) : Prop where
  trans : ∀ a ∈ l, ∀ b ∈ l, ∀ c ∈ l, le a b = true → le b c = true → le a c = true
  total : ∀ a ∈ l, ∀ b ∈ l, le a b = true ∨ le b a = true
  antisymm : ∀ a ∈ l, ∀ b ∈ l, le a b = true → le b a = true → a = b

/-- A sort by an order on the members is sorted. -/
theorem pairwise_mergeSort_of_mem {l : List α} (h : OrdersMembers le l) :
    (l.mergeSort le).Pairwise fun a b => le a b = true := by
  let sub : {a // a ∈ l} → {a // a ∈ l} → Bool := fun a b => le a.1 b.1
  have hmap : (l.attach.mergeSort sub).map Subtype.val = l.mergeSort le := by
    rw [List.map_mergeSort (s := le) fun _ _ _ _ => rfl, List.attach_map_subtype_val]
  have hsorted := @List.pairwise_mergeSort _ sub
    (fun a b c => h.trans a.1 a.2 b.1 b.2 c.1 c.2)
    (fun a b => by simpa [sub] using h.total a.1 a.2 b.1 b.2) l.attach
  rw [← hmap, List.pairwise_map]
  exact hsorted

/-- Sorts of the same members are equal. -/
theorem mergeSort_eq_of_perm {l l' : List α} (h : OrdersMembers le l) (hperm : l.Perm l') :
    l.mergeSort le = l'.mergeSort le := by
  have h' : OrdersMembers le l' := by
    refine ⟨fun a ha b hb c hc => ?_, fun a ha b hb => ?_, fun a ha b hb => ?_⟩
    · exact h.trans a (hperm.mem_iff.2 ha) b (hperm.mem_iff.2 hb) c (hperm.mem_iff.2 hc)
    · exact h.total a (hperm.mem_iff.2 ha) b (hperm.mem_iff.2 hb)
    · exact h.antisymm a (hperm.mem_iff.2 ha) b (hperm.mem_iff.2 hb)
  have hsorted : (l.mergeSort le).Perm (l'.mergeSort le) :=
    (List.mergeSort_perm l le).trans (hperm.trans (List.mergeSort_perm l' le).symm)
  refine hsorted.eq_of_pairwise (fun a b ha hb hab hba => ?_) (pairwise_mergeSort_of_mem h)
    (pairwise_mergeSort_of_mem h')
  exact h.antisymm a (List.mem_mergeSort.1 ha) b (hperm.mem_iff.2 (List.mem_mergeSort.1 hb)) hab hba

end Sorting
