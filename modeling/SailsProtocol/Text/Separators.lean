import Mathlib.Data.List.Basic

/-!
# Joined strings

Strings that do not hold a separator can be read back from their join (`intercalate_inj`),
and two strings from a text that holds the separator between them (`append_inj_of_not_mem`).
-/

namespace Text

/-- Texts that determine their members determine the list. -/
theorem map_inj_of_mem {α β : Type} {f : α → β} : ∀ {l l' : List α},
    (∀ a ∈ l, ∀ b ∈ l', f a = f b → a = b) → l.map f = l'.map f → l = l'
  | [], [], _, _ => rfl
  | a :: l, b :: l', hinj, h => by
    obtain ⟨hhead, htail⟩ := List.cons.inj h
    have hrest : l = l' := map_inj_of_mem (fun x hx y hy => hinj x (List.mem_cons_of_mem a hx) y
      (List.mem_cons_of_mem b hy)) htail
    rw [hinj a List.mem_cons_self b List.mem_cons_self hhead, hrest]

/-- Strings without the separator can be read back from their join. -/
theorem intercalate_inj {c : Char} {l m : List String} (hl : ∀ s ∈ l, c ∉ s.toList)
    (hm : ∀ s ∈ m, c ∉ s.toList) (hlne : l ≠ []) (hmne : m ≠ [])
    (h : (String.singleton c).intercalate l = (String.singleton c).intercalate m) : l = m := by
  have hchars : [c].intercalate (l.map String.toList) = [c].intercalate (m.map String.toList) := by
    have := congrArg String.toList h
    rwa [String.toList_intercalate, String.toList_intercalate, String.toList_singleton] at this
  have hsplit := congrArg (List.splitOn c) hchars
  rw [List.splitOn_intercalate c (by simpa using hl) (by simpa using hlne),
    List.splitOn_intercalate c (by simpa using hm) (by simpa using hmne)] at hsplit
  exact List.map_injective_iff.mpr (fun _ _ => String.toList_inj.mp) hsplit

/-- A join holds only what its strings or the separator hold. -/
theorem not_mem_intercalate {c d : Char} {l : List String} (hl : ∀ s ∈ l, d ∉ s.toList)
    (hcd : d ≠ c) : d ∉ ((String.singleton c).intercalate l).toList := by
  rw [String.toList_intercalate, String.toList_singleton]
  induction l with
  | nil => simp
  | cons s rest ih =>
    have htail := ih fun t ht => hl t (List.mem_cons_of_mem _ ht)
    have hhead := hl s List.mem_cons_self
    cases rest with
    | nil => simpa using hhead
    | cons t rest =>
      rw [List.map_cons, List.map_cons, List.intercalate_cons_cons]
      simp only [List.mem_append, List.mem_singleton, not_or]
      rw [← List.map_cons]
      exact ⟨⟨hhead, hcd⟩, htail⟩

/-- Two strings around the only separator. -/
theorem append_inj_of_not_mem {c : Char} {s s' t t' : String} (hs : c ∉ s.toList)
    (ht : c ∉ t.toList)
    (h : s ++ String.singleton c ++ t = s' ++ String.singleton c ++ t') : s = s' ∧ t = t' := by
  have hchars := congrArg String.toList h
  simp only [String.toList_append, String.toList_singleton, List.append_assoc,
    List.singleton_append] at hchars
  obtain ⟨hl, -, hr⟩ := (List.append_cons_inj_of_notMem hs ht).mp hchars
  exact ⟨String.toList_inj.mp hl, String.toList_inj.mp hr⟩

end Text
