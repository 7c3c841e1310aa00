import Mathlib.Data.List.Basic
import Mathlib.Data.List.Induction

/-!
# Hash chains

The entries of a chain hold a body, the hash of the entry before and their own hash, which is
the digest of the two. `Linked` is what a verifier checks along a list, and appending an entry
that points at the tip keeps it (`linked_concat`). When the digest binds what it is taken of
(`Binding`), the tip of a linked list determines the whole list (`Linked.eq_of_tip`).
-/

namespace HashChain

/-- How entries carry their hashes. -/
structure Format (E B H : Type) where
  body : E → B
  prev : E → H
  hash : E → H
  digest : B → H → H
  /-- What the first entry points at. -/
  genesis : H

variable {E B H : Type} (F : Format E B H)

/-- The first entry points at `h`, each later one at the entry before it, and every entry has
the digest of what it holds. -/
def Linked : H → List E → Prop
  | _, [] => True
  | h, e :: es =>
    F.prev e = h ∧ F.hash e = F.digest (F.body e) (F.prev e) ∧ Linked (F.hash e) es

/-- What the next entry points at. -/
def tip (h : H) (es : List E) : H := es.foldl (fun _ e => F.hash e) h

/-- What identifies an entry. -/
def content (e : E) : B × H × H := (F.body e, F.prev e, F.hash e)

/-- A hash that an entry can point at. -/
def Link (h : H) : Prop := h = F.genesis ∨ ∃ e h', h = F.digest (F.body e) h'

/-- The digest is that of one body and one link only, and never the genesis hash. -/
structure Binding : Prop where
  inj : ∀ {e e' : E} {h h' : H}, Link F h → Link F h' →
    F.digest (F.body e) h = F.digest (F.body e') h' → F.body e = F.body e' ∧ h = h'
  fresh : ∀ (e : E) (h : H), F.digest (F.body e) h ≠ F.genesis

variable {F} {h : H} {es es' : List E} {e : E}

@[simp] theorem tip_nil (h : H) : tip F h [] = h :=
  rfl

@[simp] theorem tip_concat (h : H) (es : List E) (e : E) : tip F h (es ++ [e]) = F.hash e := by
  rw [tip, List.foldl_append]
  rfl

theorem tip_of_getLast? {l : E} (hl : es.getLast? = some l) : tip F h es = F.hash l := by
  obtain ⟨es', rfl⟩ := List.getLast?_eq_some_iff.mp hl
  exact tip_concat h es' l

/-- An entry that points at the tip prolongs the chain. -/
theorem linked_concat : Linked F h (es ++ [e]) ↔ Linked F h es ∧ F.prev e = tip F h es ∧
    F.hash e = F.digest (F.body e) (F.prev e) := by
  induction es generalizing h with
  | nil => simp [Linked]
  | cons a es ih =>
    rw [List.cons_append, Linked, Linked, ih]
    simp only [and_assoc]
    rfl

theorem Linked.link_tip (hes : Linked F F.genesis es) : Link F (tip F F.genesis es) := by
  induction es using List.reverseRecOn with
  | nil => exact Or.inl rfl
  | append_singleton es e _ =>
    obtain ⟨-, -, hhash⟩ := linked_concat.mp hes
    rw [tip_concat, hhash]
    exact Or.inr ⟨e, F.prev e, rfl⟩

/-- The tip of a chain with an entry is no genesis hash. -/
theorem Linked.tip_ne_genesis (hF : Binding F) (hes : Linked F F.genesis (es ++ [e])) :
    tip F F.genesis (es ++ [e]) ≠ F.genesis := by
  obtain ⟨-, -, hhash⟩ := linked_concat.mp hes
  rw [tip_concat, hhash]
  exact hF.fresh e _

/-- Two chains with one tip are the same chain. -/
theorem Linked.eq_of_tip (hF : Binding F) (hes : Linked F F.genesis es)
    (hes' : Linked F F.genesis es') (htip : tip F F.genesis es = tip F F.genesis es') :
    es.map (content F) = es'.map (content F) := by
  -- Backwards : the last entries have one hash, so they agree and point at one tip.
  induction es using List.reverseRecOn generalizing es' with
  | nil =>
    cases es' using List.reverseRecOn with
    | nil => rfl
    | append_singleton es' e' => exact absurd htip.symm (hes'.tip_ne_genesis hF)
  | append_singleton es e ih =>
    cases es' using List.reverseRecOn with
    | nil => exact absurd htip (hes.tip_ne_genesis hF)
    | append_singleton es' e' =>
      obtain ⟨hpre, hprev, hhash⟩ := linked_concat.mp hes
      obtain ⟨hpre', hprev', hhash'⟩ := linked_concat.mp hes'
      rw [tip_concat, tip_concat] at htip
      have hdigest : F.digest (F.body e) (F.prev e) = F.digest (F.body e') (F.prev e') := by
        rw [← hhash, ← hhash', htip]
      have hlink : Link F (F.prev e) := hprev ▸ hpre.link_tip
      have hlink' : Link F (F.prev e') := hprev' ▸ hpre'.link_tip
      obtain ⟨hbody, hprevs⟩ := hF.inj hlink hlink' hdigest
      have htips : tip F F.genesis es = tip F F.genesis es' := by
        rw [← hprev, ← hprev', hprevs]
      rw [List.map_append, List.map_append, ih hpre hpre' htips]
      simp [content, hbody, hprevs, htip]

end HashChain
