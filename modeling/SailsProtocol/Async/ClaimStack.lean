import Mathlib.Data.List.Basic
import Mathlib.Order.Basic
import Mathlib.Order.Nat

/-!
# Claims and reverts of one status word

Several operations move a shared status. An operation *claims* a step `src → dst` with
a compare-and-swap, so the step happens only when the status is `src`, and it may take
its own claim back once with a second compare-and-swap, which happens only when the
status is still `dst`. Neither compare-and-swap names its owner.

A history is the list of the changes that took effect, newest first. When the steps
strictly increase a rank, the claims that were not taken back form a stack
(`inForce`) : they are a path from the first status to the current one (`path_inForce`),
and a revert always removes the top of the stack, which is the reverting operation's
own claim (`head_inForce_of_revert`). An operation that reverts late therefore cannot
undo the claim of another operation, whatever happened in between.
-/

namespace Async.ClaimStack

variable {σ : Type} {Edge : σ → σ → Prop} {s₀ : σ}

/-- A change of the status that took effect. -/
inductive Change (σ : Type)
  | claim (op : ℕ) (src dst : σ)
  | revert (op : ℕ) (dst src : σ)
  deriving DecidableEq

/-- A claim in force : its operation, the status it left and the status it reached. -/
structure Held (σ : Type) where
  op : ℕ
  src : σ
  dst : σ
  deriving DecidableEq

/-- The status after a history that started in `s₀`. -/
def current (s₀ : σ) : List (Change σ) → σ
  | [] => s₀
  | .claim _ _ dst :: _ => dst
  | .revert _ _ src :: _ => src

/-- The claims not taken back, the latest first. -/
def inForce : List (Change σ) → List (Held σ)
  | [] => []
  | .claim op src dst :: h => ⟨op, src, dst⟩ :: inForce h
  | .revert _ _ _ :: h => (inForce h).tail

/-- The histories of claims and reverts : a claim follows an edge out of the current
status and is the first one of its operation, a revert undoes an earlier claim of its
operation out of the status that claim reached, and is the first one of its operation. -/
def Lawful (Edge : σ → σ → Prop) (s₀ : σ) : List (Change σ) → Prop
  | [] => True
  | .claim op src dst :: h => Lawful Edge s₀ h ∧ current s₀ h = src ∧ Edge src dst ∧
      ∀ s d, Change.claim op s d ∉ h
  | .revert op dst src :: h => Lawful Edge s₀ h ∧ current s₀ h = dst ∧
      Change.claim op src dst ∈ h ∧ ∀ d s, Change.revert op d s ∉ h

/-- The held claims lead from `s₀` to `s`, each from where the one below it ends. -/
def Path (Edge : σ → σ → Prop) (s₀ : σ) : List (Held σ) → σ → Prop
  | [], s => s = s₀
  | c :: l, s => c.dst = s ∧ Edge c.src c.dst ∧ Path Edge s₀ l c.src

/-- What came before is lawful too. -/
theorem Lawful.of_append : ∀ {h₁ h₂ : List (Change σ)},
    Lawful Edge s₀ (h₁ ++ h₂) → Lawful Edge s₀ h₂
  | [], _, hl => hl
  | .claim _ _ _ :: _, _, hl => Lawful.of_append hl.1
  | .revert _ _ _ :: _, _, hl => Lawful.of_append hl.1

/-- The operation of a revert claimed before. -/
theorem Lawful.claim_mem_of_revert : ∀ {h : List (Change σ)}, Lawful Edge s₀ h →
    ∀ {op : ℕ} {d s : σ}, Change.revert op d s ∈ h → Change.claim op s d ∈ h
  | .claim _ _ _ :: h, hl, op, d, s, hm => by
    have hm : Change.revert op d s ∈ h := by simpa using hm
    exact List.mem_cons_of_mem _ (hl.1.claim_mem_of_revert hm)
  | .revert op' d' s' :: h, hl, op, d, s, hm => by
    rcases List.mem_cons.mp hm with heq | hm
    · cases heq
      exact List.mem_cons_of_mem _ hl.2.2.1
    · exact List.mem_cons_of_mem _ (hl.1.claim_mem_of_revert hm)

/-- A claim follows an edge. -/
theorem Lawful.edge : ∀ {h : List (Change σ)}, Lawful Edge s₀ h →
    ∀ {op : ℕ} {s d : σ}, Change.claim op s d ∈ h → Edge s d
  | .claim _ _ _ :: h, hl, op, s, d, hm => by
    rcases List.mem_cons.mp hm with heq | hm
    · cases heq
      exact hl.2.2.1
    · exact hl.1.edge hm
  | .revert _ _ _ :: h, hl, op, s, d, hm => by
    have hm : Change.claim op s d ∈ h := by simpa using hm
    exact hl.1.edge hm

/-- An operation claims once. -/
theorem Lawful.claim_unique : ∀ {h : List (Change σ)}, Lawful Edge s₀ h →
    ∀ {op : ℕ} {s d s' d' : σ}, Change.claim op s d ∈ h → Change.claim op s' d' ∈ h →
      s = s' ∧ d = d'
  | .claim op₁ s₁ d₁ :: h, hl, op, s, d, s', d', hm, hm' => by
    rcases List.mem_cons.mp hm with heq | hm <;> rcases List.mem_cons.mp hm' with heq' | hm'
    · cases heq
      cases heq'
      exact ⟨rfl, rfl⟩
    · cases heq
      exact absurd hm' (hl.2.2.2 _ _)
    · cases heq'
      exact absurd hm (hl.2.2.2 _ _)
    · exact hl.1.claim_unique hm hm'
  | .revert _ _ _ :: h, hl, op, s, d, s', d', hm, hm' => by
    have hm : Change.claim op s d ∈ h := by simpa using hm
    have hm' : Change.claim op s' d' ∈ h := by simpa using hm'
    exact hl.1.claim_unique hm hm'

section Ranked

variable {rank : σ → ℕ} (hrank : ∀ s d, Edge s d → rank s < rank d)
include hrank

/-- A held claim ends at most as high as the path. -/
theorem Path.rank_le : ∀ {l : List (Held σ)} {s : σ}, Path Edge s₀ l s →
    ∀ {c : Held σ}, c ∈ l → rank c.src < rank c.dst ∧ rank c.dst ≤ rank s
  | a :: l, s, hp, c, hc => by
    obtain ⟨rfl, he, hp⟩ := hp
    rcases List.mem_cons.mp hc with rfl | hc
    · exact ⟨hrank _ _ he, le_rfl⟩
    · obtain ⟨h₁, h₂⟩ := hp.rank_le hc
      exact ⟨h₁, h₂.trans (hrank _ _ he).le⟩

/-- A held claim that ends where the path ends is on top. -/
theorem Path.head_of_dst {l : List (Held σ)} {s : σ} (hp : Path Edge s₀ l s) {c : Held σ}
    (hc : c ∈ l) (hd : c.dst = s) : ∃ l', l = c :: l' := by
  cases l with
  | nil => cases hc
  | cons a l =>
    rcases List.mem_cons.mp hc with rfl | hc
    · exact ⟨l, rfl⟩
    · obtain ⟨rfl, he, hp⟩ := hp
      have h₁ := (hp.rank_le hrank hc).2
      have h₂ := hrank _ _ he
      rw [hd] at h₁
      omega

/-- The claims in force are a path from the first status to the current one, and they
are the claims whose operation did not revert. -/
theorem path_and_mem : ∀ {h : List (Change σ)}, Lawful Edge s₀ h →
    Path Edge s₀ (inForce h) (current s₀ h) ∧
      ∀ c : Held σ, c ∈ inForce h ↔
        Change.claim c.op c.src c.dst ∈ h ∧ ∀ d s, Change.revert c.op d s ∉ h
  | [], _ => ⟨rfl, fun c => by simp [inForce]⟩
  | .claim op src dst :: h, hl => by
    obtain ⟨hp, hm⟩ := path_and_mem hl.1
    obtain ⟨hl, rfl, he, hnew⟩ := hl
    refine ⟨⟨rfl, he, hp⟩, fun c => ?_⟩
    have hnr : ∀ d s, Change.revert op d s ∉ h := fun d s hr =>
      hnew _ _ (hl.claim_mem_of_revert hr)
    simp only [inForce, List.mem_cons, hm c]
    constructor
    · rintro (rfl | ⟨hc, hr⟩)
      · exact ⟨Or.inl rfl, by simpa using hnr⟩
      · exact ⟨Or.inr hc, by simpa using hr⟩
    · rintro ⟨heq | hc, hr⟩
      · obtain ⟨_, _, _⟩ := c
        cases heq
        exact Or.inl rfl
      · exact Or.inr ⟨hc, by simpa using hr⟩
  | .revert op dst src :: h, hl => by
    obtain ⟨hp, hm⟩ := path_and_mem hl.1
    obtain ⟨hl, rfl, hclaim, hnew⟩ := hl
    have hheld : (⟨op, src, current s₀ h⟩ : Held σ) ∈ inForce h := (hm _).mpr ⟨hclaim, hnew⟩
    obtain ⟨l, hl'⟩ := hp.head_of_dst hrank hheld rfl
    rw [hl'] at hp
    refine ⟨by simpa only [inForce, hl', List.tail_cons, current] using hp.2.2, fun c => ?_⟩
    simp only [inForce, hl', List.tail_cons, List.mem_cons, reduceCtorEq, false_or,
      Change.revert.injEq, not_or, not_and]
    have hmc := hm c
    rw [hl', List.mem_cons] at hmc
    constructor
    · intro hc
      obtain ⟨h₁, h₂⟩ := hmc.mp (Or.inr hc)
      refine ⟨h₁, fun d s => ⟨fun hop => ?_, h₂ d s⟩⟩
      rw [hop] at h₁
      obtain ⟨-, hd⟩ := hl.claim_unique h₁ hclaim
      have h₃ := (hp.2.2.rank_le hrank hc).2
      have h₄ := hrank _ _ hp.2.1
      rw [hd] at h₃
      exact absurd h₃ (Nat.not_le.mpr h₄)
    · rintro ⟨h₁, h₂⟩
      rcases hmc.mpr ⟨h₁, fun d s => (h₂ d s).2⟩ with rfl | hc
      · exact absurd rfl fun hrfl => (h₂ (current s₀ h) src).1 hrfl rfl rfl
      · exact hc

theorem path_inForce {h : List (Change σ)} (hl : Lawful Edge s₀ h) :
    Path Edge s₀ (inForce h) (current s₀ h) :=
  (path_and_mem hrank hl).1

theorem mem_inForce {h : List (Change σ)} (hl : Lawful Edge s₀ h) {c : Held σ} :
    c ∈ inForce h ↔
      Change.claim c.op c.src c.dst ∈ h ∧ ∀ d s, Change.revert c.op d s ∉ h :=
  (path_and_mem hrank hl).2 c

/-- A revert takes back the top of the stack, which is its operation's own claim. -/
theorem head_inForce_of_revert {h : List (Change σ)} {op : ℕ} {d s : σ}
    (hl : Lawful Edge s₀ (.revert op d s :: h)) :
    ∃ l, inForce h = ⟨op, s, d⟩ :: l := by
  obtain ⟨hl, rfl, hclaim, hnew⟩ := hl
  exact (path_inForce hrank hl).head_of_dst hrank
    ((mem_inForce hrank hl).mpr ⟨hclaim, hnew⟩) rfl

/-- Two claims out of one status : the operation of the earlier one took it back in
between. -/
theorem revert_mem_of_claim {h : List (Change σ)} {op op' : ℕ} {s d d' : σ}
    (hl : Lawful Edge s₀ (.claim op s d :: h)) (hm : Change.claim op' s d' ∈ h) :
    Change.revert op' d' s ∈ h := by
  obtain ⟨hl, hcur, -, -⟩ := hl
  by_contra hr
  have hnr : ∀ d s, Change.revert op' d s ∉ h := fun d₁ s₁ hr' => by
    obtain ⟨rfl, rfl⟩ := hl.claim_unique (hl.claim_mem_of_revert hr') hm
    exact hr hr'
  have hin : (⟨op', s, d'⟩ : Held σ) ∈ inForce h := (mem_inForce hrank hl).mpr ⟨hm, hnr⟩
  obtain ⟨h₁, h₂⟩ := (path_inForce hrank hl).rank_le hrank hin
  rw [hcur] at h₂
  exact absurd h₁ (Nat.not_lt.mpr h₂)

/-- No other operation claims the status of a claim in force : that claim is the most
recent one into its status. -/
theorem claim_latest : ∀ {h : List (Change σ)}, Lawful Edge s₀ h →
    ∀ {c : Held σ}, c ∈ inForce h →
      ∃ h₁ h₂, h = h₁ ++ Change.claim c.op c.src c.dst :: h₂ ∧
        ∀ op s, Change.claim op s c.dst ∉ h₁
  | .claim op src dst :: h, hl, c, hc => by
    rcases List.mem_cons.mp hc with rfl | hin
    · exact ⟨[], h, rfl, fun _ _ => List.not_mem_nil⟩
    · obtain ⟨h₁, h₂, heq, hno⟩ := claim_latest hl.1 hin
      refine ⟨.claim op src dst :: h₁, h₂, by rw [heq, List.cons_append], fun op' s' hm => ?_⟩
      rcases List.mem_cons.mp hm with heq' | hm
      · cases heq'
        have hr := ((path_inForce hrank hl.1).rank_le hrank hin).2
        have he := hrank _ _ hl.2.2.1
        rw [hl.2.1] at hr
        exact absurd he (Nat.not_lt.mpr hr)
      · exact hno op' s' hm
  | .revert op d s :: h, hl, c, hc => by
    obtain ⟨h₁, h₂, heq, hno⟩ := claim_latest hl.1 (List.mem_of_mem_tail hc)
    refine ⟨.revert op d s :: h₁, h₂, by rw [heq, List.cons_append], fun op' s' hm => ?_⟩
    exact hno op' s' (by simpa using hm)

/-- A claim in force into a status without edges is the top of the stack. -/
theorem head_of_final {h : List (Change σ)} (hl : Lawful Edge s₀ h) {c : Held σ}
    (hc : c ∈ inForce h) (hfin : ∀ d, ¬ Edge c.dst d) :
    c.dst = current s₀ h ∧ ∃ l, inForce h = c :: l := by
  have hp := path_inForce hrank hl
  suffices hd : c.dst = current s₀ h from ⟨hd, hp.head_of_dst hrank hc hd⟩
  have hfinal : ∀ {l : List (Held σ)} {s : σ}, Path Edge s₀ l s → c ∈ l → c.dst = s := by
    intro l
    induction l with
    | nil => exact fun _ hm => absurd hm List.not_mem_nil
    | cons a l ih =>
      intro s hp hm
      rcases List.mem_cons.mp hm with rfl | hm
      · exact hp.1
      · have ha := ih hp.2.2 hm
        exact absurd (ha ▸ hp.2.1) (hfin _)
  exact hfinal hp hc

end Ranked

end Async.ClaimStack
