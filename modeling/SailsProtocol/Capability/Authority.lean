import SailsProtocol.Async.History
import SailsProtocol.Capability.Grants

/-!
# What grants authorize

`Lawful` is the history every run keeps : a new grant differs from each live one, and an
authorization cites a grant that was given, not revoked and not past its expiry, and is the only
one of its operation. The tables agree with the history (`Sound`), and every call keeps it so
(`Sound.effect`), with no condition on who calls.
-/

namespace Sails.Capability

open Async Text
open Async.History (Lawful)

variable {p : Platform}

/-! ## The history -/

section History

variable (p)

/-- The grant was not revoked. -/
def Unrevoked (grantId : JsString) (h : List Commit) : Prop :=
  ∀ now, .revoked grantId now ∉ h

/-- A grant gives all that another one does, to the same holder and under the same constraints. -/
structure Covers (g g' : GrantInput) : Prop where
  grantedTo : g.grantedTo = g'.grantedTo
  capabilityName : g.capabilityName = g'.capabilityName
  issuedBy : g.issuedBy = g'.issuedBy
  scope : ∀ s ∈ g'.scope, s ∈ g.scope
  constraints : sameConstraints g.constraints g'.constraints = true

/-- The authorization of an operation. -/
structure Authorization.For (a : Authorization) (pending : PendingExecutionFacts)
    (scope operationDigest : JsString) : Prop where
  pendingOperationId : a.pendingOperationId = pending.id
  escrowId : a.escrowId = pending.escrowId
  grantedTo : a.grantedTo = pending.triggeredBy
  capabilityName : a.capabilityName = settlement
  requiredScope : a.requiredScope = scope
  operationDigest : a.operationDigest = operationDigest

/-- The grant is one an authorization may cite at the time. -/
structure Cites (a : Authorization) (g : Grant) (now : ℤ) : Prop where
  grantId : a.grantId = g.id
  grantedTo : a.grantedTo = g.grantedTo
  capabilityName : a.capabilityName = g.capabilityName
  constraints : a.constraints = g.constraints
  scope : a.requiredScope ∈ g.scope
  settlement : g.capabilityName = settlement
  unexpired : isPastExpiry p g.constraints now = false

/-- When a commit is made. -/
def Admits : Commit → List Commit → Prop
  | .granted g now, h => ∀ g' now', .granted g' now' ∈ h → g'.id ≠ g.id ∧
      (Unrevoked g'.id h → Covers g'.toGrantInput g.toGrantInput →
        isPastExpiry p g'.constraints now = true)
  | .revoked _ _, _ => True
  | .authorized a now, h =>
      (∀ a' now', .authorized a' now' ∈ h → a'.pendingOperationId ≠ a.pendingOperationId) ∧
      ∃ g now', .granted g now' ∈ h ∧ Unrevoked g.id h ∧ Cites p a g now

/-- The tables are those of the history. -/
structure Sound (s : Store) : Prop where
  lawful : Lawful (Admits p) s.commits
  given : ∀ {row}, row ∈ s.grants → ∃ now, .granted row.toGrant now ∈ s.commits
  kept : ∀ {g now}, .granted g now ∈ s.commits → ∃ row ∈ s.grants, row.toGrant = g
  revoked : ∀ {row}, row ∈ s.grants → (row.revokedAt = none ↔ Unrevoked row.id s.commits)
  known : ∀ {id now}, .revoked id now ∈ s.commits → ∃ row ∈ s.grants, row.id = id
  authorized : ∀ {a}, a ∈ s.authorizations ↔ ∃ now, .authorized a now ∈ s.commits

variable {p}

theorem mem_cons_iff {e e' : Commit} {h : List Commit} (hne : e ≠ e') :
    e ∈ e' :: h ↔ e ∈ h := by
  rw [List.mem_cons, or_iff_right hne]

theorem unrevoked_cons_iff {id : JsString} {e : Commit} {h : List Commit}
    (he : ∀ now, .revoked id now ≠ e) : Unrevoked id (e :: h) ↔ Unrevoked id h :=
  forall_congr' fun now => not_congr (mem_cons_iff (he now))

theorem Unrevoked.past {id : JsString} {e : Commit} {h₁ h₂ : List Commit}
    (hu : Unrevoked id (h₁ ++ e :: h₂)) : Unrevoked id h₂ := fun now hmem =>
  hu now (List.mem_append_right h₁ (List.mem_cons_of_mem e hmem))

/-- Two grants of a lawful history have two ids. -/
theorem granted_unique {h : List Commit} (hl : Lawful (Admits p) h) {g g' : Grant}
    {now now' : ℤ} (hg : .granted g now ∈ h) (hg' : .granted g' now' ∈ h) (hid : g.id = g'.id) :
    g = g' := by
  by_cases heq : Commit.granted g now = .granted g' now'
  · exact (Commit.granted.inj heq).1
  · rcases hl.ordered hg hg' heq with ⟨_, _, -, hA, hmem⟩ | ⟨_, _, -, hA, hmem⟩
    · exact absurd hid.symm (hA g' now' hmem).1
    · exact absurd hid (hA g now hmem).1

/-- An operation is authorized once. -/
theorem authorized_unique {h : List Commit} (hl : Lawful (Admits p) h) {a a' : Authorization}
    {now now' : ℤ} (ha : .authorized a now ∈ h) (ha' : .authorized a' now' ∈ h)
    (hid : a.pendingOperationId = a'.pendingOperationId) : a = a' := by
  by_cases heq : Commit.authorized a now = .authorized a' now'
  · exact (Commit.authorized.inj heq).1
  · rcases hl.ordered ha ha' heq with ⟨_, _, -, hA, hmem⟩ | ⟨_, _, -, hA, hmem⟩
    · exact absurd hid.symm (hA.1 a' now' hmem)
    · exact absurd hid (hA.1 a now hmem)

/-- A later date is past an expiry that an earlier one is past. -/
theorem isPastExpiry_mono {constraints : Option ParsedJson} {now now' : ℤ} (hle : now ≤ now')
    (h : isPastExpiry p constraints now = true) : isPastExpiry p constraints now' = true := by
  have hreached : ∀ value, p.reached value now = true → p.reached value now' = true := by
    intro value
    unfold Platform.reached
    cases p.newDate value with
    | none => exact fun h => h
    | some t => exact fun h => decide_eq_true (le_trans (of_decide_eq_true h) hle)
  unfold isPastExpiry at h ⊢
  revert h
  cases expiresAt constraints with
  | none => exact fun h => h
  | some v =>
    cases v with
    | str s => exact hreached (.str s)
    | _ => exact fun h => h

/-- Of two grants that cover each other one had expired when the other was given. -/
theorem not_both_live {h : List Commit} (hl : Lawful (Admits p) h) {g g' : Grant}
    {now now' t : ℤ} (hg : .granted g now ∈ h) (hg' : .granted g' now' ∈ h) (hid : g.id ≠ g'.id)
    (hu : Unrevoked g.id h) (hu' : Unrevoked g'.id h)
    (hc : Covers g.toGrantInput g'.toGrantInput) (hc' : Covers g'.toGrantInput g.toGrantInput)
    (ht : now ≤ t) (ht' : now' ≤ t) :
    isPastExpiry p g.constraints t = true ∨ isPastExpiry p g'.constraints t = true := by
  have hne : Commit.granted g now ≠ .granted g' now' := fun heq =>
    hid (congrArg Grant.id (Commit.granted.inj heq).1)
  rcases hl.ordered hg hg' hne with ⟨h₁, h₂, rfl, hA, hmem⟩ | ⟨h₁, h₂, rfl, hA, hmem⟩
  · exact Or.inr (isPastExpiry_mono ht ((hA g' now' hmem).2 hu'.past hc'))
  · exact Or.inl (isPastExpiry_mono ht' ((hA g now hmem).2 hu.past hc))

end History

/-! ## What a call does -/

section Effects

variable {s : Store}

theorem mem_active {grantedTo capabilityName : JsString} {g : GrantRow} :
    g ∈ s.active grantedTo capabilityName ↔ g ∈ s.grants ∧ g.grantedTo = grantedTo ∧
      g.capabilityName = capabilityName ∧ g.revokedAt = none := by
  rw [Store.active, List.mem_mergeSort, List.mem_filter, decide_eq_true_iff]

theorem equivalent_iff {g : GrantRow} {input : GrantInput} {now : ℤ} :
    g.equivalent p input now = true ↔ g.issuedBy = input.issuedBy ∧
      isPastExpiry p g.constraints now = false ∧ (∀ s ∈ input.scope, s ∈ g.scope) ∧
      sameConstraints g.constraints input.constraints = true := by
  simp only [GrantRow.equivalent, Bool.and_eq_true, decide_eq_true_eq, Bool.not_eq_true',
    List.all_eq_true, List.contains_iff_mem, and_assoc]

variable (p) (s)

/-- What a call does to the store. -/
inductive Effect : Call → Store → Prop
  | nothing (q : Call) : Effect q s
  | granted (g : Grant) (now : ℤ) (hid : ∀ row ∈ s.grants, row.id ≠ g.id)
    (hnew : ∀ row ∈ s.active g.grantedTo g.capabilityName,
      row.equivalent p g.toGrantInput now = false) :
    Effect (.create g.toGrantInput)
      { s with grants := ⟨g, none⟩ :: s.grants, commits := .granted g now :: s.commits }
  | revoked (grant : Grant) (now : ℤ) (hrow : ∃ row ∈ s.grants, row.id = grant.id) :
    Effect (.markRevoked grant) { s with
      grants := s.grants.map fun g =>
        if g.id = grant.id then { g with revokedAt := some now } else g
      commits := .revoked grant.id now :: s.commits }
  | authorized (pending : PendingExecutionFacts) (scope operationDigest : JsString)
    (a : Authorization) (now : ℤ) (hfor : a.For pending scope operationDigest)
    (row : GrantRow) (hrow : row ∈ s.grants) (hlive : row.revokedAt = none)
    (hcites : Cites p a row.toGrant now)
    (hnew : ∀ a' ∈ s.authorizations, a'.pendingOperationId ≠ a.pendingOperationId) :
    Effect (.authorize pending scope operationDigest) { s with
      authorizations := a :: s.authorizations
      commits := .authorized a now :: s.commits }

variable {p} {s}

/-- The gate reuses the authorization of the operation or commits a new one. -/
theorem authorize_cases (env : Env) (pending : PendingExecutionFacts)
    (scope operationDigest : JsString) :
    (∃ e, s.authorize p env pending scope operationDigest = (.error e, s)) ∨
      ∃ a s', s.authorize p env pending scope operationDigest = (.ok a, s') ∧
        Effect p s (.authorize pending scope operationDigest) s' ∧ a ∈ s'.authorizations ∧
        a.For pending scope operationDigest := by
  unfold Store.authorize
  cases hfind : s.authorizations.find? fun a => a.pendingOperationId = pending.id with
  | some existing =>
    dsimp only
    have hid : existing.pendingOperationId = pending.id := by
      simpa using List.find?_some hfind
    split_ifs with hdiffers
    · exact Or.inl ⟨_, rfl⟩
    · simp only [not_or, not_not] at hdiffers
      obtain ⟨hescrow, hto, hname, hscope, hdigest⟩ := hdiffers
      exact Or.inr ⟨existing, s, rfl, .nothing _, List.mem_of_find?_eq_some hfind,
        ⟨hid, hescrow, hto, hname, hscope, hdigest⟩⟩
  | none =>
    dsimp only
    cases hgrant : (s.active pending.triggeredBy settlement).find? fun g =>
        g.scope.contains scope && !isPastExpiry p g.constraints env.now with
    | none => exact Or.inl ⟨_, rfl⟩
    | some g =>
      obtain ⟨hmem, hto, hname, hlive⟩ := mem_active.mp (List.mem_of_find?_eq_some hgrant)
      have hcovers := List.find?_some hgrant
      simp only [Bool.and_eq_true, List.contains_iff_mem, Bool.not_eq_true'] at hcovers
      refine Or.inr ⟨_, _, rfl, .authorized pending scope operationDigest _ env.now
        ⟨rfl, rfl, hto, hname, rfl, rfl⟩ g hmem hlive
        ⟨rfl, rfl, rfl, rfl, hcovers.1, hname, hcovers.2⟩ fun a' ha' => ?_, List.mem_cons_self,
        ⟨rfl, rfl, hto, hname, rfl, rfl⟩⟩
      simpa using List.find?_eq_none.mp hfind a' ha'

/-- A grant that is given is a live one that says as much, or a new one. -/
theorem create_cases (env : Env) (input : GrantInput) :
    (∃ e, s.create p env input = (.error e, s)) ∨
      ∃ g s', s.create p env input = (.ok g, s') ∧ Effect p s (.create input) s' ∧
        (∃ row ∈ s'.grants, row.toGrant = g ∧ row.revokedAt = none) ∧
        (g.toGrantInput = input ∨ Covers g.toGrantInput input) := by
  unfold Store.create
  cases hfind : (s.active input.grantedTo input.capabilityName).find? fun g =>
      g.equivalent p input env.now with
  | some g =>
    obtain ⟨hmem, hto, hname, hlive⟩ := mem_active.mp (List.mem_of_find?_eq_some hfind)
    have hsame : g.equivalent p input env.now = true := by simpa using List.find?_some hfind
    obtain ⟨hissued, -, hscope, hconstraints⟩ := equivalent_iff.mp hsame
    exact Or.inr ⟨g.toGrant, s, rfl, .nothing _, ⟨g, hmem, rfl, hlive⟩,
      Or.inr ⟨hto, hname, hissued, hscope, hconstraints⟩⟩
  | none =>
    dsimp only
    split_ifs with htaken
    · exact Or.inl ⟨_, rfl⟩
    · refine Or.inr ⟨_, _, rfl, .granted ⟨input, env.id, env.createdAt⟩ env.now
        (fun row hrow heq => htaken ?_) fun row hrow => ?_, ⟨_, List.mem_cons_self, rfl, rfl⟩,
        Or.inl rfl⟩
      · exact List.any_eq_true.mpr ⟨row, hrow, by simpa using heq⟩
      · simpa using List.find?_eq_none.mp hfind row hrow

/-- A call that does not fail has one of the effects. -/
theorem run_effect (q : Call) (env : Env) (s : Store) : Effect p s q (q.run p env s).2 := by
  cases q with
  | create input =>
    rcases create_cases (p := p) (s := s) env input with ⟨e, heq⟩ | ⟨g, s', heq, heffect, -⟩
    · rw [Call.run, heq]
      exact .nothing _
    · rw [Call.run, heq]
      exact heffect
  | findById grantId => exact .nothing _
  | markRevoked grant =>
    rw [Call.run, Store.markRevoked]
    split_ifs with hany
    · obtain ⟨row, hrow, hid⟩ := List.any_eq_true.mp hany
      exact .revoked grant env.now ⟨row, hrow, of_decide_eq_true hid⟩
    · exact .nothing _
  | findActiveGrants grantedTo capabilityName => exact .nothing _
  | listActiveGrants grantedTo => exact .nothing _
  | now => exact .nothing _
  | authorize pending scope operationDigest =>
    rcases authorize_cases (p := p) (s := s) env pending scope operationDigest with
      ⟨e, heq⟩ | ⟨a, s', heq, heffect, -⟩
    · rw [Call.run, heq]
      exact .nothing _
    · rw [Call.run, heq]
      exact heffect

/-- A call has one of the effects, or none when it fails. -/
theorem exec_effect (q : Call) (env : Env) (s : Store) : Effect p s q (q.exec p env s).2 := by
  unfold Call.exec
  split_ifs
  · rcases env.fate.settle_store CapabilityError.fault (q.run p env s) s with heq | heq
    · rw [heq]
      exact .nothing _
    · rw [heq]
      exact run_effect q env s
  · exact run_effect q env s

/-- An answer is the call's own. -/
theorem exec_ok {q : Call} {env : Env} {a : Answer q} (h : (q.exec p env s).1 = .ok a) :
    q.exec p env s = q.run p env s := by
  unfold Call.exec at h ⊢
  split_ifs at h ⊢
  · rcases env.fate.settle_answer CapabilityError.fault (q.run p env s) s with heq | heq
    · exact heq
    · cases heq.symm.trans h
  · rfl

/-- Every call keeps the tables those of a lawful history. -/
theorem Sound.effect {q : Call} {s' : Store} (h : Sound p s) (heffect : Effect p s q s') :
    Sound p s' := by
  cases heffect with
  | nothing => exact h
  | granted g now hid hnew =>
    refine ⟨⟨h.lawful, fun g' now' hg' => ?_⟩, fun {row} hrow => ?_, fun {g' now'} hg' => ?_,
      fun {row} hrow => ?_, fun {id now'} hmem => ?_, fun {a} => ?_⟩
    · obtain ⟨row, hrow, rfl⟩ := h.kept hg'
      refine ⟨hid row hrow, fun hu hc => ?_⟩
      have hlive := (h.revoked hrow).mpr hu
      have hdiffers := hnew row (mem_active.mpr ⟨hrow, hc.grantedTo, hc.capabilityName, hlive⟩)
      by_contra hunexpired
      rw [equivalent_iff.mpr ⟨hc.issuedBy, eq_false_of_ne_true hunexpired, hc.scope,
        hc.constraints⟩] at hdiffers
      cases hdiffers
    · rcases List.mem_cons.mp hrow with rfl | hrow
      · exact ⟨now, List.mem_cons_self⟩
      · obtain ⟨now', hgiven⟩ := h.given hrow
        exact ⟨now', List.mem_cons_of_mem _ hgiven⟩
    · rcases List.mem_cons.mp hg' with heq | hg'
      · obtain ⟨rfl, -⟩ := Commit.granted.inj heq
        exact ⟨_, List.mem_cons_self, rfl⟩
      · obtain ⟨row, hrow, heq⟩ := h.kept hg'
        exact ⟨row, List.mem_cons_of_mem _ hrow, heq⟩
    · rw [unrevoked_cons_iff fun now' heq => by cases heq]
      rcases List.mem_cons.mp hrow with rfl | hrow
      · refine iff_of_true rfl fun now' hmem => ?_
        obtain ⟨row, hrow, heq⟩ := h.known hmem
        exact hid row hrow heq
      · exact h.revoked hrow
    · obtain ⟨row, hrow, heq⟩ := h.known ((mem_cons_iff fun heq => by cases heq).mp hmem)
      exact ⟨row, List.mem_cons_of_mem _ hrow, heq⟩
    · exact h.authorized.trans (exists_congr fun now' => (mem_cons_iff fun heq => by
        cases heq).symm)
  | revoked grant now hrow =>
    have hgrant : ∀ row : GrantRow, (if row.id = grant.id then { row with revokedAt := some now }
        else row).toGrant = row.toGrant := by
      intro row
      split_ifs <;> rfl
    refine ⟨⟨h.lawful, trivial⟩, fun {row} hmem => ?_, fun {g now'} hg => ?_, fun {row} hmem => ?_,
      fun {id now'} hmem => ?_, fun {a} => ?_⟩
    · obtain ⟨row', hrow', rfl⟩ := List.mem_map.mp hmem
      obtain ⟨now', hgiven⟩ := h.given hrow'
      exact ⟨now', List.mem_cons_of_mem _ (by rw [hgrant row']; exact hgiven)⟩
    · obtain ⟨row', hrow', rfl⟩ := h.kept ((mem_cons_iff fun heq => by cases heq).mp hg)
      exact ⟨_, List.mem_map_of_mem hrow', hgrant row'⟩
    · obtain ⟨row', hrow', rfl⟩ := List.mem_map.mp hmem
      split_ifs with hid
      · refine iff_of_false (fun heq => by cases heq) fun hu => hu now ?_
        rw [hid]
        exact List.mem_cons_self
      · exact (h.revoked hrow').trans
          (unrevoked_cons_iff fun now' heq => hid (Commit.revoked.inj heq).1).symm
    · have hid : ∃ row ∈ s.grants, row.id = id := by
        rcases List.mem_cons.mp hmem with heq | hmem
        · obtain ⟨rfl, -⟩ := Commit.revoked.inj heq
          exact hrow
        · exact h.known hmem
      obtain ⟨row, hrow, rfl⟩ := hid
      exact ⟨_, List.mem_map_of_mem hrow, congrArg Grant.id (hgrant row)⟩
    · exact h.authorized.trans (exists_congr fun now' => (mem_cons_iff fun heq => by
        cases heq).symm)
  | authorized pending scope operationDigest a now hfor row hrow hlive hcites hnew =>
    refine ⟨⟨h.lawful, fun a' now' ha' => hnew a' (h.authorized.mpr ⟨now', ha'⟩), ?_⟩,
      fun {row} hrow => ?_, fun {g now'} hg => ?_, fun {row} hrow => ?_, fun {id now'} hmem => ?_,
      fun {a'} => ?_⟩
    · obtain ⟨now', hgiven⟩ := h.given hrow
      exact ⟨row.toGrant, now', hgiven, (h.revoked hrow).mp hlive, hcites⟩
    · obtain ⟨now', hgiven⟩ := h.given hrow
      exact ⟨now', List.mem_cons_of_mem _ hgiven⟩
    · exact h.kept ((mem_cons_iff fun heq => by cases heq).mp hg)
    · rw [unrevoked_cons_iff fun now' heq => by cases heq]
      exact h.revoked hrow
    · exact h.known ((mem_cons_iff fun heq => by cases heq).mp hmem)
    · constructor
      · intro hmem
        rcases List.mem_cons.mp hmem with rfl | hmem
        · exact ⟨now, List.mem_cons_self⟩
        · obtain ⟨now', hcommit⟩ := h.authorized.mp hmem
          exact ⟨now', List.mem_cons_of_mem _ hcommit⟩
      · rintro ⟨now', hcommit⟩
        rcases List.mem_cons.mp hcommit with heq | hcommit
        · obtain ⟨rfl, -⟩ := Commit.authorized.inj heq
          exact List.mem_cons_self
        · exact List.mem_cons_of_mem _ (h.authorized.mpr ⟨now', hcommit⟩)

end Effects

end Sails.Capability
