import SailsProtocol.Arbitration.Rulings

/-!
# Authorizations of disputed operations

`authorizeDisputedPendingExecution` creates an authorization only while the dispute is
resolved and still is the generation the pending operation records
(`authorizations_step`). The appeal round of a dispute only grows, so an operation
recorded for an earlier round is never authorized again (`not_returns_of_superseded`).
An authorization that exists is given again only to the operation it was made for : the
digest it holds determines every fact of that operation (`returns_existing`).

`superseded_ruling_never_authorises` puts the three together, for every run.
-/

namespace Sails.Arbitration

open Async Text

section Disposition

variable (P : Platform)

/-- The configuration after a run from an empty database. -/
abbrev reached (as : List (Action QueryEnv Request)) : DisputeConfig :=
  (Config.init Store.empty).exec (disputeSystem P) as

/-- The next call of thread `i`, answered by `env`, ends the authorization of `pending`
that the thread serves, and it returns `out`. -/
def Returns (c : DisputeConfig) (i : ℕ) (env : QueryEnv) (pending : DisputedPendingFacts)
    (out : Outcome) : Prop :=
  c.next i ≠ none ∧ (c.step (disputeSystem P) (.run i env)).threads[i]? =
    some ⟨.authorizeDisputedPendingExecution pending, .ret (.ok out), true⟩

/-- The dispute is resolved with the round, arbiter, ruling and signature the pending
operation records. -/
structure DisputeRow.Rules (d : DisputeRow) (p : DisputedPendingFacts) : Prop where
  dispute : p.dispute = some d.id
  status : d.status = .resolved
  appealRound : p.rulingAppealRound = some d.appealRound
  arbiterId : p.rulingArbiterId = d.arbiterId
  ruling : p.rulingOutcome = d.ruling
  authoritySignature : p.rulingAuthoritySignature = d.authoritySignature

/-- No authorization exists for the pending operation. -/
def Store.Unauthorized (s : Store) (p : DisputedPendingFacts) : Prop :=
  ∀ x ∈ s.authorizations, x.pendingOperationId ≠ p.id

end Disposition

section Steps

variable {P : Platform} {s : Store} {q : Call} {env : QueryEnv} {c : DisputeConfig}
variable {p : DisputedPendingFacts} {disputeId : JsString}
variable {x : EconomicDispositionAuthorization}

/-! ## The transaction -/

theorem DisputeRow.rules_of_stillCurrent {d : DisputeRow} (hp : p.dispute = some d.id)
    (h : d.stillCurrent p = true) : d.Rules p := by
  simp only [DisputeRow.stillCurrent, Bool.and_eq_true, beq_iff_eq] at h
  exact ⟨hp, h.1.1.1.1, h.1.1.1.2.symm, h.1.1.2.symm, h.1.2.symm, h.2.symm⟩

/-- What an authorization says about the operation and the dispute it was made for. -/
theorem authorizationFor_eq {d : DisputeRow} (h : authorizationFor P p d = some x) :
    x.pendingOperationId = p.id ∧ x.disputeId = d.id ∧ x.appealRound = d.appealRound ∧
      x.operationDigest = economicDispositionOperationDigest P.sha256 p := by
  simp only [authorizationFor, Option.bind_eq_bind, Option.bind_eq_some_iff,
    Option.some.injEq] at h
  obtain ⟨_, -, _, -, rfl⟩ := h
  exact ⟨rfl, rfl, rfl, rfl⟩

/-- The three ways the transaction ends : it finds the authorization of this operation, it
creates one, or it throws. -/
theorem authorizeRun_cases (p : DisputedPendingFacts) (disputeId : JsString) (s : Store) :
    (∃ x ∈ s.authorizations, x.pendingOperationId = p.id ∧
      x.operationDigest = economicDispositionOperationDigest P.sha256 p ∧
      authorizeRun P p disputeId s = (.ok x, s)) ∨
    (∃ d x, d ∈ s.disputes ∧ d.id = disputeId ∧ d.stillCurrent p = true ∧ s.Unauthorized p ∧
      authorizationFor P p d = some x ∧
      authorizeRun P p disputeId s =
        (.ok x, { s with authorizations := x :: s.authorizations })) ∨
    ∃ e, authorizeRun P p disputeId s = (.error e, s) := by
  unfold authorizeRun
  split
  · next x hx =>
    have hid : x.pendingOperationId = p.id := by simpa using List.find?_some hx
    split
    · next hsame =>
      exact Or.inl ⟨x, List.mem_of_find?_eq_some hx, hid, hsame.2.2, rfl⟩
    · exact Or.inr (Or.inr ⟨_, rfl⟩)
  · next hnone =>
    have hfree : s.Unauthorized p := fun x hx => by simpa using List.find?_eq_none.mp hnone x hx
    split
    · exact Or.inr (Or.inr ⟨_, rfl⟩)
    · next d hd =>
      split
      · next hcurrent =>
        split
        · next x hx =>
          obtain ⟨hmem, hid⟩ := Store.mem_of_dispute hd
          exact Or.inr (Or.inl ⟨d, x, hmem, hid, hcurrent, hfree, hx, rfl⟩)
        · exact Or.inr (Or.inr ⟨_, rfl⟩)
      · exact Or.inr (Or.inr ⟨_, rfl⟩)

/-- Only the transaction of the gate writes authorizations. -/
theorem authorizations_run (h : ∀ p id, q ≠ .authorize p id) :
    (q.run P env s).2.authorizations = s.authorizations := by
  cases q with
  | authorize p id => exact absurd rfl (h p id)
  | createDispute _ _ =>
    simp only [Call.run]
    split <;> rfl
  | claimRuling _ _ _ =>
    simp only [Call.run]
    repeat' split
    all_goals rfl
  | commitRuling _ _ _ =>
    simp only [Call.run]
    repeat' split
    all_goals rfl
  | claimAppeal _ _ =>
    simp only [Call.run]
    split <;> rfl
  | _ => rfl

/-- An authorization is written by the gate only, for a row that is still current. -/
theorem authorizations_exec (q : Call) (env : QueryEnv) (s : Store) :
    (q.exec P env s).2.authorizations = s.authorizations ∨
    ∃ p disputeId d x, q = .authorize p disputeId ∧ d ∈ s.disputes ∧ d.id = disputeId ∧
      d.stillCurrent p = true ∧ s.Unauthorized p ∧ authorizationFor P p d = some x ∧
      (q.exec P env s).2.authorizations = x :: s.authorizations := by
  rcases env.fate.settle_store DisputeError.fault (q.run P env s) s with h | h
  · rw [Call.exec, h]
    exact Or.inl rfl
  · rw [Call.exec, h]
    by_cases hq : ∃ p id, q = .authorize p id
    · obtain ⟨p, id, rfl⟩ := hq
      rcases authorizeRun_cases (P := P) p id s with ⟨x, -, -, -, hrun⟩ | ⟨d, x, hd, hid, hcur, hfree,
        hx, hrun⟩ | ⟨e, hrun⟩
      · exact Or.inl (congrArg (fun r => r.2.authorizations) hrun)
      · exact Or.inr ⟨p, id, d, x, rfl, hd, hid, hcur, hfree, hx,
          congrArg (fun r => r.2.authorizations) hrun⟩
      · exact Or.inl (congrArg (fun r => r.2.authorizations) hrun)
    · exact Or.inl (authorizations_run fun p id heq => hq ⟨p, id, heq⟩)

/-! ## The threads of the gate -/

/-- A thread that serves an authorization has made no call yet, or is done. -/
def GateThreads (c : DisputeConfig) : Prop :=
  ∀ {i : ℕ} {t : Thread Answer DisputeError Outcome Request} {p : DisputedPendingFacts},
    c.threads[i]? = some t → t.req = .authorizeDisputedPendingExecution p →
    t.prog = authorizeDisputedPendingExecution p ∨ ∃ r, t.prog = .ret r

/-- The gate makes one call, and returns what the call answers. -/
theorem gate_call {k : Except DisputeError (Answer q) → DisputeOp Outcome}
    (h : authorizeDisputedPendingExecution p = .call q k) (r : Except DisputeError (Answer q)) :
    ∃ r', k r = .ret r' := by
  unfold authorizeDisputedPendingExecution at h
  split at h
  · cases h
    rcases r with e | _ | _
    · exact ⟨_, rfl⟩
    · exact ⟨_, rfl⟩
    · exact ⟨_, rfl⟩
  · cases h
    cases r with
    | error e => exact ⟨_, rfl⟩
    | ok x => exact ⟨_, rfl⟩

/-- A call leaves every thread at the gate where the gate can be. -/
theorem GateThreads.answer {i : ℕ} {req : Request}
    {k : Except DisputeError (Answer q) → DisputeOp Outcome} (hT : GateThreads c)
    (ht : c.threads[i]? = some ⟨req, .call q k, true⟩) :
    GateThreads (c.answer (disputeSystem P) i env req q k) := by
  intro j t p' htj hreq
  simp only [Config.answer, List.getElem?_set] at htj
  split at htj
  · split at htj
    · cases htj
      rcases hT ht hreq with hprog | ⟨r, hprog⟩
      · exact Or.inr (gate_call hprog.symm _)
      · cases hprog
    · cases htj
  · exact hT htj hreq

/-- In every run a thread at the gate is where the gate can be. -/
theorem gateThreads_run (P : Platform) (as : List (Action QueryEnv Request)) :
    GateThreads (reached P as) := by
  refine (Config.run_invariant (A := fun _ _ => True) (I := fun c => GateThreads c)
    (fun req => prog_guards (P := P) req) (fun _ _ _ _ => trivial) ?_
    (fun _ hI _ ht _ => hI.answer ht) ?_ as (Config.conforms_init trivial) ?_
    (Config.along_true as)).2
  · intro c req _ hI _ i t p ht hreq
    simp only [Config.spawn, List.getElem?_append] at ht
    split at ht
    · exact hI ht hreq
    · rw [List.getElem?_singleton] at ht
      split at ht
      · cases ht
        cases hreq
        exact Or.inl rfl
      · cases ht
  · intro c i t _ hI _ ht j t' p ht' hreq
    simp only [Config.kill, List.getElem?_set] at ht'
    split at ht'
    · split at ht'
      · obtain rfl := Option.some.inj ht'
        exact hI (t := t) ht hreq
      · cases ht'
    · exact hI ht' hreq
  · intro i t p ht
    simp [Config.init] at ht

/-- An authorization that returns was answered by the transaction, or found no dispute of
the escrow. -/
theorem returns_cases {i : ℕ} {out : Outcome} (hT : GateThreads c)
    (h : Returns P c i env p out) :
    (∃ disputeId x, p.dispute = some disputeId ∧ out = some x ∧
      ((Call.authorize p disputeId).exec P env c.store).1 = .ok x) ∨
    p.dispute = none ∧ ((Call.disputeOfEscrow p.escrowId).exec P env c.store).1 = .ok false := by
  obtain ⟨hnext, hstep⟩ := h
  obtain ⟨q, hq⟩ := Option.ne_none_iff_exists'.mp hnext
  obtain ⟨req, k, ht⟩ := Config.call_of_next hq
  have hlt : i < c.threads.length := (List.getElem?_eq_some_iff.mp ht).1
  have hthread : (c.step (disputeSystem P) (.run i env)).threads[i]? =
      some ⟨req, k ((disputeSystem P).exec q env c.store).1, true⟩ := by
    rw [Config.step]
    simp only [ht]
    exact List.getElem?_set_self hlt
  rw [hthread] at hstep
  obtain ⟨rfl, hk, -⟩ := Thread.mk.inj (Option.some.inj hstep)
  rcases hT ht rfl with hprog | ⟨r, hprog⟩
  · change Prog.call q k = authorizeDisputedPendingExecution p at hprog
    unfold authorizeDisputedPendingExecution at hprog
    split at hprog
    · next hp =>
      cases hprog
      change Prog.bind (Prog.ret _) _ = _ at hk
      refine Or.inr ⟨hp, ?_⟩
      generalize hr : ((disputeSystem P).exec (.disputeOfEscrow p.escrowId) env c.store).1 = r at hk
      rcases r with e | _ | _
      · cases hk
      · exact hr
      · cases hk
    · next id hp =>
      cases hprog
      generalize hr : ((disputeSystem P).exec (.authorize p id) env c.store).1 = r at hk
      rcases r with e | x
      · cases hk
      · cases hk
        exact Or.inl ⟨id, x, hp, rfl, hr⟩
  · cases hprog

/-- What the transaction of the gate found, when it answers. -/
theorem authorize_answer (h : ((Call.authorize p disputeId).exec P env s).1 = .ok x) :
    (x ∈ s.authorizations ∧ x.pendingOperationId = p.id ∧
      x.operationDigest = economicDispositionOperationDigest P.sha256 p) ∨
    ∃ d ∈ s.disputes, d.id = disputeId ∧ d.stillCurrent p = true ∧ s.Unauthorized p := by
  have hrun := (run_of_exec_ok h).1
  change (authorizeRun P p disputeId s).1 = .ok x at hrun
  rcases authorizeRun_cases (P := P) p disputeId s with ⟨y, hy, hid, hdigest, heq⟩ |
    ⟨d, y, hd, hid, hcur, hfree, -, -⟩ | ⟨e, heq⟩
  · rw [heq] at hrun
    cases hrun
    exact Or.inl ⟨hy, hid, hdigest⟩
  · exact Or.inr ⟨d, hd, hid, hcur, hfree⟩
  · rw [heq] at hrun
    cases hrun

/-! ## Runs -/

/-- Every step creates an authorization only for an operation the dispute rules. -/
theorem authorizations_step (as : List (Action QueryEnv Request)) (a : Action QueryEnv Request)
    (hx : x ∈ ((reached P as).step (disputeSystem P) a).store.authorizations)
    (hnew : x ∉ (reached P as).store.authorizations) :
    ∃ i env p d, a = .run i env ∧ (reached P as).next i = some (.authorize p d.id) ∧
      d ∈ (reached P as).store.disputes ∧ d.Rules p ∧ authorizationFor P p d = some x := by
  obtain ⟨hc, -⟩ := recorded_run P as
  rcases Config.step_cases (S := disputeSystem P) (c := reached P as) a with h | ⟨req, -, h⟩ |
    ⟨i, env, req, q, k, rfl, ht, h⟩ | ⟨i, t, -, -, h⟩
  · rw [h] at hx
    exact absurd hx hnew
  · rw [h] at hx
    exact absurd hx hnew
  · rw [h] at hx
    rcases authorizations_exec (P := P) q env (reached P as).store with heq |
      ⟨p, id, d, y, rfl, hd, rfl, hcur, -, hy, heq⟩
    · exact absurd (heq ▸ hx) hnew
    · rcases List.mem_cons.mp (heq ▸ hx) with rfl | hold
      · have hG : p.dispute = some d.id := hc.guard ht
        exact ⟨i, env, p, d, rfl, Config.next_of_call ht, hd,
          DisputeRow.rules_of_stillCurrent hG hcur, hy⟩
      · exact absurd hold hnew
  · rw [h] at hx
    exact absurd hx hnew

/-- A pending operation has one authorization at most. -/
def Store.OneEach (s : Store) : Prop :=
  ∀ x ∈ s.authorizations, ∀ y ∈ s.authorizations,
    x.pendingOperationId = y.pendingOperationId → x = y

/-- A call authorizes no operation twice. -/
theorem Store.OneEach.exec (h : s.OneEach) : (q.exec P env s).2.OneEach := by
  intro x hx y hy hxy
  rcases authorizations_exec (P := P) q env s with heq | ⟨p, id, d, z, -, -, -, -, hfree, hz, heq⟩
  · exact h x (heq ▸ hx) y (heq ▸ hy) hxy
  · have hzid := (authorizationFor_eq hz).1
    rcases List.mem_cons.mp (heq ▸ hx) with rfl | hx <;> rcases List.mem_cons.mp (heq ▸ hy) with rfl | hy
    · rfl
    · exact absurd (hxy.symm.trans hzid) (hfree y hy)
    · exact absurd (hxy.trans hzid) (hfree x hx)
    · exact h x hx y hy hxy

theorem oneEach_run (P : Platform) (as : List (Action QueryEnv Request)) :
    (reached P as).store.OneEach :=
  (Config.run_invariant (A := fun _ _ => True) (I := fun c => c.store.OneEach)
    (fun req => prog_guards (P := P) req) (fun _ _ _ _ => trivial) (fun _ hI _ => hI)
    (fun _ hI _ _ _ => hI.exec) (fun _ hI _ _ => hI) as (Config.conforms_init trivial)
    (fun _ hx => absurd hx List.not_mem_nil) (Config.along_true as)).2

/-- The dispute is past the round the operation records, and no authorization was made for
the operation. -/
structure Superseded (P : Platform) (d : DisputeRow) (p : DisputedPendingFacts)
    (c : DisputeConfig) : Prop where
  recorded : Recorded c
  later : ∃ d' ∈ c.store.disputes, d.Later d'
  unauthorized : ∀ x ∈ c.store.authorizations, x.pendingOperationId = p.id →
    x.operationDigest ≠ economicDispositionOperationDigest P.sha256 p

/-- A dispute past the recorded round does not rule the operation. -/
theorem Superseded.not_current {d d' : DisputeRow} {r : ℕ} (h : Superseded P d p c)
    (hp : p.rulingAppealRound = some r) (hr : r < d.appealRound) (hd' : d' ∈ c.store.disputes)
    (hid : d'.id = d.id) : d'.stillCurrent p = false := by
  obtain ⟨d'', hd'', hle⟩ := h.later
  obtain rfl := h.recorded.keyed.inj hd' hd'' (hid.trans hle.id.symm)
  have hround := hle.appealRound
  refine Bool.eq_false_iff.mpr fun hcur => ?_
  simp only [DisputeRow.stillCurrent, hp, Bool.and_eq_true, beq_iff_eq, Option.some.injEq] at hcur
  omega

/-- No call authorizes an operation of an earlier round. -/
theorem Superseded.answer {d : DisputeRow} {r i : ℕ} {req : Request}
    {k : Except DisputeError (Answer q) → DisputeOp Outcome} (hsha : Function.Injective P.sha256)
    (h : Superseded P d p c) (hdispute : p.dispute = some d.id)
    (hp : p.rulingAppealRound = some r) (hr : r < d.appealRound) (hG : Guard P (c.own i) q) :
    Superseded P d p (c.answer (disputeSystem P) i env req q k) := by
  obtain ⟨d', hd', hle⟩ := h.later
  obtain ⟨d'', hd'', hle'⟩ := later_kept q env hd'
  refine ⟨h.recorded.answer hG, ⟨d'', hd'', hle.trans hle'⟩, fun x hx hxid hdigest => ?_⟩
  rcases authorizations_exec (P := P) q env c.store with heq |
    ⟨p', id, e, y, rfl, he, rfl, hcur, -, hy, heq⟩
  · exact h.unauthorized x (heq ▸ hx) hxid hdigest
  · rcases List.mem_cons.mp (heq ▸ hx) with rfl | hold
    · obtain rfl : p' = p := digest_injective hsha ((authorizationFor_eq hy).2.2.2.symm.trans hdigest)
      have hid : e.id = d.id := Option.some.inj (Eq.trans hG.symm hdispute)
      rw [h.not_current hp hr he hid] at hcur
      cases hcur
    · exact h.unauthorized x hold hxid hdigest

/-- In every run an operation of an earlier round stays unauthorized. -/
theorem superseded_run {d : DisputeRow} {r : ℕ} (hsha : Function.Injective P.sha256)
    (as bs : List (Action QueryEnv Request)) (hd : d ∈ (reached P as).store.disputes)
    (hdispute : p.dispute = some d.id) (hp : p.rulingAppealRound = some r)
    (hr : r < d.appealRound) (hfree : (reached P as).store.Unauthorized p) :
    Superseded P d p (reached P (as ++ bs)) := by
  obtain ⟨hc, hrec⟩ := recorded_run P as
  rw [reached, Config.exec_append]
  exact (Config.run_invariant (A := fun _ _ => True) (I := fun c => Superseded P d p c)
    (fun req => prog_guards (P := P) req) (fun _ _ _ _ => trivial)
    (fun _ hI _ => ⟨hI.recorded.of_same rfl rfl, hI.later, hI.unauthorized⟩)
    (fun _ hI _ _ hG => hI.answer hsha hdispute hp hr hG)
    (fun _ hI _ _ => ⟨hI.recorded.of_same rfl rfl, hI.later, hI.unauthorized⟩) bs hc
    ⟨hrec, ⟨d, hd, .refl d⟩, fun x hx hid => absurd hid (hfree x hx)⟩ (Config.along_true bs)).2

/-- The gate does not return for an operation of an earlier round. -/
theorem Superseded.not_returns {d : DisputeRow} {r i : ℕ} {out : Outcome}
    (h : Superseded P d p c) (hT : GateThreads c) (hdispute : p.dispute = some d.id)
    (hp : p.rulingAppealRound = some r) (hr : r < d.appealRound) : ¬ Returns P c i env p out := by
  intro hret
  rcases returns_cases hT hret with ⟨id, x, hid, -, hx⟩ | ⟨hnone, -⟩
  · rcases authorize_answer hx with ⟨hmem, hxid, hdigest⟩ | ⟨d', hd', hid', hcur, -⟩
    · exact h.unauthorized x hmem hxid hdigest
    · have : d'.id = d.id := hid'.trans (Option.some.inj (hid.symm.trans hdispute))
      rw [h.not_current hp hr hd' this] at hcur
      cases hcur
  · rw [hdispute] at hnone
    cases hnone

/-- Where an authorization exists, a call for the same operation on a disputed escrow
returns it, and only for the facts it was made for. -/
theorem returns_existing {i : ℕ} {out : Outcome} {d : DisputeRow}
    (hsha : Function.Injective P.sha256) (as : List (Action QueryEnv Request))
    (hx : x ∈ (reached P as).store.authorizations) (hid : p.id = x.pendingOperationId)
    (hd : d ∈ (reached P as).store.disputes) (hescrow : p.escrowId = d.escrowId)
    (hret : Returns P (reached P as) i env p out) :
    out = some x ∧ ∀ p₀ d₀, authorizationFor P p₀ d₀ = some x → p₀ = p := by
  rcases returns_cases (gateThreads_run P as) hret with ⟨id, y, -, rfl, hy⟩ | ⟨-, hfalse⟩
  · rcases authorize_answer hy with ⟨hmem, hyid, hdigest⟩ | ⟨_, _, _, _, hfree⟩
    · obtain rfl := oneEach_run P as x hx y hmem (hid.symm.trans hyid.symm)
      exact ⟨rfl, fun p₀ d₀ h₀ =>
        digest_injective hsha ((authorizationFor_eq h₀).2.2.2.symm.trans hdigest)⟩
    · exact absurd hid.symm (hfree x hx)
  · have hany := Except.ok.inj (run_of_exec_ok hfalse).1
    rw [List.any_eq_false] at hany
    exact absurd hescrow.symm (by simpa using hany d hd)

/-- A call for an operation that records no dispute, on an escrow that was never disputed,
succeeds without an authorization. -/
theorem returns_undisputed (hp : p.dispute = none)
    (hescrow : ∀ d ∈ c.store.disputes, d.escrowId ≠ p.escrowId) (henv : env.fate = .answered) :
    Returns P (c.spawn (disputeSystem P) (.authorizeDisputedPendingExecution p)) c.threads.length
      env p none := by
  obtain ⟨k, hk, hfalse⟩ : ∃ k, authorizeDisputedPendingExecution p =
      .call (.disputeOfEscrow p.escrowId) k ∧ k (.ok false) = .ret (.ok none) := by
    rw [authorizeDisputedPendingExecution, hp]
    exact ⟨_, rfl, rfl⟩
  have hlt : c.threads.length <
      (c.spawn (disputeSystem P) (.authorizeDisputedPendingExecution p)).threads.length := by
    simp [Config.spawn]
  have ht : (c.spawn (disputeSystem P) (.authorizeDisputedPendingExecution p)).threads[
      c.threads.length]? = some ⟨.authorizeDisputedPendingExecution p,
        .call (.disputeOfEscrow p.escrowId) k, true⟩ := by
    rw [Config.spawn, List.getElem?_concat_length, ← hk]
    rfl
  have hany : (c.store.disputes.any (·.escrowId == p.escrowId)) = false :=
    List.any_eq_false.mpr fun d hd => by simpa using hescrow d hd
  have hanswer : k ((Call.disputeOfEscrow p.escrowId).exec P env c.store).1 = .ret (.ok none) := by
    rw [Call.exec, henv, Fate.settle, Call.run, hany, hfalse]
  refine ⟨by rw [Config.next_of_call ht]; exact Option.some_ne_none _, ?_⟩
  rw [Config.step, ht]
  change (List.set _ _ _)[c.threads.length]? = _
  rw [List.getElem?_set_self hlt]
  exact congrArg (fun prog => some (Thread.mk _ prog true)) hanswer

end Steps

/-- A superseded ruling never authorises an execution. Under a hash without collisions, in
every reached state :
every step that creates an authorization does so for an operation whose recorded dispute
is resolved with exactly the round, arbiter, ruling and signature the operation records ;
once the dispute is past the round an operation records, that operation is not authorized
any more unless it already was ;
and where an authorization exists, a call for the same pending operation on a disputed
escrow returns it, and only for the very facts it was made for. -/
theorem superseded_ruling_never_authorises (P : Platform) (hsha : Function.Injective P.sha256)
    (as : List (Action QueryEnv Request)) :
    (∀ a, ∀ x ∈ ((reached P as).step (disputeSystem P) a).store.authorizations,
      x ∉ (reached P as).store.authorizations →
      ∃ i env p d, a = .run i env ∧ (reached P as).next i = some (.authorize p d.id) ∧
        d ∈ (reached P as).store.disputes ∧ d.Rules p ∧ authorizationFor P p d = some x) ∧
    (∀ d ∈ (reached P as).store.disputes, ∀ p r, p.dispute = some d.id →
      p.rulingAppealRound = some r → r < d.appealRound → (reached P as).store.Unauthorized p →
      ∀ bs, (∀ x ∈ (reached P (as ++ bs)).store.authorizations, ∀ d₀,
          authorizationFor P p d₀ ≠ some x) ∧
        ∀ i env out, ¬ Returns P (reached P (as ++ bs)) i env p out) ∧
    (∀ x ∈ (reached P as).store.authorizations, ∀ d ∈ (reached P as).store.disputes,
      ∀ i env p out, p.id = x.pendingOperationId → p.escrowId = d.escrowId →
      Returns P (reached P as) i env p out →
      out = some x ∧ ∀ p₀ d₀, authorizationFor P p₀ d₀ = some x → p₀ = p) := by
  refine ⟨fun a x hx hnew => authorizations_step as a hx hnew, ?_, ?_⟩
  · intro d hd p r hdispute hp hr hfree bs
    have hS := superseded_run hsha as bs hd hdispute hp hr hfree
    refine ⟨fun x hx d₀ h₀ => ?_, fun i env out => ?_⟩
    · obtain ⟨hid, -, -, hdigest⟩ := authorizationFor_eq h₀
      exact hS.unauthorized x hx hid hdigest
    · exact hS.not_returns (gateThreads_run P (as ++ bs)) hdispute hp hr
  · intro x hx d hd i env p out hid hescrow hret
    exact returns_existing hsha as hx hid hd hescrow hret

/-- An operation of dispute `D`, built under the ruling of `A` at round 0. -/
def plainPending (id : JsString) : DisputedPendingFacts where
  id := id
  escrowId := js "E"
  kind := js "release"
  toAddress := js "b"
  toAddressSecondary := none
  buyerBps := none
  feeCollectionSats := some 10
  feeCollectionWaived := some false
  minerFeeSats := some 200
  unsignedPsbtBase64 := js "c"
  requiredSigners := [js "b"]
  triggeredBy := js "A"
  disputeId := some (js "D")
  rulingAppealRound := some 0
  rulingArbiterId := some (js "A")
  rulingOutcome := some .release
  rulingAuthoritySignature := some (plainSignature (plainDecision 0 (js "A") .release midnight))
  rulingAuthorityIssuedAt := none

/-- `A` rules, operation `P` is authorized, and the ruling is appealed. -/
def authorizedThenAppealed : List (Action QueryEnv Request) :=
  raised ++ rulingOf 0 (js "A") .release midnight :: calls 7 1 [] ++
    .start (.authorizeDisputedPendingExecution (plainPending (js "P"))) :: calls 1 2 [] ++
    .start (.appeal (js "D")) :: calls 7 3 (js "B")

/-- Operation `P` has its authorization, and operation `Q` of the same ruling gets none. -/
theorem superseded_ruling_never_authorises_appealed :
    ((reached plainPlatform authorizedThenAppealed).store.authorizations.any fun x =>
      x.pendingOperationId == js "P") = true ∧
    ∀ bs i env out, ¬ Returns plainPlatform (reached plainPlatform (authorizedThenAppealed ++ bs)) i
      env (plainPending (js "Q")) out := by
  have hd : ∃ d ∈ (reached plainPlatform authorizedThenAppealed).store.disputes,
      (plainPending (js "Q")).dispute = some d.id ∧ 0 < d.appealRound := by
    decide +kernel
  have hfree : ∀ x ∈ (reached plainPlatform authorizedThenAppealed).store.authorizations,
      x.pendingOperationId ≠ (plainPending (js "Q")).id := by
    decide +kernel
  refine ⟨by decide +kernel, fun bs => ?_⟩
  obtain ⟨d, hmem, hdispute, hround⟩ := hd
  exact ((superseded_ruling_never_authorises plainPlatform Function.injective_id
    authorizedThenAppealed).2.1 d hmem (plainPending (js "Q")) 0 hdispute rfl hround hfree bs).2

/-- Operation `P` without its dispute, on an escrow that was never disputed. -/
def movedPending : DisputedPendingFacts :=
  { plainPending (js "P") with escrowId := js "F", disputeId := none }

/-- Operation `P` has its authorization, and a call for the same id with other facts
succeeds. -/
theorem changed_operation_returns :
    (∃ x ∈ (reached plainPlatform authorizedThenAppealed).store.authorizations,
      x.pendingOperationId = movedPending.id ∧
      x.operationDigest ≠ economicDispositionOperationDigest plainPlatform.sha256 movedPending) ∧
    Returns plainPlatform (reached plainPlatform (authorizedThenAppealed ++
      [.start (.authorizeDisputedPendingExecution movedPending)])) 4 {} movedPending none := by
  refine ⟨by decide +kernel, ?_⟩
  have hlen : (reached plainPlatform authorizedThenAppealed).threads.length = 4 := by
    decide +kernel
  rw [reached, Config.exec_append, ← hlen]
  exact returns_undisputed (by decide +kernel) (by decide +kernel) rfl

end Sails.Arbitration
