import SailsProtocol.Escrow.Claims

/-!
# A pending settlement row stays completable

An escrow has at most one pending transaction row. The row is built for one kind of
settlement in one status, under one state of the dispute, and outlives them : once the
status allows no transition to the row's target, or the gate in front of its execution
refuses it, the row can neither be executed nor replaced. A refund row that outlives
`markPaymentSent` is such a dead end (`refund_row_dead_end`).

`rows_stay_completable` is the exact repair. In every run in which no payment is marked
over a row, no other kind of settlement is claimed over it, a row is created in the status
its operation read and under a dispute the gate accepts, and the dispute is not written
over a row without an authorization, a row can always be executed.
-/

namespace Sails

open Async Async.Config

variable {cfg : Settings} {w : World}

/-- `authorizeDisposition` lets the row pass. -/
def World.gateAccepts (s : World) (p : Pending) : Bool :=
  match p.provenance with
  | none => s.dispute.isNone
  | some prov => decide (p.id ∈ s.authorizations) || s.dispute.any fun d => d.stillCurrent prov

/-- The row of the store, if there is one, can still complete the escrow : the status is
its target or allows it, and the gate lets it pass. -/
def RowCompletable (s : World) : Prop :=
  ∀ p, s.pending = some p → (s.escrow.status = p.kind.target ∨
    ValidTransition s.escrow.status p.kind.target) ∧ s.gateAccepts p = true

/-- A row of this kind survives a claim of `dst` : it is no payment mark and no settlement
of another kind. -/
def SettlementKind.survives (kind : SettlementKind) (dst : EscrowStatus) : Bool :=
  decide (dst ≠ .paymentPending) && (!dst.terminal || decide (dst = kind.target))

/-- The step keeps the row of the store completable. -/
def keepsRowAlive (cfg : Settings) (c : EscrowConfig) : Step → Bool
  | .run i env =>
    match c.next i with
    | some (.createPending kind signers a prov) =>
      env.fault.isSome || c.store.pending.isSome ||
        (decide ((Footprint.of (c.own i)).lastRead.map Escrow.status =
            some c.store.escrow.status) &&
          c.store.gateAccepts ⟨c.store.nextPendingId, kind, signers, a, prov⟩)
    | some q =>
      match q.claim? with
      | some (src, dst) => env.fault.isSome || decide (c.store.escrow.status ≠ src) ||
          c.store.pending.all fun p => p.kind.survives dst
      | none => decide ((q.exec cfg env c.store).2.dispute = c.store.dispute) ||
          c.store.pending.all fun p => decide (p.provenance ≠ none) &&
            decide (p.id ∈ c.store.authorizations)
    | none => true
  | _ => true

/-! ## Frames -/

section Frames

variable {q : Call} {env : Env} {s : World}

/-- Apart from `createPending` a call keeps the row or deletes it. -/
theorem pending_exec (hq : ∀ kind signers a prov, q ≠ .createPending kind signers a prov) :
    (q.exec cfg env s).2.pending = s.pending ∨ (q.exec cfg env s).2.pending = none := by
  obtain ⟨fault, _⟩ := env
  cases fault with
  | some f => exact Or.inl rfl
  | none =>
    cases q
    case createPending kind signers a prov => exact absurd rfl (hq _ _ _ _)
    case deletePending id =>
      cases hp : s.pending with
      | none => exact Or.inr (by simp [Call.exec, Call.run, hp])
      | some p =>
        by_cases hid : p.id = id
        · exact Or.inr (by simp [Call.exec, Call.run, hp, hid])
        · exact Or.inl (by simp [Call.exec, Call.run, hp, hid])
    case deletePendingOfEscrow => exact Or.inr rfl
    all_goals
      refine Or.inl ?_
      simp only [Call.exec, Call.run] <;> (repeat' split) <;> rfl

/-- An authorization is never taken back. -/
theorem authorizations_exec {id : ℕ} (hid : id ∈ s.authorizations) :
    id ∈ (q.exec cfg env s).2.authorizations := by
  obtain ⟨fault, _⟩ := env
  cases fault with
  | some f => exact hid
  | none =>
    cases q <;> simp only [Call.exec, Call.run] <;> (repeat' split) <;>
      first | exact hid | exact List.mem_cons_of_mem _ hid

end Frames

/-! ## Steps -/

/-- The gate keeps letting a row pass when the dispute stays, or the row is authorized. -/
theorem gateAccepts_mono {s s' : World} {p : Pending} (hg : s.gateAccepts p = true)
    (hauth : p.id ∈ s.authorizations → p.id ∈ s'.authorizations)
    (hdispute : s'.dispute = s.dispute ∨ (p.provenance ≠ none ∧ p.id ∈ s.authorizations)) :
    s'.gateAccepts p = true := by
  obtain ⟨id, kind, signers, a, _ | prov⟩ := p
  · rcases hdispute with hd | ⟨hne, -⟩
    · simpa [World.gateAccepts, hd] using hg
    · exact absurd rfl hne
  · rcases hdispute with hd | ⟨-, hid⟩
    · simp only [World.gateAccepts, Bool.or_eq_true, decide_eq_true_eq, hd] at hg ⊢
      exact hg.imp hauth fun hc => hc
    · simp [World.gateAccepts, hauth hid]

/-- A claim a row survives leads to a status that allows the row's target. -/
theorem valid_of_survives {kind : SettlementKind} {src dst : EscrowStatus}
    (hv : ValidTransition src dst) (hrow : src = kind.target ∨ ValidTransition src kind.target)
    (hsurvives : kind.survives dst = true) :
    dst = kind.target ∨ ValidTransition dst kind.target := by
  revert hv hrow hsurvives
  cases kind <;> cases src <;> cases dst <;> decide

/-- Taking back a claim leads to a status that allows the row's target. -/
theorem valid_of_revert {req : Request} {kind : SettlementKind} {src dst : EscrowStatus}
    (hv : ValidTransition src dst) (hrev : req.reverts dst = true)
    (hrow : dst = kind.target ∨ ValidTransition dst kind.target) :
    src = kind.target ∨ ValidTransition src kind.target := by
  have hdst : dst = .fundsLocked ∨ dst.terminal = true := by
    simp only [Request.reverts, Bool.or_eq_true, Bool.and_eq_true, decide_eq_true_eq] at hrev
    exact hrev.imp id And.left
  revert hv hrow hdst
  cases kind <;> cases src <;> cases dst <;> decide

section Steps

variable {c : EscrowConfig} {i : ℕ} {env : Env} {req : Request} {q : Call}
variable {k : Except Err q.Ans → Op Unit}

/-- A new row is completable. -/
theorem rowCompletable_create {kind : SettlementKind} {signers : List ℕ} {a : Actor}
    {prov : Option Provenance} (hI : RowCompletable c.store)
    (hA : keepsRowAlive cfg c (.run i env) = true)
    (hn : c.next i = some (.createPending kind signers a prov))
    (hg : Guard req (c.own i) (.createPending kind signers a prov)) :
    RowCompletable ((Call.createPending kind signers a prov).exec cfg env c.store).2 := by
  obtain ⟨fault, _⟩ := env
  rw [keepsRowAlive, hn] at hA
  cases fault with
  | some f => exact hI
  | none =>
    simp only [Call.exec, Call.run]
    split
    · exact hI
    · cases hp : c.store.pending with
      | some p => simpa [hp] using hI
      | none =>
        intro p hpend
        simp only [Option.some.injEq] at hpend
        subst hpend
        simp only [hp, Option.isSome_none, Bool.or_self, Bool.false_or, Bool.and_eq_true,
          decide_eq_true_eq] at hA
        obtain ⟨e, hread, hv, -⟩ := hg.2.2
        rw [hread] at hA
        have hst : e.status = c.store.escrow.status := Option.some.inj hA.1
        exact ⟨Or.inr (hst ▸ hv), hA.2⟩

/-- The condition of a step that is no creation. -/
theorem keepsRowAlive_call (hA : keepsRowAlive cfg c (.run i env) = true)
    (hn : c.next i = some q) (hq : ∀ kind signers a prov, q ≠ .createPending kind signers a prov)
    {p : Pending} (hp : c.store.pending = some p) :
    (∀ src dst, q.claim? = some (src, dst) → env.fault = none → c.store.escrow.status = src →
      p.kind.survives dst = true) ∧
    (q.claim? = none → (q.exec cfg env c.store).2.dispute = c.store.dispute ∨
      (p.provenance ≠ none ∧ p.id ∈ c.store.authorizations)) := by
  rw [keepsRowAlive, hn] at hA
  have hmatch : (match q.claim? with
      | some (src, dst) => env.fault.isSome || decide (c.store.escrow.status ≠ src) ||
          c.store.pending.all fun p => p.kind.survives dst
      | none => decide ((q.exec cfg env c.store).2.dispute = c.store.dispute) ||
          c.store.pending.all fun p => decide (p.provenance ≠ none) &&
            decide (p.id ∈ c.store.authorizations)) = true := by
    cases q <;> first | exact hA | exact absurd rfl (hq _ _ _ _)
  refine ⟨fun src dst hclaim hfault hst => ?_, fun hclaim => ?_⟩
  · simpa [hclaim, hfault, hst, hp] using hmatch
  · simpa [hclaim, hp] using hmatch

/-- A claim writes nothing but the status. -/
theorem dispute_of_claim {s : World} {p : EscrowStatus × EscrowStatus} (hq : q.claim? = some p) :
    (q.exec cfg env s).2.dispute = s.dispute := by
  obtain ⟨fault, _⟩ := env
  cases fault with
  | some f => rfl
  | none => cases q <;> cases hq <;> simp only [Call.exec, Call.run] <;> (repeat' split) <;> rfl

/-- A call that creates no row keeps the row completable. -/
theorem rowCompletable_call (hs : Sound cfg w c) (hI : RowCompletable c.store)
    (hA : keepsRowAlive cfg c (.run i env) = true) (hn : c.next i = some q)
    (hg : Guard req (c.own i) q)
    (hq : ∀ kind signers a prov, q ≠ .createPending kind signers a prov) :
    RowCompletable (q.exec cfg env c.store).2 := by
  intro p hp
  have hp₀ : c.store.pending = some p := by
    rcases pending_exec hq with heq | heq
    · exact heq.symm.trans hp
    · exact absurd (heq.symm.trans hp) (by simp)
  obtain ⟨hstatus, hgate⟩ := hI p hp₀
  obtain ⟨hclaim, hdispute⟩ := keepsRowAlive_call hA hn hq hp₀
  refine ⟨?_, gateAccepts_mono hgate authorizations_exec ?_⟩
  · rcases exec_status cfg q env c.store with ⟨hkeep, -⟩ | ⟨dst, hq', hos, hst⟩ | ⟨src, rfl, -, hst⟩
    · rwa [hkeep]
    · rw [hst]
      have hfault : env.fault = none := fault_of_claimed (hos ▸ List.mem_cons_self)
      exact valid_of_survives (hg.claim hq').2.2 hstatus (hclaim _ dst hq' hfault rfl)
    · rw [hst]
      exact valid_of_revert (hs.valid_of_claim hg.2.2.1.1) hg.2.2.2.1 hstatus
  · cases hq' : q.claim? with
    | none => exact hdispute hq'
    | some p => exact Or.inl (dispute_of_claim hq')

end Steps

/-- In a run that keeps its rows alive, the row of every reached store is completable. -/
theorem rows_stay_completable (cfg : Settings) (w : World) (as : List Step)
    (hw : w.pending = none)
    (hA : Along (escrowSystem cfg) (fun c a => keepsRowAlive cfg c a = true)
      (Config.init w) as) : RowCompletable (reach cfg w as).store := by
  have hI := run_induction (I := fun c => RowCompletable c.store)
    (fun p hp => absurd (hw.symm.trans hp) (by simp)) (fun _ hI _ => hI)
    (fun {c i env req q k} hs hI hA ht hg => ?_) (fun _ hI _ _ => hI) as hA
  · exact hI.2
  · by_cases hq : ∃ kind signers a prov, q = .createPending kind signers a prov
    · obtain ⟨kind, signers, a, prov, rfl⟩ := hq
      exact rowCompletable_create hI hA (next_of_call ht) hg
    · refine rowCompletable_call hs hI hA (next_of_call ht) hg fun kind signers a prov heq => ?_
      exact hq ⟨kind, signers, a, prov, heq⟩

/-- A refund row, and the expiry of the escrow over it. -/
def expiredRefundRow : List Step :=
  .start (.initiateRefund (.user 2)) :: calls 0 9 ++ .start .sweepExpiredEscrows ::
    List.replicate 8 (.run 1 { now := 200 })

/-- The row can still be executed in `EXPIRED`. -/
theorem rows_stay_completable_expired :
    ((reach .plain .funded expiredRefundRow).store.escrow.status = .expired ∧
      (reach .plain .funded expiredRefundRow).store.pending.isSome = true ∧
      Along (escrowSystem .plain) (fun c a => keepsRowAlive .plain c a = true)
        (Config.init .funded) expiredRefundRow) ∧
    RowCompletable (reach .plain .funded expiredRefundRow).store :=
  ⟨by decide, rows_stay_completable .plain .funded expiredRefundRow rfl
    (by decide)⟩

/-- A refund row, and the buyer's mark of the payment over it. -/
def paidOverRefundRow : List Step :=
  .start (.initiateRefund (.user 2)) :: calls 0 9 ++ .start (.markPaymentSent (.user 1)) ::
    calls 1 7

/-- A refund row in `PAYMENT_PENDING` cannot be executed any more. -/
theorem refund_row_dead_end :
    ¬ ∀ p, (reach .plain .funded paidOverRefundRow).store.pending = some p →
      (reach .plain .funded paidOverRefundRow).store.escrow.status = p.kind.target ∨
        ValidTransition (reach .plain .funded paidOverRefundRow).store.escrow.status
          p.kind.target := by
  intro hrow
  have hp : (reach .plain .funded paidOverRefundRow).store.pending =
      some ⟨0, .refund, [2, 1], .user 2, none⟩ := by decide
  have hst : (reach .plain .funded paidOverRefundRow).store.escrow.status = .paymentPending := by
    decide
  have hv := hrow _ hp
  rw [hst] at hv
  exact absurd hv (by decide)

end Sails
