import SailsProtocol.Wdk.Attempts

/-!
# One outcome for an escrow

A settlement of `EscrowService` holds the status it claimed while its provider runs, and gives
it back when the provider throws. The provider also throws when a transfer was submitted and is
not confirmed yet. The escrow can then be claimed for another outcome, whose attempts are rows
of their own.

`one_outcome` : as long as an outcome is claimed only when no attempt of another outcome may
still deliver, the funds leave the escrow under one outcome, and never more than were locked.
`outcome_repeated` : a refund after a release whose receipt was late pays twice.
-/

namespace Sails.Wdk

open Async

variable {W : WdkConfig}

/-- The status an operation settles an escrow with. -/
def OperationType.outcome : OperationType → Option EscrowStatus
  | .LOCK => none
  | .RELEASE => some .completed
  | .REFUND => some .refunded
  | .SPLIT_BUYER | .SPLIT_SELLER => some .split

/-- The attempt may have delivered, or may still. -/
def Attempt.live (a : Attempt) : Bool :=
  match a.status with
  | .SUBMISSION_UNKNOWN | .SUBMITTED | .CONFIRMED => true
  | _ => false

/-- Every attempt that is live is of the outcome, or moves no funds out. -/
def WdkStore.Only (s : WdkStore) (status : EscrowStatus) : Prop :=
  ∀ a ∈ s.attempts, a.live = true →
    a.operationType.outcome = none ∨ a.operationType.outcome = some status

instance (s : WdkStore) (status : EscrowStatus) : Decidable (s.Only status) :=
  inferInstanceAs (Decidable (∀ a ∈ s.attempts, _))

/-- The status a request of the service claims. -/
def WdkReq.target : WdkReq → Option EscrowStatus
  | .serviceLockFunds => some .fundsLocked
  | .openDispute => some .disputed
  | .serviceReleaseFunds _ => some .completed
  | .serviceRefundFunds => some .refunded
  | .serviceSplitFunds _ _ _ => some .split
  | _ => none

/-- The operations a request of the service makes. -/
def WdkReq.moves : WdkReq → OperationType → Bool
  | .serviceLockFunds, .LOCK => true
  | .serviceReleaseFunds _, .RELEASE => true
  | .serviceRefundFunds, .REFUND => true
  | .serviceSplitFunds _ _ _, .SPLIT_BUYER => true
  | .serviceSplitFunds _ _ _, .SPLIT_SELLER => true
  | _, _ => false

theorem WdkReq.outcome_of_moves {req : WdkReq} {operationType : OperationType}
    (h : req.moves operationType = true) :
    operationType.outcome = none ∨ operationType.outcome = req.target := by
  cases req <;> cases operationType <;> first | exact Or.inl rfl | exact Or.inr rfl | cases h

/-- Only requests of the service start, and an outcome is claimed when no attempt of another
outcome is live. -/
def Undivided (c : Wallet) : Action WdkEnv WdkReq → Prop
  | .start req => req.target ≠ none
  | .run i _ =>
    match c.next i with
    | some (.claimTransition fromStatus toStatus) =>
      c.store.status = fromStatus → toStatus.terminal = true → c.store.Only toStatus
    | _ => True
  | .crash _ => True

instance (c : Wallet) : (a : Action WdkEnv WdkReq) → Decidable (Undivided c a)
  | .start req => inferInstanceAs (Decidable (req.target ≠ none))
  | .run i _ =>
    match h : c.next i with
    | some (.claimTransition fromStatus toStatus) =>
      decidable_of_iff
        (c.store.status = fromStatus → toStatus.terminal = true → c.store.Only toStatus)
        (by rw [Undivided, h])
    | some (.findLatest _) | some (.create _) | some (.replaceActive _ _ _)
    | some (.updateStatus _ _ _ _) | some (.findAttempt _) | some (.transfer _ _ _ _)
    | some (.getTransactionReceipt _) | some .findEscrow | some .checks
    | some .resolvePayoutAddress | some (.revertStatus _ _) | some .updateResult
    | some .emitEscrowTransition | none => isTrue (by rw [Undivided, h]; trivial)
  | .crash _ => inferInstanceAs (Decidable True)

/-- The base units that left the escrow and did not revert. -/
def WdkStore.sentOut (W : WdkConfig) (s : WdkStore) : ℤ :=
  ((s.broadcasts.zipIdx.filter fun b =>
    b.1.operationType ≠ .LOCK ∧ W.reverts b.2 = false).map fun b => b.1.amount).sum

/-- What a transfer finds, and what left the escrow. -/
structure OneOutcome (W : WdkConfig) (c : Wallet) : Prop where
  exclusive : ∀ {i id recipient : ℕ} {operationType : OperationType} {baseUnits : ℤ},
    c.next i = some (.transfer id operationType recipient baseUnits) →
    ∀ status, operationType.outcome = some status → c.store.Only status
  total : c.store.sentOut W ≤ W.total

/-! ## Guards -/

/-- The request holds the status it claimed. -/
def Held (req : WdkReq) (log : List Fact) : Prop :=
  ∃ status, req.target = some status ∧ .claimed status ∈ log ∧ .reverted status ∉ log

/-- What a request of the service may call. -/
def ServiceGuard (W : WdkConfig) (req : WdkReq) (log : List Fact) : Call → Prop
  | .updateStatus _ _ _ _ => Held req log ∧
      ∀ id row, .attempt id row ∈ log → req.moves row.operationType = true
  | .transfer _ operationType _ baseUnits => Held req log ∧ req.moves operationType = true ∧
      (operationType = .SPLIT_BUYER → baseUnits ≤ W.total)
  | .claimTransition fromStatus toStatus => ValidTransition fromStatus toStatus ∧
      req.target = some toStatus
  | .revertStatus claimedStatus _ => req.target = some claimedStatus ∧ Held req log
  | _ => True

/-- The guard of a request that has an outcome. -/
def OutcomeGuard (W : WdkConfig) (req : WdkReq) (log : List Fact) (q : Call) : Prop :=
  req.target ≠ none → ServiceGuard W req log q

/-- The calls a request makes while it holds its claim. -/
def WdkReq.Provides (W : WdkConfig) (req : WdkReq) : Call → Prop
  | .findLatest operationType => req.moves operationType = true
  | .create input => req.moves input.operationType = true
  | .replaceActive _ _ input => req.moves input.operationType = true
  | .transfer _ operationType _ baseUnits => req.moves operationType = true ∧
      (operationType = .SPLIT_BUYER → baseUnits ≤ W.total)
  | .claimTransition _ _ => False
  | .revertStatus _ _ => False
  | _ => True

/-- What it learns meanwhile. -/
def WdkReq.Learns (req : WdkReq) : Fact → Prop
  | .attempt _ row => req.moves row.operationType = true
  | .claimed _ => False
  | .reverted _ => False
  | _ => True

/-- The operation a call reads or makes an attempt of. -/
def Call.operation? : Call → Option OperationType
  | .findLatest operationType => some operationType
  | .create input => some input.operationType
  | .replaceActive _ _ input => some input.operationType
  | _ => none

/-- What can be learned from a call. -/
def Call.Teaches (q : Call) : Fact → Prop
  | .attempt _ row => q.operation? = some row.operationType
  | .claimed status => ∃ fromStatus, q = .claimTransition fromStatus status
  | .reverted status => ∃ fromStatus, q = .revertStatus status fromStatus
  | _ => True

/-- A call teaches what is seen of it. -/
theorem teaches_of_observe (q : Call) (s : WdkStore) (r : Except WdkError (Answer q)) :
    ∀ f ∈ observe q s r, q.Teaches f := by
  intro f hf
  cases q with
  | findLatest operationType =>
    rcases r with e | _ | ⟨a, id⟩
    · cases hf
    · cases hf
    · rcases List.mem_cons.mp hf with rfl | hf
      · rfl
      rcases List.mem_append.mp hf with hf | hf
      · obtain ⟨txHash, -, rfl⟩ := List.mem_map.mp hf
        trivial
      · split at hf
        · rw [List.mem_singleton.mp hf]
          trivial
        · cases hf
  | create input =>
    cases r with
    | error e => cases hf
    | ok id =>
      rw [List.mem_singleton.mp hf]
      rfl
  | replaceActive previousId expected input =>
    cases r with
    | error e => cases hf
    | ok id =>
      rw [List.mem_singleton.mp hf]
      rfl
  | updateStatus id status txHash expected =>
    rcases r with e | _ | _
    · cases hf
    · cases hf
    · have hwritten : ∀ f ∈ written id status txHash,
          (Call.updateStatus id status txHash expected).Teaches f := by
        cases status <;> cases txHash <;> simp [written, Call.Teaches]
      exact hwritten f hf
  | transfer id operationType recipient baseUnits =>
    cases r with
    | error e =>
      rw [List.mem_singleton.mp hf]
      trivial
    | ok txHash =>
      rcases List.mem_cons.mp hf with rfl | hf
      · trivial
      · rw [List.mem_singleton.mp hf]
        trivial
  | getTransactionReceipt txHash =>
    rcases r with e | _ | status
    · cases hf
    · cases hf
    · rw [List.mem_singleton.mp hf]
      trivial
  | claimTransition fromStatus toStatus =>
    rcases r with e | _ | _
    · cases hf
    · cases hf
    · rw [List.mem_singleton.mp hf]
      exact ⟨fromStatus, rfl⟩
  | revertStatus claimedStatus fromStatus =>
    rw [List.mem_singleton.mp hf]
    exact ⟨fromStatus, rfl⟩
  | _ => cases hf

/-- A request learns of its own operations only. -/
theorem learns_of_provides {req : WdkReq} (q : Call) (s : WdkStore)
    (r : Except WdkError (Answer q)) (hq : req.Provides W q) :
    ∀ f ∈ observe q s r, req.Learns f := by
  intro f hf
  have hteaches := teaches_of_observe q s r f hf
  cases f with
  | attempt id row =>
    cases q with
    | findLatest operationType => exact (congrArg req.moves (Option.some.inj hteaches)).symm.trans hq
    | create input => exact (congrArg req.moves (Option.some.inj hteaches)).symm.trans hq
    | replaceActive previousId expected input => exact (congrArg req.moves (Option.some.inj hteaches)).symm.trans hq
    | _ => cases hteaches
  | claimed status =>
    obtain ⟨fromStatus, rfl⟩ := hteaches
    exact hq
  | reverted status =>
    obtain ⟨fromStatus, rfl⟩ := hteaches
    exact hq
  | _ => trivial

section Makes

variable {req : WdkReq}

theorem updateStatus_makes (id : ℕ) (status : AttemptStatus) (txHash : Option ℕ)
    (expected : List AttemptStatus) :
    (updateStatus id status txHash expected).Makes (req.Provides W) :=
  Prog.Makes.bind (fun _ => Prog.Makes.bind (fun _ => Prog.Makes.bind
    (fun _ => Prog.makes_require _ _) (Prog.makes_require _ _)) (Prog.makes_perform trivial))
    (Prog.makes_perform trivial)

theorem replaceAttempt_makes {id : ℕ} {expected : List AttemptStatus} {input : AttemptInput}
    (h : req.moves input.operationType = true) :
    (replaceAttempt id expected input).Makes (req.Provides W) :=
  Prog.Makes.bind (fun _ => Prog.makes_pure _) (Prog.makes_perform h)

/-- Finding or making an attempt makes calls of the request. -/
theorem ensureAttempt_makes {input : AttemptInput} (h : req.moves input.operationType = true) :
    (ensureAttempt input).Makes (req.Provides W) := by
  refine Prog.Makes.bind (fun found => ?_) (Prog.makes_perform h)
  obtain _ | ⟨last, id⟩ := found
  · exact Prog.Makes.bind (fun _ => Prog.makes_pure _) (Prog.makes_perform h)
  · refine Prog.Makes.bind (fun _ => ?_) (Prog.makes_require _ _)
    cases last.status with
    | CONFIRMED => exact Prog.Makes.bind (fun _ => Prog.makes_pure _) (Prog.makes_orThrow _ _)
    | SUBMITTED =>
      refine Prog.Makes.bind (fun txHash => ?_) (Prog.makes_orThrow _ _)
      refine Prog.Makes.bind (fun receipt => Prog.Makes.bind (fun confirmed => ?_)
        (Prog.makes_orThrow _ _)) (Prog.makes_perform trivial)
      exact Prog.Makes.ite (Prog.Makes.bind (fun _ => Prog.makes_pure _) (updateStatus_makes _ _ _ _))
        (Prog.Makes.bind (fun _ => replaceAttempt_makes h) (updateStatus_makes _ _ _ _))
    | SUBMISSION_UNKNOWN => exact Prog.makes_throw _
    | PREPARED => exact Prog.makes_pure _
    | FAILED_BEFORE_SUBMISSION => exact replaceAttempt_makes h
    | REVERTED => exact replaceAttempt_makes h

/-- Waiting for a receipt makes calls of the request. -/
theorem waitForReceiptOutcome_makes (txHash : ℕ) : ∀ attempts : ℕ,
    (waitForReceiptOutcome txHash attempts).Makes (req.Provides W)
  | 0 => Prog.makes_pure _
  | attempts + 1 => by
    refine Prog.Makes.bind (fun receipt => ?_) (Prog.makes_perform trivial)
    cases receipt with
    | none => exact waitForReceiptOutcome_makes txHash attempts
    | some status => exact Prog.makes_pure _

/-- A transfer makes calls of the request. -/
theorem executeTransfer_makes {input : AttemptInput} {baseUnits : ℤ}
    (h : req.moves input.operationType = true)
    (hle : input.operationType = .SPLIT_BUYER → baseUnits ≤ W.total) :
    (executeTransfer W input baseUnits).Makes (req.Provides W) := by
  refine Prog.Makes.bind (fun outcome => ?_) (ensureAttempt_makes h)
  cases outcome with
  | RESUME_CONFIRMED txHash => exact Prog.makes_pure _
  | PROCEED id =>
    have htransfer : req.Provides W
        (.transfer id input.operationType input.destination baseUnits) := ⟨h, hle⟩
    refine Prog.Makes.bind (fun _ => Prog.Makes.bind (fun txHash => Prog.Makes.bind (fun _ =>
      Prog.Makes.bind (fun outcome => ?_) (waitForReceiptOutcome_makes _ _))
      (updateStatus_makes _ _ _ _)) (Prog.makes_perform htransfer)) (updateStatus_makes _ _ _ _)
    rcases outcome with _ | _ | _
    · exact Prog.makes_throw _
    · exact Prog.Makes.bind (fun _ => Prog.makes_throw _) (updateStatus_makes _ _ _ _)
    · exact Prog.Makes.bind (fun _ => Prog.makes_pure _) (updateStatus_makes _ _ _ _)

theorem whole_makes {operationType : OperationType} {destination : ℕ}
    (h : req.moves operationType = true) (hne : operationType ≠ .SPLIT_BUYER) :
    (executeTransfer W (W.whole operationType destination) W.total).Makes (req.Provides W) :=
  executeTransfer_makes h fun hop => absurd hop hne

theorem buyerAmount_le {buyerBps : ℤ} (hpos : 0 < buyerBps) (hlt : buyerBps < 10000) :
    W.buyerAmount buyerBps ≤ W.total := by
  have htotal : 0 ≤ W.total := Int.natCast_nonneg _
  rw [WdkConfig.buyerAmount, Int.tdiv_eq_ediv_of_nonneg (mul_nonneg htotal hpos.le)]
  refine Int.ediv_le_of_le_mul (by norm_num) ?_
  exact mul_le_mul_of_nonneg_left hlt.le htotal

/-- A split makes calls of the request. -/
theorem splitFunds_makes {buyer seller : Option ℕ} {buyerAddress sellerAddress : ℕ}
    {buyerBps : ℤ} (hpos : 0 < buyerBps) (hlt : buyerBps < 10000) :
    (splitFunds W buyerAddress sellerAddress buyerBps).Makes
      ((WdkReq.serviceSplitFunds buyer seller buyerBps).Provides W) := by
  have hbuyer : (executeTransfer W (legInput .SPLIT_BUYER buyerAddress (W.buyerAmount buyerBps))
      (W.buyerAmount buyerBps)).Makes
        ((WdkReq.serviceSplitFunds buyer seller buyerBps).Provides W) :=
    executeTransfer_makes rfl fun _ => buyerAmount_le hpos hlt
  have hseller : ∀ baseUnits : ℤ,
      (executeTransfer W (legInput .SPLIT_SELLER sellerAddress baseUnits) baseUnits).Makes
        ((WdkReq.serviceSplitFunds buyer seller buyerBps).Provides W) :=
    fun _ => executeTransfer_makes rfl nofun
  exact Prog.Makes.bind (fun _ => Prog.Makes.bind (fun _ => Prog.makes_pure _) (hseller _)) hbuyer

end Makes

section Guards

variable {can : ∀ q : Call, WdkStore → Except WdkError (Answer q) → Prop} {req : WdkReq}

/-- The calls before the claim, which are not observed. -/
def Call.early : Call → Bool
  | .findEscrow | .checks | .resolvePayoutAddress => true
  | _ => false

/-- What comes before the claim is guarded. -/
theorem early_guarded {α : Type} {p : WdkOp α} {f : α → WdkOp (List ℕ)}
    (hp : p.Makes fun q => q.early = true)
    (hf : ∀ a, (f a).Calls can observe (ServiceGuard W req) []) :
    (p >>= f).Calls can observe (ServiceGuard W req) [] := by
  have hsilent : p.Guarded can observe (ServiceGuard W req) (fun log' _ => log' = []) [] := by
    refine Prog.Makes.silent (fun q log hq => ?_) (fun q s r hq => ?_) hp
    · cases q <;> trivial
    · cases q <;> first | rfl | cases hq
  refine Prog.Calls.bind (hsilent.mono ?_)
  rintro log r rfl a -
  exact hf a

/-- The provider, and the writes after it, run while the claim is held. -/
theorem held_guarded {status : EscrowStatus} {p : WdkOp (List ℕ)} (hreq : req.target = some status)
    (hp : p.Makes (req.Provides W)) :
    p.Guarded can observe (ServiceGuard W req) (fun log _ => Held req log) [.claimed status] := by
  have hheld : ∀ {new : List Fact}, (∀ f ∈ new, req.Learns f) →
      Held req (new ++ [.claimed status]) := by
    intro new hnew
    refine ⟨status, hreq, List.mem_append_right _ List.mem_cons_self, fun h => ?_⟩
    rcases List.mem_append.mp h with h | h
    · exact hnew _ h
    · cases List.mem_singleton.mp h
  have hadds : p.Guarded can observe (fun log q => req.Provides W q ∧
      ∃ new, log = new ++ [.claimed status] ∧ ∀ f ∈ new, req.Learns f)
      (fun log _ => ∃ new, log = new ++ [.claimed status] ∧ ∀ f ∈ new, req.Learns f)
      ([] ++ [.claimed status]) := Prog.Makes.adds learns_of_provides hp nofun
  refine (hadds.imp ?_).mono ?_
  · rintro log q ⟨hq, new, rfl, hnew⟩
    cases q with
    | updateStatus id st txHash expected =>
      refine ⟨hheld hnew, fun id row hrow => ?_⟩
      rcases List.mem_append.mp hrow with hrow | hrow
      · exact hnew _ hrow
      · cases List.mem_singleton.mp hrow
    | transfer id operationType recipient baseUnits => exact ⟨hheld hnew, hq⟩
    | claimTransition f t => exact hq.elim
    | revertStatus f t => exact hq.elim
    | _ => trivial
  · rintro log r ⟨new, rfl, hnew⟩
    exact hheld hnew

/-- A settlement is guarded. -/
theorem settle_guarded {fromStatus toStatus : EscrowStatus} {provider : WdkOp (List ℕ)}
    (hreq : req.target = some toStatus) (hp : provider.Makes (req.Provides W)) :
    (settle fromStatus toStatus provider).Calls can observe (ServiceGuard W req) [] := by
  refine Prog.Calls.bind ?_
  refine (Prog.guarded_bind _ _ _).mpr ((Prog.guarded_require _ _).mpr
    ⟨fun hvalid => ?_, fun _ _ => nofun⟩)
  have hvalid' : ValidTransition fromStatus toStatus := by simpa [ValidTransition] using hvalid
  refine (Prog.guarded_bind _ _ _).mpr ⟨⟨hvalid', hreq⟩, fun s r _ => ?_⟩
  rcases r with e | _ | _
  · exact fun _ => nofun
  · exact fun _ => nofun
  · rintro u -
    have hbody : (provider >>= fun txIds => await .updateResult >>= fun _ =>
        await .emitEscrowTransition >>= fun _ => pure txIds).Makes (req.Provides W) :=
      Prog.Makes.bind (fun _ => Prog.Makes.bind (fun _ => Prog.Makes.bind
        (fun _ => Prog.makes_pure _) (Prog.makes_perform trivial)) (Prog.makes_perform trivial)) hp
    refine (Prog.guarded_tryCatch _ _ _).mpr ((held_guarded hreq hbody).mono fun log r hheld => ?_)
    cases r with
    | ok txIds => trivial
    | error e =>
      exact Prog.Calls.then ((Prog.guarded_swallow _ _).mpr (Prog.calls_perform ⟨hreq, hheld⟩))
        fun _ _ => trivial

theorem early_perform {q : Call} (h : q.early = true) :
    (await q).Makes fun q => q.early = true :=
  Prog.makes_perform h

theorem loadEscrow_early (toStatus : EscrowStatus) :
    (loadEscrow toStatus).Makes fun q => q.early = true :=
  Prog.Makes.bind (fun _ => Prog.Makes.bind (fun _ => Prog.Makes.bind (fun _ => Prog.makes_pure _)
    (Prog.makes_require _ _)) (early_perform rfl)) (early_perform rfl)

theorem resolveAddress_early (address : Option ℕ) :
    (resolveAddress address).Makes fun q => q.early = true := by
  cases address with
  | none => exact early_perform rfl
  | some a => exact Prog.makes_pure _

theorem single_makes {N : Call → Prop} {p : WdkOp ℕ} (hp : p.Makes N) : (single p).Makes N :=
  Prog.Makes.bind (fun _ => Prog.makes_pure _) hp

/-- Every call of a request of the service is guarded. -/
theorem service_guarded (hreq : req.target ≠ none) :
    (req.prog W).Calls can observe (ServiceGuard W req) [] := by
  cases req with
  | serviceLockFunds =>
    refine early_guarded (early_perform rfl) fun status => Prog.Calls.require_bind fun _ =>
      early_guarded (early_perform rfl) fun _ => settle_guarded rfl ?_
    exact single_makes (whole_makes rfl nofun)
  | openDispute =>
    refine early_guarded (early_perform rfl) fun status => Prog.Calls.require_bind fun hvalid =>
      early_guarded (early_perform rfl) fun _ => Prog.Calls.then ?_ fun _ log => ?_
    · have hvalid' : ValidTransition status .disputed := by simpa [ValidTransition] using hvalid
      exact Prog.Calls.require_bind fun _ => (Prog.calls_perform ⟨hvalid', rfl⟩).then
        fun _ _ => Prog.calls_require _ _
    · exact (Prog.calls_perform trivial).then fun _ _ => (Prog.calls_perform trivial).then
        fun _ _ => trivial
  | serviceReleaseFunds toAddress =>
    refine early_guarded (loadEscrow_early _) fun status => early_guarded (resolveAddress_early _)
      fun address => early_guarded (early_perform rfl) fun _ => settle_guarded rfl ?_
    exact single_makes (whole_makes rfl nofun)
  | serviceRefundFunds =>
    refine early_guarded (loadEscrow_early _) fun status => early_guarded (early_perform rfl)
      fun _ => settle_guarded rfl ?_
    exact single_makes (whole_makes rfl nofun)
  | serviceSplitFunds buyerAddress sellerAddress buyerBps =>
    refine Prog.Calls.require_bind fun hbps => early_guarded (loadEscrow_early _) fun status =>
      early_guarded (early_perform rfl) fun _ => early_guarded (resolveAddress_early _)
        fun buyer => early_guarded (resolveAddress_early _) fun seller => settle_guarded rfl ?_
    simp only [Bool.and_eq_true, decide_eq_true_eq] at hbps
    exact splitFunds_makes hbps.1 hbps.2
  | _ => exact absurd rfl hreq

theorem outcome_guards (req : WdkReq) :
    (req.prog W).Calls can observe (OutcomeGuard W req) [] := by
  by_cases hreq : req.target = none
  · refine Prog.guarded_of_forall (fun log q h => absurd hreq h) (fun _ _ => trivial) _ _
  · exact (service_guarded hreq).imp fun log q hq _ => hq

end Guards

/-! ## What a call changes -/

section Effects

variable {q : Call} {env : WdkEnv} {s : WdkStore} {log : List Fact}

/-- Only a claim or a revert changes the status. -/
theorem status_exec (W : WdkConfig) (q : Call) (env : WdkEnv) (s : WdkStore) :
    (q.exec W env s).2.status = s.status ∨
      ∃ fromStatus toStatus, (q = .claimTransition fromStatus toStatus ∨
          q = .revertStatus fromStatus toStatus) ∧
        s.status = fromStatus ∧ (q.exec W env s).2.status = toStatus := by
  rcases env.fate.settle_store .fault (q.run W env s) s with hstore | hstore <;>
    rw [Call.exec, hstore]
  · exact Or.inl rfl
  cases q with
  | create input =>
    rw [Call.run, WdkStore.create]
    split <;> exact Or.inl rfl
  | replaceActive id expected input =>
    rw [Call.run, WdkStore.replaceActive]
    refine Or.inl ?_
    split
    · rfl
    · dsimp only
      split
      · split <;> rfl
      · rfl
  | updateStatus id status txHash expected =>
    rw [Call.run, WdkStore.updateStatus]
    refine Or.inl ?_
    split
    · rfl
    · split <;> rfl
  | claimTransition f t =>
    rw [Call.run, WdkStore.moveStatus]
    split
    · next h => exact Or.inr ⟨f, t, Or.inl rfl, h, rfl⟩
    · exact Or.inl rfl
  | revertStatus f t =>
    rw [Call.run, WdkStore.moveStatus]
    split
    · next h => exact Or.inr ⟨f, t, Or.inr rfl, h, rfl⟩
    · exact Or.inl rfl
  | _ => exact Or.inl rfl

/-- A claim that is learned of took effect. -/
theorem claimed_observed {status : EscrowStatus}
    (h : .claimed status ∈ observe q s (q.exec W env s).1) :
    ∃ fromStatus, q = .claimTransition fromStatus status ∧ s.status = fromStatus ∧
      (q.exec W env s).2.status = status := by
  obtain ⟨fromStatus, rfl⟩ := teaches_of_observe _ _ _ _ h
  rcases env.fate.settle_answer .fault (Call.run W (.claimTransition fromStatus status) env s) s
    with hsettle | hsettle
  · rw [Call.exec, hsettle] at h ⊢
    rw [Call.run, WdkStore.moveStatus] at h ⊢
    by_cases hmoved : s.status = fromStatus
    · rw [if_pos hmoved]
      exact ⟨fromStatus, rfl, hmoved, rfl⟩
    · rw [if_neg hmoved] at h
      cases h
  · rw [Call.exec, hsettle] at h
    cases h

/-- A row is live after a call because it was before, or because the call marked it. -/
theorem live_exec (hq : Allowed W log q) {a' : Attempt}
    (ha' : a' ∈ (q.exec W env s).2.attempts) (hlive : a'.live = true) :
    (∃ a ∈ s.attempts, a.live = true ∧ a.operationType = a'.operationType) ∨
      ∃ id status txHash expected row a, q = .updateStatus id status txHash expected ∧
        .attempt id row ∈ log ∧ s.attempts[id]? = some a ∧ a.operationType = a'.operationType := by
  rcases env.fate.settle_store .fault (q.run W env s) s with hstore | hstore <;>
    rw [Call.exec, hstore] at ha'
  · exact Or.inl ⟨a', ha', hlive, rfl⟩
  cases q with
  | create input =>
    rw [Call.run, WdkStore.create] at ha'
    split at ha'
    · exact Or.inl ⟨a', ha', hlive, rfl⟩
    · rcases List.mem_append.mp ha' with ha' | ha'
      · exact Or.inl ⟨a', ha', hlive, rfl⟩
      · rw [List.mem_singleton.mp ha'] at hlive
        cases hlive
  | replaceActive id expected input =>
    rw [Call.run, WdkStore.replaceActive] at ha'
    cases hrow : s.attempts[id]? with
    | none =>
      rw [hrow] at ha'
      exact Or.inl ⟨a', ha', hlive, rfl⟩
    | some previous =>
      simp only [hrow] at ha'
      split at ha'
      · split at ha'
        · exact Or.inl ⟨a', ha', hlive, rfl⟩
        · rcases List.mem_append.mp ha' with ha' | ha'
          · rw [modify_eq_set hrow] at ha'
            rcases List.mem_or_eq_of_mem_set ha' with ha' | rfl
            · exact Or.inl ⟨a', ha', hlive, rfl⟩
            · exact Or.inl ⟨previous, List.mem_of_getElem? hrow, hlive, rfl⟩
          · rw [List.mem_singleton.mp ha'] at hlive
            cases hlive
      · exact Or.inl ⟨a', ha', hlive, rfl⟩
  | updateStatus id status txHash expected =>
    rw [Call.run, WdkStore.updateStatus] at ha'
    cases hrow : s.attempts[id]? with
    | none =>
      rw [hrow] at ha'
      exact Or.inl ⟨a', ha', hlive, rfl⟩
    | some a =>
      simp only [hrow] at ha'
      split at ha'
      · next hexpected =>
        rw [modify_eq_set hrow] at ha'
        rcases List.mem_or_eq_of_mem_set ha' with ha' | rfl
        · exact Or.inl ⟨a', ha', hlive, rfl⟩
        · cases hq with
          | attempted hknown => exact Or.inr ⟨id, _, _, _, _, a, rfl, hknown, hrow, rfl⟩
          | submitted =>
            have hstatus : a.status = .SUBMISSION_UNKNOWN := by simpa using hexpected
            exact Or.inl ⟨a, List.mem_of_getElem? hrow, by rw [Attempt.live, hstatus], rfl⟩
          | confirmed =>
            have hstatus : a.status = .SUBMITTED := by simpa using hexpected
            exact Or.inl ⟨a, List.mem_of_getElem? hrow, by rw [Attempt.live, hstatus], rfl⟩
          | reverted => cases hlive
      · exact Or.inl ⟨a', ha', hlive, rfl⟩
  | claimTransition f t =>
    rw [Call.run, WdkStore.moveStatus] at ha'
    split at ha' <;> exact Or.inl ⟨a', ha', hlive, rfl⟩
  | revertStatus f t =>
    rw [Call.run, WdkStore.moveStatus] at ha'
    split at ha' <;> exact Or.inl ⟨a', ha', hlive, rfl⟩
  | _ => exact Or.inl ⟨a', ha', hlive, rfl⟩

end Effects

/-! ## Runs -/

/-- A thread holds a claim of an outcome. -/
structure Holding (c : Wallet) (i : ℕ) (status : EscrowStatus) : Prop where
  terminal : status.terminal = true
  claimed : .claimed status ∈ c.own i
  kept : .reverted status ∉ c.own i

/-- One thread at most holds a claim. The status is the one it claimed, and what is live is of
its outcome. -/
structure Exclusive (W : WdkConfig) (c : Wallet) : Prop where
  services : ∀ t ∈ c.threads, t.req.target ≠ none
  holder : ∀ {i : ℕ} {status : EscrowStatus}, Holding c i status → c.store.status = status
  unique : ∀ {i j : ℕ} {status status' : EscrowStatus}, Holding c i status →
    Holding c j status' → i = j
  alone : ∀ {i : ℕ} {status : EscrowStatus}, Holding c i status → c.store.Only status
  single : ∀ a ∈ c.store.attempts, a.live = true → ∀ status,
    a.operationType.outcome = some status → c.store.Only status
  legs : ∀ b ∈ c.store.broadcasts, b.operationType = .SPLIT_BUYER → b.amount ≤ W.total

theorem not_holding_init {s : WdkStore} {i : ℕ} {status : EscrowStatus} :
    ¬ Holding (.init s) i status := by
  intro h
  cases h.claimed

theorem exclusive_init (status : EscrowStatus) : Exclusive W (.init (.start status)) :=
  ⟨by simp [Config.init], fun h => absurd h not_holding_init, fun h => absurd h not_holding_init,
    fun h => absurd h not_holding_init, by simp [Config.init, WdkStore.start],
    by simp [Config.init, WdkStore.start]⟩

theorem outcome_terminal {operationType : OperationType} {status : EscrowStatus}
    (h : operationType.outcome = some status) : status.terminal = true := by
  cases operationType <;> cases h <;> rfl

section Answer

variable {c : Wallet} {i : ℕ} {env : WdkEnv} {req : WdkReq} {q : Call}
variable {k : Except WdkError (Answer q) → WdkOp (List ℕ)}

/-- What a thread holds after a call, it held before, or it claimed with the call. -/
theorem Holding.before {j : ℕ} {status : EscrowStatus}
    (h : Holding (c.answer (wdk W) i env req q k) j status) :
    Holding c j status ∨ j = i ∧ ∃ fromStatus, q = .claimTransition fromStatus status ∧
      c.store.status = fromStatus ∧ (q.exec W env c.store).2.status = status := by
  have hkept : Fact.reverted status ∉ c.own j := fun hr => h.kept (Config.mem_own_answer hr)
  rcases Config.mem_own_of_answer h.claimed with ⟨rfl, hobserved⟩ | hclaimed
  · exact Or.inr ⟨rfl, claimed_observed hobserved⟩
  · exact Or.inl ⟨h.terminal, hclaimed, hkept⟩

/-- A thread that gives its claim back holds it no more. -/
theorem not_holding_of_revert {claimedStatus fromStatus : EscrowStatus}
    (hq : q = .revertStatus claimedStatus fromStatus) :
    ¬ Holding (c.answer (wdk W) i env req q k) i claimedStatus := by
  subst hq
  intro h
  refine h.kept ?_
  rw [Config.own_answer_self]
  exact List.mem_cons_self

/-- Nobody holds a claim while the status is not an outcome. -/
theorem Exclusive.not_holding (hI : Exclusive W c) (hstatus : c.store.status.terminal = false)
    {j : ℕ} {status : EscrowStatus} : ¬ Holding c j status := by
  intro h
  rw [hI.holder h, h.terminal] at hstatus
  cases hstatus

theorem terminal_of_valid {fromStatus toStatus : EscrowStatus}
    (h : ValidTransition fromStatus toStatus) : fromStatus.terminal = false := by
  cases hterminal : fromStatus.terminal with
  | false => rfl
  | true => exact absurd h (EscrowStatus.not_valid_of_terminal hterminal toStatus)

/-- The holder is the caller of a call that needs the claim. -/
theorem Held.holding {status : EscrowStatus} (h : Held req (c.own i))
    (htarget : req.target = some status) (hterminal : status.terminal = true) :
    Holding c i status := by
  obtain ⟨status', htarget', hclaimed, hkept⟩ := h
  rw [htarget] at htarget'
  cases htarget'
  exact ⟨hterminal, hclaimed, hkept⟩

/-- After a call the status is still the one the holder claimed. -/
theorem Exclusive.holder_answer (hI : Exclusive W c)
    (hguard : ServiceGuard W req (c.own i) q) {j : ℕ} {status : EscrowStatus}
    (h : Holding (c.answer (wdk W) i env req q k) j status) :
    (q.exec W env c.store).2.status = status := by
  rcases h.before with hbefore | ⟨-, -, -, -, hnow⟩
  · have hstatus := hI.holder hbefore
    rcases status_exec W q env c.store with hsame | ⟨f, t, rfl | rfl, hfrom, -⟩
    · exact hsame.trans hstatus
    · -- a claim starts from a status nobody holds
      have hopen := terminal_of_valid hguard.1
      rw [← hfrom] at hopen
      exact absurd hbefore (hI.not_holding hopen)
    · -- the holder gives its own claim back
      obtain rfl : status = f := hstatus.symm.trans hfrom
      have hholding := hguard.2.holding hguard.1 hbefore.terminal
      obtain rfl := hI.unique hbefore hholding
      exact absurd h (not_holding_of_revert rfl)
  · exact hnow

/-- After an answer one request at most holds the escrow. -/
theorem Exclusive.unique_answer (hI : Exclusive W c) (hguard : ServiceGuard W req (c.own i) q)
    {j j' : ℕ} {status status' : EscrowStatus}
    (h : Holding (c.answer (wdk W) i env req q k) j status)
    (h' : Holding (c.answer (wdk W) i env req q k) j' status') : j = j' := by
  have hopen : ∀ {f t n st}, q = .claimTransition f t → c.store.status = f →
      ¬ Holding c n st := by
    rintro f t n st rfl hfrom
    refine hI.not_holding ?_
    rw [hfrom]
    exact terminal_of_valid hguard.1
  rcases h.before with hbefore | ⟨rfl, f, hq, hfrom, -⟩ <;>
    rcases h'.before with hbefore' | ⟨rfl, f', hq', hfrom', -⟩
  · exact hI.unique hbefore hbefore'
  · exact absurd hbefore (hopen hq' hfrom')
  · exact absurd hbefore' (hopen hq hfrom)
  · rfl

/-- An attempt that is marked is of the outcome its caller holds. -/
theorem Ledger.outcome_of_marked (hL : Ledger W c) {id : ℕ} {row : AttemptInput} {a : Attempt}
    {st : AttemptStatus} {txHash : Option ℕ} {expected : List AttemptStatus}
    (hguard : ServiceGuard W req (c.own i) (.updateStatus id st txHash expected))
    (hrow : .attempt id row ∈ c.own i) (ha : c.store.attempts[id]? = some a) :
    a.operationType.outcome = none ∨
      ∃ status, a.operationType.outcome = some status ∧ Holding c i status := by
  obtain ⟨a', ha', hinput⟩ := hL.facts hrow
  rw [ha] at ha'
  cases ha'
  have hmoves := hguard.2 id row hrow
  rw [← hinput] at hmoves
  cases houtcome : a.operationType.outcome with
  | none => exact Or.inl rfl
  | some status =>
    rcases WdkReq.outcome_of_moves hmoves with hnone | htarget
    · rw [houtcome] at hnone
      cases hnone
    · rw [houtcome] at htarget
      exact Or.inr ⟨status, rfl, hguard.1.holding htarget.symm (outcome_terminal houtcome)⟩

/-- After an answer what holds the escrow is alone with its outcome. -/
theorem Exclusive.alone_answer (hI : Exclusive W c) (hL : Ledger W c)
    (hallowed : Allowed W (c.own i) q) (hguard : ServiceGuard W req (c.own i) q)
    (hclaim : ∀ f t, q = .claimTransition f t → c.store.status = f → t.terminal = true →
      c.store.Only t) {j : ℕ} {status : EscrowStatus}
    (h : Holding (c.answer (wdk W) i env req q k) j status) :
    (q.exec W env c.store).2.Only status := by
  intro a' ha' hlive
  rcases live_exec hallowed ha' hlive with ⟨a, ha, halive, hop⟩ |
    ⟨id, st, txHash, expected, row, a, rfl, hrow, ha, hop⟩
  · rw [← hop]
    rcases h.before with hbefore | ⟨-, f, rfl, hfrom, -⟩
    · exact hI.alone hbefore a ha halive
    · exact hclaim f status rfl hfrom h.terminal a ha halive
  · rw [← hop]
    rcases h.before with hbefore | ⟨-, f, hq, -⟩
    · rcases hL.outcome_of_marked hguard hrow ha with hnone | ⟨status', houtcome, hholding⟩
      · exact Or.inl hnone
      · obtain rfl := hI.unique hbefore hholding
        rw [houtcome, ← hI.holder hbefore, hI.holder hholding]
        exact Or.inr rfl
    · cases hq

/-- After an answer the live attempts have one outcome. -/
theorem Exclusive.single_answer (hI : Exclusive W c) (hL : Ledger W c)
    (hallowed : Allowed W (c.own i) q) (hguard : ServiceGuard W req (c.own i) q) :
    ∀ a ∈ (q.exec W env c.store).2.attempts, a.live = true → ∀ status,
      a.operationType.outcome = some status → (q.exec W env c.store).2.Only status := by
  intro a' ha' hlive status houtcome b' hb' hblive
  rcases live_exec hallowed ha' hlive with ⟨a, ha, halive, hop⟩ |
      ⟨id, st, txHash, expected, row, a, rfl, hrow, ha, hop⟩ <;>
    rw [← hop] at houtcome <;>
    rcases live_exec hallowed hb' hblive with ⟨b, hb, hblive, hbop⟩ |
      ⟨id', st', txHash', expected', row', b, hq, hrow', hb, hbop⟩ <;> rw [← hbop]
  · exact hI.single a ha halive status houtcome b hb hblive
  · subst hq
    rcases hL.outcome_of_marked hguard hrow' hb with hnone | ⟨status', hbout, hholding⟩
    · exact Or.inl hnone
    · rcases hI.alone hholding a ha halive with hnone | hsome
      · rw [houtcome] at hnone
        cases hnone
      · exact Or.inr (hbout.trans (hsome.symm.trans houtcome))
  · rcases hL.outcome_of_marked hguard hrow ha with hnone | ⟨status', haout, hholding⟩
    · rw [houtcome] at hnone
      cases hnone
    · rw [houtcome] at haout
      cases haout
      exact hI.alone hholding b hb hblive
  · cases hq
    rw [ha] at hb
    cases hb
    exact Or.inr houtcome

/-- An answer keeps the outcome exclusive. -/
theorem Exclusive.answer (hI : Exclusive W c) (hL : Ledger W c)
    (ht : c.threads[i]? = some ⟨req, .call q k, true⟩) (hallowed : Allowed W (c.own i) q)
    (houtcome : OutcomeGuard W req (c.own i) q)
    (hclaim : ∀ f t, q = .claimTransition f t → c.store.status = f → t.terminal = true →
      c.store.Only t) : Exclusive W (c.answer (wdk W) i env req q k) := by
  have hservice : req.target ≠ none := hI.services _ (List.mem_of_getElem? ht)
  have hguard := houtcome hservice
  refine ⟨fun t hmem => ?_, fun h => hI.holder_answer hguard h,
    fun h h' => hI.unique_answer hguard h h', fun h => hI.alone_answer hL hallowed hguard hclaim h,
    hI.single_answer hL hallowed hguard, fun b hb hop => ?_⟩
  · rcases List.mem_or_eq_of_mem_set hmem with hmem | rfl
    · exact hI.services t hmem
    · exact hservice
  · rcases broadcasts_exec W q env c.store with heq | ⟨id, op, recipient, baseUnits, rfl, heq⟩
    · exact hI.legs b (heq ▸ hb) hop
    · have hb' : b ∈ c.store.broadcasts ++ [⟨id, op, recipient, baseUnits⟩] := by
        rw [← heq]
        exact hb
      rcases List.mem_append.mp hb' with hb' | hb'
      · exact hI.legs b hb' hop
      · rw [List.mem_singleton.mp hb'] at hop ⊢
        exact hguard.2.2 hop

end Answer

/-! ## What left the escrow -/

section Sent

variable {s : WdkStore}

/-- The broadcasts that left the escrow and did not revert, with their hashes. -/
def WdkStore.outgoing (W : WdkConfig) (s : WdkStore) : List (Broadcast × ℕ) :=
  s.broadcasts.zipIdx.filter fun b => b.1.operationType ≠ .LOCK ∧ W.reverts b.2 = false

theorem mem_outgoing {b : Broadcast × ℕ} : b ∈ s.outgoing W ↔
    s.broadcasts[b.2]? = some b.1 ∧ b.1.operationType ≠ .LOCK ∧ W.reverts b.2 = false := by
  rw [WdkStore.outgoing, List.mem_filter, List.mem_zipIdx_iff_getElem?]
  simp

theorem outgoing_nodup : ((s.outgoing W).map Prod.snd).Nodup := by
  have hsub : ((s.outgoing W).map Prod.snd).Sublist (s.broadcasts.zipIdx.map Prod.snd) :=
    List.Sublist.map _ List.filter_sublist
  refine hsub.nodup ?_
  rw [List.zipIdx_map_snd]
  exact List.nodup_range'

/-- A broadcast that did not revert is of an attempt that is live. -/
theorem Sound.live_of_delivered (hs : Sound W s) {txHash : ℕ} {b : Broadcast}
    (hb : s.broadcasts[txHash]? = some b) (hmined : W.reverts txHash = false) :
    ∃ a ∈ s.attempts, a.live = true ∧ a.Sends W b := by
  obtain ⟨a, ha, hsends⟩ := hs.sender hb
  refine ⟨a, List.mem_of_getElem? ha, ?_, hsends⟩
  have hpossible := (hs.row ha).possible
  have hstarted := hsends.started
  have hnot : a.status ≠ .REVERTED := by
    intro hreverted
    obtain ⟨txHash', -, hfor, -, hreverts⟩ := (hs.row ha).sent (by rw [hreverted]; rfl)
    obtain rfl := hs.once ⟨b, hb, rfl⟩ hfor
    rw [hreverts hreverted] at hmined
    cases hmined
  rw [Attempt.live]
  cases hstatus : a.status with
  | PREPARED => exact absurd hstatus hstarted
  | REVERTED => exact absurd hstatus hnot
  | FAILED_BEFORE_SUBMISSION => exact absurd hstatus hpossible
  | _ => rfl

theorem outcome_of_ne_lock {operationType : OperationType} (h : operationType ≠ .LOCK) :
    ∃ status, operationType.outcome = some status := by
  cases operationType with
  | LOCK => exact absurd rfl h
  | _ => exact ⟨_, rfl⟩

/-- Two operations of one outcome are the same, or the two legs. -/
theorem same_or_legs {o o' : OperationType} (ho : o ≠ .LOCK) (h : o'.outcome = o.outcome) :
    o' = o ∨ o.isLeg = true ∧ o'.isLeg = true := by
  revert ho h
  cases o <;> cases o' <;> decide

theorem eq_of_isLeg {o : OperationType} (h : o.isLeg = true) :
    o = .SPLIT_BUYER ∨ o = .SPLIT_SELLER := by
  revert h
  cases o <;> decide

/-- What left the escrow is of one outcome. -/
theorem Exclusive.outcome_eq {c : Wallet} (hI : Exclusive W c) (hL : Ledger W c)
    {b b' : Broadcast × ℕ} (hb : b ∈ c.store.outgoing W) (hb' : b' ∈ c.store.outgoing W) :
    b'.1.operationType.outcome = b.1.operationType.outcome := by
  rw [mem_outgoing] at hb hb'
  obtain ⟨a, ha, halive, hsends⟩ := hL.sound.live_of_delivered hb.1 hb.2.2
  obtain ⟨a', ha', halive', hsends'⟩ := hL.sound.live_of_delivered hb'.1 hb'.2.2
  obtain ⟨status, houtcome⟩ := outcome_of_ne_lock hb.2.1
  rw [← hsends.operationType] at houtcome
  obtain ⟨status', houtcome'⟩ := outcome_of_ne_lock hb'.2.1
  rw [← hsends'.operationType] at houtcome' ⊢
  rw [← hsends.operationType, houtcome]
  rcases hI.single a ha halive status houtcome a' ha' halive' with hnone | hsome
  · rw [houtcome'] at hnone
    cases hnone
  · exact hsome

/-- Broadcasts of one outcome, each operation at most once, add up to the total at most. -/
theorem sum_outgoing_le {L : List (Broadcast × ℕ)} {total : ℤ} (htotal : 0 ≤ total)
    (hdistinct : L.Pairwise fun b b' => b.1.operationType ≠ b'.1.operationType)
    (hlegs : ∀ b ∈ L, ∀ b' ∈ L, b'.1.operationType = b.1.operationType ∨
      b.1.operationType.isLeg = true ∧ b'.1.operationType.isLeg = true)
    (hbuyer : ∀ b ∈ L, b.1.operationType = .SPLIT_SELLER → ∃ b' ∈ L,
      b'.1.operationType = .SPLIT_BUYER ∧ b'.1.amount = total - b.1.amount)
    (hone : ∀ b ∈ L, b.1.operationType ≠ .SPLIT_SELLER → b.1.amount ≤ total) :
    (L.map fun b => b.1.amount).sum ≤ total := by
  rcases L with _ | ⟨b, _ | ⟨b', _ | ⟨b'', rest⟩⟩⟩
  · simpa using htotal
  · by_cases hop : b.1.operationType = .SPLIT_SELLER
    · obtain ⟨b', hb', hop', -⟩ := hbuyer b List.mem_cons_self hop
      rw [List.mem_singleton.mp hb', hop] at hop'
      cases hop'
    · simpa using hone b List.mem_cons_self hop
  · have hne : b.1.operationType ≠ b'.1.operationType := by simpa using hdistinct
    obtain ⟨hleg, hleg'⟩ := (hlegs b (by simp) b' (by simp)).resolve_left hne.symm
    rcases eq_of_isLeg hleg with hop | hop <;> rcases eq_of_isLeg hleg' with hop' | hop'
    · exact absurd (hop.trans hop'.symm) hne
    · obtain ⟨x, hx, hxop, hamount⟩ := hbuyer b' (by simp) hop'
      have hxb : x = b := by
        rcases List.mem_cons.mp hx with rfl | hx
        · rfl
        · rw [List.mem_singleton.mp hx, hop'] at hxop
          cases hxop
      subst hxb
      simp [hamount]
    · obtain ⟨x, hx, hxop, hamount⟩ := hbuyer b (by simp) hop
      have hxb : x = b' := by
        rcases List.mem_cons.mp hx with rfl | hx
        · rw [hop] at hxop
          cases hxop
        · exact List.mem_singleton.mp hx
      subst hxb
      simp [hamount]
    · exact absurd (hop.trans hop'.symm) hne
  · -- three legs cannot all differ
    simp only [List.pairwise_cons, List.mem_cons, forall_eq_or_imp] at hdistinct
    obtain ⟨⟨hne, hne₂, -⟩, ⟨hne₃, -⟩, -⟩ := hdistinct
    obtain ⟨hleg, hleg'⟩ := (hlegs b (by simp) b' (by simp)).resolve_left hne.symm
    obtain ⟨-, hleg''⟩ := (hlegs b (by simp) b'' (by simp)).resolve_left hne₂.symm
    rcases eq_of_isLeg hleg with hop | hop <;> rcases eq_of_isLeg hleg' with hop' | hop' <;>
      rcases eq_of_isLeg hleg'' with hop'' | hop'' <;> simp_all

/-- Not more than the total is sent out. -/
theorem Exclusive.sentOut_le {c : Wallet} (hI : Exclusive W c) (hL : Ledger W c) :
    c.store.sentOut W ≤ W.total := by
  have hsum : c.store.sentOut W = ((c.store.outgoing W).map fun b => b.1.amount).sum := rfl
  rw [hsum]
  refine sum_outgoing_le (Int.natCast_nonneg _) ?_ ?_ ?_ ?_
  · have hnodup := List.pairwise_map.mp (@outgoing_nodup W c.store)
    refine hnodup.imp_of_mem fun hb hb' hne hop => hne ?_
    rw [mem_outgoing] at hb hb'
    exact hL.sound.delivered hb.1 hb'.1 hop hb.2.2 hb'.2.2
  · intro b hb b' hb'
    exact same_or_legs (mem_outgoing.mp hb).2.1 (hI.outcome_eq hL hb hb')
  · intro b hb hop
    obtain ⟨txHash, b', hb', hop', hamount, hmined⟩ := hL.sound.buyer (mem_outgoing.mp hb).1 hop
    exact ⟨(b', txHash), mem_outgoing.mpr ⟨hb', by rw [hop']; decide, hmined⟩, hop', hamount⟩
  · intro b hb hop
    have hmem := mem_outgoing.mp hb
    cases hleg : b.1.operationType.isLeg with
    | true =>
      exact hI.legs b.1 (List.mem_of_getElem? hmem.1) ((eq_of_isLeg hleg).resolve_right hop)
    | false =>
      obtain ⟨a, -, hsends⟩ := hL.sound.sender hmem.1
      have hwhole := hsends.due.2 (by rw [hsends.operationType]; exact hleg)
      exact hwhole.le

end Sent

/-- The claim of an outcome meets the condition of the run. -/
theorem only_of_undivided {c : Wallet} {i : ℕ} {env : WdkEnv} {req : WdkReq} {q : Call}
    {k : Except WdkError (Answer q) → WdkOp (List ℕ)}
    (ht : c.threads[i]? = some ⟨req, .call q k, true⟩) (h : Undivided c (.run i env))
    (f t : EscrowStatus) (hq : q = .claimTransition f t) (hstatus : c.store.status = f)
    (hterminal : t.terminal = true) : c.store.Only t := by
  subst hq
  rw [Undivided, Config.next_of_call ht] at h
  exact h hstatus hterminal

/-- As long as an outcome is claimed only when no attempt of another outcome may still deliver, a
transfer never meets one, and no more leaves the escrow than was locked. -/
theorem one_outcome (W : WdkConfig) (status : EscrowStatus) (as : List (Action WdkEnv WdkReq))
    (h : Config.Along (wdk W) Undivided (.init (.start status)) as) :
    OneOutcome W (Config.exec (wdk W) (.init (.start status)) as) := by
  have hrun := Config.run_invariant (S := wdk W) (R := fun _ => True)
    (G := fun req log q => Allowed W log q ∧ OutcomeGuard W req log q)
    (Q := fun req log r => SplitResult W req log r ∧ True) (A := Undivided)
    (I := fun c => Ledger W c ∧ Exclusive W c)
    (fun req => (prog_allowed req).and (outcome_guards req)) (fun _ _ _ _ => trivial) ?_ ?_ ?_ as
    (Config.conforms_init trivial) ⟨ledger_init status, exclusive_init status⟩ h
  · obtain ⟨hc, hL, hI⟩ := hrun
    refine ⟨fun {i id recipient op baseUnits} hnext status houtcome => ?_, hI.sentOut_le hL⟩
    obtain ⟨req, k, ht⟩ := Config.call_of_next hnext
    have hguard := (hc.guard ht).2 (hI.services _ (List.mem_of_getElem? ht))
    have htarget : req.target = some status := by
      rcases WdkReq.outcome_of_moves hguard.2.1 with hnone | htarget
      · rw [houtcome] at hnone
        cases hnone
      · rw [← htarget, houtcome]
    exact hI.alone (hguard.1.holding htarget (outcome_terminal houtcome))
  · intro c req _ hI hreq
    refine ⟨⟨hI.1.sound, hI.1.facts, hI.1.marker, hI.1.fresh⟩, ?_⟩
    refine ⟨fun t ht => ?_, fun h => hI.2.holder ⟨h.1, h.2, h.3⟩,
      fun h h' => hI.2.unique ⟨h.1, h.2, h.3⟩ ⟨h'.1, h'.2, h'.3⟩,
      fun h => hI.2.alone ⟨h.1, h.2, h.3⟩, hI.2.single, hI.2.legs⟩
    rcases List.mem_append.mp ht with ht | ht
    · exact hI.2.services t ht
    · rw [List.mem_singleton.mp ht]
      exact hreq
  · intro c i env req q k _ hI hA ht hq
    exact ⟨hI.1.answer hq.1, hI.2.answer hI.1 ht hq.1 hq.2 (only_of_undivided ht hA)⟩
  · intro c i t _ hI _ ht
    refine ⟨⟨hI.1.sound, hI.1.facts, hI.1.marker, hI.1.fresh⟩, ?_⟩
    refine ⟨fun t' ht' => ?_, fun h => hI.2.holder ⟨h.1, h.2, h.3⟩,
      fun h h' => hI.2.unique ⟨h.1, h.2, h.3⟩ ⟨h'.1, h'.2, h'.3⟩,
      fun h => hI.2.alone ⟨h.1, h.2, h.3⟩, hI.2.single, hI.2.legs⟩
    rcases List.mem_or_eq_of_mem_set ht' with ht' | rfl
    · exact hI.2.services t' ht'
    · exact hI.2.services t (List.mem_of_getElem? ht)

/-! ## A release whose receipt is late -/

/-- One unit is locked, no transaction reverts, and a receipt is asked for once. -/
def sampleConfig : WdkConfig :=
  ⟨[0x31], 7, 8, 1, fun _ => false⟩

/-- The steps of a request. -/
def runs (i n : ℕ) : List (Action WdkEnv WdkReq) :=
  List.replicate n (.run i {})

/-- A release is submitted, its receipt is late, and the claim is given back. -/
def lateRelease : List (Action WdkEnv WdkReq) :=
  .start (.serviceReleaseFunds (some 1)) :: runs 0 11 ++ [.run 0 { mined := false }, .run 0 {}]

/-- The release is retried and finds its receipt. -/
def retriedRelease : List (Action WdkEnv WdkReq) :=
  lateRelease ++ .start (.serviceReleaseFunds (some 1)) :: runs 1 10

/-- The escrow is refunded after the release. -/
def lateRefund : List (Action WdkEnv WdkReq) :=
  lateRelease ++ .start .serviceRefundFunds :: runs 1 8

theorem one_outcome_retried :
    Config.Along (wdk sampleConfig) Undivided (.init (.start .disputed)) retriedRelease ∧
      (Config.exec (wdk sampleConfig) (.init (.start .disputed)) retriedRelease).quiescent = true ∧
      OneOutcome sampleConfig
        (Config.exec (wdk sampleConfig) (.init (.start .disputed)) retriedRelease) := by
  have hrun : Config.Along (wdk sampleConfig) Undivided (.init (.start .disputed))
      retriedRelease := by decide +kernel
  exact ⟨hrun, by decide +kernel, one_outcome sampleConfig .disputed retriedRelease hrun⟩

/-- The refund is about to be sent while the release is submitted, and once it is sent twice the
locked amount has left the escrow. -/
theorem outcome_repeated :
    ¬ OneOutcome sampleConfig
        (Config.exec (wdk sampleConfig) (.init (.start .disputed)) lateRefund) ∧
      (Config.exec (wdk sampleConfig) (.init (.start .disputed))
        (lateRefund ++ runs 1 1)).store.sentOut sampleConfig = 2 * sampleConfig.total := by
  have hnext : (Config.exec (wdk sampleConfig) (.init (.start .disputed)) lateRefund).next 1 =
      some (.transfer 1 .REFUND 8 1000000) ∧
    ¬ (Config.exec (wdk sampleConfig) (.init (.start .disputed)) lateRefund).store.Only .refunded ∧
    (Config.exec (wdk sampleConfig) (.init (.start .disputed))
      (lateRefund ++ runs 1 1)).store.sentOut sampleConfig = 2 * sampleConfig.total := by
    decide
  exact ⟨fun h => hnext.2.1 (h.exclusive hnext.1 .refunded rfl), hnext.2.2⟩

end Sails.Wdk
