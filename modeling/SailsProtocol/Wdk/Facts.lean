import SailsProtocol.Wdk.Provider

/-!
# What a transfer is based on

A call of the provider learns facts that stay true : what an attempt is for, that it marked an
attempt itself, the hash of a transfer, a receipt, and that an attempt is confirmed. `Allowed`
says which facts each call is based on : a transfer directly follows the mark of its attempt,
a hash is written by the caller whose transfer it is, an attempt is confirmed or reverted on
its receipt, and the seller's leg is sent after the buyer's leg is settled. `prog_allowed` is
that for every program.
-/

namespace Sails.Wdk

open Async Numeric

/-- What a program learns from an answer. -/
inductive Fact where
  | attempt (id : ℕ) (row : AttemptInput)
  | marked (id : ℕ)
  | tried (id : ℕ)
  | sent (id hash : ℕ)
  | hash (id txHash : ℕ)
  | receipt (txHash : ℕ) (status : Bool)
  | confirmed (id : ℕ)
  | claimed (status : EscrowStatus)
  | reverted (status : EscrowStatus)
  deriving DecidableEq

/-- The input of an attempt as its row has it. -/
def AttemptInput.stored (input : AttemptInput) : AttemptInput :=
  { input with amount := toColumn input.amount }

/-- What the latest row of an operation says. -/
def rowFacts (operationType : OperationType) (a : Attempt) (id : ℕ) : List Fact :=
  .attempt id { a.toAttemptInput with operationType := operationType } ::
    (a.txHash.toList.map (Fact.hash id) ++ if a.status = .CONFIRMED then [.confirmed id] else [])

/-- What a write of a status says when it took effect. -/
def written (id : ℕ) : AttemptStatus → Option ℕ → List Fact
  | .SUBMISSION_UNKNOWN, _ => [.marked id]
  | .SUBMITTED, some txHash => [.hash id txHash]
  | .CONFIRMED, _ => [.confirmed id]
  | _, _ => []

/-- What is observed of a call. -/
def observe : (q : Call) → WdkStore → Except WdkError (Answer q) → List Fact
  | .findLatest operationType, _, .ok (some (a, id)) => rowFacts operationType a id
  | .create input, _, .ok id => [.attempt id input.stored]
  | .replaceActive _ _ input, _, .ok id => [.attempt id input.stored]
  | .updateStatus id status txHash _, _, .ok true => written id status txHash
  | .transfer id _ _ _, _, .ok txHash => [.sent id txHash, .tried id]
  | .transfer id _ _ _, _, .error _ => [.tried id]
  | .getTransactionReceipt txHash, _, .ok (some status) => [.receipt txHash status]
  | .claimTransition _ toStatus, _, .ok true => [.claimed toStatus]
  | .revertStatus claimedStatus _, _, _ => [.reverted claimedStatus]
  | _, _, _ => []

/-- The system of wallets and escrow service. -/
abbrev wdk (W : WdkConfig) :
    System Answer WdkError (List ℕ) WdkStore WdkEnv WdkReq Fact where
  exec := Call.exec W
  observe := observe
  prog := WdkReq.prog W

/-- A configuration of it. -/
abbrev Wallet := Config Answer WdkError (List ℕ) WdkStore WdkReq Fact

variable {W : WdkConfig}

/-! ## Amounts -/

/-- A leg of a split. -/
def OperationType.isLeg : OperationType → Bool
  | .SPLIT_BUYER | .SPLIT_SELLER => true
  | _ => false

/-- The base units an attempt moves : those of its amount for a leg, else all of them. -/
def Due (W : WdkConfig) (row : AttemptInput) (baseUnits : ℤ) : Prop :=
  (row.operationType.isLeg = true → row.amount = fromBaseUnits baseUnits usdtDecimals) ∧
    (row.operationType.isLeg = false → baseUnits = W.total)

theorem toColumn_fromBaseUnits (n : ℤ) :
    toColumn (fromBaseUnits n usdtDecimals) = fromBaseUnits n usdtDecimals := by
  have hunits : fromBaseUnits n usdtDecimals = ((n * 100 : ℤ) : ℚ) / 10 ^ 8 := by
    rw [fromBaseUnits, usdtDecimals]
    push_cast
    ring
  rw [hunits, toColumn_intUnits]

theorem fromBaseUnits_injective {m n : ℤ}
    (h : fromBaseUnits m usdtDecimals = fromBaseUnits n usdtDecimals) : m = n := by
  rw [fromBaseUnits, fromBaseUnits, div_left_inj' (by positivity)] at h
  exact_mod_cast h

/-- A row that `ensureAttempt` accepts or makes for an input. -/
def Fits (input row : AttemptInput) : Prop :=
  row = input ∨ row = input.stored

theorem Fits.operationType {input row : AttemptInput} (h : Fits input row) :
    row.operationType = input.operationType := by
  rcases h with rfl | rfl <;> rfl

theorem Fits.destination {input row : AttemptInput} (h : Fits input row) :
    row.destination = input.destination := by
  rcases h with rfl | rfl <;> rfl

theorem Fits.due {input row : AttemptInput} {baseUnits : ℤ} (h : Fits input row)
    (hdue : Due W input baseUnits) : Due W row baseUnits := by
  rcases h with rfl | rfl
  · exact hdue
  · refine ⟨fun hleg => ?_, hdue.2⟩
    rw [AttemptInput.stored, hdue.1 hleg, toColumn_fromBaseUnits]

/-! ## Guards -/

/-- A leg or a whole transfer that is known to be confirmed. -/
def Settled (W : WdkConfig) (log : List Fact) (operationType : OperationType) (baseUnits : ℤ)
    (txHash : ℕ) : Prop :=
  ∃ id row, .attempt id row ∈ log ∧ row.operationType = operationType ∧ Due W row baseUnits ∧
    .hash id txHash ∈ log ∧ .confirmed id ∈ log

theorem Settled.mono {log log' : List Fact} {operationType : OperationType} {baseUnits : ℤ}
    {txHash : ℕ} (h : Settled W log operationType baseUnits txHash) (hlog : log <:+ log') :
    Settled W log' operationType baseUnits txHash := by
  obtain ⟨id, row, hrow, hop, hdue, hhash, hconfirmed⟩ := h
  exact ⟨id, row, hlog.subset hrow, hop, hdue, hlog.subset hhash, hlog.subset hconfirmed⟩

/-- The writes of a status, and what each is based on. -/
inductive Transition (log : List Fact) (id : ℕ) :
    AttemptStatus → Option ℕ → List AttemptStatus → Prop where
  | attempted {row : AttemptInput} (hrow : .attempt id row ∈ log) :
      Transition log id .SUBMISSION_UNKNOWN none [.PREPARED]
  | submitted {txHash : ℕ} (hsent : .sent id txHash ∈ log) :
      Transition log id .SUBMITTED (some txHash) [.SUBMISSION_UNKNOWN]
  | confirmed {txHash : ℕ} (hhash : .hash id txHash ∈ log) (hreceipt : .receipt txHash true ∈ log) :
      Transition log id .CONFIRMED none [.SUBMITTED]
  | reverted {txHash : ℕ} (hhash : .hash id txHash ∈ log) (hreceipt : .receipt txHash false ∈ log) :
      Transition log id .REVERTED none [.SUBMITTED]

/-- What a transfer is based on. -/
structure Owned (W : WdkConfig) (log : List Fact) (id : ℕ) (operationType : OperationType)
    (recipient : ℕ) (baseUnits : ℤ) : Prop where
  marked : ∃ rest, log = .marked id :: rest
  attempt : ∃ row, .attempt id row ∈ log ∧ row.operationType = operationType ∧
    row.destination = recipient ∧ Due W row baseUnits
  buyer : operationType = .SPLIT_SELLER →
    ∃ txHash, Settled W log .SPLIT_BUYER (W.total - baseUnits) txHash

/-- What each call is based on. -/
def Allowed (W : WdkConfig) (log : List Fact) : Call → Prop
  | .replaceActive _ expected _ => expected = [.REVERTED] ∨ expected = [.FAILED_BEFORE_SUBMISSION]
  | .updateStatus id status txHash expected => Transition log id status txHash expected
  | .transfer id operationType recipient baseUnits =>
    Owned W log id operationType recipient baseUnits
  | _ => True

section Guards

variable {can : ∀ q : Call, WdkStore → Except WdkError (Answer q) → Prop} {log : List Fact}

/-- A change of status is allowed. -/
theorem updateStatus_allowed {id : ℕ} {status : AttemptStatus} {txHash : Option ℕ}
    {expected : List AttemptStatus} (hwrite : Transition log id status txHash expected) :
    (updateStatus id status txHash expected).Guarded can observe (Allowed W)
      (fun log' r => r = .ok () → log' = written id status txHash ++ log) log := by
  simp only [updateStatus, await, Prog.guarded_bind, Prog.guarded_require]
  refine ⟨hwrite, fun s r _ => ?_⟩
  cases r with
  | error e => exact fun h => by cases h
  | ok claimed =>
    refine ⟨trivial, fun s' r' _ => ?_⟩
    cases r' with
    | error e => exact fun h => by cases h
    | ok row =>
      refine ⟨fun hclaimed => ⟨fun _ _ => ?_, fun _ h => by cases h⟩, fun _ h => by cases h⟩
      subst hclaimed
      rfl

/-- What `ensureAttempt` decided, and what it knows then. -/
def Ensured (input : AttemptInput) (log : List Fact) : EnsureAttemptResult → Prop
  | .PROCEED id => ∃ row, .attempt id row ∈ log ∧ Fits input row
  | .RESUME_CONFIRMED txHash => ∃ id row, .attempt id row ∈ log ∧ Fits input row ∧
      .hash id txHash ∈ log ∧ .confirmed id ∈ log

/-- A replacement is allowed. -/
theorem replaceAttempt_allowed {id : ℕ} {expected : List AttemptStatus} {input : AttemptInput}
    (hexpected : expected = [.REVERTED] ∨ expected = [.FAILED_BEFORE_SUBMISSION]) :
    (replaceAttempt id expected input).Guarded can observe (Allowed W)
      (fun log' r => ∀ o, r = .ok o → Ensured input log' o) log := by
  simp only [replaceAttempt, await, Prog.guarded_bind, Prog.guarded_pure]
  refine ⟨hexpected, fun s r _ => ?_⟩
  cases r with
  | error e => exact fun _ h => by cases h
  | ok created =>
    rintro o ⟨⟩
    exact ⟨_, List.mem_cons_self, Or.inr rfl⟩

/-- A reconciliation is allowed. -/
theorem reconcileSubmitted_allowed {id txHash : ℕ} {input row : AttemptInput}
    (hrow : .attempt id row ∈ log) (hfits : Fits input row) (hhash : .hash id txHash ∈ log) :
    (reconcileSubmitted id txHash input).Guarded can observe (Allowed W)
      (fun log' r => ∀ o, r = .ok o → Ensured input log' o) log := by
  simp only [reconcileSubmitted, await, Prog.guarded_bind, Prog.guarded_orThrow,
    Prog.guarded_ite]
  refine ⟨trivial, fun s r _ => ?_⟩
  cases r with
  | error e => exact fun _ h => by cases h
  | ok receipt =>
    refine ⟨?_, fun _ _ h => by cases h⟩
    rintro status rfl
    have hhash' := List.mem_cons_of_mem (Fact.receipt txHash status) hhash
    refine ⟨fun hstatus => ?_, fun hstatus => ?_⟩
    · subst hstatus
      refine (updateStatus_allowed (.confirmed hhash' List.mem_cons_self)).mono fun log' r h => ?_
      cases r with
      | error e => exact fun _ h => by cases h
      | ok u =>
        rintro o ⟨⟩
        rw [h rfl]
        exact ⟨id, row, List.mem_cons_of_mem _ (List.mem_cons_of_mem _ hrow), hfits,
          List.mem_cons_of_mem _ hhash', List.mem_cons_self⟩
    · rw [Bool.not_eq_true] at hstatus
      subst hstatus
      refine (updateStatus_allowed (.reverted hhash' List.mem_cons_self)).mono fun log' r h => ?_
      cases r with
      | error e => exact fun _ h => by cases h
      | ok u => exact replaceAttempt_allowed (Or.inl rfl)

theorem fits_of_accepted {input : AttemptInput} {a : Attempt}
    (h : (decide (a.destination = input.destination) &&
      decimalAmountsEqual a.amount input.amount) = true) :
    Fits input { a.toAttemptInput with operationType := input.operationType } := by
  simp only [Bool.and_eq_true, decide_eq_true_eq, decimalAmountsEqual] at h
  obtain ⟨hdestination, hamount, -⟩ := h
  exact Or.inl (by simp only [hdestination, hamount])

/-- Finding or making an attempt is allowed. -/
theorem ensureAttempt_allowed (input : AttemptInput) :
    (ensureAttempt input).Guarded can observe (Allowed W)
      (fun log' r => ∀ o, r = .ok o → Ensured input log' o) log := by
  refine (Prog.guarded_bind _ _ _).mpr ⟨trivial, fun s r _ => ?_⟩
  cases r with
  | error e => exact fun _ h => by cases h
  | ok found =>
    obtain _ | ⟨last, id⟩ := found
    · refine (Prog.guarded_bind _ _ _).mpr ⟨trivial, fun s' r' _ => ?_⟩
      cases r' with
      | error e => exact fun _ h => by cases h
      | ok created =>
        rintro o ⟨⟩
        exact ⟨_, List.mem_cons_self, Or.inr rfl⟩
    · refine (Prog.guarded_bind _ _ _).mpr ((Prog.guarded_require _ _).mpr
        ⟨fun haccepted => ?_, fun _ _ h => by cases h⟩)
      have hfits := fits_of_accepted haccepted
      have hrow : Fact.attempt id { last.toAttemptInput with operationType := input.operationType }
          ∈ observe (.findLatest input.operationType) s (.ok (some (last, id))) ++ log :=
        List.mem_cons_self
      have hhash : ∀ txHash, last.txHash = some txHash → Fact.hash id txHash ∈
          observe (.findLatest input.operationType) s (.ok (some (last, id))) ++ log := by
        intro txHash h
        simp [observe, rowFacts, h]
      have hconfirmed : last.status = .CONFIRMED → Fact.confirmed id ∈
          observe (.findLatest input.operationType) s (.ok (some (last, id))) ++ log := by
        intro h
        simp [observe, rowFacts, h]
      cases hstatus : last.status with
      | CONFIRMED =>
        simp only [Prog.guarded_bind, Prog.guarded_orThrow, Prog.guarded_pure]
        refine ⟨fun txHash htx => ?_, fun _ _ h => by cases h⟩
        rintro o ⟨⟩
        exact ⟨id, _, hrow, hfits, hhash txHash htx, hconfirmed hstatus⟩
      | SUBMITTED =>
        simp only [Prog.guarded_bind, Prog.guarded_orThrow]
        exact ⟨fun txHash htx => reconcileSubmitted_allowed hrow hfits (hhash txHash htx),
          fun _ _ h => by cases h⟩
      | SUBMISSION_UNKNOWN => exact fun _ h => by cases h
      | PREPARED =>
        rintro o ⟨⟩
        exact ⟨_, hrow, hfits⟩
      | FAILED_BEFORE_SUBMISSION => exact replaceAttempt_allowed (Or.inr rfl)
      | REVERTED => exact replaceAttempt_allowed (Or.inl rfl)

/-- Waiting for a receipt is allowed. -/
theorem waitForReceiptOutcome_allowed (txHash : ℕ) : ∀ (attempts : ℕ) {log : List Fact},
    (waitForReceiptOutcome txHash attempts).Guarded can observe (Allowed W)
      (fun log' r => ∀ status, r = .ok (some status) → .receipt txHash status ∈ log') log
  | 0, _ => fun _ => nofun
  | attempts + 1, log => by
    refine (Prog.guarded_bind _ _ _).mpr ⟨trivial, fun s r _ => ?_⟩
    cases r with
    | error e => exact fun _ => nofun
    | ok receipt =>
      cases receipt with
      | none => exact waitForReceiptOutcome_allowed txHash attempts
      | some status =>
        rintro status' ⟨⟩
        exact List.mem_cons_self

/-- After its mark a transfer is made, and its result is known from its receipt. -/
theorem submitTransfer_allowed {id : ℕ} {input row : AttemptInput} {baseUnits : ℤ}
    (hrow : .attempt id row ∈ log) (hfits : Fits input row) (hdue : Due W row baseUnits)
    (hbuyer : input.operationType = .SPLIT_SELLER →
      ∃ txHash, Settled W log .SPLIT_BUYER (W.total - baseUnits) txHash) :
    (submitTransfer W id input baseUnits).Guarded can observe (Allowed W)
      (fun log' r => ∀ txHash, r = .ok txHash →
        Settled W log' input.operationType baseUnits txHash) log := by
  refine (Prog.guarded_bind _ _ _).mpr ((updateStatus_allowed (.attempted hrow)).mono fun log₁ r h₁ => ?_)
  cases r with
  | error e => exact fun _ => nofun
  | ok u =>
  rw [h₁ rfl]
  have hmark : log <:+ written id .SUBMISSION_UNKNOWN none ++ log := List.suffix_append _ _
  refine (Prog.guarded_bind _ _ _).mpr ⟨⟨⟨log, rfl⟩, ⟨row, hmark.subset hrow,
    hfits.operationType, hfits.destination, hdue⟩, fun hseller => ?_⟩, fun s r _ => ?_⟩
  · exact (hbuyer hseller).imp fun _ h => h.mono hmark
  cases r with
  | error e => exact fun _ => nofun
  | ok txHash =>
  refine (Prog.guarded_bind _ _ _).mpr ((updateStatus_allowed
    (.submitted List.mem_cons_self)).mono fun log₂ r h₂ => ?_)
  cases r with
  | error e => exact fun _ => nofun
  | ok u =>
  have hhash₂ : Fact.hash id txHash ∈ log₂ := by
    rw [h₂ rfl]
    exact List.mem_cons_self
  have hrow₂ : Fact.attempt id row ∈ log₂ := by
    rw [h₂ rfl]
    exact List.mem_append_right _ (List.mem_cons_of_mem _ (List.mem_cons_of_mem _
      (hmark.subset hrow)))
  refine (Prog.guarded_bind _ _ _).mpr ((waitForReceiptOutcome_allowed txHash
    W.receiptPollAttempts).suffix.mono fun log₃ r h₃ => ?_)
  cases r with
  | error e => exact fun _ => nofun
  | ok outcome =>
  have hhash := h₃.1.subset hhash₂
  cases outcome with
  | none => exact fun _ => nofun
  | some status =>
  have hreceipt := h₃.2 status rfl
  cases status with
  | true =>
    refine (Prog.guarded_bind _ _ _).mpr
      ((updateStatus_allowed (.confirmed hhash hreceipt)).mono fun log₄ r h₄ => ?_)
    cases r with
    | error e => exact fun _ => nofun
    | ok u =>
      rintro txHash' ⟨⟩
      rw [h₄ rfl]
      exact ⟨id, row, List.mem_cons_of_mem _ (h₃.1.subset hrow₂), hfits.operationType, hdue,
        List.mem_cons_of_mem _ hhash, List.mem_cons_self⟩
  | false =>
    refine (Prog.guarded_bind _ _ _).mpr
      ((updateStatus_allowed (.reverted hhash hreceipt)).mono fun log₄ r _ => ?_)
    cases r with
    | error e => exact fun _ => nofun
    | ok u => exact fun _ => nofun

/-- A transfer that is due is allowed. -/
theorem executeTransfer_allowed {input : AttemptInput} {baseUnits : ℤ}
    (hdue : Due W input baseUnits)
    (hbuyer : input.operationType = .SPLIT_SELLER →
      ∃ txHash, Settled W log .SPLIT_BUYER (W.total - baseUnits) txHash) :
    (executeTransfer W input baseUnits).Guarded can observe (Allowed W)
      (fun log' r => ∀ txHash, r = .ok txHash →
        Settled W log' input.operationType baseUnits txHash) log := by
  refine (Prog.guarded_bind _ _ _).mpr ((ensureAttempt_allowed input).suffix.mono
    fun log' r h => ?_)
  cases r with
  | error e => exact fun _ => nofun
  | ok outcome =>
    cases outcome with
    | RESUME_CONFIRMED txHash =>
      rintro txHash' ⟨⟩
      obtain ⟨id, row, hrow, hfits, hhash, hconfirmed⟩ := h.2 _ rfl
      exact ⟨id, row, hrow, hfits.operationType, hfits.due hdue, hhash, hconfirmed⟩
    | PROCEED id =>
      obtain ⟨row, hrow, hfits⟩ := h.2 _ rfl
      exact submitTransfer_allowed hrow hfits (hfits.due hdue)
        fun hseller => (hbuyer hseller).imp fun _ hs => hs.mono h.1

theorem whole_due {operationType : OperationType} (h : operationType.isLeg = false)
    (destination : ℕ) : Due W (W.whole operationType destination) W.total :=
  ⟨fun hleg => absurd hleg (by simp [WdkConfig.whole, h]), fun _ => rfl⟩

theorem legInput_due {operationType : OperationType} (h : operationType.isLeg = true)
    (destination : ℕ) (baseUnits : ℤ) : Due W (legInput operationType destination baseUnits) baseUnits :=
  ⟨fun _ => rfl, fun hleg => absurd hleg (by simp [legInput, h])⟩

/-- A transfer of the whole amount. -/
theorem whole_allowed {operationType : OperationType} (h : operationType.isLeg = false)
    (destination : ℕ) :
    (executeTransfer W (W.whole operationType destination) W.total).Calls can observe
      (Allowed W) log := by
  refine (executeTransfer_allowed (whole_due h destination) ?_).mono fun _ _ _ => trivial
  rintro rfl
  cases h

/-- A split is allowed and settles both legs. -/
theorem splitFunds_allowed (buyerAddress sellerAddress : ℕ) (buyerBps : ℤ) :
    (splitFunds W buyerAddress sellerAddress buyerBps).Guarded can observe (Allowed W)
      (fun log' r => ∀ txIds, r = .ok txIds → ∃ buyerTxId sellerTxId,
        txIds = [buyerTxId, sellerTxId] ∧
        Settled W log' .SPLIT_BUYER (W.buyerAmount buyerBps) buyerTxId ∧
        Settled W log' .SPLIT_SELLER (W.total - W.buyerAmount buyerBps) sellerTxId) log := by
  have hdue : Due W (legInput .SPLIT_BUYER buyerAddress (W.buyerAmount buyerBps))
      (W.buyerAmount buyerBps) := legInput_due rfl _ _
  refine (Prog.guarded_bind _ _ _).mpr ((executeTransfer_allowed hdue nofun).mono
    fun log₁ r h₁ => ?_)
  cases r with
  | error e => exact fun _ => nofun
  | ok buyerTxId =>
  have hbuyer := h₁ buyerTxId rfl
  refine (Prog.guarded_bind _ _ _).mpr ((executeTransfer_allowed (legInput_due rfl _ _)
    fun _ => ⟨buyerTxId, ?_⟩).suffix.mono fun log₂ r h₂ => ?_)
  · rw [sub_sub_cancel]
    exact hbuyer
  cases r with
  | error e => exact fun _ => nofun
  | ok sellerTxId =>
    rintro txIds ⟨⟩
    exact ⟨buyerTxId, sellerTxId, rfl, hbuyer.mono h₂.1, h₂.2 sellerTxId rfl⟩

theorem single_allowed {p : WdkOp ℕ} (hp : p.Calls can observe (Allowed W) log) :
    (single p).Calls can observe (Allowed W) log :=
  hp.then fun _ _ => trivial

theorem claimEscrowTransition_allowed (fromStatus toStatus : EscrowStatus) :
    (claimEscrowTransition fromStatus toStatus).Calls can observe (Allowed W) log :=
  Prog.Calls.require_bind fun _ => (Prog.calls_perform trivial).then fun _ _ =>
    Prog.calls_require _ _

/-- A settlement with an allowed provider is allowed. -/
theorem settle_allowed {fromStatus toStatus : EscrowStatus} {provider : WdkOp (List ℕ)}
    (hprovider : ∀ log, provider.Calls can observe (Allowed W) log) :
    (settle fromStatus toStatus provider).Calls can observe (Allowed W) log := by
  refine (claimEscrowTransition_allowed fromStatus toStatus).then fun _ log => ?_
  refine Prog.Calls.tryCatch ((hprovider log).then fun _ _ => ?_) fun e log => ?_
  · exact (Prog.calls_perform trivial).then fun _ _ => (Prog.calls_perform trivial).then
      fun _ _ => trivial
  · exact Prog.Calls.then ((Prog.guarded_swallow _ _).mpr (Prog.calls_perform trivial))
      fun _ _ => trivial

theorem resolveAddress_allowed (address : Option ℕ) :
    (resolveAddress address).Calls can observe (Allowed W) log := by
  cases address with
  | none => exact Prog.calls_perform trivial
  | some a => trivial

theorem loadEscrow_allowed (toStatus : EscrowStatus) :
    (loadEscrow toStatus).Calls can observe (Allowed W) log :=
  (Prog.calls_perform trivial).then fun _ _ => (Prog.calls_perform trivial).then fun _ _ =>
    (Prog.calls_require _ _).then fun _ _ => trivial

/-- The legs a split returned are settled. -/
def SplitResult (W : WdkConfig) (req : WdkReq) (log : List Fact)
    (r : Except WdkError (List ℕ)) : Prop :=
  ∀ buyerAddress sellerAddress buyerBps txIds,
    req = .splitFunds buyerAddress sellerAddress buyerBps → r = .ok txIds →
      ∃ buyerTxId sellerTxId, txIds = [buyerTxId, sellerTxId] ∧
        Settled W log .SPLIT_BUYER (W.buyerAmount buyerBps) buyerTxId ∧
        Settled W log .SPLIT_SELLER (W.total - W.buyerAmount buyerBps) sellerTxId

theorem splitFunds_calls (buyerAddress sellerAddress : ℕ) (buyerBps : ℤ) :
    (splitFunds W buyerAddress sellerAddress buyerBps).Calls can observe (Allowed W) log :=
  (splitFunds_allowed buyerAddress sellerAddress buyerBps).mono fun _ _ _ => trivial

/-- Every call of a request of the service is allowed. -/
theorem service_allowed (req : WdkReq) (hreq : ∀ b s bps, req ≠ .splitFunds b s bps) :
    (req.prog W).Calls can observe (Allowed W) log := by
  cases req with
  | lockFunds => exact single_allowed (whole_allowed rfl _)
  | releaseFunds toAddress => exact single_allowed (whole_allowed rfl _)
  | refundFunds => exact single_allowed (whole_allowed rfl _)
  | splitFunds b s bps => exact absurd rfl (hreq b s bps)
  | serviceLockFunds =>
    refine (Prog.calls_perform trivial).then fun status _ => Prog.Calls.require_bind fun _ =>
      (Prog.calls_perform trivial).then fun _ _ => settle_allowed fun log => ?_
    exact single_allowed (whole_allowed rfl _)
  | openDispute =>
    exact (Prog.calls_perform trivial).then fun status _ => Prog.Calls.require_bind fun _ =>
      (Prog.calls_perform trivial).then fun _ _ =>
        (claimEscrowTransition_allowed _ _).then fun _ _ => (Prog.calls_perform trivial).then
          fun _ _ => (Prog.calls_perform trivial).then fun _ _ => trivial
  | serviceReleaseFunds toAddress =>
    refine (loadEscrow_allowed _).then fun status _ => (resolveAddress_allowed _).then
      fun address _ => (Prog.calls_perform trivial).then fun _ _ => settle_allowed fun log => ?_
    exact single_allowed (whole_allowed rfl _)
  | serviceRefundFunds =>
    refine (loadEscrow_allowed _).then fun status _ => (Prog.calls_perform trivial).then
      fun _ _ => settle_allowed fun log => ?_
    exact single_allowed (whole_allowed rfl _)
  | serviceSplitFunds buyerAddress sellerAddress buyerBps =>
    exact Prog.Calls.require_bind fun _ => (loadEscrow_allowed _).then fun status _ =>
      (Prog.calls_perform trivial).then fun _ _ => (resolveAddress_allowed _).then
        fun buyer _ => (resolveAddress_allowed _).then fun seller _ =>
          settle_allowed fun log => splitFunds_calls buyer seller buyerBps

/-- Every call of a request is allowed. -/
theorem prog_allowed (req : WdkReq) :
    (req.prog W).Guarded can observe (Allowed W) (SplitResult W req) [] := by
  by_cases hsplit : ∃ b s bps, req = .splitFunds b s bps
  · obtain ⟨b, s, bps, rfl⟩ := hsplit
    refine (splitFunds_allowed b s bps).mono ?_
    rintro log r h b' s' bps' txIds ⟨⟩
    exact h txIds
  · have hne : ∀ b s bps, req ≠ .splitFunds b s bps := fun b s bps h => hsplit ⟨b, s, bps, h⟩
    refine (service_allowed req hne).mono ?_
    intro log r _ b s bps txIds hreq
    exact absurd hreq (hne b s bps)

end Guards

end Sails.Wdk
