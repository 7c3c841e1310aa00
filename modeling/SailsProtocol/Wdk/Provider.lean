import SailsProtocol.Async.Pool
import SailsProtocol.Escrow.Status
import SailsProtocol.Numeric.Decimal
import SailsProtocol.Text.Decimals

/-!
# Transfers of the WDK provider

`WdkSettlementProvider` moves the funds of an escrow with transfers it makes itself. Each
operation keeps a row per attempt (`wdk-transfer-attempt-repository.ts`), and
`wdk-execution-truth.ts` decides from the latest row whether a call may transfer, may resume,
or has to refuse. `EscrowService` claims a status before it calls the provider, and reverts
the claim when anything after it throws.

A statement of the database, a transfer and the query of a receipt are one call each.
`replaceActive` is a transaction that holds the row it releases, so it is one call. A decimal
text of an amount stands for its value, and the number of a broadcast is its transaction
hash.
-/

namespace Sails.Wdk

open Async Numeric Text

/-! ## Rows -/

/-- `WdkTransferOperationType`. -/
inductive OperationType where
  | LOCK
  | RELEASE
  | REFUND
  | SPLIT_BUYER
  | SPLIT_SELLER
  deriving DecidableEq, Repr

/-- `WdkTransferAttemptStatus`. -/
inductive AttemptStatus where
  | PREPARED
  | SUBMISSION_UNKNOWN
  | SUBMITTED
  | CONFIRMED
  | REVERTED
  | FAILED_BEFORE_SUBMISSION
  deriving DecidableEq, Repr

/-- `CreateWdkTransferAttemptInput`. -/
structure AttemptInput where
  operationType : OperationType
  destination : ℕ
  amount : ℚ
  deriving DecidableEq

/-- A row of `WdkTransferAttempt`. It is `active` while it has an `activeKey`. -/
structure Attempt extends AttemptInput where
  status : AttemptStatus
  txHash : Option ℕ
  active : Bool
  createdAt : ℕ
  deriving DecidableEq

/-- A transfer that reached the chain, with the attempt it was made for. -/
structure Broadcast where
  attemptId : ℕ
  operationType : OperationType
  recipient : ℕ
  amount : ℤ
  deriving DecidableEq

/-- The escrow and the attempts made for it. `broadcasts` is what is on the chain, and
`submissions` the history of the writes from `PREPARED` to `SUBMISSION_UNKNOWN`. -/
structure WdkStore where
  status : EscrowStatus
  attempts : List Attempt
  broadcasts : List Broadcast
  submissions : List ℕ

/-- What does not change during a run. `reverts` says which transactions revert. -/
structure WdkConfig where
  lockedAmount : JsString
  escrowAddress : ℕ
  treasuryAddress : ℕ
  receiptPollAttempts : ℕ
  reverts : ℕ → Bool

/-! ## Amounts -/

/-- The value of a decimal text. -/
def decimalValue (s : JsString) : ℚ :=
  natValue (splitPoint s).1 + natValue (splitPoint s).2 / 10 ^ (splitPoint s).2.length

/-- `USDT_DECIMALS`. -/
def usdtDecimals : ℕ := 6

/-- `toBaseUnits`. -/
def toBaseUnits (decimalAmount : JsString) (decimals : ℕ) : ℕ := decimalUnits decimals decimalAmount

/-- `fromBaseUnits`. -/
def fromBaseUnits (baseUnits : ℤ) (decimals : ℕ) : ℚ := baseUnits / 10 ^ decimals

/-- `decimalAmountsEqual`. A stored amount below a millionth prints with an exponent, and
equals no plain text. -/
def decimalAmountsEqual (stored amount : ℚ) : Bool :=
  stored = amount ∧ (stored = 0 ∨ 1 / 10 ^ 6 ≤ |stored|)

/-! ## Calls -/

/-- What a call throws. -/
inductive WdkError where
  | fault
  | uniqueConstraint
  | ownershipLost
  | disappeared
  | mismatchedAttempt
  | missingHash
  | pendingConfirmation
  | unknownOutcome
  | transferReverted
  | notYetConfirmed
  | invalidTransition
  | alreadyTransitioned
  | invalidSplit
  deriving DecidableEq, Repr

/-- The calls of provider and service. -/
inductive Call where
  -- attempts
  | findLatest (operationType : OperationType)
  | create (input : AttemptInput)
  | replaceActive (previousId : ℕ) (expected : List AttemptStatus) (input : AttemptInput)
  | updateStatus (id : ℕ) (status : AttemptStatus) (txHash : Option ℕ)
      (expected : List AttemptStatus)
  | findAttempt (id : ℕ)
  -- the chain
  | transfer (attemptId : ℕ) (operationType : OperationType) (recipient : ℕ) (amount : ℤ)
  | getTransactionReceipt (hash : ℕ)
  -- the escrow
  | findEscrow
  | checks
  | resolvePayoutAddress
  | claimTransition (fromStatus toStatus : EscrowStatus)
  | revertStatus (claimedStatus fromStatus : EscrowStatus)
  | updateResult
  | emitEscrowTransition
  deriving DecidableEq

/-- What a call returns. -/
abbrev Answer : Call → Type
  | .findLatest _ => Option (Attempt × ℕ)
  | .create _ => ℕ
  | .replaceActive _ _ _ => ℕ
  | .updateStatus _ _ _ _ => Bool
  | .findAttempt _ => Option Attempt
  | .transfer _ _ _ _ => ℕ
  | .getTransactionReceipt _ => Option Bool
  | .findEscrow => EscrowStatus
  | .resolvePayoutAddress => ℕ
  | .claimTransition _ _ => Bool
  | _ => Unit

/-- What the environment decides about a call. A transfer that is `lost` is broadcast and
throws. -/
structure WdkEnv where
  fate : Fate := .answered
  now : ℕ := 0
  tie : ℕ → ℕ := id
  mined : Bool := true
  address : ℕ := 0

/-- The newest attempt of an operation, with its number. Rows of one time come in any order. -/
def latest (tie : ℕ → ℕ) (operationType : OperationType) (attempts : List Attempt) :
    Option (Attempt × ℕ) :=
  (attempts.zipIdx.filter (·.1.operationType = operationType)).argmax
    fun a => toLex (a.1.createdAt, tie a.2)

/-- The row of a new attempt. -/
def AttemptInput.row (input : AttemptInput) (now : ℕ) : Attempt :=
  { input with
    amount := toColumn input.amount, status := .PREPARED, txHash := none, active := true,
    createdAt := now }

/-- Some attempt holds the key of the operation. -/
def keyTaken (attempts : List Attempt) (operationType : OperationType) : Bool :=
  attempts.any fun a => a.active && a.operationType = operationType

namespace WdkStore

variable (s : WdkStore)

/-- `create`, under the unique key. -/
def create (input : AttemptInput) (now : ℕ) : Except WdkError ℕ × WdkStore :=
  if keyTaken s.attempts input.operationType then (.error .uniqueConstraint, s)
  else (.ok s.attempts.length, { s with attempts := s.attempts ++ [input.row now] })

/-- `replaceActive`. -/
def replaceActive (previousId : ℕ) (expected : List AttemptStatus) (input : AttemptInput)
    (now : ℕ) : Except WdkError ℕ × WdkStore :=
  match s.attempts[previousId]? with
  | none => (.error .ownershipLost, s)
  | some previous =>
    if previous.active && decide (previous.operationType = input.operationType) &&
        expected.contains previous.status then
      let released := s.attempts.modify previousId ({ · with active := false })
      if keyTaken released input.operationType then (.error .uniqueConstraint, s)
      else (.ok released.length, { s with attempts := released ++ [input.row now] })
    else (.error .ownershipLost, s)

/-- The conditional `updateMany` of `updateStatus`. -/
def updateStatus (id : ℕ) (status : AttemptStatus) (txHash : Option ℕ)
    (expected : List AttemptStatus) : Except WdkError Bool × WdkStore :=
  match s.attempts[id]? with
  | none => (.ok false, s)
  | some attempt =>
    if expected.contains attempt.status then
      (.ok true, { s with
        attempts := s.attempts.modify id fun a =>
          { a with status := status, txHash := txHash.or a.txHash }
        submissions := if attempt.status = .PREPARED ∧ status = .SUBMISSION_UNKNOWN then
          s.submissions ++ [id] else s.submissions })
    else (.ok false, s)

/-- A conditional `updateMany` of the escrow. -/
def moveStatus (fromStatus toStatus : EscrowStatus) : Bool × WdkStore :=
  if s.status = fromStatus then (true, { s with status := toStatus }) else (false, s)

end WdkStore

section System

variable (W : WdkConfig)

/-- A call that is carried out. -/
def Call.run : (q : Call) → WdkEnv → WdkStore → Except WdkError (Answer q) × WdkStore
  | .findLatest operationType, env, s => (.ok (latest env.tie operationType s.attempts), s)
  | .create input, env, s => s.create input env.now
  | .replaceActive previousId expected input, env, s =>
    s.replaceActive previousId expected input env.now
  | .updateStatus id status txHash expected, _, s => s.updateStatus id status txHash expected
  | .findAttempt id, _, s => (.ok s.attempts[id]?, s)
  | .transfer attemptId operationType recipient amount, _, s =>
    (.ok s.broadcasts.length,
      { s with broadcasts := s.broadcasts ++ [⟨attemptId, operationType, recipient, amount⟩] })
  | .getTransactionReceipt hash, env, s =>
    (.ok (if env.mined then some (!W.reverts hash) else none), s)
  | .findEscrow, _, s => (.ok s.status, s)
  | .checks, _, s => (.ok (), s)
  | .resolvePayoutAddress, env, s => (.ok env.address, s)
  | .claimTransition fromStatus toStatus, _, s =>
    (.ok (s.moveStatus fromStatus toStatus).1, (s.moveStatus fromStatus toStatus).2)
  | .revertStatus claimedStatus fromStatus, _, s =>
    (.ok (), (s.moveStatus claimedStatus fromStatus).2)
  | .updateResult, _, s => (.ok (), s)
  | .emitEscrowTransition, _, s => (.ok (), s)

/-- The answer to a call, and the store after it. -/
def Call.exec (q : Call) (env : WdkEnv) (s : WdkStore) : Except WdkError (Answer q) × WdkStore :=
  env.fate.settle .fault (q.run W env s) s

/-- A program of the provider. -/
abbrev WdkOp := Prog Answer WdkError

/-- A call and its answer. -/
def await (q : Call) : WdkOp (Answer q) := Prog.perform q

/-! ## The attempt of an operation -/

/-- `updateStatus` of the repository : the conditional write, and a read of the row. -/
def updateStatus (id : ℕ) (status : AttemptStatus) (txHash : Option ℕ)
    (expected : List AttemptStatus) : WdkOp Unit := do
  let claimed : Bool ← await (.updateStatus id status txHash expected)
  let row : Option Attempt ← await (.findAttempt id)
  Prog.require claimed .ownershipLost
  Prog.require row.isSome .disappeared

/-- `EnsureAttemptResult`. -/
inductive EnsureAttemptResult where
  | RESUME_CONFIRMED (txHash : ℕ)
  | PROCEED (attemptId : ℕ)
  deriving DecidableEq, Repr

/-- A safely retryable attempt is replaced by a new one. -/
def replaceAttempt (previousId : ℕ) (expected : List AttemptStatus) (input : AttemptInput) :
    WdkOp EnsureAttemptResult := do
  let created : ℕ ← await (.replaceActive previousId expected input)
  pure (.PROCEED created)

/-- The branch of `ensureAttempt` for a submitted attempt. -/
def reconcileSubmitted (id txHash : ℕ) (input : AttemptInput) : WdkOp EnsureAttemptResult := do
  let receipt : Option Bool ← await (.getTransactionReceipt txHash)
  let confirmed ← Prog.orThrow receipt .pendingConfirmation
  if confirmed then do
    updateStatus id .CONFIRMED none [.SUBMITTED]
    pure (.RESUME_CONFIRMED txHash)
  else do
    updateStatus id .REVERTED none [.SUBMITTED]
    replaceAttempt id [.REVERTED] input

/-- `ensureAttempt`. -/
def ensureAttempt (input : AttemptInput) : WdkOp EnsureAttemptResult := do
  let found : Option (Attempt × ℕ) ← await (.findLatest input.operationType)
  match found with
  | none => do
    let created : ℕ ← await (.create input)
    pure (.PROCEED created)
  | some (last, id) => do
    Prog.require (decide (last.destination = input.destination) &&
      decimalAmountsEqual last.amount input.amount) .mismatchedAttempt
    match last.status with
    | .CONFIRMED => do
      let txHash ← Prog.orThrow last.txHash .missingHash
      pure (.RESUME_CONFIRMED txHash)
    | .SUBMITTED => do
      let txHash ← Prog.orThrow last.txHash .missingHash
      reconcileSubmitted id txHash input
    | .SUBMISSION_UNKNOWN => throw .unknownOutcome
    | .PREPARED => pure (.PROCEED id)
    | .FAILED_BEFORE_SUBMISSION => replaceAttempt id [.FAILED_BEFORE_SUBMISSION] input
    | .REVERTED => replaceAttempt id [.REVERTED] input

/-- `markSubmissionAttempted`. -/
def markSubmissionAttempted (attemptId : ℕ) : WdkOp Unit :=
  updateStatus attemptId .SUBMISSION_UNKNOWN none [.PREPARED]

/-- `waitForReceiptOutcome`, with the polls that are left. No receipt is `PENDING`. -/
def waitForReceiptOutcome (hash : ℕ) : ℕ → WdkOp (Option Bool)
  | 0 => pure none
  | attempts + 1 => do
    let receipt : Option Bool ← await (.getTransactionReceipt hash)
    match receipt with
    | some status => pure (some status)
    | none => waitForReceiptOutcome hash attempts

/-- The part of `executeTransfer` after its attempt is decided. -/
def submitTransfer (attemptId : ℕ) (input : AttemptInput) (baseUnitsAmount : ℤ) : WdkOp ℕ := do
  markSubmissionAttempted attemptId
  let hash : ℕ ← await (.transfer attemptId input.operationType input.destination baseUnitsAmount)
  updateStatus attemptId .SUBMITTED (some hash) [.SUBMISSION_UNKNOWN]
  let outcome ← waitForReceiptOutcome hash W.receiptPollAttempts
  match outcome with
  | some true => do
    updateStatus attemptId .CONFIRMED none [.SUBMITTED]
    pure hash
  | some false => do
    updateStatus attemptId .REVERTED none [.SUBMITTED]
    throw .transferReverted
  | none => throw .notYetConfirmed

/-- `executeTransfer`. -/
def executeTransfer (input : AttemptInput) (baseUnitsAmount : ℤ) : WdkOp ℕ := do
  let outcome ← ensureAttempt input
  match outcome with
  | .RESUME_CONFIRMED txHash => pure txHash
  | .PROCEED attemptId => submitTransfer W attemptId input baseUnitsAmount

/-! ## The provider -/

/-- `toBaseUnits(escrow.lockedAmount)`. -/
def WdkConfig.total : ℤ := toBaseUnits W.lockedAmount usdtDecimals

/-- The attempt of an operation that moves the whole amount. -/
def WdkConfig.whole (operationType : OperationType) (destination : ℕ) : AttemptInput :=
  ⟨operationType, destination, decimalValue W.lockedAmount⟩

/-- `lockFunds` of the provider. -/
def lockFunds : WdkOp ℕ := executeTransfer W (W.whole .LOCK W.escrowAddress) W.total

/-- `releaseFunds` of the provider. -/
def releaseFunds (toAddress : ℕ) : WdkOp ℕ :=
  executeTransfer W (W.whole .RELEASE toAddress) W.total

/-- `refundFunds` of the provider. -/
def refundFunds : WdkOp ℕ := executeTransfer W (W.whole .REFUND W.treasuryAddress) W.total

/-- The buyer's leg of a split, in base units. -/
def WdkConfig.buyerAmount (buyerBps : ℤ) : ℤ := (W.total * buyerBps).tdiv 10000

/-- The attempt of a leg. -/
def legInput (operationType : OperationType) (destination : ℕ) (amount : ℤ) : AttemptInput :=
  ⟨operationType, destination, fromBaseUnits amount usdtDecimals⟩

/-- `splitFunds` of the provider. -/
def splitFunds (buyerAddress sellerAddress : ℕ) (buyerBps : ℤ) : WdkOp (List ℕ) := do
  let buyerAmount := W.buyerAmount buyerBps
  let sellerAmount := W.total - buyerAmount
  let buyerTxId ← executeTransfer W (legInput .SPLIT_BUYER buyerAddress buyerAmount) buyerAmount
  let sellerTxId ←
    executeTransfer W (legInput .SPLIT_SELLER sellerAddress sellerAmount) sellerAmount
  pure [buyerTxId, sellerTxId]

/-! ## The service -/

/-- `claimEscrowTransition`. -/
def claimEscrowTransition (fromStatus toStatus : EscrowStatus) : WdkOp Unit := do
  Prog.require ((validTransitions fromStatus).contains toStatus) .invalidTransition
  let claimed : Bool ← await (.claimTransition fromStatus toStatus)
  Prog.require claimed .alreadyTransitioned

/-- A settlement of `EscrowService` after its checks : the claim, the provider, the writes
after it, and the revert of the claim when any of them throws. -/
def settle (fromStatus toStatus : EscrowStatus) (provider : WdkOp (List ℕ)) :
    WdkOp (List ℕ) := do
  claimEscrowTransition fromStatus toStatus
  Prog.tryCatch (do
      let txIds ← provider
      await .updateResult
      await .emitEscrowTransition
      pure txIds)
    fun err => do
      Prog.swallow (await (.revertStatus toStatus fromStatus))
      throw err

/-- `EscrowService.lockFunds`. -/
def serviceLockFunds : WdkOp (List ℕ) := do
  let status : EscrowStatus ← await .findEscrow
  Prog.require ((validTransitions status).contains .fundsLocked) .invalidTransition
  await .checks
  settle status .fundsLocked do
    let txId ← lockFunds W
    pure [txId]

/-- `EscrowService.openDispute`. -/
def openDispute : WdkOp (List ℕ) := do
  let status : EscrowStatus ← await .findEscrow
  Prog.require ((validTransitions status).contains .disputed) .invalidTransition
  await .checks
  claimEscrowTransition status .disputed
  let _ : EscrowStatus ← await .findEscrow
  await .emitEscrowTransition
  pure []

/-- An address that is given or looked up. -/
def resolveAddress (address : Option ℕ) : WdkOp ℕ :=
  match address with
  | some a => pure a
  | none => await .resolvePayoutAddress

/-- `loadEscrowWithAuthorization` and the check of the transition. -/
def loadEscrow (toStatus : EscrowStatus) : WdkOp EscrowStatus := do
  let status : EscrowStatus ← await .findEscrow
  await .checks
  Prog.require ((validTransitions status).contains toStatus) .invalidTransition
  pure status

/-- `EscrowService.releaseFunds`. -/
def serviceReleaseFunds (toAddress : Option ℕ) : WdkOp (List ℕ) := do
  let status ← loadEscrow .completed
  let address ← resolveAddress toAddress
  await .checks
  settle status .completed do
    let txId ← releaseFunds W address
    pure [txId]

/-- `EscrowService.refundFunds`. -/
def serviceRefundFunds : WdkOp (List ℕ) := do
  let status ← loadEscrow .refunded
  await .checks
  settle status .refunded do
    let txId ← refundFunds W
    pure [txId]

/-- `EscrowService.splitFunds`. -/
def serviceSplitFunds (buyerAddress sellerAddress : Option ℕ) (buyerBps : ℤ) :
    WdkOp (List ℕ) := do
  Prog.require (decide (0 < buyerBps) && decide (buyerBps < 10000)) .invalidSplit
  let status ← loadEscrow .split
  await .checks
  let buyer ← resolveAddress buyerAddress
  let seller ← resolveAddress sellerAddress
  settle status .split (splitFunds W buyer seller buyerBps)

/-! ## The system -/

/-- What provider and service are asked to do. -/
inductive WdkReq where
  | lockFunds
  | releaseFunds (toAddress : ℕ)
  | refundFunds
  | splitFunds (buyerAddress sellerAddress : ℕ) (buyerBps : ℤ)
  | serviceLockFunds
  | openDispute
  | serviceReleaseFunds (toAddress : Option ℕ)
  | serviceRefundFunds
  | serviceSplitFunds (buyerAddress sellerAddress : Option ℕ) (buyerBps : ℤ)
  deriving DecidableEq

/-- One transaction as a list of them. -/
def single (p : WdkOp ℕ) : WdkOp (List ℕ) := do
  let txId ← p
  pure [txId]

/-- The program of a request. -/
def WdkReq.prog : WdkReq → WdkOp (List ℕ)
  | .lockFunds => single (Wdk.lockFunds W)
  | .releaseFunds toAddress => single (Wdk.releaseFunds W toAddress)
  | .refundFunds => single (Wdk.refundFunds W)
  | .splitFunds buyer seller buyerBps => Wdk.splitFunds W buyer seller buyerBps
  | .serviceLockFunds => Wdk.serviceLockFunds W
  | .openDispute => Wdk.openDispute
  | .serviceReleaseFunds toAddress => Wdk.serviceReleaseFunds W toAddress
  | .serviceRefundFunds => Wdk.serviceRefundFunds W
  | .serviceSplitFunds buyer seller buyerBps => Wdk.serviceSplitFunds W buyer seller buyerBps

end System

end Sails.Wdk
