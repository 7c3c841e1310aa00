import SailsProtocol.Async.Pool
import SailsProtocol.Settlement.Obligations
import SailsProtocol.Text.Decimals

/-!
# The fee account of one escrow

What the settlement of a policy-aware escrow owes, from the obligation that records it
(`fee-obligation.service.ts`) over the evidence of its collection
(`fee-collection-recognition.service.ts`) to the entitlements of its recipients
(`entitlement-allocation.service.ts`).

A statement of the database is one call. The statements of a transaction are calls of
their own as well : each reads what is committed when it runs, and what the transaction
writes becomes visible with its last call. A conditional update holds its row from the
statement to the commit, and an insert its unique key, so the last writes of a transaction
and its commit are one call (`commitConfirmed`, `commitAllocation`, `commitReversal`).
-/

namespace Sails.Fees

open Async Numeric Text Settlement

/-! ## Rows -/

/-- `AssetType`. -/
inductive AssetType where
  | BTC
  | USDT_ERC20
  | USDT_TRC20
  | USDT_LIQUID
  | USDT_LIGHTNING
  | LN_BTC
  | LIQUID_BTC
  | SPARK
  | STACKS
  | RSK_BTC
  deriving DecidableEq, Repr

/-- The columns of `FeeObligation` the operations read or write. -/
structure ObligationRow where
  feePolicyVersionId : ℕ
  economicDetermination : FeeEconomicDetermination
  collectionStatus : Option FeeCollectionStatus
  basisAmount : Option ℚ
  computedFee : Option ℚ
  asset : Option AssetType
  deriving DecidableEq

/-- The kinds of collection evidence. -/
inductive EvidenceKind where
  | BROADCAST
  | CONFIRMED
  | REPLACED
  | DROPPED
  | REORGED_OUT
  | ALTERNATE_SPEND
  deriving DecidableEq, Repr

/-- `RecordEvidenceInput`. -/
structure EvidenceInput where
  kind : EvidenceKind
  txid : ℕ
  vout : Option ℕ := none
  scriptPubKey : Option JsString := none
  amount : Option ℚ := none
  confirmedAtHeight : Option ℕ := none
  distributionPolicyVersionId : Option ℕ := none
  deriving DecidableEq

/-- A row of `FeeCollectionEvidence`. -/
structure Evidence extends EvidenceInput where
  id : ℕ
  recordedAt : ℕ
  deriving DecidableEq

/-- The kinds of ledger entries. -/
inductive EntryKind where
  | ALLOCATION
  | REVERSAL
  deriving DecidableEq, Repr

/-- What is inserted into the ledger. -/
structure EntryInput where
  confirmationEvidenceId : ℕ
  distributionPolicyVersionId : ℕ
  recipientId : ℕ
  asset : AssetType
  rail : JsString
  kind : EntryKind
  amount : ℚ
  reversalOfId : Option ℕ := none
  deriving DecidableEq

/-- A row of `EntitlementLedgerEntry`. -/
structure Entry extends EntryInput where
  id : ℕ
  deriving DecidableEq

/-- A recipient of a policy and its weight. -/
structure Recipient where
  recipientId : ℕ
  weightPct : ℚ
  deriving DecidableEq

/-- The rows of one fee account. Evidence and ledger are in the order of their commits. -/
structure FeeStore where
  obligation : Option ObligationRow
  evidence : List Evidence
  ledger : List Entry

/-- The account before anything is recorded. -/
def FeeStore.empty : FeeStore := ⟨none, [], []⟩

/-- What does not change during a run : the rail and the small-trade rule of the fee
policy, and the recipients of each distribution policy that was ever published. -/
structure Platform where
  railScope : JsString
  fixtureOnlyMinimum : Option ℚ
  recipients : ℕ → List Recipient

/-- The status of the obligation, if there is one that has a status. -/
def FeeStore.status (s : FeeStore) : Option FeeCollectionStatus :=
  s.obligation.bind ObligationRow.collectionStatus

/-- `VALID_COLLECTION_TRANSITIONS`. -/
def validCollectionTransitions : FeeCollectionStatus → List FeeCollectionStatus
  | .PENDING_COLLECTION => [.IN_PROGRESS, .WAIVED, .UNCOLLECTIBLE_BYPASSED]
  | .IN_PROGRESS => [.COLLECTED, .PENDING_COLLECTION, .UNCOLLECTIBLE_BYPASSED]
  | .COLLECTED => [.IN_PROGRESS, .DISTRIBUTED]
  | .WAIVED => []
  | .UNCOLLECTIBLE_BYPASSED => []
  | .DISTRIBUTED => []

/-! ## Inserts into the ledger -/

/-- The sign check of the table. -/
def EntryInput.signed (e : EntryInput) : Bool :=
  match e.kind with
  | .ALLOCATION => 0 < e.amount
  | .REVERSAL => e.amount < 0

/-- The unique key of the table. -/
def EntryInput.key (e : EntryInput) : ℕ × ℕ × EntryKind :=
  (e.confirmationEvidenceId, e.recipientId, e.kind)

/-- The values as the columns hold them. -/
def EntryInput.stored (e : EntryInput) : EntryInput := { e with amount := toColumn e.amount }

/-- What the operations throw. -/
inductive FeeError where
  | fault
  | notFound
  | obligationExists
  | invalidTransition
  | notInStatus
  | notInProgress
  | unknownTransaction
  | notCollected
  | nothingToAllocate
  | noConfirmation
  | noFrozenPolicy
  | noRecipients
  | noDecimals
  | weights
  | inexactSum
  | amountSign
  | uniqueConstraint
  | notAllocation
  deriving DecidableEq, Repr

/-- Insert one row. -/
def insertEntry (ledger : List Entry) (e : EntryInput) : Except FeeError (List Entry) :=
  if e.stored.signed = false then .error .amountSign
  else if ledger.any (·.key == e.key) then .error .uniqueConstraint
  else .ok (ledger ++ [⟨e.stored, ledger.length⟩])

/-- Insert rows one after the other in a transaction. -/
def insertEntries (ledger : List Entry) (es : List EntryInput) : Except FeeError (List Entry) :=
  es.foldlM insertEntry ledger

/-! ## The split of a fee -/

/-- `nativeUnitDecimalsFor`, which throws for an asset it does not know. -/
def nativeUnitDecimalsFor : AssetType → Option ℕ
  | .BTC => some 8
  | .LN_BTC => some 8
  | .LIQUID_BTC => some 8
  | .RSK_BTC => some 8
  | .USDT_ERC20 => some 6
  | .USDT_TRC20 => some 6
  | .USDT_LIQUID => some 6
  | .USDT_LIGHTNING => some 6
  | .SPARK => none
  | .STACKS => none

/-- The text `toFixed(decimals)` gives for an amount that is not negative. -/
def toFixedText (decimals : ℕ) (x : ℚ) : JsString :=
  fixedText decimals (toFixed (x * 10 ^ decimals)).toNat

/-- `toNativeUnits`. -/
def toNativeUnits (decimalAmount : JsString) (decimals : ℕ) : ℕ :=
  decimalUnits decimals decimalAmount

/-- What a recipient of this weight is entitled to. -/
def entitlement (collected weightPct : ℚ) : ℚ :=
  dividedBy (times collected weightPct) 100

/-- A list of decimals added one after the other. -/
def total (l : List ℚ) : ℚ := l.foldl plus 0

/-- The rows of an allocation, or the reason there are none. -/
def entitlements (computedFee : ℚ) (asset : AssetType) (rail : JsString)
    (confirmationEvidenceId distributionPolicyVersionId : ℕ) (recipients : List Recipient) :
    Except FeeError (List EntryInput) :=
  match nativeUnitDecimalsFor asset with
  | none => .error .noDecimals
  | some decimals =>
    let collected : ℚ := toNativeUnits (toFixedText decimals computedFee) decimals
    if total (recipients.map Recipient.weightPct) ≠ 100 then .error .weights
    else if total (recipients.map fun r => entitlement collected r.weightPct) ≠ collected then
      .error .inexactSum
    else
      .ok (recipients.map fun r =>
        { confirmationEvidenceId, distributionPolicyVersionId, recipientId := r.recipientId,
          asset, rail, kind := .ALLOCATION, amount := entitlement collected r.weightPct })

/-- The row that offsets an allocation. -/
def Entry.reversal (original : Entry) : EntryInput :=
  { original.toEntryInput with
    kind := .REVERSAL, amount := -original.amount, reversalOfId := some original.id }

/-! ## Calls -/

/-- What the operations await. -/
inductive Call where
  | findObligation
  | findFeePolicyVersion
  | createObligation (row : ObligationRow)
  | claimCollectionStatusTransition (fromStatus toStatus : FeeCollectionStatus)
  | recordEvidence (input : EvidenceInput)
  | latestEvidence (kind : EvidenceKind)
  | findLivePolicy
  -- the transaction of a confirmation
  | insertConfirmed
  | commitConfirmed (input : EvidenceInput) (recordedAt : ℕ)
      (fromStatus toStatus : FeeCollectionStatus)
  -- the ledger
  | findRecipients (distributionPolicyVersionId : ℕ)
  | commitAllocation (entries : List EntryInput)
  | findAllocations (confirmationEvidenceId : ℕ)
  | findEntry (id : ℕ)
  | commitReversal (entry : EntryInput)
  deriving DecidableEq

/-- What each call returns. -/
abbrev Answer : Call → Type
  | .findObligation => Option ObligationRow
  | .claimCollectionStatusTransition _ _ => Bool
  | .latestEvidence _ => Option Evidence
  | .findLivePolicy => Option ℕ
  | .insertConfirmed => ℕ
  | .commitConfirmed _ _ _ _ => Bool
  | .findRecipients _ => List Recipient
  | .findAllocations _ => List Entry
  | .findEntry _ => Option Entry
  | _ => Unit

/-- What the environment decides about a call : its fate, the time a row is inserted at,
the order of rows of one time, and the published distribution policy. -/
structure FeeEnv where
  fate : Fate := .answered
  now : ℕ := 0
  tie : ℕ → ℕ := id
  livePolicy : Option ℕ := none

/-- The newest row of a kind : the last of `orderBy: { recordedAt: 'asc' }`, or the first of
`'desc'`. Rows of one time come in any order. -/
def latest (tie : ℕ → ℕ) (kind : EvidenceKind) (evidence : List Evidence) : Option Evidence :=
  (evidence.filter (·.kind = kind)).argmax fun e => toLex (e.recordedAt, tie e.id)

namespace FeeStore

variable (s : FeeStore)

/-- The `update` of a conditional `updateMany`. -/
def setStatus (status : FeeCollectionStatus) : FeeStore :=
  { s with obligation := s.obligation.map ({ · with collectionStatus := some status }) }

/-- Append a row of evidence. -/
def record (input : EvidenceInput) (recordedAt : ℕ) : FeeStore :=
  { s with evidence := s.evidence ++ [⟨input, s.evidence.length, recordedAt⟩] }

/-- Append rows to the ledger, or leave it as it is. -/
def insert (es : List EntryInput) : Except FeeError Unit × FeeStore :=
  match insertEntries s.ledger es with
  | .ok ledger => (.ok (), { s with ledger := ledger })
  | .error e => (.error e, s)

end FeeStore

section System

variable (P : Platform)

/-- What a call answers and does to the rows when it does not fail. -/
def Call.run : (q : Call) → FeeEnv → FeeStore → Except FeeError (Answer q) × FeeStore
  | .findObligation, _, s => (.ok s.obligation, s)
  | .findFeePolicyVersion, _, s => (.ok (), s)
  | .createObligation row, _, s =>
    if s.obligation.isSome then (.error .obligationExists, s)
    else (.ok (), { s with obligation := some row })
  | .claimCollectionStatusTransition fromStatus toStatus, _, s =>
    if s.status = some fromStatus then (.ok true, s.setStatus toStatus) else (.ok false, s)
  | .recordEvidence input, env, s => (.ok (), s.record input env.now)
  | .latestEvidence kind, env, s => (.ok (latest env.tie kind s.evidence), s)
  | .findLivePolicy, env, s => (.ok env.livePolicy, s)
  | .insertConfirmed, env, s => (.ok env.now, s)
  | .commitConfirmed input recordedAt fromStatus toStatus, _, s =>
    -- no row affected : the transaction is rolled back, and the insert with it
    if s.status = some fromStatus then (.ok true, (s.record input recordedAt).setStatus toStatus)
    else (.ok false, s)
  | .findRecipients id, _, s => (.ok (P.recipients id), s)
  | .commitAllocation entries, _, s => s.insert entries
  | .findAllocations id, _, s =>
    (.ok (s.ledger.filter fun e => e.confirmationEvidenceId = id ∧ e.kind = .ALLOCATION), s)
  | .findEntry id, _, s => (.ok (s.ledger.find? (·.id = id)), s)
  | .commitReversal entry, _, s => s.insert [entry]

/-- The answer to a call, and the store after it. -/
def Call.exec (q : Call) (env : FeeEnv) (s : FeeStore) : Except FeeError (Answer q) × FeeStore :=
  env.fate.settle .fault (q.run P env s) s

/-- A program over these calls. -/
abbrev FeeOp := Prog Answer FeeError

/-- One call, as a program. -/
def await (q : Call) : FeeOp (Answer q) := Prog.perform q

/-! ## The obligation -/

/-- `EscrowForFeeObligation`. -/
structure FeeEscrow where
  lockedAmount : ℚ
  asset : AssetType
  feePolicyVersionId : Option ℕ
  snapshotProtocolFeeRate : Option ℚ
  deriving DecidableEq

/-- The arguments of `recordObligationForEscrowSettlement`. -/
structure SettlementArgs where
  escrow : FeeEscrow
  outcome : FeeOutcome
  splitBuyerBps : Option ℤ
  actualCollection : Option FeeCollectionResult
  deriving DecidableEq

/-- `transitionCollectionStatus`. -/
def transitionCollectionStatus (fromStatus toStatus : FeeCollectionStatus) : FeeOp Unit := do
  Prog.require ((validCollectionTransitions fromStatus).contains toStatus) .invalidTransition
  let affected : Bool ← await (.claimCollectionStatusTransition fromStatus toStatus)
  Prog.require affected .notInStatus

namespace SettlementArgs

variable (a : SettlementArgs)

/-- The amount that the fee is computed from. -/
def basisAmount : ℚ :=
  match a.outcome with
  | .SPLIT => toDecimalPlaces 8
      (dividedBy (times a.escrow.lockedAmount (10000 - a.splitBuyerBps.getD 0 : ℤ)) 10000)
  | _ => a.escrow.lockedAmount

/-- The fee at a rate. -/
def computedFee (rate : ℚ) : ℚ := computeProtocolFee a.basisAmount rate

/-- `evaluateSmallTradeRuleFixtureOnly`. -/
def smallTradeWaives (rate : ℚ) : Bool :=
  P.fixtureOnlyMinimum.any fun minimum => a.computedFee rate < minimum

/-- Whether the settlement waives its fee. -/
def waived (rate : ℚ) : Bool :=
  match a.actualCollection with
  | some actual => actual.waived
  | none => a.smallTradeWaives P rate

/-- The fee that is recorded : what was built into the transaction, if there is one that
collects it. -/
def recordedFee (rate : ℚ) : ℚ :=
  match a.actualCollection with
  | some actual =>
    if actual.waived then a.computedFee rate else dividedBy actual.feeSats (10 ^ 8)
  | none => a.computedFee rate

/-- `createNotApplicable`. -/
def notApplicableRow (feePolicyVersionId : ℕ) : ObligationRow :=
  ⟨feePolicyVersionId, .NOT_APPLICABLE, none, none, none, none⟩

/-- `createOwed`. -/
def owedRow (feePolicyVersionId : ℕ) (rate : ℚ) : ObligationRow :=
  ⟨feePolicyVersionId, .OWED, some .PENDING_COLLECTION, some a.basisAmount,
    some (a.recordedFee rate), some a.escrow.asset⟩

end SettlementArgs

/-- The part of `recordObligationForEscrowSettlement` inside its `try`. -/
def createForSettlement (a : SettlementArgs) (feePolicyVersionId : ℕ) : FeeOp Unit := do
  let existing : Option ObligationRow ← await .findObligation
  if existing.isSome then pure ()
  else if a.outcome = .FULL_REFUND then
    await (.createObligation (SettlementArgs.notApplicableRow feePolicyVersionId))
  else
    match a.escrow.snapshotProtocolFeeRate with
    | none => pure ()
    | some rate => do
      Prog.when a.actualCollection.isNone (await .findFeePolicyVersion)
      await (.createObligation (a.owedRow feePolicyVersionId rate))
      Prog.when (a.waived P rate) (transitionCollectionStatus .PENDING_COLLECTION .WAIVED)

/-- `recordObligationForEscrowSettlement`. Every error is logged and swallowed. -/
def recordObligationForEscrowSettlement (a : SettlementArgs) : FeeOp Unit :=
  Prog.forSome a.escrow.feePolicyVersionId fun id => Prog.swallow (createForSettlement P a id)

/-! ## Collection -/

/-- The output of a broadcast that pays the fee. -/
structure BroadcastEvidenceInput where
  txid : ℕ
  vout : ℕ
  scriptPubKey : JsString
  amountSats : ℕ
  deriving DecidableEq

/-- The row of a broadcast. -/
def BroadcastEvidenceInput.row (e : BroadcastEvidenceInput) : EvidenceInput :=
  { kind := .BROADCAST, txid := e.txid, vout := some e.vout, scriptPubKey := some e.scriptPubKey,
    amount := some (dividedBy e.amountSats (10 ^ 8)) }

/-- `recordBroadcastAndAdvance`. -/
def recordBroadcastAndAdvance (e : BroadcastEvidenceInput) : FeeOp Unit := do
  await (.recordEvidence e.row)
  transitionCollectionStatus .PENDING_COLLECTION .IN_PROGRESS

/-- The row of a confirmation. -/
def Evidence.confirmed (lastBroadcast : Evidence) (txid confirmedAtHeight : ℕ)
    (livePolicy : Option ℕ) : EvidenceInput :=
  { kind := .CONFIRMED, txid := txid, vout := lastBroadcast.vout,
    scriptPubKey := lastBroadcast.scriptPubKey, amount := lastBroadcast.amount,
    confirmedAtHeight := some confirmedAtHeight, distributionPolicyVersionId := livePolicy }

/-- `recognizeConfirmation`. -/
def recognizeConfirmation (txid confirmedAtHeight : ℕ) : FeeOp Unit := do
  let found : Option ObligationRow ← await .findObligation
  let obligation ← Prog.orThrow found .notFound
  Prog.require (obligation.collectionStatus == some .IN_PROGRESS) .notInProgress
  let evidence : Option Evidence ← await (.latestEvidence .BROADCAST)
  let lastBroadcast ← Prog.orThrow (evidence.filter (·.txid = txid)) .unknownTransaction
  let livePolicy : Option ℕ ← await .findLivePolicy
  let recordedAt : ℕ ← await .insertConfirmed
  Prog.require ((validCollectionTransitions .IN_PROGRESS).contains .COLLECTED) .invalidTransition
  let affected : Bool ← await (.commitConfirmed
    (lastBroadcast.confirmed txid confirmedAtHeight livePolicy) recordedAt
    .IN_PROGRESS .COLLECTED)
  Prog.require affected .notInStatus

/-- `recordReplacement`. -/
def recordReplacement (oldTxid : ℕ) : FeeOp Unit :=
  await (.recordEvidence { kind := .REPLACED, txid := oldTxid })

/-- `recordDropped`. -/
def recordDropped (txid : ℕ) : FeeOp Unit :=
  await (.recordEvidence { kind := .DROPPED, txid := txid })

/-- `recordReorgAndRevert`. -/
def recordReorgAndRevert (txid : ℕ) : FeeOp Unit := do
  let found : Option ObligationRow ← await .findObligation
  let obligation ← Prog.orThrow found .notFound
  await (.recordEvidence { kind := .REORGED_OUT, txid := txid })
  Prog.when (obligation.collectionStatus == some .COLLECTED)
    (transitionCollectionStatus .COLLECTED .IN_PROGRESS)

/-- The accounting of a finished settlement, in `submitTransactionSignature` and in
`applyDownstreamCompletionEffects`. `feeOutput` is what `identifyFeeOutput` finds in the
transaction, if it finds it. -/
def applyDownstreamCompletionEffects (a : SettlementArgs)
    (feeOutput : Option BroadcastEvidenceInput) : FeeOp Unit := do
  recordObligationForEscrowSettlement P a
  Prog.when (decide (a.outcome ≠ .FULL_REFUND) && a.actualCollection.any (!·.waived))
    (Prog.swallow do
      let found : Option ObligationRow ← await .findObligation
      let _ ← Prog.orThrow found .notFound
      let evidence ← Prog.orThrow feeOutput .notFound
      recordBroadcastAndAdvance evidence)

/-! ## Entitlements -/

/-- `allocate`. -/
def allocate : FeeOp Unit := do
  let found : Option ObligationRow ← await .findObligation
  let obligation ← Prog.orThrow found .notFound
  Prog.require (obligation.collectionStatus == some .COLLECTED) .notCollected
  let computedFee ← Prog.orThrow obligation.computedFee .nothingToAllocate
  let asset ← Prog.orThrow obligation.asset .nothingToAllocate
  await .findFeePolicyVersion
  let evidence : Option Evidence ← await (.latestEvidence .CONFIRMED)
  let confirmation ← Prog.orThrow evidence .noConfirmation
  let policyId ← Prog.orThrow confirmation.distributionPolicyVersionId .noFrozenPolicy
  let recipients : List Recipient ← await (.findRecipients policyId)
  Prog.require (!recipients.isEmpty) .noRecipients
  let entries ← Prog.ret
    (entitlements computedFee asset P.railScope confirmation.id policyId recipients)
  await (.commitAllocation entries)

/-- `reverseEntry`. -/
def reverseEntry (originalEntryId : ℕ) : FeeOp Unit := do
  let found : Option Entry ← await (.findEntry originalEntryId)
  let original ← Prog.orThrow found .notFound
  Prog.require (original.kind == .ALLOCATION) .notAllocation
  await (.commitReversal original.reversal)

/-- `reverseGeneration`. -/
def reverseGeneration (confirmationEvidenceId : ℕ) : FeeOp Unit := do
  let entries : List Entry ← await (.findAllocations confirmationEvidenceId)
  Prog.forEach entries fun entry => reverseEntry entry.id

/-! ## The system -/

/-- What can be asked about the fee of one settlement. -/
inductive FeeReq where
  | recordObligation (a : SettlementArgs)
  | completionEffects (a : SettlementArgs) (feeOutput : Option BroadcastEvidenceInput)
  | recordBroadcastAndAdvance (e : BroadcastEvidenceInput)
  | recognizeConfirmation (txid confirmedAtHeight : ℕ)
  | recordReplacement (oldTxid : ℕ)
  | recordDropped (txid : ℕ)
  | recordReorgAndRevert (txid : ℕ)
  | allocate
  | reverseEntry (originalEntryId : ℕ)
  | reverseGeneration (confirmationEvidenceId : ℕ)
  deriving DecidableEq

/-- The program that serves a request. -/
def FeeReq.prog : FeeReq → FeeOp Unit
  | .recordObligation a => recordObligationForEscrowSettlement P a
  | .completionEffects a feeOutput => applyDownstreamCompletionEffects P a feeOutput
  | .recordBroadcastAndAdvance e => Fees.recordBroadcastAndAdvance e
  | .recognizeConfirmation txid height => Fees.recognizeConfirmation txid height
  | .recordReplacement oldTxid => Fees.recordReplacement oldTxid
  | .recordDropped txid => Fees.recordDropped txid
  | .recordReorgAndRevert txid => Fees.recordReorgAndRevert txid
  | .allocate => Fees.allocate P
  | .reverseEntry id => Fees.reverseEntry id
  | .reverseGeneration id => Fees.reverseGeneration id

/-- The operations on one account, with the observations a statement needs. -/
def feeSystem {Obs : Type}
    (observe : ∀ q : Call, FeeStore → Except FeeError (Answer q) → List Obs) :
    System Answer FeeError Unit FeeStore FeeEnv FeeReq Obs where
  exec := Call.exec P
  observe := observe
  prog := FeeReq.prog P

/-! ## What a call does to the account -/

namespace FeeStore

variable {s : FeeStore}

@[simp] theorem status_record (input : EvidenceInput) (recordedAt : ℕ) :
    (s.record input recordedAt).status = s.status :=
  rfl

theorem status_create (row : ObligationRow) :
    ({ s with obligation := some row } : FeeStore).status = row.collectionStatus :=
  rfl

theorem status_of_none (h : s.obligation = none) : s.status = none := by
  rw [status, h, Option.bind_none]

theorem status_setStatus {f : FeeCollectionStatus} (h : s.status = some f)
    (t : FeeCollectionStatus) : (s.setStatus t).status = some t := by
  obtain ⟨row, hrow, -⟩ := Option.bind_eq_some_iff.mp h
  rw [status, setStatus, hrow]
  rfl

theorem insert_ok {es : List EntryInput} {ledger : List Entry}
    (h : insertEntries s.ledger es = .ok ledger) :
    s.insert es = (.ok (), { s with ledger := ledger }) := by
  rw [insert, h]

theorem insert_error {es : List EntryInput} {e : FeeError}
    (h : insertEntries s.ledger es = .error e) : s.insert es = (.error e, s) := by
  rw [insert, h]

end FeeStore

/-- What a call that takes effect does : it creates the obligation, moves its status,
records evidence, does both in one transaction, or inserts into the ledger. -/
inductive Effect : Call → FeeEnv → FeeStore → FeeStore → Prop
  | create {row : ObligationRow} {env : FeeEnv} {s : FeeStore} (hnone : s.obligation = none) :
      Effect (.createObligation row) env s { s with obligation := some row }
  | claim {f t : FeeCollectionStatus} {env : FeeEnv} {s : FeeStore} (hs : s.status = some f) :
      Effect (.claimCollectionStatusTransition f t) env s (s.setStatus t)
  | record {input : EvidenceInput} {env : FeeEnv} {s : FeeStore} :
      Effect (.recordEvidence input) env s (s.record input env.now)
  | confirm {input : EvidenceInput} {recordedAt : ℕ} {f t : FeeCollectionStatus} {env : FeeEnv}
      {s : FeeStore} (hs : s.status = some f) :
      Effect (.commitConfirmed input recordedAt f t) env s
        ((s.record input recordedAt).setStatus t)
  | allocate {entries : List EntryInput} {ledger : List Entry} {env : FeeEnv} {s : FeeStore}
      (hinsert : insertEntries s.ledger entries = .ok ledger) :
      Effect (.commitAllocation entries) env s { s with ledger := ledger }
  | reverse {entry : EntryInput} {ledger : List Entry} {env : FeeEnv} {s : FeeStore}
      (hinsert : insertEntries s.ledger [entry] = .ok ledger) :
      Effect (.commitReversal entry) env s { s with ledger := ledger }

/-- A call leaves the rows or has one of the effects. -/
theorem run_effect (q : Call) (env : FeeEnv) (s : FeeStore) :
    (q.run P env s).2 = s ∨ Effect q env s (q.run P env s).2 := by
  cases q with
  | createObligation row =>
    rw [Call.run]
    split_ifs with h
    · exact Or.inl rfl
    · exact Or.inr (.create (by simpa using h))
  | claimCollectionStatusTransition f t =>
    rw [Call.run]
    split_ifs with h
    · exact Or.inr (.claim h)
    · exact Or.inl rfl
  | recordEvidence input => exact Or.inr .record
  | commitConfirmed input recordedAt f t =>
    rw [Call.run]
    split_ifs with h
    · exact Or.inr (.confirm h)
    · exact Or.inl rfl
  | commitAllocation entries =>
    rw [Call.run, FeeStore.insert]
    cases h : insertEntries s.ledger entries with
    | ok ledger => exact Or.inr (.allocate h)
    | error e => exact Or.inl rfl
  | commitReversal entry =>
    rw [Call.run, FeeStore.insert]
    cases h : insertEntries s.ledger [entry] with
    | ok ledger => exact Or.inr (.reverse h)
    | error e => exact Or.inl rfl
  | findObligation => exact Or.inl rfl
  | findFeePolicyVersion => exact Or.inl rfl
  | latestEvidence kind => exact Or.inl rfl
  | findLivePolicy => exact Or.inl rfl
  | insertConfirmed => exact Or.inl rfl
  | findRecipients id => exact Or.inl rfl
  | findAllocations id => exact Or.inl rfl
  | findEntry id => exact Or.inl rfl

theorem exec_effect (q : Call) (env : FeeEnv) (s : FeeStore) :
    (q.exec P env s).2 = s ∨ Effect q env s (q.exec P env s).2 := by
  rcases env.fate.settle_store .fault (q.run P env s) s with h | h
  · exact Or.inl h
  · rw [Call.exec, h]
    exact run_effect P q env s

/-- An answer that is not an error is the call's own. -/
theorem run_of_exec_ok {P : Platform} {q : Call} {env : FeeEnv} {s : FeeStore} {a : Answer q}
    (h : (q.exec P env s).1 = .ok a) : q.exec P env s = q.run P env s := by
  rcases env.fate.settle_answer .fault (q.run P env s) s with heq | herr
  · exact heq
  · rw [Call.exec, herr] at h
    cases h

/-- A claim that was answered with a row has moved the obligation. -/
theorem claim_ok {P : Platform} {f t : FeeCollectionStatus} {env : FeeEnv} {s : FeeStore}
    (h : ((Call.claimCollectionStatusTransition f t).exec P env s).1 = .ok true) :
    s.status = some f ∧
      ((Call.claimCollectionStatusTransition f t).exec P env s).2 = s.setStatus t := by
  have hrun := run_of_exec_ok h
  rw [hrun, Call.run] at h ⊢
  split_ifs at h ⊢ with hs
  · exact ⟨hs, rfl⟩
  · cases h

end System

end Sails.Fees
