import SailsProtocol.Async.Pool
import SailsProtocol.Async.Steps
import SailsProtocol.Fees.Account
import SailsProtocol.Settlement.Funding

/-!
# Payouts and fees that count as buried

Two background sweeps look after transactions that were seen confirmed : the payout of a
MULTISIG escrow (`multisig-release-reorg-sweep.ts`) and the fee output it carries
(`multisig-fee-reorg-sweep.ts`). Both stop asking for a transaction once the height that was
recorded of it is more than a safety window below the tip, and that test asks for the tip only.

A run is any list of blocks found or given up, ticks of the sweeps and writes of the other
services, and every call of a tick may fail. `buried_soundly` : while a recorded transaction
is off the chain, let the tip stay within the window of its recorded height; then only
transactions that are on the chain, or were seen deeper than the window, count as buried, and
every tick shows the others. `reorged_payout_buried` is a tick that comes too late.
-/

namespace Sails.Settlement.Burial

open Async Async.Steps

/-! ## The chain -/

/-- Where a transaction is. -/
inductive Inclusion where
  | absent
  | mempool
  | confirmed (blockHeight : ℕ)
  deriving DecidableEq, Repr

/-- `OutpointSpendStatus`. -/
structure OutpointSpendStatus where
  spent : Bool
  spendingTxid : Option String
  deriving DecidableEq, Repr

/-- An output of a transaction, its value in satoshis. -/
structure BroadcastTransactionOutput where
  scriptPubKeyHex : String
  valueSats : ℕ
  deriving DecidableEq, Repr

/-- What the explorer shows between two changes of the chain or the mempool. -/
structure Chain where
  tipHeight : ℕ
  inclusion : String → Inclusion
  outputs : String → List BroadcastTransactionOutput
  outspend : String → ℕ → OutpointSpendStatus

/-- Confirmations of a block at a tip. -/
def depth (tipHeight blockHeight : ℕ) : ℤ := tipHeight - blockHeight + 1

namespace Chain

variable (chain : Chain)

/-- The transaction is in a block. -/
def Confirms (txid : String) : Prop := ∃ height, chain.inclusion txid = .confirmed height

/-- The transaction has more confirmations than the window. -/
def deeper (window : ℤ) (txid : String) : Bool :=
  match chain.inclusion txid with
  | .confirmed height => window < depth chain.tipHeight height
  | _ => false

/-- A transaction that spends an output is known to the network. -/
def Consistent (txid : String) : Prop :=
  ∀ lock vout, (chain.outspend lock vout).spendingTxid = some txid → chain.inclusion txid ≠ .absent

/-- `exists` and `confirmed`. -/
def fetchTransactionExistence (txid : String) : Bool × Bool :=
  match chain.inclusion txid with
  | .absent => (false, false)
  | .mempool => (true, false)
  | .confirmed _ => (true, true)

/-- An unknown transaction is an error. -/
def fetchTransactionConfirmationStatus (txid : String) : Except Unit ConfirmationStatus :=
  match chain.inclusion txid with
  | .absent => throw ()
  | .mempool => pure ⟨false, none⟩
  | .confirmed height => pure ⟨true, some height⟩

end Chain

/-- The answer to a read, or an error. -/
def fetched {α : Type} (fate : Fate) (answer : α) : Except Unit α :=
  match fate with
  | .answered => pure answer
  | .failed | .lost => throw ()

/-- A request for the status of a transaction. -/
def Chain.confirmationStatus (chain : Chain) (fate : Fate) (txid : String) :
    Except Unit ConfirmationStatus := do
  let answer ← fetched fate (chain.fetchTransactionConfirmationStatus txid)
  answer

/-! ## Payouts -/

/-- A row of `EscrowReleaseEvidence`. -/
structure ReleaseEvidence where
  kind : EvidenceKind
  txid : Option String
  observedAtHeight : Option ℕ
  tipHeightAtObservation : Option ℕ
  deriving DecidableEq, Repr

/-- The columns of an escrow that the sweep reads, with its evidence, oldest first. -/
structure ReleaseEscrow where
  id : String
  multisig : Bool
  status : EscrowStatus
  txReleaseId : Option String
  txLockId : Option String
  txLockVout : Option ℕ
  evidence : List ReleaseEvidence
  deriving DecidableEq, Repr

/-- The reason a payout goes to manual review. -/
inductive ReviewReason where
  | noFundingVout
  | fundingUnspent
  | spentBy (txid : Option String)
  deriving DecidableEq, Repr

/-- The list of the result that an escrow is put in. -/
inductive ReleaseVerdict where
  | observedBaseline
  | reconfirmed
  | stillGood
  | stillPending
  | buriedEnough
  | requiresManualReview (reason : ReviewReason)
  | failed
  deriving DecidableEq, Repr

/-- The calls for one escrow. -/
inductive ReleaseCall where
  | listForEscrow
  | baselineTip
  | existence
  | confirmationStatus
  | observedTip
  | outspend
  | record
  deriving DecidableEq, Repr

/-- The recorded height of `trustworthyBaseline`. -/
def baselineHeight (last : Option ReleaseEvidence) : Option ℕ :=
  last.bind fun row => if row.kind.trustworthy then row.observedAtHeight else none

section Release

variable (window : ℤ) (chain : Chain) (fate : ReleaseCall → Fate)

/-- The test of the depth window. -/
def baselineBuried (last : Option ReleaseEvidence) : Except Unit Bool :=
  match baselineHeight last with
  | some height => do
    let tipHeight ← fetched (fate .baselineTip) chain.tipHeight
    return window < depth tipHeight height
  | none => return false

/-- A new observation, at the height the explorer gives. -/
def observe (txReleaseId : String) (kind : EvidenceKind) (verdict : ReleaseVerdict) :
    Except Unit (ReleaseVerdict × Option ReleaseEvidence) := do
  let status ← chain.confirmationStatus (fate .confirmationStatus) txReleaseId
  let tipHeight ← fetched (fate .observedTip) chain.tipHeight
  return (verdict, some ⟨kind, some txReleaseId, status.blockHeight, some tipHeight⟩)

/-- The verdict on a transaction that no explorer knows, by what spent the funding output. -/
def ReleaseEscrow.lookForSpend (e : ReleaseEscrow) (txReleaseId : String) :
    Except Unit (ReleaseVerdict × Option ReleaseEvidence) :=
  match e.txLockId, e.txLockVout with
  | some txLockId, some txLockVout => do
    let outspend ← fetched (fate .outspend) (chain.outspend txLockId txLockVout)
    if !outspend.spent then
      return (.requiresManualReview .fundingUnspent,
        some ⟨.reorgedInvalidated, some txReleaseId, none, none⟩)
    else if outspend.spendingTxid = some txReleaseId then return (.stillGood, none)
    else return (.requiresManualReview (.spentBy outspend.spendingTxid),
      some ⟨.ambiguous, outspend.spendingTxid, none, none⟩)
  | _, _ => return (.requiresManualReview .noFundingVout, none)

/-- The verdict on a payout that is looked up, and the row to record. -/
def ReleaseEscrow.lookUp (e : ReleaseEscrow) (last : Option ReleaseEvidence)
    (txReleaseId : String) : Except Unit (ReleaseVerdict × Option ReleaseEvidence) := do
  let (exists_, confirmed) ← fetched (fate .existence) (chain.fetchTransactionExistence txReleaseId)
  if !exists_ then e.lookForSpend chain fate txReleaseId
  else if !confirmed then return (.stillPending, none)
  else match last with
    | none => observe chain fate txReleaseId .observedConfirmed .observedBaseline
    | some row =>
      if row.kind = .reorgedInvalidated ∨ row.kind = .ambiguous then
        observe chain fate txReleaseId .reconfirmed .reconfirmed
      else return (.stillGood, none)

/-- `classify` of the release sweep. -/
def ReleaseEscrow.classify (e : ReleaseEscrow) (txReleaseId : String) :
    Except Unit (ReleaseVerdict × Option ReleaseEvidence) := do
  let history ← fetched (fate .listForEscrow) e.evidence
  if ← baselineBuried window chain fate history.getLast? then return (.buriedEnough, none)
  else e.lookUp chain fate history.getLast? txReleaseId

/-- The verdict and the evidence after one turn of the loop. -/
def ReleaseEscrow.visit (e : ReleaseEscrow) (txReleaseId : String) :
    ReleaseVerdict × List ReleaseEvidence :=
  match e.classify window chain fate txReleaseId with
  | .error _ => (.failed, e.evidence)
  | .ok (verdict, none) => (verdict, e.evidence)
  | .ok (verdict, some row) =>
    match fate .record with
    | .answered => (verdict, e.evidence ++ [row])
    | .failed => (.failed, e.evidence)
    | .lost => (.failed, e.evidence ++ [row])

/-- The turn asks for the payout and is told that it is confirmed. -/
def ReleaseEscrow.sights (e : ReleaseEscrow) (txReleaseId : String) : Bool :=
  fate .listForEscrow = .answered && fate .existence = .answered &&
    (chain.fetchTransactionExistence txReleaseId).2 &&
    match baselineBuried window chain fate e.evidence.getLast? with
    | .ok buried => !buried
    | .error _ => false

end Release

/-- The payout of an escrow that the sweep selects. -/
def ReleaseEscrow.candidate? (e : ReleaseEscrow) : Option String :=
  if e.multisig && (e.status = .completed || e.status = .refunded || e.status = .split) then
    e.txReleaseId
  else none

/-- `sweepMultisigReleaseReorgs` : each selected escrow with its payout and its verdict. -/
def sweepMultisigReleaseReorgs (window : ℤ) (chain : Chain) (fate : String → ReleaseCall → Fate)
    (escrows : List ReleaseEscrow) : List (ReleaseEscrow × String × ReleaseVerdict) :=
  escrows.filterMap fun e =>
    e.candidate?.map fun txReleaseId =>
      (e, txReleaseId, (e.visit window chain (fate e.id) txReleaseId).1)

/-! ## Fees -/

/-- A row of `FeeCollectionEvidence`, its amount in satoshis. -/
structure FeeEvidence where
  kind : Fees.EvidenceKind
  txid : Option String
  vout : Option ℕ
  scriptPubKey : Option String
  amount : Option ℕ
  confirmedAtHeight : Option ℕ
  deriving DecidableEq, Repr

/-- The columns of an obligation that the sweeps read, with its evidence, oldest first. -/
structure FeeObligation where
  id : String
  multisig : Bool
  collectionStatus : FeeCollectionStatus
  /-- Of the policy version the obligation refers to. -/
  requiredConfirmations : Option ℤ
  evidence : List FeeEvidence
  deriving DecidableEq, Repr

/-- The last row of evidence of a kind. -/
def lastOfKind (kind : Fees.EvidenceKind) (evidence : List FeeEvidence) : Option FeeEvidence :=
  evidence.reverse.find? fun row => row.kind = kind

/-- The transaction and the height of the last `CONFIRMED` row, when it has both. -/
def lastConfirmed (evidence : List FeeEvidence) : Option (String × ℕ) :=
  (lastOfKind .CONFIRMED evidence).bind fun row =>
    match row.txid, row.confirmedAtHeight with
    | some txid, some height => if txid = "" then none else some (txid, height)
    | _, _ => none

/-- What a visit of the confirmation sweep reports. -/
inductive ConfirmVerdict where
  | collected
  | stillPending
  | failed
  deriving DecidableEq, Repr

/-- The calls of the confirmation job for one obligation. -/
inductive ConfirmCall where
  | listForObligation
  | confirmationStatus
  | tip
  | outputs
  | findById
  | listEvidence
  | findLivePolicy
  | commit
  deriving DecidableEq, Repr

/-- What a visit of the fee reorganisation sweep reports. -/
inductive FeeVerdict where
  | reverted
  | flaggedDistributed
  | stillGood
  | buriedEnough
  | failed
  deriving DecidableEq, Repr

/-- The calls of the reorg sweep for one obligation. -/
inductive FeeCall where
  | listForObligation
  | confirmationStatus
  | findById
  | recordReorg
  | transition
  deriving DecidableEq, Repr

section Confirmation

variable (chain : Chain) (fate : ConfirmCall → Fate)

/-- The row that `recognizeConfirmation` commits together with `COLLECTED`. -/
def FeeObligation.recognizeConfirmation (o : FeeObligation) (txid : String)
    (confirmedAtHeight : ℕ) : Except Unit FeeEvidence := do
  let row ← fetched (fate .findById) o
  if row.collectionStatus = .IN_PROGRESS then do
    let evidence ← fetched (fate .listEvidence) o.evidence
    match lastOfKind .BROADCAST evidence with
    | none => throw ()
    | some broadcast =>
      if broadcast.txid = some txid then do
        let _ ← fetched (fate .findLivePolicy) ()
        return ⟨.CONFIRMED, some txid, broadcast.vout, broadcast.scriptPubKey, broadcast.amount,
          some confirmedAtHeight⟩
      else throw ()
  else throw ()

/-- The row for a transaction that is deep enough and pays as it was broadcast. -/
def FeeObligation.confirmAt (o : FeeObligation) (txid : String) (vout amount : ℕ)
    (scriptPubKey : Option String) (required : ℤ) (blockHeight : ℕ) :
    Except Unit (Option FeeEvidence) := do
  let tipHeight ← fetched (fate .tip) chain.tipHeight
  if depth tipHeight blockHeight < required then return none
  let outputs ← fetched (fate .outputs) (chain.outputs txid)
  match outputs[vout]?, scriptPubKey with
  | some output, some expected =>
    if expected ≠ "" ∧ output.scriptPubKeyHex = expected ∧ output.valueSats = amount then
      return some (← o.recognizeConfirmation fate txid blockHeight)
    else throw ()
  | _, _ => throw ()

/-- The part of a visit that looks for a confirmation. -/
def FeeObligation.confirm (o : FeeObligation) : Except Unit (Option FeeEvidence) := do
  let evidence ← fetched (fate .listForObligation) o.evidence
  match lastOfKind .BROADCAST evidence, o.requiredConfirmations with
  | some ⟨_, some txid, some vout, scriptPubKey, some amount, _⟩, some required =>
    if txid = "" ∨ required ≤ 0 then throw ()
    let status ← chain.confirmationStatus (fate .confirmationStatus) txid
    match status.confirmed, status.blockHeight with
    | true, some blockHeight =>
      o.confirmAt chain fate txid vout amount scriptPubKey required blockHeight
    | _, _ => return none
  | _, _ => throw ()

/-- The obligation with its confirmation. -/
def FeeObligation.collect (o : FeeObligation) (row : FeeEvidence) : FeeObligation :=
  { o with collectionStatus := .COLLECTED, evidence := o.evidence ++ [row] }

/-- One turn of `sweepMultisigFeeConfirmations`. -/
def FeeObligation.visitConfirmation (o : FeeObligation) : ConfirmVerdict × FeeObligation :=
  match o.confirm chain fate with
  | .error _ => (.failed, o)
  | .ok none => (.stillPending, o)
  | .ok (some row) =>
    match fate .commit with
    | .answered => (.collected, o.collect row)
    | .failed => (.failed, o)
    | .lost => (.failed, o.collect row)

end Confirmation

section Reorg

variable (window : ℤ) (chain : Chain) (tipHeight : ℕ) (fate : FeeCall → Fate)

/-- The obligation with the row of a reorganisation. -/
def FeeObligation.reorgedOut (o : FeeObligation) (txid : String) : FeeObligation :=
  { o with evidence := o.evidence ++ [⟨.REORGED_OUT, some txid, none, none, none, none⟩] }

/-- `recordReorgAndRevert`. -/
def FeeObligation.recordReorgAndRevert (o : FeeObligation) (txid : String) :
    FeeVerdict × FeeObligation :=
  match fate .findById, fate .recordReorg with
  | .answered, .answered =>
    match o.collectionStatus, fate .transition with
    | .COLLECTED, .answered =>
      (.reverted, { o.reorgedOut txid with collectionStatus := .IN_PROGRESS })
    | .COLLECTED, .failed => (.failed, o.reorgedOut txid)
    | .COLLECTED, .lost => (.failed, { o.reorgedOut txid with collectionStatus := .IN_PROGRESS })
    | _, _ => (.flaggedDistributed, o.reorgedOut txid)
  | .answered, .lost => (.failed, o.reorgedOut txid)
  | _, _ => (.failed, o)

/-- One turn of `sweepMultisigFeeReorgs`, after the tip was fetched. -/
def FeeObligation.visitReorg (o : FeeObligation) : FeeVerdict × FeeObligation :=
  match fetched (fate .listForObligation) (lastConfirmed o.evidence) with
  | .ok (some (txid, height)) =>
    if window < depth tipHeight height then (.buriedEnough, o)
    else match chain.confirmationStatus (fate .confirmationStatus) txid with
      | .error _ => (.failed, o)
      | .ok status =>
        if status.confirmed then (.stillGood, o) else o.recordReorgAndRevert fate txid
  | _ => (.failed, o)

/-- The turn asks for the fee's transaction and is told that it is confirmed. -/
def FeeObligation.sighted? (o : FeeObligation) : Option String :=
  match lastConfirmed o.evidence with
  | some (txid, height) =>
    if fate .listForObligation = .answered ∧ fate .confirmationStatus = .answered ∧
      depth tipHeight height ≤ window ∧ (chain.fetchTransactionExistence txid).2 then some txid
    else none
  | none => none

end Reorg

/-- The fee counts as collected. -/
def FeeObligation.collected (o : FeeObligation) : Bool :=
  o.collectionStatus = .COLLECTED || o.collectionStatus = .DISTRIBUTED

/-- `sweepMultisigFeeReorgs` : each selected obligation with its verdict, and nothing when the
tip is not answered. -/
def sweepMultisigFeeReorgs (window : ℤ) (chain : Chain) (tip : Fate)
    (fate : String → FeeCall → Fate) (obligations : List FeeObligation) :
    List (FeeObligation × FeeVerdict) :=
  if tip = .answered then
    (obligations.filter fun o => o.multisig && o.collected).map fun o =>
      (o, (o.visitReorg window chain chain.tipHeight (fate o.id)).1)
  else []

/-! ## Runs -/

/-- The chain, the rows, and the transactions that a tick of the two sweeps saw deeper than
the window. -/
structure Sweeps where
  chain : Chain
  escrows : List ReleaseEscrow
  obligations : List FeeObligation
  deep : List String

/-- What happens to the chain, the rows and the sweeps. -/
inductive Event where
  /-- Blocks are found or given up. -/
  | chain (next : Chain)
  | createEscrow (row : ReleaseEscrow)
  /-- An escrow's status is written, and its payout if it has none. -/
  | settle (id : String) (status : EscrowStatus) (txReleaseId : String)
  | createObligation (row : FeeObligation)
  /-- Evidence of another kind than `CONFIRMED` is recorded. -/
  | record (id : String) (row : FeeEvidence)
  /-- A collection status is written other than by the confirmation job. -/
  | transition (id : String) (next : FeeCollectionStatus)
  | releaseTick (fate : String → ReleaseCall → Fate)
  | confirmTick (fate : String → ConfirmCall → Fate)
  | feeTick (tip : Fate) (fate : String → FeeCall → Fate)

/-- The settlement of the escrow of an id. -/
def ReleaseEscrow.settle (id : String) (status : EscrowStatus) (txReleaseId : String)
    (e : ReleaseEscrow) : ReleaseEscrow :=
  if e.id = id then
    { e with status := status, txReleaseId := some (e.txReleaseId.getD txReleaseId) }
  else e

/-- A row of evidence for the obligation of an id. -/
def FeeObligation.record (id : String) (row : FeeEvidence) (o : FeeObligation) : FeeObligation :=
  if o.id = id ∧ row.kind ≠ .CONFIRMED then { o with evidence := o.evidence ++ [row] } else o

/-- A move of the obligation of an id. -/
def FeeObligation.transition (id : String) (next : FeeCollectionStatus) (o : FeeObligation) :
    FeeObligation :=
  if o.id = id ∧ next ∈ Fees.validCollectionTransitions o.collectionStatus ∧ next ≠ .COLLECTED then
    { o with collectionStatus := next }
  else o

section Ticks

variable (window : ℤ) (chain : Chain)

/-- The visit of an escrow in a tick. -/
def ReleaseEscrow.tick (fate : ReleaseCall → Fate) (e : ReleaseEscrow) : ReleaseEscrow :=
  match e.candidate? with
  | some txReleaseId => { e with evidence := (e.visit window chain fate txReleaseId).2 }
  | none => e

/-- The payout, if the turn sees it deeper than the window. -/
def ReleaseEscrow.sighted? (fate : ReleaseCall → Fate) (e : ReleaseEscrow) : Option String :=
  e.candidate?.filter fun txReleaseId =>
    e.sights window chain fate txReleaseId && chain.deeper window txReleaseId

/-- The visit of an obligation in a tick of the confirmation sweep. -/
def FeeObligation.confirmTick (fate : ConfirmCall → Fate) (o : FeeObligation) : FeeObligation :=
  if o.multisig && o.collectionStatus = .IN_PROGRESS then (o.visitConfirmation chain fate).2 else o

/-- The visit of an obligation in a tick of the fee sweep. -/
def FeeObligation.feeTick (fate : FeeCall → Fate) (o : FeeObligation) : FeeObligation :=
  if o.multisig && o.collected then (o.visitReorg window chain chain.tipHeight fate).2 else o

end Ticks

/-- What an event does. -/
def step (window : ℤ) (s : Sweeps) : Event → Sweeps
  | .chain next => { s with chain := next }
  | .createEscrow row => { s with escrows := s.escrows ++ [{ row with evidence := [] }] }
  | .settle id status txReleaseId =>
    { s with escrows := s.escrows.map (ReleaseEscrow.settle id status txReleaseId) }
  | .createObligation row => { s with obligations := s.obligations ++
      [{ row with collectionStatus := .PENDING_COLLECTION, evidence := [] }] }
  | .record id row => { s with obligations := s.obligations.map (FeeObligation.record id row) }
  | .transition id next =>
    { s with obligations := s.obligations.map (FeeObligation.transition id next) }
  | .releaseTick fate =>
    { s with
      escrows := s.escrows.map fun e => e.tick window s.chain (fate e.id)
      deep := s.deep ++ s.escrows.filterMap fun e => e.sighted? window s.chain (fate e.id) }
  | .confirmTick fate =>
    { s with obligations := s.obligations.map fun o => o.confirmTick s.chain (fate o.id) }
  | .feeTick tip fate =>
    if tip = .answered then
      { s with
        obligations := s.obligations.map fun o => o.feeTick window s.chain (fate o.id)
        deep := s.deep ++ (s.obligations.filter fun o => o.multisig && o.collected).filterMap
          fun o => (o.sighted? window s.chain s.chain.tipHeight (fate o.id)).filter
            fun txid => s.chain.deeper window txid }
    else s

/-! ## Sound ticks -/

/-- The verdicts that show a payout to be off the chain, or not looked up. -/
def ReleaseVerdict.Shows : ReleaseVerdict → Prop
  | .stillPending | .requiresManualReview _ | .failed => True
  | _ => False

/-- The verdict shows the operator that something is wrong. -/
def FeeVerdict.Shows : FeeVerdict → Prop
  | .reverted | .flaggedDistributed | .failed => True
  | _ => False

/-- Every transaction that a tick counts as buried is on the chain or was seen deeper than the
window, and every transaction that is neither is shown. -/
def Sound (window : ℤ) (s : Sweeps) : Event → Prop
  | .releaseTick fate => ∀ e txid verdict,
      (e, txid, verdict) ∈ sweepMultisigReleaseReorgs window s.chain fate s.escrows →
      (verdict = .buriedEnough → txid ∈ s.deep ∨ s.chain.Confirms txid) ∧
      (txid ∉ s.deep → ¬ s.chain.Confirms txid → s.chain.Consistent txid → verdict.Shows)
  | .feeTick tip fate => ∀ o txid height verdict,
      (o, verdict) ∈ sweepMultisigFeeReorgs window s.chain tip fate s.obligations →
      lastConfirmed o.evidence = some (txid, height) →
      (verdict = .buriedEnough → txid ∈ s.deep ∨ s.chain.Confirms txid) ∧
      (txid ∉ s.deep → ¬ s.chain.Confirms txid → verdict.Shows)
  | _ => True

/-- The transaction is on the chain, or the tip is within the window of its recorded height,
or a tick saw it deeper. -/
def Covered (window : ℤ) (chain : Chain) (deep : List String) (txid : String) (height : ℕ) : Prop :=
  chain.Confirms txid ∨ depth chain.tipHeight height ≤ window ∨ txid ∈ deep

/-- The payout of the escrow is covered. -/
def ReleaseEscrow.Covered (window : ℤ) (chain : Chain) (deep : List String) (e : ReleaseEscrow) :
    Prop :=
  ∀ txid height, e.txReleaseId = some txid → baselineHeight e.evidence.getLast? = some height →
    Burial.Covered window chain deep txid height

/-- The collection of the fee is covered. -/
def FeeObligation.Covered (window : ℤ) (chain : Chain) (deep : List String) (o : FeeObligation) :
    Prop :=
  o.collected = true → ∀ txid height, lastConfirmed o.evidence = some (txid, height) →
    Burial.Covered window chain deep txid height

/-- A change of the chain covers every recorded transaction. -/
def WithinWindow (window : ℤ) (s : Sweeps) : Event → Prop
  | .chain next => (∀ e ∈ s.escrows, e.Covered window next s.deep) ∧
      ∀ o ∈ s.obligations, o.Covered window next s.deep
  | _ => True

/-- Nothing was recorded yet. -/
def Sweeps.Start (s : Sweeps) : Prop :=
  (∀ e ∈ s.escrows, e.evidence = []) ∧ (∀ o ∈ s.obligations, o.evidence = []) ∧ s.deep = []

/-! ## What a turn concludes and records -/

section Answers

variable {chain : Chain} {txid : String}

theorem fetched_ok {α : Type} {fate : Fate} {a b : α} (h : fetched fate a = .ok b) : a = b := by
  cases fate with
  | answered => exact Except.ok.inj h
  | failed => cases h
  | lost => cases h

theorem bind_ok {α β : Type} {x : Except Unit α} {f : α → Except Unit β} {b : β}
    (h : (x >>= f) = .ok b) : ∃ a, x = .ok a ∧ f a = .ok b := by
  cases x with
  | error e => cases h
  | ok a => exact ⟨a, rfl, h⟩

theorem confirms_iff_existence :
    chain.Confirms txid ↔ (chain.fetchTransactionExistence txid).2 = true := by
  unfold Chain.Confirms Chain.fetchTransactionExistence
  cases chain.inclusion txid <;> simp

/-- The status of a transaction tells whether it is in a block. -/
theorem confirms_of_status {fate : Fate} {status : ConfirmationStatus}
    (h : chain.confirmationStatus fate txid = .ok status) :
    status.confirmed = true ↔ chain.Confirms txid := by
  obtain ⟨answer, hanswer, hstatus⟩ := bind_ok h
  obtain rfl := fetched_ok hanswer
  unfold Chain.fetchTransactionConfirmationStatus at hstatus
  unfold Chain.Confirms
  cases hinclusion : chain.inclusion txid <;> rw [hinclusion] at hstatus
  · cases hstatus
  · cases hstatus
    simp
  · cases hstatus
    simp

theorem absent_of_not_existence (h : (chain.fetchTransactionExistence txid).1 = false) :
    chain.inclusion txid = .absent := by
  unfold Chain.fetchTransactionExistence at h
  cases hinclusion : chain.inclusion txid <;> rw [hinclusion] at h
  · cases h
  · cases h

end Answers

section ReleaseTurn

variable {window : ℤ} {chain : Chain} {fate : ReleaseCall → Fate} {e : ReleaseEscrow}
variable {txid : String} {verdict : ReleaseVerdict} {row? : Option ReleaseEvidence}
variable {deep : List String}

/-- What a turn that looks the payout up may conclude and record. -/
structure LookedUp (chain : Chain) (txid : String) (verdict : ReleaseVerdict)
    (row? : Option ReleaseEvidence) : Prop where
  not_buried : verdict ≠ .buriedEnough
  trusted : ∀ row ∈ row?, row.kind.trustworthy = true → chain.Confirms txid
  shows : ¬ chain.Confirms txid → chain.Consistent txid → verdict.Shows

theorem lookedUp_observe {kind : EvidenceKind} {v : ReleaseVerdict} (hv : v ≠ .buriedEnough)
    (hconfirms : chain.Confirms txid) (h : observe chain fate txid kind v = .ok (verdict, row?)) :
    LookedUp chain txid verdict row? := by
  obtain ⟨status, -, h⟩ := bind_ok h
  obtain ⟨tipHeight, -, h⟩ := bind_ok h
  cases h
  exact ⟨hv, fun _ _ _ => hconfirms, fun h => absurd hconfirms h⟩

/-- A look for another spend tells the truth. -/
theorem lookedUp_lookForSpend (habsent : chain.inclusion txid = .absent)
    (h : e.lookForSpend chain fate txid = .ok (verdict, row?)) :
    LookedUp chain txid verdict row? := by
  unfold ReleaseEscrow.lookForSpend at h
  split at h
  · next lock vout _ _ =>
    obtain ⟨outspend, houtspend, h⟩ := bind_ok h
    obtain rfl := fetched_ok houtspend
    split_ifs at h with hspent hown
    · cases h
      exact ⟨nofun, by simp [EvidenceKind.trustworthy], fun _ _ => trivial⟩
    · cases h
      exact ⟨nofun, nofun, fun _ hconsistent => absurd habsent (hconsistent lock vout hown)⟩
    · cases h
      exact ⟨nofun, by simp [EvidenceKind.trustworthy], fun _ _ => trivial⟩
  · cases h
    exact ⟨nofun, nofun, fun _ _ => trivial⟩

/-- A look at the payout tells the truth. -/
theorem lookedUp_lookUp {last : Option ReleaseEvidence}
    (h : e.lookUp chain fate last txid = .ok (verdict, row?)) :
    LookedUp chain txid verdict row? := by
  obtain ⟨⟨exists_, confirmed⟩, hanswer, h⟩ := bind_ok h
  have hexistence := fetched_ok hanswer
  simp only at h
  split_ifs at h with hexists hconfirmed
  · refine lookedUp_lookForSpend (absent_of_not_existence ?_) h
    simpa [hexistence] using hexists
  · cases h
    exact ⟨nofun, nofun, fun _ _ => trivial⟩
  · have hconfirms : chain.Confirms txid := by
      rw [confirms_iff_existence, hexistence]
      simpa using hconfirmed
    split at h
    · exact lookedUp_observe (by decide) hconfirms h
    · split_ifs at h
      · exact lookedUp_observe (by decide) hconfirms h
      · cases h
        exact ⟨nofun, nofun, fun h => absurd hconfirms h⟩

/-- A turn finds the recorded height deep enough, or looks the payout up. -/
theorem classify_cases (h : e.classify window chain fate txid = .ok (verdict, row?)) :
    (∃ height, baselineHeight e.evidence.getLast? = some height ∧
      window < depth chain.tipHeight height ∧ row? = none) ∨ LookedUp chain txid verdict row? := by
  obtain ⟨history, hhistory, h⟩ := bind_ok h
  obtain rfl := fetched_ok hhistory
  obtain ⟨buried, hburied, h⟩ := bind_ok h
  split_ifs at h with hdeep
  · left
    unfold baselineBuried at hburied
    split at hburied
    · next height hheight =>
      obtain ⟨tipHeight, htip, hburied⟩ := bind_ok hburied
      obtain rfl := fetched_ok htip
      refine ⟨height, hheight, ?_, ?_⟩
      · rw [← Except.ok.inj hburied] at hdeep
        simpa using hdeep
      · cases h
        rfl
    · cases hburied
      cases hdeep
  · exact .inr (lookedUp_lookUp h)

/-- The verdict on a covered payout tells the truth. -/
theorem release_verdict (hcovered : e.Covered window chain deep)
    (hpayout : e.txReleaseId = some txid) :
    ((e.visit window chain fate txid).1 = .buriedEnough → txid ∈ deep ∨ chain.Confirms txid) ∧
      (txid ∉ deep → ¬ chain.Confirms txid → chain.Consistent txid →
        (e.visit window chain fate txid).1.Shows) := by
  have hburied : ∀ height, baselineHeight e.evidence.getLast? = some height →
      window < depth chain.tipHeight height → txid ∈ deep ∨ chain.Confirms txid := by
    intro height hheight hdeep
    rcases hcovered txid height hpayout hheight with h | h | h
    · exact .inr h
    · omega
    · exact .inl h
  unfold ReleaseEscrow.visit
  split
  · exact ⟨nofun, fun _ _ _ => trivial⟩
  · next verdict hclassify =>
    rcases classify_cases hclassify with ⟨height, hheight, hdeep, -⟩ | hlooked
    · have hknown := hburied height hheight hdeep
      exact ⟨fun _ => hknown, fun h h' => absurd hknown (by tauto)⟩
    · exact ⟨fun h => absurd h hlooked.not_buried, fun _ => hlooked.shows⟩
  · next verdict row hclassify =>
    rcases classify_cases hclassify with ⟨height, -, -, hrow⟩ | hlooked
    · cases hrow
    · cases fate .record with
      | answered => exact ⟨fun h => absurd h hlooked.not_buried, fun _ => hlooked.shows⟩
      | failed => exact ⟨nofun, fun _ _ _ => trivial⟩
      | lost => exact ⟨nofun, fun _ _ _ => trivial⟩

/-- What a turn records as trusted is on the chain. -/
theorem visit_evidence (window : ℤ) (chain : Chain) (fate : ReleaseCall → Fate)
    (e : ReleaseEscrow) (txid : String) : (e.visit window chain fate txid).2 = e.evidence ∨
    ∃ row, (e.visit window chain fate txid).2 = e.evidence ++ [row] ∧
      (row.kind.trustworthy = true → chain.Confirms txid) := by
  unfold ReleaseEscrow.visit
  split
  · exact .inl rfl
  · exact .inl rfl
  · next verdict row hclassify =>
    rcases classify_cases hclassify with ⟨height, -, -, hrow⟩ | hlooked
    · cases hrow
    · have htrusted := hlooked.trusted row rfl
      cases fate .record with
      | answered => exact .inr ⟨row, rfl, htrusted⟩
      | failed => exact .inl rfl
      | lost => exact .inr ⟨row, rfl, htrusted⟩

theorem ReleaseEscrow.candidate?_eq_some (h : e.candidate? = some txid) :
    e.txReleaseId = some txid := by
  unfold candidate? at h
  split_ifs at h
  exact h

/-- A tick keeps a payout covered. -/
theorem ReleaseEscrow.Covered.tick (h : e.Covered window chain deep) :
    (e.tick window chain fate).Covered window chain deep := by
  unfold ReleaseEscrow.tick
  split
  · next payout hpayout =>
    intro txid height htxid hheight
    have heq : payout = txid :=
      Option.some.inj ((ReleaseEscrow.candidate?_eq_some hpayout).symm.trans htxid)
    subst heq
    rcases visit_evidence window chain fate e payout with hsame | ⟨row, hrow, htrusted⟩
    · exact h payout height htxid (hsame ▸ hheight)
    · simp only [hrow, List.getLast?_concat, baselineHeight, Option.bind_some] at hheight
      split_ifs at hheight with hkind
      exact .inl (htrusted hkind)
  · exact h

end ReleaseTurn

section FeeTurn

variable {window : ℤ} {chain : Chain} {o : FeeObligation} {txid : String} {height : ℕ}
variable {deep : List String}

/-- What a reverted collection shows and writes. -/
theorem recordReorgAndRevert_cases (fate : FeeCall → Fate) (o : FeeObligation) (txid : String) :
    (o.recordReorgAndRevert fate txid).1.Shows ∧
      ((o.recordReorgAndRevert fate txid).2.evidence = o.evidence ∨
        (o.recordReorgAndRevert fate txid).2.evidence = (o.reorgedOut txid).evidence) ∧
      ((o.recordReorgAndRevert fate txid).2.collected = true → o.collected = true) := by
  unfold FeeObligation.recordReorgAndRevert
  repeat' split
  all_goals first
    | exact ⟨trivial, .inl rfl, fun h => h⟩
    | exact ⟨trivial, .inr rfl, fun h => h⟩
    | exact ⟨trivial, .inr rfl, by simp [FeeObligation.collected]⟩

/-- The verdict on a covered fee tells the truth. -/
theorem fee_verdict {fate : FeeCall → Fate} (hcovered : o.Covered window chain deep)
    (hcollected : o.collected = true) (hlast : lastConfirmed o.evidence = some (txid, height)) :
    ((o.visitReorg window chain chain.tipHeight fate).1 = .buriedEnough →
        txid ∈ deep ∨ chain.Confirms txid) ∧
      (txid ∉ deep → ¬ chain.Confirms txid →
        (o.visitReorg window chain chain.tipHeight fate).1.Shows) := by
  unfold FeeObligation.visitReorg
  split
  · next txid' height' hanswer =>
    rw [fetched_ok hanswer, Option.some.injEq, Prod.mk.injEq] at hlast
    obtain ⟨rfl, rfl⟩ := hlast
    split_ifs with hdeep
    · have hknown : txid' ∈ deep ∨ chain.Confirms txid' := by
        rcases hcovered hcollected txid' height' (fetched_ok hanswer) with h | h | h
        · exact .inr h
        · omega
        · exact .inl h
      exact ⟨fun _ => hknown, fun h h' => absurd hknown (by tauto)⟩
    · split
      · exact ⟨nofun, fun _ _ => trivial⟩
      · next status hstatus =>
        split_ifs with hconfirmed
        · exact ⟨nofun, fun _ h => absurd ((confirms_of_status hstatus).mp hconfirmed) h⟩
        · have hshows := (recordReorgAndRevert_cases fate o txid').1
          refine ⟨fun h => ?_, fun _ _ => hshows⟩
          rw [h] at hshows
          exact hshows.elim
  · exact ⟨nofun, fun _ _ => trivial⟩

/-- A row of another kind leaves the last confirmation. -/
theorem lastConfirmed_concat {evidence : List FeeEvidence} {row : FeeEvidence}
    (h : row.kind ≠ .CONFIRMED) : lastConfirmed (evidence ++ [row]) = lastConfirmed evidence := by
  simp [lastConfirmed, lastOfKind, h]

theorem FeeObligation.Covered.of_same {o' : FeeObligation} (h : o.Covered window chain deep)
    (hcollected : o'.collected = true → o.collected = true)
    (hlast : lastConfirmed o'.evidence = lastConfirmed o.evidence) :
    o'.Covered window chain deep :=
  fun h' txid height hlast' => h (hcollected h') txid height (hlast ▸ hlast')

/-- A tick of the fee sweep keeps a fee covered. -/
theorem FeeObligation.Covered.feeTick {fate : FeeCall → Fate} (h : o.Covered window chain deep) :
    (o.feeTick window chain fate).Covered window chain deep := by
  have hturn : (o.visitReorg window chain chain.tipHeight fate).2.Covered window chain deep := by
    unfold FeeObligation.visitReorg
    split
    · next txid height _ =>
      split_ifs
      · exact h
      · split
        · exact h
        · split_ifs
          · exact h
          · obtain ⟨-, hevidence, hcollected⟩ :=
              recordReorgAndRevert_cases fate o txid
            refine h.of_same hcollected ?_
            rcases hevidence with hsame | hreorged
            · rw [hsame]
            · rw [hreorged]
              exact lastConfirmed_concat nofun
    · exact h
  unfold FeeObligation.feeTick
  split_ifs
  · exact hturn
  · exact h

/-- The row of a recognized confirmation. -/
theorem recognizeConfirmation_row {fate : ConfirmCall → Fate} {row : FeeEvidence}
    (h : o.recognizeConfirmation fate txid height = .ok row) :
    row.kind = .CONFIRMED ∧ row.txid = some txid := by
  obtain ⟨row', -, h⟩ := bind_ok h
  split_ifs at h
  · obtain ⟨evidence, -, h⟩ := bind_ok h
    split at h
    · cases h
    · split_ifs at h
      · obtain ⟨-, -, h⟩ := bind_ok h
        cases h
        exact ⟨rfl, rfl⟩

theorem confirmAt_row {fate : ConfirmCall → Fate} {vout amount : ℕ} {scriptPubKey : Option String}
    {required : ℤ} {row : FeeEvidence}
    (h : o.confirmAt chain fate txid vout amount scriptPubKey required height = .ok (some row)) :
    row.kind = .CONFIRMED ∧ row.txid = some txid := by
  obtain ⟨tipHeight, -, h⟩ := bind_ok h
  split_ifs at h with hshallow
  · cases h
  · obtain ⟨outputs, -, h⟩ := bind_ok h
    split at h
    · split_ifs at h with hpays
      obtain ⟨recognized, hrecognized, h⟩ := bind_ok h
      cases h
      exact recognizeConfirmation_row hrecognized
    · cases h

/-- The job confirms a transaction that is on the chain. -/
theorem confirm_row {fate : ConfirmCall → Fate} {row : FeeEvidence}
    (h : o.confirm chain fate = .ok (some row)) :
    row.kind = .CONFIRMED ∧ ∃ txid, row.txid = some txid ∧ chain.Confirms txid := by
  obtain ⟨evidence, -, h⟩ := bind_ok h
  split at h
  · next txid vout scriptPubKey amount confirmedAtHeight required _ _ =>
    split_ifs at h
    · cases h
    · obtain ⟨status, hstatus, h⟩ := bind_ok h
      split at h
      · next blockHeight hconfirmed _ =>
        obtain ⟨hkind, htxid⟩ := confirmAt_row h
        exact ⟨hkind, txid, htxid, (confirms_of_status hstatus).mp hconfirmed⟩
      · cases h
  · cases h

/-- A fee that is collected in a block is covered. -/
theorem covered_collect {row : FeeEvidence} (hkind : row.kind = .CONFIRMED)
    (htxid : row.txid = some txid) (hconfirms : chain.Confirms txid) :
    (o.collect row).Covered window chain deep := by
  intro _ txid' height hlast
  have hrow : lastOfKind .CONFIRMED (o.collect row).evidence = some row := by
    simp [lastOfKind, FeeObligation.collect, hkind]
  rw [lastConfirmed, hrow, Option.bind_some, htxid] at hlast
  split at hlast
  · next t _ ht _ =>
    split_ifs at hlast
    rw [Option.some.injEq, Prod.mk.injEq] at hlast
    rw [← hlast.1, ← Option.some.inj ht]
    exact .inl hconfirms
  · cases hlast

/-- A tick of the confirmation sweep keeps a fee covered. -/
theorem FeeObligation.Covered.confirmTick {fate : ConfirmCall → Fate}
    (h : o.Covered window chain deep) : (o.confirmTick chain fate).Covered window chain deep := by
  unfold FeeObligation.confirmTick FeeObligation.visitConfirmation
  split_ifs
  · split
    · exact h
    · exact h
    · next row hrow =>
      obtain ⟨hkind, txid, htxid, hconfirms⟩ := confirm_row hrow
      cases fate .commit with
      | answered => exact covered_collect hkind htxid hconfirms
      | failed => exact h
      | lost => exact covered_collect hkind htxid hconfirms
  · exact h

theorem FeeObligation.Covered.record {id : String} {row : FeeEvidence}
    (h : o.Covered window chain deep) : (o.record id row).Covered window chain deep := by
  unfold FeeObligation.record
  split_ifs with hrow
  · exact h.of_same (fun h => h) (lastConfirmed_concat hrow.2)
  · exact h

/-- Only `COLLECTED` leads to `DISTRIBUTED`. -/
theorem FeeObligation.Covered.transition {id : String} {next : FeeCollectionStatus}
    (h : o.Covered window chain deep) : (o.transition id next).Covered window chain deep := by
  unfold FeeObligation.transition
  split_ifs with hnext
  · refine h.of_same ?_ rfl
    obtain ⟨-, hvalid, hne⟩ := hnext
    simp only [FeeObligation.collected]
    cases hstatus : o.collectionStatus <;> rw [hstatus] at hvalid <;> cases next <;>
      simp_all [Fees.validCollectionTransitions]
  · exact h

end FeeTurn

/-! ## Every run -/

theorem Covered.mono {window : ℤ} {chain : Chain} {deep more : List String} {txid : String}
    {height : ℕ} (h : Burial.Covered window chain deep txid height) :
    Burial.Covered window chain (deep ++ more) txid height := by
  rcases h with h | h | h
  · exact .inl h
  · exact .inr (.inl h)
  · exact .inr (.inr (List.mem_append_left _ h))

/-- Every recorded transaction is covered, and what has no payout yet has no evidence. -/
structure Invariant (window : ℤ) (s : Sweeps) : Prop where
  escrows : ∀ e ∈ s.escrows, e.Covered window s.chain s.deep
  obligations : ∀ o ∈ s.obligations, o.Covered window s.chain s.deep
  unsettled : ∀ e ∈ s.escrows, e.txReleaseId = none → e.evidence = []

section Runs

variable {window : ℤ} {s : Sweeps}

/-- The rows of the start are covered. -/
theorem Invariant.start (h : s.Start) : Invariant window s where
  escrows e he txid height _ hheight := by
    rw [h.1 e he] at hheight
    cases hheight
  obligations o ho _ txid height hlast := by
    rw [h.2.1 o ho] at hlast
    cases hlast
  unsettled e he _ := h.1 e he

/-- A settlement keeps a payout covered. -/
theorem ReleaseEscrow.Covered.settle {chain : Chain} {deep : List String} {e : ReleaseEscrow}
    {id txReleaseId : String} {status : EscrowStatus} (h : e.Covered window chain deep)
    (hunsettled : e.txReleaseId = none → e.evidence = []) :
    (e.settle id status txReleaseId).Covered window chain deep := by
  unfold ReleaseEscrow.settle
  split_ifs
  · intro txid height htxid hheight
    cases hpayout : e.txReleaseId with
    | none =>
      rw [hunsettled hpayout] at hheight
      cases hheight
    | some payout =>
      rw [hpayout] at htxid
      exact h txid height (hpayout.trans htxid) hheight
  · exact h

/-- An event within the window keeps the rows covered. -/
theorem Invariant.step (h : Invariant window s) {event : Event}
    (hwithin : WithinWindow window s event) : Invariant window (Burial.step window s event) := by
  cases event with
  | chain next => exact ⟨hwithin.1, hwithin.2, h.unsettled⟩
  | createEscrow row =>
    refine ⟨?_, h.obligations, ?_⟩
    · simp only [Burial.step, List.forall_mem_append, List.forall_mem_singleton]
      exact ⟨h.escrows, fun _ _ _ => nofun⟩
    · simp only [Burial.step, List.forall_mem_append, List.forall_mem_singleton]
      exact ⟨h.unsettled, fun _ => trivial⟩
  | settle id status txReleaseId =>
    refine ⟨?_, h.obligations, ?_⟩
    · simp only [Burial.step, List.forall_mem_map]
      exact fun e he => (h.escrows e he).settle (h.unsettled e he)
    · simp only [Burial.step, List.forall_mem_map, ReleaseEscrow.settle]
      intro e he
      split_ifs
      · nofun
      · exact h.unsettled e he
  | createObligation row =>
    refine ⟨h.escrows, ?_, h.unsettled⟩
    simp only [Burial.step, List.forall_mem_append, List.forall_mem_singleton]
    exact ⟨h.obligations, nofun⟩
  | record id row =>
    refine ⟨h.escrows, ?_, h.unsettled⟩
    simp only [Burial.step, List.forall_mem_map]
    exact fun o ho => (h.obligations o ho).record
  | transition id next =>
    refine ⟨h.escrows, ?_, h.unsettled⟩
    simp only [Burial.step, List.forall_mem_map]
    exact fun o ho => (h.obligations o ho).transition
  | confirmTick fate =>
    refine ⟨h.escrows, ?_, h.unsettled⟩
    simp only [Burial.step, List.forall_mem_map]
    exact fun o ho => (h.obligations o ho).confirmTick
  | releaseTick fate =>
    refine ⟨?_, fun o ho hcollected txid height hlast => ?_, ?_⟩
    · simp only [Burial.step, List.forall_mem_map]
      intro e he txid height htxid hheight
      exact ((h.escrows e he).tick txid height htxid hheight).mono
    · exact (h.obligations o ho hcollected txid height hlast).mono
    · simp only [Burial.step, List.forall_mem_map, ReleaseEscrow.tick]
      intro e he
      split
      · next txid hpayout =>
        intro hnone
        rw [ReleaseEscrow.candidate?_eq_some hpayout] at hnone
        cases hnone
      · exact h.unsettled e he
  | feeTick tip fate =>
    simp only [Burial.step]
    split_ifs
    · refine ⟨fun e he txid height htxid hheight => ?_, ?_, h.unsettled⟩
      · exact (h.escrows e he txid height htxid hheight).mono
      · simp only [List.forall_mem_map]
        intro o ho hcollected txid height hlast
        exact ((h.obligations o ho).feeTick hcollected txid height hlast).mono
    · exact h

/-- When the rows are covered every verdict tells the truth. -/
theorem Invariant.sound (h : Invariant window s) (event : Event) : Sound window s event := by
  cases event with
  | releaseTick fate =>
    intro e txid verdict hmem
    obtain ⟨e', he, hverdict⟩ := List.mem_filterMap.mp hmem
    obtain ⟨txid', hpayout, heq⟩ := Option.map_eq_some_iff.mp hverdict
    cases heq
    exact release_verdict (h.escrows e he) (ReleaseEscrow.candidate?_eq_some hpayout)
  | feeTick tip fate =>
    intro o txid height verdict hmem hlast
    unfold sweepMultisigFeeReorgs at hmem
    split_ifs at hmem
    · obtain ⟨o', ho, heq⟩ := List.mem_map.mp hmem
      cases heq
      obtain ⟨ho, hselected⟩ := List.mem_filter.mp ho
      simp only [Bool.and_eq_true] at hselected
      exact fee_verdict (h.obligations o ho) hselected.2 hlast
    · cases hmem
  | _ => trivial

/-- While every change of the chain covers the recorded transactions, every tick is sound. -/
theorem buried_soundly (window : ℤ) (s : Sweeps) (run : List Event) (hstart : s.Start)
    (hwithin : Along (Burial.step window) (WithinWindow window) s run) :
    Along (Burial.step window) (Sound window) s run :=
  hwithin.imp (Invariant.start hstart) (fun _ _ h hevent => h.step hevent)
    fun _ event h _ => h.sound event

end Runs

/-- One payout, at a tip. -/
def payoutChain (tipHeight : ℕ) (inclusion : Inclusion) : Chain where
  tipHeight := tipHeight
  inclusion _ := inclusion
  outputs _ := []
  outspend _ _ := ⟨false, none⟩

/-- An escrow whose payout is in a block. -/
def paidEscrow : ReleaseEscrow := ⟨"e", true, .completed, some "payout", some "funding", some 0, []⟩

/-- The rows of the sample. -/
def paidStart : Sweeps := ⟨payoutChain 100 (.confirmed 100), [paidEscrow], [], []⟩

/-- A tick whose calls are all answered. -/
def answeredTick : Event := .releaseTick fun _ _ => .answered

theorem paidStart_start : paidStart.Start := by
  simp [Sweeps.Start, paidStart, paidEscrow]

theorem paidStart_ticked : step 100 paidStart answeredTick =
    { paidStart with
      escrows := [{ paidEscrow with
        evidence := [⟨.observedConfirmed, some "payout", some 100, some 100⟩] }] } := by
  rfl

/-- Twenty blocks after it was seen, a payout that is gone is shown. -/
theorem buried_soundly_in_time : Along (step 100) (Sound 100) paidStart
    [answeredTick, .chain (payoutChain 120 .absent), answeredTick] := by
  refine buried_soundly 100 paidStart _ paidStart_start ⟨trivial, ?_, trivial, trivial⟩
  rw [paidStart_ticked]
  refine ⟨?_, nofun⟩
  simp only [List.forall_mem_singleton]
  intro txid height _ hheight
  cases hheight
  exact .inr (.inl (by decide))

/-- A hundred blocks after it was seen, a payout that is gone counts as buried. -/
theorem reorged_payout_buried : ¬ ∀ (window : ℤ) (s : Sweeps) (run : List Event), s.Start →
    Along (step window) (Sound window) s run := by
  intro h
  obtain ⟨-, -, hsound, -⟩ := h 100 paidStart
    [answeredTick, .chain (payoutChain 200 .absent), answeredTick] paidStart_start
  rw [paidStart_ticked] at hsound
  rcases (hsound _ "payout" .buriedEnough List.mem_cons_self).1 rfl with
    hdeep | ⟨height, hconfirmed⟩
  · cases hdeep
  · cases hconfirmed

end Sails.Settlement.Burial
