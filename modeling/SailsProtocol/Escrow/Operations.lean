import SailsProtocol.Escrow.World

/-!
# The settlement operations

The operations of `escrow.service.ts`, `escrow-pending-tx.ts`, `dispute.service.ts` and
`escrow-settlement-reconciliation.service.ts` as programs over `Call`, in the order of
the source. One escrow is modelled, so a loop over the rows of a query runs at most once.

`claimEscrowTransition`, `revertEscrowStatus` and `emitEscrowTransition` are the three
helpers every status change goes through. `orRevert` is the `try`/`catch` that takes a
claim back when anything after it throws.
-/

namespace Sails

open Async Async.Prog

/-- A settlement operation. -/
abbrev Op := Prog Call.Ans Err

/-- Await a call. -/
def await (q : Call) : Op q.Ans :=
  perform q

/-! ## Lifecycle helpers -/

/-- `assertEscrowTransition`. -/
def assertEscrowTransition (current next : EscrowStatus) : Op Unit :=
  require (decide (ValidTransition current next)) (.invalidTransition current next)

/-- `claimEscrowTransition`. -/
def claimEscrowTransition (src dst : EscrowStatus) : Op Unit := do
  await (.check .circuitBreaker)
  assertEscrowTransition src dst
  let count ← await (.claimTransition src dst)
  if count = 0 then do
    await (.quiet .recordEscrowConflict)
    throw .alreadyTransitioned
  else pure ()

/-- `revertEscrowStatus`. -/
def revertEscrowStatus (claimed src : EscrowStatus) : Op Unit :=
  swallow do
    let _ ← await (.revertStatus claimed src)
    pure ()

/-- Run `body` under the claim `src → claimed`, and take the claim back if it throws. -/
def orRevert (claimed src : EscrowStatus) (body : Op Unit) : Op Unit :=
  body.tryCatch fun e => do
    revertEscrowStatus claimed src
    throw e

/-- `emitEscrowTransition` : the history row first, the bus event only for its writer. -/
def emitEscrowTransition (src dst : EscrowStatus) (triggeredBy : Actor) : Op Unit := do
  let claimed ← await (.recordEscrowEvent ⟨src, dst, triggeredBy⟩)
  when claimed (await (.publish dst))

/-- `assertFundingNotUncertain`. -/
def assertFundingNotUncertain (type : EscrowType) : Op Unit :=
  when (decide (type = .multisig)) do
    let uncertain ← await .isFundingUncertain
    require (!uncertain) .fundingUncertain

/-- `findDisputeByTradeAndArbiter`. -/
def findDisputeByTradeAndArbiter (triggeredBy : Actor) : Op (Option Dispute) := do
  let dispute ← await .findDispute
  pure (dispute.filter fun d => decide (d.arbiterId.map Actor.user = some triggeredBy))

/-- `isSellerOrAssignedArbiter`. -/
def isSellerOrAssignedArbiter (sellerId : ℕ) (triggeredBy : Actor) : Op Bool :=
  if isPartyOrAgent triggeredBy sellerId = true then pure true
  else do
    let dispute ← findDisputeByTradeAndArbiter triggeredBy
    pure dispute.isSome

/-- `assertDisputedDispositionAuthority`, on a disputed escrow. -/
def assertDisputedDispositionAuthority (triggeredBy : Actor) : Op Dispute := do
  let dispute ← findDisputeByTradeAndArbiter triggeredBy
  orThrow dispute .forbidden

/-- `loadEscrowWithAuthorization`. -/
def loadEscrowWithAuthorization (triggeredBy : Actor) : Op (Escrow × Trade) := do
  let escrow ← await .findById
  let trade ← await .findTrade
  if escrow.status = .disputed then do
    let _ ← assertDisputedDispositionAuthority triggeredBy
    pure (escrow, trade)
  else do
    let allowed ← isSellerOrAssignedArbiter trade.sellerId triggeredBy
    require allowed .forbidden
    pure (escrow, trade)

/-- `checkFundMovementCapability`. -/
def checkFundMovementCapability (cfg : Settings) : Op Unit :=
  when cfg.enforceCapabilities (await (.check .capability))

/-- `assertDeploymentEligible` and the lookup of `getSettlementProvider`. -/
def getSettlementProvider (cfg : Settings) (type : EscrowType) : Op Unit :=
  require (type.registered && !(decide (type = .mock) && cfg.production)) (.noProvider type)

/-- `hasDualApproval`, asked for a release of a pending payment. -/
def assertDualApproval (cfg : Settings) (status : EscrowStatus) : Op Unit :=
  when (cfg.requireDualApprovalForRelease && decide (status = .paymentPending))
    (await (.check .dualApproval))

/-! ## Direct operations -/

/-- `lockFunds`. -/
def lockFunds (cfg : Settings) (triggeredBy : Actor) : Op Unit := do
  let escrow ← await .findById
  assertEscrowTransition escrow.status .fundsLocked
  let trade ← await .findTrade
  require (isPartyOrAgent triggeredBy trade.sellerId) .forbidden
  claimEscrowTransition escrow.status .fundsLocked
  orRevert .fundsLocked escrow.status do
    getSettlementProvider cfg escrow.type
    let keys ← if escrow.type.nonCustodial = true then await .loadParticipantPubkeys
      else pure ⟨none, none, none⟩
    let result ← await (.providerLock escrow.type keys)
    let now ← await .clock
    await (.updateLockResult result (now + escrow.timelockHours * 3600 * 1000))
    when result.vout.isSome (await .recordFundingEvidence)
    emitEscrowTransition .created .fundsLocked triggeredBy

/-- `markPaymentSent`. -/
def markPaymentSent (triggeredBy : Actor) : Op Unit := do
  let escrow ← await .findById
  assertEscrowTransition escrow.status .paymentPending
  assertFundingNotUncertain escrow.type
  let trade ← await .findTrade
  require (isPartyOrAgent triggeredBy trade.buyerId) .forbidden
  let count ← await (.claimPaymentPending escrow.status)
  require (decide (count ≠ 0)) .alreadyTransitioned
  let _ ← await .findById
  emitEscrowTransition .fundsLocked .paymentPending triggeredBy

/-- `openDispute`. -/
def openDispute (triggeredBy : Actor) : Op Unit := do
  let escrow ← await .findById
  assertEscrowTransition escrow.status .disputed
  let trade ← await .findTrade
  require (isPartyOrAgent triggeredBy trade.buyerId || isPartyOrAgent triggeredBy trade.sellerId)
    .forbidden
  claimEscrowTransition escrow.status .disputed
  let _ ← await .findById
  emitEscrowTransition escrow.status .disputed triggeredBy

/-- The part `releaseFunds`, `refundFunds` and `splitFunds` share : claim the target, look
the provider up, move the funds, store the transaction, record the obligation, emit. -/
def settleDirectly (lookup : Op Unit) (type : EscrowType) (kind : SettlementKind)
    (src : EscrowStatus) (triggeredBy : Actor) : Op Unit := do
  claimEscrowTransition src kind.target
  orRevert kind.target src do
    lookup
    let txId ← await (.providerMove type kind)
    await (.updateResult kind txId)
    await (.quiet .recordObligation)
    emitEscrowTransition src kind.target triggeredBy

/-- `releaseFunds`. -/
def releaseFunds (cfg : Settings) (triggeredBy : Actor) : Op Unit := do
  let (escrow, _) ← loadEscrowWithAuthorization triggeredBy
  assertEscrowTransition escrow.status .completed
  await (.check .payoutAddress)
  checkFundMovementCapability cfg
  assertDualApproval cfg escrow.status
  settleDirectly (getSettlementProvider cfg escrow.type) escrow.type .release escrow.status
    triggeredBy

/-- `refundFunds`. -/
def refundFunds (cfg : Settings) (triggeredBy : Actor) : Op Unit := do
  let (escrow, _) ← loadEscrowWithAuthorization triggeredBy
  assertEscrowTransition escrow.status .refunded
  checkFundMovementCapability cfg
  settleDirectly (getSettlementProvider cfg escrow.type) escrow.type .refund escrow.status
    triggeredBy

/-- `splitFunds`. The provider is looked up before the claim. -/
def splitFunds (cfg : Settings) (buyerBps : ℕ) (triggeredBy : Actor) : Op Unit := do
  require (decide (0 < buyerBps) && decide (buyerBps < 10000)) .validation
  let (escrow, _) ← loadEscrowWithAuthorization triggeredBy
  assertEscrowTransition escrow.status .split
  checkFundMovementCapability cfg
  await (.check .payoutAddress)
  getSettlementProvider cfg escrow.type
  require escrow.type.hasSplitFunds (.noSplit escrow.type)
  settleDirectly (pure ()) escrow.type .split escrow.status triggeredBy

/-- One candidate of the first loop of `sweepExpiredEscrows`. -/
def expireEscrow (now : ℕ) (escrow : Escrow) : Op Unit :=
  when (escrow.expiresAt.any fun deadline => decide (deadline ≤ now)) do
    await (.check .circuitBreaker)
    let _ ← await .findTrade
    let committed ← await .commitTimelockExpiry
    if committed = true then emitEscrowTransition .fundsLocked .expired .expirySweeper
    else await (.quiet .recordEscrowConflict)

/-- `sweepExpiredEscrows`. -/
def sweepExpiredEscrows (cfg : Settings) : Op Unit := do
  let now ← await .clock
  let candidates ← await (.findFundsLockedExpiryCandidates now)
  forSome candidates fun escrow => swallow (expireEscrow now escrow)
  let expired ← await (.findExpiredFundsLocked now)
  forSome (expired.filter fun escrow => !escrow.type.signatureCollection) fun _ => swallow do
    let trade ← await .findTrade
    refundFunds cfg (.user trade.sellerId)

/-! ## Signature collection -/

/-- The signers `buildUnsignedRelease`, `buildUnsignedRefund` and `buildUnsignedSplit` ask
for. On a disputed escrow the arbiter has signed, and the ruling's winner is missing. -/
def requiredSigners (type : EscrowType) (kind : SettlementKind) (disputed : Bool)
    (trade : Trade) : List ℕ :=
  match kind with
  | .release => bif disputed then [trade.buyerId] else [trade.buyerId, trade.sellerId]
  | .refund =>
    bif disputed then [trade.sellerId]
    else match type with
      | .safeGuardEvm => [trade.buyerId, trade.sellerId]
      | _ => [trade.sellerId, trade.buyerId]
  | .split => [trade.buyerId]

/-- `buildUnsignedRelease`, `buildUnsignedRefund` and `buildUnsignedSplit`, up to the
transaction itself : MULTISIG needs its three keys, and only MULTISIG splits. -/
def buildUnsigned (type : EscrowType) (kind : SettlementKind) (keys : ParticipantPubkeys) :
    Op Unit := do
  require (decide (kind ≠ .split) || type.hasFinalizeSplit) (.noSplit type)
  match type, keys.partiesFor with
  | .multisig, .error e => throw e
  | _, _ => await (.check .buildUnsigned)

/-- `initiateSignatureCollectionCore`. -/
def initiateSignatureCollectionCore (cfg : Settings) (kind : SettlementKind)
    (triggeredBy : Actor) : Op Pending := do
  let escrow ← await .findById
  require escrow.type.signatureCollection (.noProvider escrow.type)
  assertEscrowTransition escrow.status kind.target
  when (decide (kind ≠ .refund)) (assertFundingNotUncertain escrow.type)
  let trade ← await .findTrade
  let provenance ← (if escrow.status = .disputed then do
      let dispute ← assertDisputedDispositionAuthority triggeredBy
      pure (some dispute.provenance)
    else do
      let allowed ← isSellerOrAssignedArbiter trade.sellerId triggeredBy
      require allowed .forbidden
      pure none : Op (Option Provenance))
  checkFundMovementCapability cfg
  let existing ← await .findPending
  require existing.isNone .alreadyPending
  let keys ← await .loadParticipantPubkeys
  buildUnsigned escrow.type kind keys
  await (.createPending kind
    (requiredSigners escrow.type kind (decide (escrow.status = .disputed)) trade)
    triggeredBy provenance)

/-- `initiateRelease`. -/
def initiateRelease (cfg : Settings) (triggeredBy : Actor) : Op Pending := do
  let escrow ← await .findById
  assertDualApproval cfg escrow.status
  let _ ← await .findTrade
  await (.check .payoutAddress)
  initiateSignatureCollectionCore cfg .release triggeredBy

/-- `initiateRefund`. -/
def initiateRefund (cfg : Settings) (triggeredBy : Actor) : Op Pending := do
  let _ ← await .findById
  let _ ← await .findTrade
  await (.check .payoutAddress)
  initiateSignatureCollectionCore cfg .refund triggeredBy

/-- `initiateSplit`. -/
def initiateSplit (cfg : Settings) (buyerBps : ℕ) (triggeredBy : Actor) : Op Pending := do
  require (decide (0 < buyerBps) && decide (buyerBps < 10000)) .validation
  let _ ← await .findById
  let _ ← await .findTrade
  await (.check .payoutAddress)
  initiateSignatureCollectionCore cfg .split triggeredBy

/-- `authorizePendingExecution`. -/
def authorizePendingExecution (cfg : Settings) : Op Unit :=
  when cfg.enforceCapabilities (await (.check .capability))

/-- Every required signer has signed. -/
def Pending.allSubmitted (p : Pending) (signers : List ℕ) : Bool :=
  p.requiredSigners.all fun id => decide (id ∈ signers)

/-- `submitTransactionSignature`. -/
def submitTransactionSignature (cfg : Settings) (participantId : ℕ) : Op Unit := do
  let escrow ← await .findById
  let found ← await .findPending
  let pending ← orThrow found .noPending
  require (decide (participantId ∈ pending.requiredSigners)) .forbidden
  await (.upsertSignature pending.id participantId)
  let signers ← await (.findSigners pending.id)
  when (pending.allSubmitted signers) do
    require escrow.type.signatureCollection (.noProvider escrow.type)
    require (decide (pending.kind ≠ .split) || escrow.type.hasFinalizeSplit) (.noSplit escrow.type)
    await (.authorizeDisposition pending)
    authorizePendingExecution cfg
    claimEscrowTransition escrow.status pending.kind.target
    orRevert pending.kind.target escrow.status do
      await (.check .finalize)
      let txId ← await (.broadcast .live pending.kind)
      await (.updateResult pending.kind txId)
      await (.quiet .recordObligation)
      when (decide (pending.kind ≠ .refund) && decide (escrow.type = .multisig))
        (await (.quiet .recordBroadcastEvidence))
      await (.quiet .recordCorrespondence)
      emitEscrowTransition escrow.status pending.kind.target pending.triggeredBy
      await (.deletePending pending.id)

/-! ## Reconciliation -/

/-- `reconcilePendingSettlement` : the transaction is already known, or its outpoint is
unspent and it is broadcast for the first time, or nothing is settled. -/
def reconcilePendingSettlement (pass : Pass) (escrow : Escrow) (keys : ParticipantPubkeys)
    (pending : Pending) (beforeFirstBroadcast : Op Unit) : Op (Option ℕ) := do
  await (.check .finalize)
  let known ← await .transactionExists
  if known = true then pure (some pending.id)
  else if escrow.txLockId = none then pure none
  else match keys.partiesFor with
    | .error e => throw e
    | .ok _ => do
      let stillUnspent ← await .outpointUnspent
      if stillUnspent = true then do
        beforeFirstBroadcast
        let _ ← await (.broadcast pass pending.kind)
        pure (some pending.id)
      else pure none

/-- `applyDownstreamCompletionEffects`. -/
def applyDownstreamCompletionEffects (target : EscrowStatus) (triggeredBy : Actor)
    (pending : Option Pending) : Op Unit := do
  when (!(decide (target = .split) && pending.isNone)) do
    await (.quiet .recordObligation)
    await (.quiet .recordBroadcastEvidence)
  let last ← await .lastEvent
  emitEscrowTransition ((last.map EscrowEvent.toStatus).getD target) target triggeredBy
  await (.quiet .recordCorrespondence)
  forSome pending fun p => await (.deletePending p.id)

/-- One candidate of `reconcileUnclaimedFullySignedPending`. -/
def resumeUnclaimed (cfg : Settings) (pending : Pending) (signers : List ℕ) (escrow : Escrow) :
    Op Unit :=
  when (pending.allSubmitted signers) do
    let _ ← await .findTrade
    let keys ← await .loadParticipantPubkeys
    let result ← reconcilePendingSettlement .unclaimed escrow keys pending do
      await (.authorizeDisposition pending)
      authorizePendingExecution cfg
    forSome result fun txId => do
      let claimed ← (do
          claimEscrowTransition escrow.status pending.kind.target
          pure true : Op Bool).tryCatch fun e =>
        if e = .alreadyTransitioned then pure false else throw e
      when claimed do
        await (.updateResult pending.kind txId)
        applyDownstreamCompletionEffects pending.kind.target pending.triggeredBy (some pending)

/-- `reconcileUnclaimedFullySignedPending`. -/
def reconcileUnclaimedFullySignedPending (cfg : Settings) : Op Unit := do
  let candidates ← await .findUnclaimedPending
  forSome candidates fun c => swallow (resumeUnclaimed cfg c.1 c.2.1 c.2.2)

/-- `reconcileTxReleaseId`. -/
def reconcileTxReleaseId (escrow : Escrow) : Op Unit :=
  when (decide (escrow.type = .multisig)) do
    let found ← await .findPending
    forSome found fun pending => do
      let signers ← await (.findSigners pending.id)
      when (decide (pending.kind.target = escrow.status) && pending.allSubmitted signers) do
        let _ ← await .findTrade
        let keys ← await .loadParticipantPubkeys
        let result ← reconcilePendingSettlement .missingTxId escrow keys pending (pure ())
        forSome result fun txId => do
          let _ ← await (.writeMissingTxReleaseId pending.kind.target txId)
          applyDownstreamCompletionEffects pending.kind.target pending.triggeredBy (some pending)

/-- The reconstruction `reconcileMissingCompletionEffects` makes for the correspondence. -/
def reconstructForCorrespondence (escrow : Escrow) : Op Unit := do
  let found ← await .findPending
  forSome found fun pending => do
    let signers ← await (.findSigners pending.id)
    when (pending.allSubmitted signers) <| swallow do
      let _ ← await .findTrade
      let keys ← await .loadParticipantPubkeys
      let _ ← reconcilePendingSettlement .missingEffects escrow keys pending (pure ())
      pure ()
  await (.quiet .recordCorrespondence)

/-- `reconcileMissingCompletionEffects`. -/
def reconcileMissingCompletionEffects (escrow : Escrow) : Op Unit := do
  let emitted ← await (.alreadyEmitted escrow.status)
  when (decide (escrow.type = .multisig)) (reconstructForCorrespondence escrow)
  when (!emitted) do
    let trade ← await .findTrade
    let pending ← await .findPending
    applyDownstreamCompletionEffects escrow.status
      ((pending.map Pending.triggeredBy).getD (.user trade.sellerId)) pending

/-- The second loop of `reconcilePendingSettlements`, over `findTerminalWithoutTxReleaseId`. -/
def reconcileTxReleaseIds : Op Unit := do
  let candidates ← await .findTerminalWithoutTxReleaseId
  forSome candidates fun escrow => swallow (reconcileTxReleaseId escrow)

/-- `reconcilePendingSettlements`. -/
def reconcilePendingSettlements (cfg : Settings) : Op Unit := do
  reconcileUnclaimedFullySignedPending cfg
  reconcileTxReleaseIds
  let candidates ← await .findTerminalWithTxReleaseId
  forSome candidates fun escrow => swallow (reconcileMissingCompletionEffects escrow)

end Sails
