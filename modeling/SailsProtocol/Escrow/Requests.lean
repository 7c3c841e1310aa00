import SailsProtocol.Escrow.Operations

/-!
# Requests and the escrow system

Key submission and the dispute operations complete the list of operations on an escrow.
`Request` is what the outside can ask for, `Request.prog` the operation that serves it,
and `escrowSystem` the pool of all of them over one `World`. `Call.observe` is the
history the properties are stated over : claims and reverts of the status, provider
answers, history rows, published events, and what the recovery passes read.
-/

namespace Sails

open Async Async.Prog

/-! ## Participant keys -/

/-- The role under which a participant submits a key. -/
def Trade.roleOf (t : Trade) (participantId : ℕ) : Option Role :=
  if participantId = t.buyerId then some .buyer
  else if participantId = t.sellerId then some .seller
  else none

/-- A hex string that passes `PUBKEY_HEX_PATTERN`, as a key. -/
def SubmittedKey.ofHex? (hex : Hex) : Option SubmittedKey :=
  if h : pubkeyHexPattern hex = true then some ⟨hex, h⟩ else none

/-- `isKnownCapabilityProfile`, and an omitted profile. -/
def knownProfile : Option CapabilityProfile → Bool
  | some (.unknown _) => false
  | _ => true

/-- `findCapabilityCommitBlocker` : the first party without the profile MULTISIG requires. -/
def findCapabilityCommitBlocker (type : EscrowType) (buyer seller : Option CapabilityProfile) :
    Option Role :=
  match type with
  | .multisig =>
    if buyer ≠ some .multisigV1 then some .buyer
    else if seller ≠ some .multisigV1 then some .seller
    else none
  | _ => none

/-- `submitParticipantKey`. -/
def submitParticipantKey (cfg : Settings) (participantId : ℕ) (pubkey : Hex)
    (capabilityProfile : Option CapabilityProfile) : Op Unit := do
  let escrow ← await .findById
  require escrow.type.nonCustodial .validation
  let trade ← await .findTrade
  let role ← orThrow (trade.roleOf participantId) .forbidden
  let key ← orThrow (SubmittedKey.ofHex? pubkey) .validation
  require (knownProfile capabilityProfile) .validation
  await (.upsertKey role ⟨key, capabilityProfile⟩)
  let keys ← await .findParticipantKeys
  forSome keys.both fun k =>
    when (escrow.multisigAddr.isNone && !cfg.mockEscrow) do
      require (findCapabilityCommitBlocker escrow.type k.1.capabilityProfile
        k.2.capabilityProfile).isNone .capabilityBlocked
      let deposit ← await (.getDepositAddress escrow.type k.1.pubkey k.2.pubkey)
      await (.updateMultisigAddr deposit.address)
      forSome deposit.arbiterPubkey fun a => await (.createArbiterKey a)

/-! ## Disputes -/

/-- `raiseDispute`. -/
def raiseDispute (raisedBy : ℕ) : Op Unit := do
  let trade ← await .findTrade
  require (decide (raisedBy = trade.buyerId) || decide (raisedBy = trade.sellerId)) .forbidden
  openDispute (.user raisedBy)
  await .createDispute
  await .assignArbiter
  await .emitDisputeEvent

/-- The settlement a ruling starts on a signature collection rail. -/
def initiateRuling (cfg : Settings) (ruling : SettlementKind) (buyerBps : ℕ)
    (arbiterId : ℕ) : Op Pending :=
  match ruling with
  | .release => initiateRelease cfg (.user arbiterId)
  | .refund => initiateRefund cfg (.user arbiterId)
  | .split => initiateSplit cfg buyerBps (.user arbiterId)

/-- The settlement a ruling makes on a direct rail. -/
def executeRuling (cfg : Settings) (ruling : SettlementKind) (buyerBps : ℕ)
    (arbiterId : ℕ) : Op Unit :=
  match ruling with
  | .release => releaseFunds cfg (.user arbiterId)
  | .refund => refundFunds cfg (.user arbiterId)
  | .split => splitFunds cfg buyerBps (.user arbiterId)

/-- `applyRuling`. -/
def applyRuling (cfg : Settings) (status : DisputeStatus) (ruling : SettlementKind)
    (buyerBps : ℕ) (arbiterId signature : ℕ) : Op Unit := do
  let claimed ← await (.claimRuling arbiterId ruling signature)
  (do
    let escrow ← await .findById
    if escrow.type.signatureCollection = true then do
      let _ ← initiateRuling cfg ruling buyerBps arbiterId
      pure ()
    else executeRuling cfg ruling buyerBps arbiterId : Op Unit).tryCatch fun e => do
      await (.revertRuling claimed status)
      throw e
  await .emitDisputeEvent

/-- `applyRulingCoreAuthoritative`, the MULTISIG path. -/
def applyRulingCoreAuthoritative (cfg : Settings) (status : DisputeStatus)
    (ruling : SettlementKind) (buyerBps : ℕ) (arbiterId signature : ℕ) : Op Unit := do
  let claimed ← await (.claimRuling arbiterId ruling signature)
  (do
    let existing ← await .findPending
    require existing.isNone .dispatchIneligible
    let _ ← initiateRuling cfg ruling buyerBps arbiterId
    (await (.check .dispatchTranslation)).tryCatch fun e => do
      await .deletePendingOfEscrow
      throw e : Op Unit).tryCatch fun e => do
      await (.revertRuling claimed status)
      throw e
  await .emitDisputeEvent

/-- `resolveDispute`. -/
def resolveDispute (cfg : Settings) (arbiterId : ℕ) (ruling : SettlementKind) (buyerBps : ℕ)
    (signature : ℕ) : Op Unit := do
  let found ← await .findDispute
  let dispute ← orThrow found (.fault .notFound)
  require (decide (dispute.status ≠ .resolved)) .validation
  require (decide (dispute.arbiterId = some arbiterId)) .forbidden
  await (.check .authoritySignature)
  let escrow ← await .findById
  (if escrow.type = .multisig then
    applyRulingCoreAuthoritative cfg dispute.status ruling buyerBps arbiterId signature
  else applyRuling cfg dispute.status ruling buyerBps arbiterId signature)
  await (.check .arbitrationBookkeeping)

/-- `appeal`. -/
def appeal (requestedBy : ℕ) : Op Unit := do
  let found ← await .findDispute
  let dispute ← orThrow found (.fault .notFound)
  require (decide (dispute.status = .resolved)) .validation
  let trade ← await .findTrade
  require (decide (requestedBy = trade.buyerId) || decide (requestedBy = trade.sellerId))
    .forbidden
  let keys ← await .loadParticipantPubkeys
  require keys.arbiterPubkey.isNone .validation
  await (.check .appealPanel)
  await (.claimAppeal dispute.appealRound)
  await .emitDisputeEvent

/-! ## The system -/

/-- A request to the settlement module. -/
inductive Request
  | lockFunds (triggeredBy : Actor)
  | markPaymentSent (triggeredBy : Actor)
  | openDispute (triggeredBy : Actor)
  | releaseFunds (triggeredBy : Actor)
  | refundFunds (triggeredBy : Actor)
  | splitFunds (buyerBps : ℕ) (triggeredBy : Actor)
  | sweepExpiredEscrows
  | initiateRelease (triggeredBy : Actor)
  | initiateRefund (triggeredBy : Actor)
  | initiateSplit (buyerBps : ℕ) (triggeredBy : Actor)
  | submitTransactionSignature (participantId : ℕ)
  | reconcileUnclaimedFullySignedPending
  | reconcileTxReleaseIds
  | reconcilePendingSettlements
  | submitParticipantKey (participantId : ℕ) (pubkey : Hex)
      (capabilityProfile : Option CapabilityProfile)
  | raiseDispute (raisedBy : ℕ)
  | resolveDispute (arbiterId : ℕ) (ruling : SettlementKind) (buyerBps signature : ℕ)
  | appeal (requestedBy : ℕ)
  deriving DecidableEq

/-- Return nothing. -/
def ignoreResult {α : Type} (p : Op α) : Op Unit := do
  let _ ← p
  pure ()

/-- The operation that serves a request. -/
def Request.prog (cfg : Settings) : Request → Op Unit
  | lockFunds a => Sails.lockFunds cfg a
  | markPaymentSent a => Sails.markPaymentSent a
  | openDispute a => Sails.openDispute a
  | releaseFunds a => Sails.releaseFunds cfg a
  | refundFunds a => Sails.refundFunds cfg a
  | splitFunds bps a => Sails.splitFunds cfg bps a
  | sweepExpiredEscrows => Sails.sweepExpiredEscrows cfg
  | initiateRelease a => ignoreResult (Sails.initiateRelease cfg a)
  | initiateRefund a => ignoreResult (Sails.initiateRefund cfg a)
  | initiateSplit bps a => ignoreResult (Sails.initiateSplit cfg bps a)
  | submitTransactionSignature p => Sails.submitTransactionSignature cfg p
  | reconcileUnclaimedFullySignedPending => Sails.reconcileUnclaimedFullySignedPending cfg
  | reconcileTxReleaseIds => Sails.reconcileTxReleaseIds
  | reconcilePendingSettlements => Sails.reconcilePendingSettlements cfg
  | submitParticipantKey p hex profile => Sails.submitParticipantKey cfg p hex profile
  | raiseDispute p => Sails.raiseDispute p
  | resolveDispute a ruling bps sig => Sails.resolveDispute cfg a ruling bps sig
  | appeal p => Sails.appeal p

/-- What is observed of a call. -/
inductive Obs
  | failed
  | refused
  | read (escrow : Escrow)
  | claimed (src dst : EscrowStatus)
  | reverted (dst src : EscrowStatus)
  | revertLost (dst src : EscrowStatus)
  | revertFailed (dst src : EscrowStatus)
  | locked (type : EscrowType) (keys : ParticipantPubkeys) (address : Address)
  | moved (kind : SettlementKind)
  | handedOver (pass : Pass) (kind : SettlementKind) (status : EscrowStatus)
  | rowWritten (toStatus : EscrowStatus)
  | rowFound (toStatus : EscrowStatus)
  | published (toStatus : EscrowStatus)
  | snapshot (status : EscrowStatus)
  | completionSnapshot (status : Option EscrowStatus)
  | txIdWritten (target : EscrowStatus)
  | keysRead (buyer seller : SubmittedKey)
  | pubkeysLoaded (keys : ParticipantPubkeys)
  | derived (type : EscrowType) (buyer seller : SubmittedKey) (deposit : DepositAddress)
  | addressWritten (address : Address)
  | arbiterWritten (key : Bytes)
  deriving DecidableEq

/-- The observations of an answer. -/
def Call.answered : (q : Call) → q.Ans → World → List Obs
  | .findById, e, _ => [.read e]
  | .claimTransition src dst, n, _ => if n = 0 then [] else [.claimed src dst]
  | .claimPaymentPending src, n, _ => if n = 0 then [] else [.claimed src .paymentPending]
  | .commitTimelockExpiry, b, _ => if b = true then [.claimed .fundsLocked .expired] else []
  | .revertStatus dst src, n, _ =>
    if n = 0 then [.revertLost dst src] else [.reverted dst src]
  | .providerLock type keys, r, _ => [.locked type keys r.address]
  | .providerMove _ kind, _, _ => [.moved kind]
  | .broadcast pass kind, _, s => [.handedOver pass kind s.escrow.status]
  | .recordEscrowEvent e, b, _ =>
    if b = true then [.rowWritten e.toStatus] else [.rowFound e.toStatus]
  | .alreadyEmitted t, b, _ => if b = true then [.rowFound t] else []
  | .publish t, _, _ => [.published t]
  | .findTerminalWithoutTxReleaseId, e, _ =>
    match e with
    | some e => [.snapshot e.status]
    | none => []
  | .findTerminalWithTxReleaseId, e, _ => [.completionSnapshot (e.map Escrow.status)]
  | .writeMissingTxReleaseId t _, b, _ => if b = true then [.txIdWritten t] else []
  | .findParticipantKeys, k, _ =>
    match k.both with
    | some (b, s) => [.keysRead b.pubkey s.pubkey]
    | none => []
  | .loadParticipantPubkeys, k, _ => [.pubkeysLoaded k]
  | .getDepositAddress type b s, d, _ => [.derived type b s d]
  | .updateMultisigAddr a, _, _ => [.addressWritten a]
  | .createArbiterKey k, _, _ => [.arbiterWritten k]
  | _, _, _ => []

/-- The calls that have an error of their own, besides a fault. -/
def Call.refusable : Call → Bool
  | .claimPaymentPending _ | .updateLockResult _ _ | .createPending _ _ _ _
  | .authorizeDisposition _ | .createArbiterKey _ | .createDispute | .claimRuling _ _ _
  | .claimAppeal _ | .providerLock _ _ | .providerMove _ _ | .check _ => true
  | _ => false

/-- The observations of an error. A transaction is handed over even when the backend
answers with an error. -/
def Call.thrown (q : Call) (e : Err) (s : World) : List Obs :=
  match q with
  | .revertStatus dst src => [.revertFailed dst src]
  | .broadcast pass kind => [.failed, .handedOver pass kind s.escrow.status]
  | q =>
    match q.refusable, e with
    | true, .fault _ => [.failed]
    | true, _ => [.refused]
    | false, _ => [.failed]

/-- The observations of a call made in a store and answered so. -/
def Call.observe (q : Call) (s : World) : Except Err q.Ans → List Obs
  | .ok a => q.answered a s
  | .error e => q.thrown e s

/-- The settlement module over one escrow. -/
def escrowSystem (cfg : Settings) : System Call.Ans Err Unit World Env Request Obs where
  exec := Call.exec cfg
  observe := Call.observe
  prog := Request.prog cfg

end Sails
