import SailsProtocol.Async.Pool
import SailsProtocol.Escrow.Script
import SailsProtocol.Escrow.Status

/-!
# The escrow store and the calls on it

`World` holds the rows of one escrow : the escrow itself, its trade, the participant
keys, the pending transaction with its signatures, the funding evidence, the escrow
events, the dispute with the authorizations given under it, and the settlement events
published. `Call` lists what the settlement operations await : single statements,
whole transactions (which run as one step), provider and explorer requests, and the
checks on tables no modelled operation writes.

`Call.exec` answers a call. A fault chosen by the environment leaves the store as it was.
A call whose failure the source swallows never answers with an error.
-/

namespace Sails

/-! ## Rows -/

/-- The actor of an operation : a participant, an agent of one, or the expiry sweeper. -/
inductive Actor
  | user (id : ℕ)
  | agent (label id : ℕ)
  | expirySweeper
  deriving DecidableEq, Repr

/-- `isPartyOrAgent`. -/
def isPartyOrAgent (triggeredBy : Actor) (participantId : ℕ) : Bool :=
  match triggeredBy with
  | .user id => id = participantId
  | .agent _ id => id = participantId
  | .expirySweeper => false

/-- The parties of the trade. -/
structure Trade where
  buyerId : ℕ
  sellerId : ℕ
  deriving DecidableEq, Repr

/-- A deposit address : the script hash of MULTISIG, or another rail's address. -/
inductive Address
  | p2wsh (script : P2wsh)
  | other (id : ℕ)
  deriving DecidableEq

/-- The columns of `Escrow` the settlement operations read or write. -/
structure Escrow where
  type : EscrowType
  status : EscrowStatus
  timelockHours : ℕ
  txLockId : Option ℕ
  txLockVout : Option ℕ
  multisigAddr : Option Address
  expiresAt : Option ℕ
  txReleaseId : Option ℕ
  deriving DecidableEq

/-- A declared capability profile. -/
inductive CapabilityProfile
  | multisigV1
  | unknown (id : ℕ)
  deriving DecidableEq, Repr

/-- `EscrowParticipantKey` of a buyer or seller. -/
structure KeyRow where
  pubkey : SubmittedKey
  capabilityProfile : Option CapabilityProfile
  deriving DecidableEq

/-- The `EscrowParticipantKey` rows of the escrow, one per role. -/
structure KeyRows where
  buyer : Option KeyRow
  seller : Option KeyRow
  arbiter : Option Bytes
  deriving DecidableEq

/-- `DisputeStatus`. -/
inductive DisputeStatus
  | opened
  | evidenceSubmitted
  | arbitrated
  | resolved
  | appealed
  | autoProposed
  deriving DecidableEq, Repr

/-- The columns of `Dispute` that carry its economic authority. -/
structure Dispute where
  status : DisputeStatus
  arbiterId : Option ℕ
  appealRound : ℕ
  ruling : Option SettlementKind
  authoritySignature : Option ℕ
  deriving DecidableEq

/-- The ruling a pending transaction was built under : a snapshot of the dispute. -/
structure Provenance where
  appealRound : ℕ
  arbiterId : Option ℕ
  ruling : Option SettlementKind
  authoritySignature : Option ℕ
  deriving DecidableEq

/-- The snapshot `initiateSignatureCollectionCore` stores. -/
def Dispute.provenance (d : Dispute) : Provenance :=
  ⟨d.appealRound, d.arbiterId, d.ruling, d.authoritySignature⟩

/-- `stillCurrent` of `authorizeDisputedPendingExecution`. -/
def Dispute.stillCurrent (d : Dispute) (p : Provenance) : Bool :=
  decide (d.status = .resolved) && decide (d.provenance = p)

/-- `EscrowPendingTransaction`. -/
structure Pending where
  id : ℕ
  kind : SettlementKind
  requiredSigners : List ℕ
  triggeredBy : Actor
  /-- The `disputeId` and `ruling…` columns, empty for a cooperative operation. -/
  provenance : Option Provenance
  deriving DecidableEq

/-- A kind of `EscrowFundingEvidence`. -/
inductive EvidenceKind
  | observedConfirmed
  | reorgedInvalidated
  | reconfirmed
  | replacementObserved
  | ambiguous
  deriving DecidableEq, Repr

/-- `EscrowEvent`. -/
structure EscrowEvent where
  fromStatus : EscrowStatus
  toStatus : EscrowStatus
  triggeredBy : Actor
  deriving DecidableEq

/-- Every row of one escrow. Lists are newest first. -/
structure World where
  escrow : Escrow
  trade : Trade
  keys : KeyRows
  pending : Option Pending
  /-- `EscrowTransactionSignature` : the pending transaction and the signer. -/
  signatures : List (ℕ × ℕ)
  nextPendingId : ℕ
  evidence : List EvidenceKind
  events : List EscrowEvent
  /-- The `settlement.escrow.*` events published, by the status they report. -/
  published : List EscrowStatus
  dispute : Option Dispute
  /-- `EconomicDispositionAuthorization`, by its pending operation. -/
  authorizations : List ℕ
  deriving DecidableEq

/-- `isFundingUncertain` : the last evidence is not trustworthy. -/
def World.fundingUncertain (s : World) : Bool :=
  match s.evidence with
  | [] => false
  | k :: _ => !(k = .observedConfirmed || k = .reconfirmed)

/-- Set the status column. -/
def World.setStatus (s : World) (st : EscrowStatus) : World :=
  { s with escrow := { s.escrow with status := st } }

/-- The signers of a pending transaction. -/
def World.signersOf (s : World) (pendingId : ℕ) : List ℕ :=
  (s.signatures.filter fun e => e.1 = pendingId).map Prod.snd

/-- The rows of both parties, once both have submitted a key. -/
def KeyRows.both (k : KeyRows) : Option (KeyRow × KeyRow) :=
  match k.buyer, k.seller with
  | some b, some s => some (b, s)
  | _, _ => none

/-! ## Calls -/

/-- A fault of the environment : a missing row, or a statement or request that failed. -/
inductive Fault
  | notFound
  | failed
  deriving DecidableEq, Repr

/-- The errors the settlement operations throw. -/
inductive Err
  | fault (f : Fault)
  | invalidTransition (src dst : EscrowStatus)
  | alreadyTransitioned
  | circuitOpen
  | forbidden
  | validation
  | fundingUncertain
  | noProvider (type : EscrowType)
  | notDirectlyCallable (type : EscrowType)
  | noSplit (type : EscrowType)
  | missingKey (role : Role)
  | outpointClaimed
  | capabilityBlocked
  | alreadyPending
  | noPending
  | ambiguousOrigin
  | supersededRuling
  | disputeExists
  | disputeChanged
  | dispatchIneligible
  | arbiterCommitted
  deriving DecidableEq, Repr

/-- A check on state outside the model. The environment decides whether it passes. -/
inductive Gate
  | circuitBreaker
  | capability
  | dualApproval
  | payoutAddress
  | buildUnsigned
  | finalize
  | authoritySignature
  | dispatchTranslation
  | appealPanel
  | arbitrationBookkeeping
  deriving DecidableEq, Repr

/-- An effect on tables outside the model whose failure is swallowed. -/
inductive Quiet
  | recordEscrowConflict
  | recordObligation
  | recordBroadcastEvidence
  | recordCorrespondence
  deriving DecidableEq, Repr

/-- The path that hands a pending transaction to the backend. -/
inductive Pass
  | live
  | unclaimed
  | missingTxId
  | missingEffects
  deriving DecidableEq, Repr

/-- What `provider.lockFunds` returns. -/
structure LockResult where
  txId : ℕ
  vout : Option ℕ
  address : Address
  deriving DecidableEq

/-- What `getDepositAddress` returns. The arbiter commitment is MULTISIG's. -/
structure DepositAddress where
  address : Address
  arbiterPubkey : Option Bytes
  deriving DecidableEq

/-- The public keys `loadParticipantPubkeys` returns. -/
structure ParticipantPubkeys where
  buyerPubkey : Option SubmittedKey
  sellerPubkey : Option SubmittedKey
  arbiterPubkey : Option Bytes
  deriving DecidableEq

/-- Everything the settlement operations await. -/
inductive Call
  -- reads
  | findById
  | findTrade
  | findPending
  | findSigners (pendingId : ℕ)
  | findParticipantKeys
  | loadParticipantPubkeys
  | isFundingUncertain
  | findDispute
  | alreadyEmitted (toStatus : EscrowStatus)
  | lastEvent
  | findUnclaimedPending
  | findTerminalWithoutTxReleaseId
  | findTerminalWithTxReleaseId
  | findFundsLockedExpiryCandidates (now : ℕ)
  | findExpiredFundsLocked (now : ℕ)
  | clock
  -- status
  | claimTransition (src dst : EscrowStatus)
  | claimPaymentPending (src : EscrowStatus)
  | commitTimelockExpiry
  | revertStatus (claimed src : EscrowStatus)
  -- settlement columns and evidence
  | updateLockResult (r : LockResult) (expiresAt : ℕ)
  | recordFundingEvidence
  | updateResult (kind : SettlementKind) (txId : ℕ)
  | writeMissingTxReleaseId (target : EscrowStatus) (txId : ℕ)
  -- history and bus
  | recordEscrowEvent (e : EscrowEvent)
  | publish (toStatus : EscrowStatus)
  | emitDisputeEvent
  -- pending transaction
  | createPending (kind : SettlementKind) (requiredSigners : List ℕ) (triggeredBy : Actor)
      (provenance : Option Provenance)
  | deletePending (id : ℕ)
  | deletePendingOfEscrow
  | upsertSignature (pendingId participantId : ℕ)
  | authorizeDisposition (p : Pending)
  -- keys
  | upsertKey (role : Role) (row : KeyRow)
  | updateMultisigAddr (a : Address)
  | createArbiterKey (k : Bytes)
  -- dispute
  | createDispute
  | assignArbiter
  | claimRuling (arbiterId : ℕ) (ruling : SettlementKind) (signature : ℕ)
  | revertRuling (claimed : Dispute) (status : DisputeStatus)
  | claimAppeal (appealRound : ℕ)
  -- providers and explorer
  | providerLock (type : EscrowType) (keys : ParticipantPubkeys)
  | providerMove (type : EscrowType) (kind : SettlementKind)
  | getDepositAddress (type : EscrowType) (buyer seller : SubmittedKey)
  | transactionExists
  | outpointUnspent
  | broadcast (pass : Pass) (kind : SettlementKind)
  -- checks and effects outside the model
  | check (g : Gate)
  | quiet (q : Quiet)
  deriving DecidableEq

/-- The type of the answer to a call. -/
@[reducible] def Call.Ans : Call → Type
  | .findById => Escrow
  | .findTrade => Trade
  | .findPending => Option Pending
  | .findSigners _ => List ℕ
  | .findParticipantKeys => KeyRows
  | .loadParticipantPubkeys => ParticipantPubkeys
  | .isFundingUncertain => Bool
  | .findDispute => Option Dispute
  | .alreadyEmitted _ => Bool
  | .lastEvent => Option EscrowEvent
  | .findUnclaimedPending => Option (Pending × List ℕ × Escrow)
  | .findTerminalWithoutTxReleaseId => Option Escrow
  | .findTerminalWithTxReleaseId => Option Escrow
  | .findFundsLockedExpiryCandidates _ => Option Escrow
  | .findExpiredFundsLocked _ => Option Escrow
  | .clock => ℕ
  | .claimTransition _ _ => ℕ
  | .claimPaymentPending _ => ℕ
  | .commitTimelockExpiry => Bool
  | .revertStatus _ _ => ℕ
  | .writeMissingTxReleaseId _ _ => Bool
  | .recordEscrowEvent _ => Bool
  | .createPending _ _ _ _ => Pending
  | .claimRuling _ _ _ => Dispute
  | .providerLock _ _ => LockResult
  | .providerMove _ _ => ℕ
  | .getDepositAddress _ _ _ => DepositAddress
  | .transactionExists => Bool
  | .outpointUnspent => Bool
  | .broadcast _ _ => ℕ
  | _ => Unit

/-- The answer of the environment to one call. -/
structure Env where
  fault : Option Fault := none
  /-- Whether a check outside the model passes. -/
  allow : Bool := true
  /-- Whether the network knows the reconstructed transaction. -/
  known : Bool := false
  /-- Whether the funding outpoint is unspent. -/
  unspent : Bool := true
  txId : ℕ := 0
  vout : Option ℕ := none
  otherAddress : ℕ := 0
  arbiterId : ℕ := 0
  now : ℕ := 0

/-- The configuration the settlement operations read. -/
structure Settings where
  /-- `TRUSTED_ARBITRATORS[0]`, the arbiter of every MULTISIG script. -/
  defaultArbiterId : ℕ
  /-- The public key derived for that arbiter. -/
  arbiterPubkey : Bytes
  mockEscrow : Bool
  production : Bool
  enforceCapabilities : Bool
  requireDualApprovalForRelease : Bool

/-- `partiesFor` : the parsed keys of the MULTISIG script, or the key that is missing. -/
def ParticipantPubkeys.partiesFor (k : ParticipantPubkeys) : Except Err MultisigParties :=
  match k.buyerPubkey, k.sellerPubkey, k.arbiterPubkey with
  | none, _, _ => .error (.missingKey .buyer)
  | some _, none, _ => .error (.missingKey .seller)
  | some _, some _, none => .error (.missingKey .arbiter)
  | some b, some s, some a => .ok ⟨b.bytes, s.bytes, a⟩

namespace Call

variable (cfg : Settings)

/-- The answer to a call that meets a fault. A swallowed failure is no error, and the
clock does not fail. -/
def onFault : (q : Call) → Env → Fault → Except Err q.Ans
  | quiet _, _, _ => .ok ()
  | deletePending _, _, _ => .ok ()
  | clock, env, _ => .ok env.now
  | _, _, f => .error (.fault f)

/-- The answer to a call without a fault, and the store after it. -/
def run : (q : Call) → Env → World → Except Err q.Ans × World
  | findById, _, s => (.ok s.escrow, s)
  | findTrade, _, s => (.ok s.trade, s)
  | findPending, _, s => (.ok s.pending, s)
  | findSigners id, _, s => (.ok (s.signersOf id), s)
  | findParticipantKeys, _, s => (.ok s.keys, s)
  | loadParticipantPubkeys, _, s =>
    (.ok ⟨s.keys.buyer.map KeyRow.pubkey, s.keys.seller.map KeyRow.pubkey, s.keys.arbiter⟩, s)
  | isFundingUncertain, _, s => (.ok s.fundingUncertain, s)
  | findDispute, _, s => (.ok s.dispute, s)
  | alreadyEmitted t, _, s => (.ok (s.events.any fun e => e.toStatus = t), s)
  | lastEvent, _, s => (.ok s.events.head?, s)
  | findUnclaimedPending, _, s =>
    (.ok (match s.pending with
      | some p => if s.escrow.type = .multisig ∧ s.escrow.status.terminal = false
          then some (p, s.signersOf p.id, s.escrow) else none
      | none => none), s)
  | findTerminalWithoutTxReleaseId, _, s =>
    (.ok (if s.escrow.status.terminal = true ∧ s.escrow.txReleaseId = none
      then some s.escrow else none), s)
  | findTerminalWithTxReleaseId, _, s =>
    (.ok (if s.escrow.status.terminal = true ∧ s.escrow.txReleaseId ≠ none
      then some s.escrow else none), s)
  | findFundsLockedExpiryCandidates now, _, s =>
    (.ok (if s.escrow.status = .fundsLocked ∧ s.escrow.type.signatureCollection = true ∧
      (s.escrow.expiresAt.any fun d => d ≤ now) = true then some s.escrow else none), s)
  | findExpiredFundsLocked now, _, s =>
    (.ok (if s.escrow.status = .fundsLocked ∧
      (s.escrow.expiresAt.any fun d => d < now) = true then some s.escrow else none), s)
  | clock, env, s => (.ok env.now, s)
  | claimTransition src dst, _, s =>
    if s.escrow.status = src then (.ok 1, s.setStatus dst) else (.ok 0, s)
  | claimPaymentPending src, _, s =>
    if s.fundingUncertain then (.error .fundingUncertain, s)
    else if s.escrow.status = src then (.ok 1, s.setStatus .paymentPending) else (.ok 0, s)
  | commitTimelockExpiry, _, s =>
    if s.escrow.status = .fundsLocked then (.ok true, s.setStatus .expired) else (.ok false, s)
  | revertStatus claimed src, _, s =>
    if s.escrow.status = claimed then (.ok 1, s.setStatus src) else (.ok 0, s)
  | updateLockResult r expiresAt, env, s =>
    -- the unique index on the outpoint is over all escrows
    if env.allow then
      (.ok (), { s with escrow := { s.escrow with
        txLockId := some r.txId, txLockVout := r.vout, multisigAddr := some r.address,
        expiresAt := some expiresAt } })
    else (.error .outpointClaimed, s)
  | recordFundingEvidence, _, s =>
    (.ok (), { s with evidence := .observedConfirmed :: s.evidence })
  | updateResult _ txId, _, s =>
    (.ok (), { s with escrow := { s.escrow with txReleaseId := some txId } })
  | writeMissingTxReleaseId _ txId, _, s =>
    if s.escrow.txReleaseId = none then
      (.ok true, { s with escrow := { s.escrow with txReleaseId := some txId } })
    else (.ok false, s)
  | recordEscrowEvent e, _, s =>
    if s.events.any fun e' => e'.toStatus = e.toStatus then (.ok false, s)
    else (.ok true, { s with events := e :: s.events })
  | publish t, _, s => (.ok (), { s with published := t :: s.published })
  | emitDisputeEvent, _, s => (.ok (), s)
  | createPending kind signers by' prov, _, s =>
    if kind ≠ .refund ∧ s.fundingUncertain = true then (.error .fundingUncertain, s)
    else match s.pending with
      | some _ => (.error .alreadyPending, s)
      | none =>
        let p : Pending := ⟨s.nextPendingId, kind, signers, by', prov⟩
        (.ok p, { s with pending := some p, nextPendingId := s.nextPendingId + 1 })
  | deletePending id, _, s =>
    (.ok (), { s with pending := s.pending.filter fun p => p.id ≠ id })
  | deletePendingOfEscrow, _, s => (.ok (), { s with pending := none })
  | upsertSignature id participant, _, s =>
    (.ok (), { s with signatures := if (id, participant) ∈ s.signatures then s.signatures
      else (id, participant) :: s.signatures })
  | authorizeDisposition p, _, s =>
    match p.provenance with
    | none => if s.dispute.isSome then (.error .ambiguousOrigin, s) else (.ok (), s)
    | some prov =>
      if p.id ∈ s.authorizations then (.ok (), s)
      else match s.dispute with
        | none => (.error .supersededRuling, s)
        | some d =>
          if d.stillCurrent prov then
            (.ok (), { s with authorizations := p.id :: s.authorizations })
          else (.error .supersededRuling, s)
  | upsertKey role row, _, s =>
    (.ok (), { s with keys := match role with
      | .buyer => { s.keys with buyer := some row }
      | .seller => { s.keys with seller := some row }
      | .arbiter => s.keys })
  | updateMultisigAddr a, _, s =>
    (.ok (), { s with escrow := { s.escrow with multisigAddr := some a } })
  | createArbiterKey k, _, s =>
    match s.keys.arbiter with
    | some _ => (.error .arbiterCommitted, s)
    | none => (.ok (), { s with keys := { s.keys with arbiter := some k } })
  | createDispute, _, s =>
    match s.dispute with
    | some _ => (.error .disputeExists, s)
    | none => (.ok (), { s with dispute := some ⟨.opened, none, 0, none, none⟩ })
  | assignArbiter, env, s =>
    let arbiter := if s.keys.arbiter.isSome then cfg.defaultArbiterId else env.arbiterId
    (.ok (), { s with dispute := s.dispute.map fun d => { d with arbiterId := some arbiter } })
  | claimRuling arbiter ruling sig, _, s =>
    match s.dispute with
    | some d =>
      if d.status ≠ .resolved ∧ d.arbiterId = some arbiter then
        let d' := { d with
          status := .resolved, ruling := some ruling, authoritySignature := some sig }
        (.ok d', { s with dispute := some d' })
      else (.error .disputeChanged, s)
    | none => (.error .disputeChanged, s)
  | revertRuling claimed status, _, s =>
    (.ok (), { s with dispute := s.dispute.map fun d =>
      if d = claimed then { d with status := status, ruling := none, authoritySignature := none }
      else d })
  | claimAppeal round, env, s =>
    match s.dispute with
    | some d =>
      if d.status = .resolved ∧ d.appealRound = round then
        (.ok (), { s with dispute := some { d with
          status := .appealed, appealRound := round + 1, arbiterId := some env.arbiterId,
          ruling := none } })
      else (.error .disputeChanged, s)
    | none => (.error .disputeChanged, s)
  | providerLock type keys, env, s =>
    match type, keys.partiesFor with
    | .multisig, .error e => (.error e, s)
    | .multisig, .ok parties => (.ok ⟨env.txId, env.vout, .p2wsh parties.buildScript⟩, s)
    | _, _ => (.ok ⟨env.txId, none, .other env.otherAddress⟩, s)
  | providerMove type _, env, s =>
    if type.directlyCallable then (.ok env.txId, s) else (.error (.notDirectlyCallable type), s)
  | getDepositAddress type buyer seller, env, s =>
    match type with
    | .multisig =>
      let parties : MultisigParties := ⟨buyer.bytes, seller.bytes, cfg.arbiterPubkey⟩
      (.ok ⟨.p2wsh parties.buildScript, some cfg.arbiterPubkey⟩, s)
    | _ => (.ok ⟨.other env.otherAddress, none⟩, s)
  | transactionExists, env, s => (.ok env.known, s)
  | outpointUnspent, env, s => (.ok env.unspent, s)
  | broadcast _ _, env, s => (.ok env.txId, s)
  | check g, env, s =>
    if env.allow then (.ok (), s)
    else (.error (match g with
      | .circuitBreaker => .circuitOpen
      | .dispatchTranslation => .dispatchIneligible
      | .appealPanel | .arbitrationBookkeeping => .validation
      | .payoutAddress | .buildUnsigned | .finalize => .validation
      | .capability | .dualApproval | .authoritySignature => .forbidden), s)
  | quiet _, _, s => (.ok (), s)

/-- The answer to a call, and the store after it. -/
def exec (q : Call) (env : Env) (s : World) : Except Err q.Ans × World :=
  match env.fault with
  | some f => (q.onFault env f, s)
  | none => q.run cfg env s

end Call

end Sails
