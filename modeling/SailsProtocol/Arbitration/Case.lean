import SailsProtocol.Async.Pool
import SailsProtocol.Escrow.World
import SailsProtocol.Text.CodeUnits

/-!
# The case of one dispute

The operations of `dispute.service.ts` on a dispute that has been raised, with everything
they write : the dispute row with its evidence and its automated proposal, the ruling
records of MULTISIG, the pending transaction of the escrow, and the idempotency keys of
`idempotency.ts`.

Three of the writers of the status column check an earlier read and then update by id
(`appendEvidence`, `contest`, `expire`). The others are conditional : they look at the row
in the statement or the transaction that writes it. `RowStep` says what each call does to
the row, and `rowStep_exec` that there is nothing else.
-/

namespace Sails.Case

open Async Text

/-! ## Rows -/

/-- What a party submits as evidence. -/
structure EvidenceDescriptor where
  type : JsString
  uri : Option JsString
  note : Option JsString
  evidenceReferenceId : Option JsString
  externalReference : Option Bool
  deriving DecidableEq

/-- An entry of the `evidence` array. -/
structure EvidenceEntry where
  descriptor : EvidenceDescriptor
  submittedBy : ℕ
  submittedAt : ℕ
  deriving DecidableEq

/-- The columns of `Dispute` the operations read or write. -/
structure DisputeRow where
  status : DisputeStatus
  arbiterId : Option ℕ
  ruling : Option SettlementKind
  appealRound : ℕ
  authoritySignature : Option ℕ
  evidence : List EvidenceEntry
  autoResolutionDeadline : Option ℕ
  deriving DecidableEq

/-- `IdempotencyKeyStatus`. -/
inductive KeyStatus
  | inProgress
  | completed
  | unknown
  | failed
  deriving DecidableEq, Repr

/-- `IdempotencyKey`, for the scope of dispute evidence. -/
structure KeyRow where
  requestHash : ℕ
  status : KeyStatus
  deriving DecidableEq

/-- The participant and the key that name an `IdempotencyKey`. -/
abbrev KeyId := ℕ × JsString

/-- The rows of one dispute. -/
structure Store where
  dispute : DisputeRow
  /-- The `SemanticTransitionRecord` of a ruling, by its appeal round. -/
  records : List (ℕ × SettlementKind)
  /-- The kind of the `EscrowPendingTransaction`. -/
  pending : Option SettlementKind
  keys : KeyId → Option KeyRow

/-- What the operations find outside the rows : the rail, the parties, an arbiter the
script has committed to, the hash of a request, and the window of a proposal. -/
structure Platform where
  type : EscrowType
  trade : Trade
  committedArbiterId : Option ℕ
  hashIdempotentPayload : EvidenceDescriptor → ℕ
  autoResolutionWindow : ℕ

/-- Whether the participant is a party to the trade. -/
def Platform.isParty (P : Platform) (id : ℕ) : Bool :=
  id == P.trade.buyerId || id == P.trade.sellerId

/-! ## Calls -/

/-- A check on state outside the model. -/
inductive Gate
  | evidenceReference
  | authoritySignature
  | escrow
  | trade
  | initiation
  | capability
  | buildUnsigned
  | settlement
  | eligibility
  | translation
  | appealPanel
  | bookkeeping
  deriving DecidableEq, Repr

/-- What the operations of a case await. -/
inductive Call
  | check (g : Gate)
  | clock
  | findDispute
  | findTrade
  | findCommittedArbiterId
  | assignAppealPanel
  | findDisputeByArbiter (arbiterId : ℕ)
  | findExpired (now : ℕ)
  -- writes of the dispute
  | appendEvidence (existing : List EvidenceEntry) (entry : EvidenceEntry)
  | claimProposal (deadline : ℕ)
  | contest
  | expire
  | claimRuling (arbiterId : ℕ) (ruling : SettlementKind) (signature : ℕ)
  | commitRuling (arbiterId : ℕ) (ruling : SettlementKind) (signature appealRound : ℕ)
  | revertRuling (status : DisputeStatus) (arbiterId : ℕ) (ruling : SettlementKind)
      (signature appealRound : ℕ)
  | claimAppeal (appealRound newArbiterId : ℕ)
  -- ruling records and pending transaction
  | findRecord (appealRound : ℕ)
  | deleteRulingRecord (appealRound : ℕ)
  | findPending
  | createPending (kind : SettlementKind)
  | deletePending
  -- idempotency keys
  | claimKey (id : KeyId) (requestHash : ℕ)
  | findKey (id : KeyId)
  | reclaimFailed (id : KeyId)
  | markCompleted (id : KeyId)
  | markUnknown (id : KeyId)
  | markFailed (id : KeyId)
  | emit
  deriving DecidableEq

/-- What each call returns. -/
abbrev Answer : Call → Type
  | .clock => ℕ
  | .findDispute => DisputeRow
  | .findTrade => Trade
  | .findCommittedArbiterId => Option ℕ
  | .assignAppealPanel => ℕ
  | .findDisputeByArbiter _ => Bool
  | .findExpired _ => Bool
  | .claimProposal _ => Bool
  | .claimRuling _ _ _ => DisputeRow
  | .commitRuling _ _ _ _ => Bool
  | .findRecord _ => Option SettlementKind
  | .findPending => Option SettlementKind
  | .claimKey _ _ => Bool
  | .findKey _ => Option KeyRow
  | .reclaimFailed _ => Bool
  | _ => Unit

/-- What the operations throw. -/
inductive CaseError
  | fault
  | validation
  | forbidden
  | authorityChanged
  | recordExists
  | ineligible
  | alreadyPending
  | uniqueConstraint
  | keyReused
  | keyConflict
  deriving DecidableEq, Repr

/-- What the environment decides about a call : its fate, whether a check passes, the time,
and the arbiter that is drawn. -/
structure CaseEnv where
  fate : Fate := .answered
  allow : Bool := true
  now : ℕ := 0
  arbiterId : ℕ := 0
  deriving DecidableEq, Repr

/-- The row a ruling by this arbiter can claim. -/
def DisputeRow.claimable (d : DisputeRow) (arbiterId : ℕ) : Bool :=
  d.status != .resolved && d.arbiterId == some arbiterId

/-- The row after a ruling. -/
def DisputeRow.ruled (ruling : SettlementKind) (signature : ℕ) (d : DisputeRow) : DisputeRow :=
  { d with status := .resolved, ruling := some ruling, authoritySignature := some signature }

/-- The row still is the generation a ruling committed. -/
def DisputeRow.isGeneration (d : DisputeRow) (arbiterId : ℕ) (ruling : SettlementKind)
    (signature appealRound : ℕ) : Bool :=
  d.status == .resolved && d.ruling == some ruling && d.arbiterId == some arbiterId &&
    d.appealRound == appealRound && d.authoritySignature == some signature

/-- The row after its ruling was taken back. -/
def DisputeRow.unruled (status : DisputeStatus) (d : DisputeRow) : DisputeRow :=
  { d with status := status, ruling := none, authoritySignature := none }

/-- The row after an appeal. -/
def DisputeRow.appealed (newArbiterId : ℕ) (d : DisputeRow) : DisputeRow :=
  { d with
    status := .appealed, appealRound := d.appealRound + 1, arbiterId := some newArbiterId,
    ruling := none }

/-- The row a proposal can claim. -/
def DisputeRow.proposable (d : DisputeRow) : Bool :=
  (d.status == .opened || d.status == .evidenceSubmitted) && d.ruling.isNone

/-- Write the row of the dispute. -/
def Store.setDispute (s : Store) (d : DisputeRow) : Store := { s with dispute := d }

/-- Write an idempotency row. -/
def Store.setKey (s : Store) (id : KeyId) (row : KeyRow) : Store :=
  { s with keys := Function.update s.keys id (some row) }

/-- `update` of the status of a key. -/
def Store.setKeyStatus (s : Store) (id : KeyId) (status : KeyStatus) : Store :=
  match s.keys id with
  | some row => s.setKey id { row with status := status }
  | none => s

section System

variable (P : Platform)

/-- What a call answers and does to the rows when it does not fail. -/
def Call.run : (q : Call) → CaseEnv → Store → Except CaseError (Answer q) × Store
  | .check _, env, s => (if env.allow then .ok () else .error .validation, s)
  | .clock, env, s => (.ok env.now, s)
  | .findDispute, _, s => (.ok s.dispute, s)
  | .findTrade, _, s => (.ok P.trade, s)
  | .findCommittedArbiterId, _, s => (.ok P.committedArbiterId, s)
  | .assignAppealPanel, env, s => (.ok env.arbiterId, s)
  | .findDisputeByArbiter arbiterId, _, s => (.ok (s.dispute.arbiterId == some arbiterId), s)
  | .findExpired now, _, s =>
    (.ok (s.dispute.status == .autoProposed &&
      s.dispute.autoResolutionDeadline.any fun deadline => decide (deadline < now)), s)
  | .appendEvidence existing entry, _, s =>
    (.ok (), s.setDispute { s.dispute with
      evidence := existing ++ [entry], status := .evidenceSubmitted })
  | .claimProposal deadline, _, s =>
    if s.dispute.proposable then
      (.ok true, s.setDispute { s.dispute with
        status := .autoProposed, autoResolutionDeadline := some deadline })
    else (.ok false, s)
  | .contest, _, s =>
    (.ok (), s.setDispute { s.dispute with
      status := .evidenceSubmitted, autoResolutionDeadline := none })
  | .expire, _, s =>
    (.ok (), s.setDispute { s.dispute with
      status := .evidenceSubmitted, autoResolutionDeadline := none })
  | .claimRuling arbiterId ruling signature, _, s =>
    if s.dispute.claimable arbiterId then
      (.ok (s.dispute.ruled ruling signature), s.setDispute (s.dispute.ruled ruling signature))
    else (.error .authorityChanged, s)
  | .commitRuling arbiterId ruling signature appealRound, env, s =>
    if s.dispute.claimable arbiterId = false then (.ok false, s)
    -- a beneficiary without a registered payout address
    else if env.allow = false then (.error .validation, s)
    else if s.records.any (·.1 == appealRound) then (.error .recordExists, s)
    else
      (.ok true, { s.setDispute (s.dispute.ruled ruling signature) with
        records := (appealRound, ruling) :: s.records })
  | .revertRuling status arbiterId ruling signature appealRound, _, s =>
    (.ok (), if s.dispute.isGeneration arbiterId ruling signature appealRound then
      s.setDispute (s.dispute.unruled status) else s)
  | .claimAppeal appealRound newArbiterId, _, s =>
    if s.dispute.status == .resolved && s.dispute.appealRound == appealRound then
      (.ok (), s.setDispute (s.dispute.appealed newArbiterId))
    else (.error .authorityChanged, s)
  | .findRecord appealRound, _, s =>
    (.ok ((s.records.find? (·.1 == appealRound)).map Prod.snd), s)
  | .deleteRulingRecord appealRound, _, s =>
    (.ok (), { s with records := s.records.filter (·.1 != appealRound) })
  | .findPending, _, s => (.ok s.pending, s)
  | .createPending kind, env, s =>
    -- the funding evidence is looked at again under its lock
    if env.allow = false then (.error .validation, s)
    else if s.pending.isSome then (.error .alreadyPending, s)
    else (.ok (), { s with pending := some kind })
  | .deletePending, _, s => (.ok (), { s with pending := none })
  | .claimKey id requestHash, _, s =>
    if (s.keys id).isSome then (.ok false, s)
    else (.ok true, s.setKey id ⟨requestHash, .inProgress⟩)
  | .findKey id, _, s => (.ok (s.keys id), s)
  | .reclaimFailed id, _, s =>
    if (s.keys id).any (·.status == .failed) then (.ok true, s.setKeyStatus id .inProgress)
    else (.ok false, s)
  | .markCompleted id, _, s => (.ok (), s.setKeyStatus id .completed)
  | .markUnknown id, _, s => (.ok (), s.setKeyStatus id .unknown)
  | .markFailed id, _, s => (.ok (), s.setKeyStatus id .failed)
  | .emit, _, s => (.ok (), s)

/-- The answer to a call, and the store after it. The clock does not fail. -/
def Call.exec : (q : Call) → CaseEnv → Store → Except CaseError (Answer q) × Store
  | .clock, env, s => Call.clock.run P env s
  | q, env, s => env.fate.settle .fault (q.run P env s) s

/-! ## Evidence -/

/-- A program over these calls. -/
abbrev CaseOp := Prog Answer CaseError

/-- One call, as a program. -/
def await (q : Call) : CaseOp (Answer q) := Prog.perform q

/-- A text column that is neither absent nor empty. -/
def given (text : Option JsString) : Bool := text.any fun s => !s.isEmpty

/-- `resolveEvidenceDescriptor`. -/
def resolveEvidenceDescriptor (d : EvidenceDescriptor) : CaseOp EvidenceDescriptor :=
  if given d.evidenceReferenceId then do
    Prog.require (!given d.uri) .validation
    Prog.require (d.externalReference != some true) .validation
    await (.check .evidenceReference)
    pure { d with uri := none, externalReference := none }
  else do
    Prog.require (!(given d.uri && d.externalReference != some true)) .validation
    Prog.require (!(d.externalReference == some true && !given d.uri)) .validation
    pure { d with evidenceReferenceId := none }

/-- `persistEvidence`. -/
def persistEvidence (submittedBy : ℕ) (descriptor : EvidenceDescriptor) : CaseOp Unit := do
  let dispute : DisputeRow ← await .findDispute
  let _ ← await .findTrade
  Prog.require (P.isParty submittedBy) .forbidden
  Prog.require (dispute.status == .opened || dispute.status == .evidenceSubmitted) .validation
  let resolved ← resolveEvidenceDescriptor descriptor
  let now : ℕ ← await .clock
  await (.appendEvidence dispute.evidence ⟨resolved, submittedBy, now⟩)

/-- `runAndSettle`. -/
def runAndSettle (persist postPersist : CaseOp Unit) (id : KeyId) : CaseOp Unit := do
  persist.tryCatch fun e => do
    await (.markFailed id)
    throw e
  (await (.markCompleted id) : CaseOp Unit).tryCatch fun _ =>
    Prog.swallow (await (.markUnknown id))
  postPersist

/-- `withIdempotency`. -/
def withIdempotency (participantId : ℕ) (key : Option JsString) (requestHash : ℕ)
    (persist postPersist recover : CaseOp Unit) : CaseOp Unit :=
  match key.filter fun s => !s.isEmpty with
  | none => do
    persist
    postPersist
  | some key => do
    let claimed : Bool ← await (.claimKey (participantId, key) requestHash)
    if claimed then runAndSettle persist postPersist (participantId, key)
    else do
      let found : Option KeyRow ← await (.findKey (participantId, key))
      let existing ← Prog.orThrow found .uniqueConstraint
      Prog.require (existing.requestHash == requestHash) .keyReused
      match existing.status with
      | .inProgress => throw .keyConflict
      | .completed | .unknown => recover
      | .failed => do
        let reclaimed : Bool ← await (.reclaimFailed (participantId, key))
        if reclaimed then runAndSettle persist postPersist (participantId, key)
        else do
          let afterReclaim : Option KeyRow ← await (.findKey (participantId, key))
          if afterReclaim.any fun row => row.status == .completed || row.status == .unknown then
            recover
          else throw .keyConflict

/-- `submitEvidence`. -/
def submitEvidence (submittedBy : ℕ) (descriptor : EvidenceDescriptor) (key : Option JsString) :
    CaseOp Unit :=
  withIdempotency submittedBy key (P.hashIdempotentPayload descriptor)
    (persistEvidence P submittedBy descriptor) (await .emit) do
      let _ ← await .findDispute
      pure ()

/-! ## Automated proposals -/

/-- `proposeAutoResolution`. -/
def proposeAutoResolution : CaseOp Unit := do
  let _ ← await .findDispute
  let now : ℕ ← await .clock
  let claimed : Bool ← await (.claimProposal (now + P.autoResolutionWindow))
  Prog.when claimed do
    await .emit
    let _ ← await .findDispute
    pure ()

/-- `contestAutoResolution`. -/
def contestAutoResolution (contestedBy : ℕ) : CaseOp Unit := do
  let dispute : DisputeRow ← await .findDispute
  let _ ← await .findTrade
  Prog.require (P.isParty contestedBy) .forbidden
  Prog.require (dispute.status == .autoProposed) .validation
  let now : ℕ ← await .clock
  Prog.require (!(dispute.autoResolutionDeadline.any fun deadline => decide (deadline < now)))
    .validation
  await .contest
  await .emit

/-- `sweepExpiredAutoResolutions`. The query finds this dispute or nothing. -/
def sweepExpiredAutoResolutions : CaseOp Unit := do
  let now : ℕ ← await .clock
  let expired : Bool ← await (.findExpired now)
  Prog.when expired (Prog.swallow do
    await .expire
    await .emit)

/-! ## Rulings and appeals -/

/-- `initiateRelease`, `initiateRefund` and `initiateSplit` for a ruling. -/
def initiate (ruling : SettlementKind) (arbiterId : ℕ) : CaseOp Unit := do
  await (.check .initiation)
  let assigned : Bool ← await (.findDisputeByArbiter arbiterId)
  Prog.require assigned .forbidden
  await (.check .capability)
  let existing : Option SettlementKind ← await .findPending
  Prog.require existing.isNone .alreadyPending
  await (.check .buildUnsigned)
  await (.createPending ruling)

/-- The part of `applyRuling` a failure of which takes the ruling back. -/
def settle (ruling : SettlementKind) (arbiterId : ℕ) : CaseOp Unit := do
  await (.check .escrow)
  if P.type.signatureCollection then initiate ruling arbiterId
  else await (.check .settlement)

/-- `applyRuling`. -/
def applyRuling (dispute : DisputeRow) (arbiterId : ℕ) (ruling : SettlementKind)
    (signature : ℕ) : CaseOp Unit := do
  let updated : DisputeRow ← await (.claimRuling arbiterId ruling signature)
  (settle P ruling arbiterId).tryCatch fun e => do
    await (.revertRuling dispute.status arbiterId ruling signature updated.appealRound)
    throw e
  await .emit

/-- The part of `applyRulingCoreAuthoritative` a failure of which takes the ruling back. -/
def dispatch (dispute : DisputeRow) (arbiterId : ℕ) (ruling : SettlementKind) : CaseOp Unit := do
  let record : Option SettlementKind ← await (.findRecord dispute.appealRound)
  Prog.require record.isSome .ineligible
  let dispatched : Option SettlementKind ← await .findPending
  Prog.require dispatched.isNone .ineligible
  await (.check .eligibility)
  initiate ruling arbiterId
  (await (.check .translation) : CaseOp Unit).tryCatch fun e => do
    await .deletePending
    throw e

/-- `applyRulingCoreAuthoritative`, the MULTISIG path. -/
def applyRulingCoreAuthoritative (dispute : DisputeRow) (arbiterId : ℕ)
    (ruling : SettlementKind) (signature : ℕ) : CaseOp Unit := do
  let committed : Bool ← await (.commitRuling arbiterId ruling signature dispute.appealRound)
  Prog.require committed .validation
  (dispatch dispute arbiterId ruling).tryCatch fun e => do
    await (.revertRuling dispute.status arbiterId ruling signature dispute.appealRound)
    await (.deleteRulingRecord dispute.appealRound)
    throw e
  await .emit
  let _ ← await .findDispute
  pure ()

/-- `resolveDispute`. -/
def resolveDispute (arbiterId : ℕ) (ruling : SettlementKind) (splitBuyerBps : Option ℕ)
    (signature : ℕ) : CaseOp Unit := do
  let dispute : DisputeRow ← await .findDispute
  Prog.require (dispute.status != .resolved) .validation
  Prog.require (dispute.arbiterId == some arbiterId) .forbidden
  Prog.require (!(ruling == .split && splitBuyerBps.isNone)) .validation
  await (.check .authoritySignature)
  await (.check .escrow)
  if P.type = .multisig then do
    await (.check .trade)
    applyRulingCoreAuthoritative dispute arbiterId ruling signature
  else applyRuling P dispute arbiterId ruling signature
  await (.check .bookkeeping)

/-- `appeal`. -/
def appeal (requestedBy : ℕ) : CaseOp Unit := do
  let dispute : DisputeRow ← await .findDispute
  Prog.require (dispute.status == .resolved) .validation
  let _ ← await .findTrade
  Prog.require (P.isParty requestedBy) .forbidden
  let committedArbiterId : Option ℕ ← await .findCommittedArbiterId
  Prog.require committedArbiterId.isNone .validation
  await (.check .appealPanel)
  let newArbiterId : ℕ ← await .assignAppealPanel
  await (.claimAppeal dispute.appealRound newArbiterId)
  await .emit

/-! ## The system -/

/-- What can be asked of a case. -/
inductive Request
  | submitEvidence (submittedBy : ℕ) (descriptor : EvidenceDescriptor) (key : Option JsString)
  | proposeAutoResolution
  | contestAutoResolution (contestedBy : ℕ)
  | sweepExpiredAutoResolutions
  | resolveDispute (arbiterId : ℕ) (ruling : SettlementKind) (splitBuyerBps : Option ℕ)
      (signature : ℕ)
  | appeal (requestedBy : ℕ)
  deriving DecidableEq

/-- The program that serves a request. -/
def Request.prog : Request → CaseOp Unit
  | .submitEvidence submittedBy descriptor key =>
    Case.submitEvidence P submittedBy descriptor key
  | .proposeAutoResolution => Case.proposeAutoResolution P
  | .contestAutoResolution contestedBy => Case.contestAutoResolution P contestedBy
  | .sweepExpiredAutoResolutions => Case.sweepExpiredAutoResolutions
  | .resolveDispute arbiterId ruling splitBuyerBps signature =>
    Case.resolveDispute P arbiterId ruling splitBuyerBps signature
  | .appeal requestedBy => Case.appeal P requestedBy

/-- Any number of calls on the dispute, watched through `observe`. -/
def caseSystem {Obs : Type} (observe : ∀ q : Call, Store → Except CaseError (Answer q) → List Obs) :
    System Answer CaseError Unit Store CaseEnv Request Obs where
  exec := Call.exec P
  observe := observe
  prog := Request.prog P

/-- A case and the requests about it. -/
abbrev CaseConfig (Obs : Type) := Config Answer CaseError Unit Store Request Obs

end System

/-! ## Which calls an operation makes -/

/-- What a call is about. -/
inductive Topic
  | reading
  | evidence
  | proposal
  | ruling
  | appeal
  deriving DecidableEq, Repr

/-- The part of the case that a call is about. -/
def Call.topic : Call → Topic
  | .appendEvidence _ _ | .claimKey _ _ | .findKey _ | .reclaimFailed _ | .markCompleted _
  | .markUnknown _ | .markFailed _ => .evidence
  | .claimProposal _ | .contest | .expire => .proposal
  | .claimRuling _ _ _ | .commitRuling _ _ _ _ | .revertRuling _ _ _ _ _ | .findRecord _
  | .deleteRulingRecord _ | .findPending | .createPending _ | .deletePending
  | .findDisputeByArbiter _ => .ruling
  | .claimAppeal _ _ => .appeal
  | _ => .reading

/-- The part of the case that a request is about. -/
def Request.topic : Request → Topic
  | .submitEvidence _ _ _ => .evidence
  | .proposeAutoResolution | .contestAutoResolution _ | .sweepExpiredAutoResolutions => .proposal
  | .resolveDispute _ _ _ _ => .ruling
  | .appeal _ => .appeal

/-- An operation reads, and makes the calls of its own topic. -/
theorem prog_makes (P : Platform) (req : Request) :
    (req.prog P).Makes fun q => q.topic = .reading ∨ q.topic = req.topic := by
  cases req
  all_goals
    simp only [Request.prog, submitEvidence, withIdempotency, runAndSettle, persistEvidence,
      resolveEvidenceDescriptor, proposeAutoResolution, contestAutoResolution,
      sweepExpiredAutoResolutions, resolveDispute, applyRuling, applyRulingCoreAuthoritative,
      settle, dispatch, initiate, appeal, await]
    repeat' first
      | exact Prog.makes_perform (Or.inl rfl)
      | exact Prog.makes_perform (Or.inr rfl)
      | exact Prog.makes_pure _
      | exact Prog.makes_throw _
      | exact Prog.makes_require _ _
      | exact Prog.makes_orThrow _ _
      | refine Prog.Makes.bind (fun _ => ?_) ?_
      | refine Prog.Makes.when ?_ _
      | refine Prog.Makes.swallow ?_
      | refine Prog.Makes.tryCatch (fun _ => ?_) ?_
      | split

/-- The calls between a ruling and its revert. -/
def Call.settling : Call → Bool
  | .check _ | .findRecord _ | .findPending | .createPending _ | .deletePending
  | .findDisputeByArbiter _ => true
  | _ => false

/-- `settle` makes calls of the settlement only. -/
theorem settle_makes (P : Platform) (ruling : SettlementKind) (arbiterId : ℕ) :
    (settle P ruling arbiterId).Makes fun q => q.settling = true := by
  simp only [settle, initiate, await]
  repeat' first
    | exact Prog.makes_perform rfl
    | exact Prog.makes_require _ _
    | refine Prog.Makes.bind (fun _ => ?_) ?_
    | split

/-- `dispatch` makes calls of the settlement only. -/
theorem dispatch_makes (dispute : DisputeRow) (arbiterId : ℕ) (ruling : SettlementKind) :
    (dispatch dispute arbiterId ruling).Makes fun q => q.settling = true := by
  simp only [dispatch, initiate, await]
  repeat' first
    | exact Prog.makes_perform rfl
    | exact Prog.makes_require _ _
    | exact Prog.makes_throw _
    | refine Prog.Makes.bind (fun _ => ?_) ?_
    | refine Prog.Makes.tryCatch (fun _ => ?_) ?_

/-! ## What a call does -/

/-- What a call does to the dispute row it rewrites. -/
inductive RowStep : Call → DisputeRow → DisputeRow → Prop
  | evidence {d : DisputeRow} (existing : List EvidenceEntry) (entry : EvidenceEntry) :
    RowStep (.appendEvidence existing entry) d
      { d with evidence := existing ++ [entry], status := .evidenceSubmitted }
  | proposed {d : DisputeRow} (deadline : ℕ) (h : d.proposable = true) :
    RowStep (.claimProposal deadline) d
      { d with status := .autoProposed, autoResolutionDeadline := some deadline }
  | contested {d : DisputeRow} :
    RowStep .contest d { d with status := .evidenceSubmitted, autoResolutionDeadline := none }
  | expired {d : DisputeRow} :
    RowStep .expire d { d with status := .evidenceSubmitted, autoResolutionDeadline := none }
  | claimed {d : DisputeRow} {arbiterId : ℕ} (ruling : SettlementKind) (signature : ℕ)
      (h : d.claimable arbiterId = true) :
    RowStep (.claimRuling arbiterId ruling signature) d (d.ruled ruling signature)
  | committed {d : DisputeRow} {arbiterId : ℕ} (ruling : SettlementKind)
      (signature appealRound : ℕ) (h : d.claimable arbiterId = true) :
    RowStep (.commitRuling arbiterId ruling signature appealRound) d (d.ruled ruling signature)
  | reverted {d : DisputeRow} (status : DisputeStatus) {arbiterId : ℕ} {ruling : SettlementKind}
      {signature appealRound : ℕ}
      (h : d.isGeneration arbiterId ruling signature appealRound = true) :
    RowStep (.revertRuling status arbiterId ruling signature appealRound) d (d.unruled status)
  | appealed {d : DisputeRow} {appealRound : ℕ} (newArbiterId : ℕ) (hstatus : d.status = .resolved)
      (hround : d.appealRound = appealRound) :
    RowStep (.claimAppeal appealRound newArbiterId) d (d.appealed newArbiterId)

section Calls

variable {P : Platform} {s : Store} {env : CaseEnv}

/-- A call is answered, or fails without an effect, or fails after its effect. -/
theorem exec_cases (q : Call) : q.exec P env s = q.run P env s ∨
    (q.exec P env s).1 = .error .fault ∧
      ((q.exec P env s).2 = s ∨ (q.exec P env s).2 = (q.run P env s).2) := by
  have hsettle : ∀ r : Except CaseError (Answer q) × Store,
      env.fate.settle CaseError.fault r s = r ∨
        (env.fate.settle CaseError.fault r s).1 = .error .fault ∧
          ((env.fate.settle CaseError.fault r s).2 = s ∨
            (env.fate.settle CaseError.fault r s).2 = r.2) := fun r =>
    (env.fate.settle_answer CaseError.fault r s).imp id fun h =>
      ⟨h, env.fate.settle_store CaseError.fault r s⟩
  cases q with
  | clock => exact Or.inl rfl
  | _ => exact hsettle _

theorem exec_store (q : Call) : (q.exec P env s).2 = s ∨ (q.exec P env s).2 = (q.run P env s).2 := by
  rcases @exec_cases P s env q with h | ⟨-, h⟩
  · exact Or.inr (by rw [h])
  · exact h

/-- An answer without a fault is the answer of the run. -/
theorem run_of_exec_ok {q : Call} {a : Answer q} (h : (q.exec P env s).1 = .ok a) :
    (q.run P env s).1 = .ok a ∧ (q.exec P env s).2 = (q.run P env s).2 := by
  rcases @exec_cases P s env q with heq | ⟨heq, -⟩
  · rw [heq] at h ⊢
    exact ⟨h, rfl⟩
  · rw [heq] at h
    cases h

/-- A ruling that was claimed. -/
theorem claimRuling_ok {arbiterId signature : ℕ} {ruling : SettlementKind} {d : DisputeRow}
    (h : ((Call.claimRuling arbiterId ruling signature).exec P env s).1 = .ok d) :
    s.dispute.claimable arbiterId = true ∧ d = s.dispute.ruled ruling signature ∧
      ((Call.claimRuling arbiterId ruling signature).exec P env s).2 =
        s.setDispute (s.dispute.ruled ruling signature) := by
  obtain ⟨hrun, hstore⟩ := run_of_exec_ok h
  rw [hstore]
  simp only [Call.run] at hrun ⊢
  by_cases hclaim : s.dispute.claimable arbiterId = true
  · rw [if_pos hclaim] at hrun ⊢
    exact ⟨hclaim, (Except.ok.inj hrun).symm, rfl⟩
  · rw [if_neg hclaim] at hrun
    cases hrun

/-- A ruling that was committed with its record. -/
theorem commitRuling_ok {arbiterId signature appealRound : ℕ} {ruling : SettlementKind}
    (h : ((Call.commitRuling arbiterId ruling signature appealRound).exec P env s).1 = .ok true) :
    s.dispute.claimable arbiterId = true ∧ s.records.any (·.1 == appealRound) = false ∧
      ((Call.commitRuling arbiterId ruling signature appealRound).exec P env s).2 =
        { s.setDispute (s.dispute.ruled ruling signature) with
          records := (appealRound, ruling) :: s.records } := by
  obtain ⟨hrun, hstore⟩ := run_of_exec_ok h
  rw [hstore]
  simp only [Call.run] at hrun ⊢
  by_cases hclaim : s.dispute.claimable arbiterId = false
  · rw [if_pos hclaim] at hrun
    cases hrun
  · rw [if_neg hclaim] at hrun ⊢
    by_cases hallow : env.allow = false
    · rw [if_pos hallow] at hrun
      cases hrun
    · rw [if_neg hallow] at hrun ⊢
      by_cases hrecord : s.records.any (·.1 == appealRound) = true
      · rw [if_pos hrecord] at hrun
        cases hrun
      · rw [if_neg hrecord]
        exact ⟨Bool.eq_true_of_not_eq_false hclaim, Bool.eq_false_iff.mpr hrecord, rfl⟩

/-- A call leaves the row of the dispute, or takes one of the listed steps. -/
theorem rowStep_run (q : Call) : (q.run P env s).2.dispute = s.dispute ∨
    RowStep q s.dispute (q.run P env s).2.dispute := by
  cases q with
  | appendEvidence existing entry => exact Or.inr (.evidence existing entry)
  | contest => exact Or.inr .contested
  | expire => exact Or.inr .expired
  | claimProposal deadline =>
    simp only [Call.run]
    split
    · next h => exact Or.inr (.proposed deadline h)
    · exact Or.inl rfl
  | claimRuling arbiterId ruling signature =>
    simp only [Call.run]
    split
    · next h => exact Or.inr (.claimed ruling signature h)
    · exact Or.inl rfl
  | commitRuling arbiterId ruling signature appealRound =>
    simp only [Call.run]
    split
    · exact Or.inl rfl
    · next h =>
      split
      · exact Or.inl rfl
      · split
        · exact Or.inl rfl
        · exact Or.inr (.committed ruling signature appealRound (by simpa using h))
  | revertRuling status arbiterId ruling signature appealRound =>
    simp only [Call.run]
    split
    · next h => exact Or.inr (.reverted status h)
    · exact Or.inl rfl
  | claimAppeal appealRound newArbiterId =>
    simp only [Call.run]
    split
    · next h =>
      simp only [Bool.and_eq_true, beq_iff_eq] at h
      exact Or.inr (.appealed newArbiterId h.1 h.2)
    · exact Or.inl rfl
  | createPending kind =>
    simp only [Call.run]
    split
    · exact Or.inl rfl
    · split <;> exact Or.inl rfl
  | claimKey id requestHash =>
    simp only [Call.run]
    split <;> exact Or.inl rfl
  | reclaimFailed id =>
    simp only [Call.run, Store.setKeyStatus]
    split
    · split <;> exact Or.inl rfl
    · exact Or.inl rfl
  | markCompleted id =>
    simp only [Call.run, Store.setKeyStatus]
    split <;> exact Or.inl rfl
  | markUnknown id =>
    simp only [Call.run, Store.setKeyStatus]
    split <;> exact Or.inl rfl
  | markFailed id =>
    simp only [Call.run, Store.setKeyStatus]
    split <;> exact Or.inl rfl
  | _ => exact Or.inl rfl

/-- What one call does to the dispute row. -/
theorem rowStep_exec (q : Call) : (q.exec P env s).2.dispute = s.dispute ∨
    RowStep q s.dispute (q.exec P env s).2.dispute := by
  rcases @exec_store P s env q with h | h
  · exact Or.inl (by rw [h])
  · rw [h]
    exact rowStep_run q

end Calls

end Sails.Case
