import SailsProtocol.Arbitration.Authority
import SailsProtocol.Escrow.World

/-!
# Disputes, rulings and appeals

The calls of `dispute.service.ts` and of the gate in `economic-disposition-authority.ts`
over the rows of all disputes. A transaction under the dispute's advisory lock runs as
one call : the claim of a ruling (`claimRuling`, and `commitRuling` for MULTISIG), the
revert of a failed one, the claim of an appeal, and the authorization of a pending
operation. Everything else is a read, a check the environment decides, or a write of
its own.

A ruling is verified against the row as `resolveDispute` read it. The claim under the
lock looks at the row again, for its status and its arbiter.
-/

namespace Sails.Arbitration

open Async Text

/-! ## Rows -/

/-- The columns of a `Dispute` row. -/
structure DisputeRow where
  id : JsString
  tradeId : JsString
  escrowId : JsString
  status : DisputeStatus
  arbiterId : Option JsString
  ruling : Option SettlementKind
  appealRound : ℕ
  previousRuling : Option SettlementKind
  previousArbiterId : Option JsString
  authoritySignature : Option JsString
  authorityIssuedAt : Option Date
  authorityBuyerBps : Option ℤ
  deriving DecidableEq

/-- A row of `EconomicDispositionAuthorization`. -/
structure EconomicDispositionAuthorization where
  pendingOperationId : JsString
  escrowId : JsString
  disputeId : JsString
  appealRound : ℕ
  arbiterId : JsString
  ruling : SettlementKind
  operationDigest : List UInt8
  deriving DecidableEq

/-- The disputes, the authorizations, and the ruling records by escrow and appeal round. -/
structure Store where
  disputes : List DisputeRow
  authorizations : List EconomicDispositionAuthorization
  rulingRecords : List (JsString × ℕ)
  deriving DecidableEq

/-- Before the first dispute. -/
def Store.empty : Store := ⟨[], [], []⟩

/-- The dispute of an id. -/
def Store.dispute (s : Store) (id : JsString) : Option DisputeRow := s.disputes.find? (·.id == id)

/-- `updateMany` : rewrite every row that meets the condition. -/
def Store.updateWhere (s : Store) (cond : DisputeRow → Bool) (f : DisputeRow → DisputeRow) :
    Store :=
  { s with disputes := s.disputes.map fun d => if cond d then f d else d }

/-- The services outside : the hash, the signature check, the reading of a date, the
registered keys, and which escrows are MULTISIG. -/
structure Platform where
  sha256 : List UInt8 → List UInt8
  verify : List UInt8 → JsString → JsString → Bool
  /-- `new Date(text)`, and none for an invalid date. -/
  parseDate : JsString → Option Date
  publicKey : JsString → Option JsString
  multisig : JsString → Bool

/-! ## Calls -/

/-- A check on state outside the model. -/
inductive Gate where
  | openDispute | tradeParty | noCommittedArbiter | appealPanel | settlement | bookkeeping
  deriving DecidableEq, Repr

/-- What the operations await. -/
inductive Call where
  | check (g : Gate)
  | findDispute (id : JsString)
  | disputeOfEscrow (escrowId : JsString)
  | createDispute (tradeId escrowId : JsString)
  | assignArbiter
  | updateArbiter (id arbiterId : JsString)
  | updateEvidence (id : JsString)
  | findPublicKey (userId : JsString)
  | isMultisig (escrowId : JsString)
  | claimRuling (dispute : DisputeRow) (payload : AuthorityDecisionPayload)
      (signature : JsString)
  | commitRuling (dispute : DisputeRow) (payload : AuthorityDecisionPayload)
      (signature : JsString)
  | revertRuling (dispute : DisputeRow) (payload : AuthorityDecisionPayload)
      (signature : JsString) (appealRound : ℕ)
  | deleteRulingRecord (escrowId : JsString) (appealRound : ℕ)
  | claimAppeal (dispute : DisputeRow) (newArbiterId : JsString)
  | authorize (pending : DisputedPendingFacts) (disputeId : JsString)
  | emit
  deriving DecidableEq

/-- What each call returns. -/
abbrev Answer : Call → Type
  | .findDispute _ => DisputeRow
  | .disputeOfEscrow _ => Bool
  | .createDispute _ _ => DisputeRow
  | .assignArbiter => JsString
  | .findPublicKey _ => JsString
  | .isMultisig _ => Bool
  | .claimRuling _ _ _ => DisputeRow
  | .commitRuling _ _ _ => Bool
  | .authorize _ _ => EconomicDispositionAuthorization
  | _ => Unit

/-- What the operations throw. -/
inductive DisputeError where
  | fault
  | notFound
  | validation
  | forbidden
  | disputeExists
  | recordExists
  | authorityChanged
  | ambiguousOrigin
  | authorizationMismatch
  | superseded
  deriving DecidableEq, Repr

/-- What the environment decides about a call : its fate, whether a check passes, the id
of a new row, and the arbiter that is drawn. -/
structure QueryEnv where
  fate : Fate := .answered
  allow : Bool := true
  newId : JsString := []
  arbiterId : JsString := []
  deriving DecidableEq, Repr

/-- The row a ruling by this arbiter can claim. -/
def DisputeRow.claimable (d : DisputeRow) (id authorityId : JsString) : Bool :=
  d.id == id && d.status != .resolved && d.arbiterId == some authorityId

/-- The row after a ruling. -/
def DisputeRow.ruled (payload : AuthorityDecisionPayload) (signature : JsString) (issuedAt : Date)
    (d : DisputeRow) : DisputeRow :=
  { d with
    status := .resolved, ruling := some payload.outcome, authoritySignature := some signature,
    authorityIssuedAt := some issuedAt, authorityBuyerBps := payload.buyerBps }

/-- The row still is the generation a ruling committed. -/
def DisputeRow.isGeneration (d : DisputeRow) (id : JsString) (payload : AuthorityDecisionPayload)
    (signature : JsString) (appealRound : ℕ) : Bool :=
  d.id == id && d.status == .resolved && d.ruling == some payload.outcome &&
    d.arbiterId == some payload.authorityId && d.appealRound == appealRound &&
    d.authoritySignature == some signature

/-- The row after its ruling was taken back. -/
def DisputeRow.unruled (status : DisputeStatus) (d : DisputeRow) : DisputeRow :=
  { d with
    status := status, ruling := none, authoritySignature := none, authorityIssuedAt := none,
    authorityBuyerBps := none }

/-- The row after an appeal of the generation `dispute`. -/
def DisputeRow.appealedFrom (dispute : DisputeRow) (newArbiterId : JsString) (d : DisputeRow) :
    DisputeRow :=
  { d with
    status := .appealed, appealRound := dispute.appealRound + 1, previousRuling := dispute.ruling,
    previousArbiterId := dispute.arbiterId, arbiterId := some newArbiterId, ruling := none }

/-- `stillCurrent` of `authorizeDisputedPendingExecution`. -/
def DisputeRow.stillCurrent (d : DisputeRow) (p : DisputedPendingFacts) : Bool :=
  d.status == .resolved && some d.appealRound == p.rulingAppealRound &&
    d.arbiterId == p.rulingArbiterId && d.ruling == p.rulingOutcome &&
    d.authoritySignature == p.rulingAuthoritySignature

section System

variable (P : Platform)

/-- The row `create` writes. Its columns are not nullable. -/
def authorizationFor (p : DisputedPendingFacts) (d : DisputeRow) :
    Option EconomicDispositionAuthorization := do
  let arbiterId ← d.arbiterId
  let ruling ← d.ruling
  some ⟨p.id, p.escrowId, d.id, d.appealRound, arbiterId, ruling,
    economicDispositionOperationDigest P.sha256 p⟩

/-- The transaction of `authorizeDisputedPendingExecution`. -/
def authorizeRun (p : DisputedPendingFacts) (disputeId : JsString) (s : Store) :
    Except DisputeError EconomicDispositionAuthorization × Store :=
  match s.authorizations.find? (·.pendingOperationId == p.id) with
  | some existing =>
    if existing.escrowId = p.escrowId ∧ existing.disputeId = disputeId ∧
        existing.operationDigest = economicDispositionOperationDigest P.sha256 p then
      (.ok existing, s)
    else (.error .authorizationMismatch, s)
  | none =>
    match s.dispute disputeId with
    | none => (.error .notFound, s)
    | some d =>
      if d.stillCurrent p then
        match authorizationFor P p d with
        | some row => (.ok row, { s with authorizations := row :: s.authorizations })
        | none => (.error .fault, s)
      else (.error .superseded, s)

/-- The claim of a ruling : it writes the verified decision to the row, if the row is
still open and has the same arbiter. -/
def Store.claimRuling (s : Store) (dispute : DisputeRow) (payload : AuthorityDecisionPayload)
    (signature : JsString) (issuedAt : Date) : Store :=
  s.updateWhere (·.claimable dispute.id payload.authorityId) (·.ruled payload signature issuedAt)

/-- What a call answers and does to the rows when it does not fail. -/
def Call.run : (q : Call) → QueryEnv → Store → Except DisputeError (Answer q) × Store
  | .check _, env, s => (if env.allow then .ok () else .error .validation, s)
  | .findDispute id, _, s =>
    (match s.dispute id with
      | some d => .ok d
      | none => .error .notFound, s)
  | .disputeOfEscrow escrowId, _, s => (.ok (s.disputes.any (·.escrowId == escrowId)), s)
  | .createDispute tradeId escrowId, env, s =>
    if s.disputes.any fun d => d.tradeId == tradeId || d.id == env.newId then
      (.error .disputeExists, s)
    else
      let d : DisputeRow := ⟨env.newId, tradeId, escrowId, .opened, none, none, 0, none, none,
        none, none, none⟩
      (.ok d, { s with disputes := d :: s.disputes })
  | .assignArbiter, env, s => (.ok env.arbiterId, s)
  | .updateArbiter id arbiterId, _, s =>
    (.ok (), s.updateWhere (·.id == id) fun d => { d with arbiterId := some arbiterId })
  | .updateEvidence id, _, s =>
    (.ok (), s.updateWhere (·.id == id) fun d => { d with status := .evidenceSubmitted })
  | .findPublicKey userId, _, s =>
    (match P.publicKey userId with
      | some key => .ok key
      | none => .error .notFound, s)
  | .isMultisig escrowId, _, s => (.ok (P.multisig escrowId), s)
  | .claimRuling dispute payload signature, _, s =>
    match P.parseDate payload.issuedAt with
    | none => (.error .validation, s)
    | some issuedAt =>
      match s.disputes.find? (·.claimable dispute.id payload.authorityId) with
      | none => (.error .authorityChanged, s)
      | some d =>
        (.ok (d.ruled payload signature issuedAt), s.claimRuling dispute payload signature issuedAt)
  | .commitRuling dispute payload signature, env, s =>
    match P.parseDate payload.issuedAt with
    | none => (.error .validation, s)
    | some issuedAt =>
      if !s.disputes.any (·.claimable dispute.id payload.authorityId) then (.ok false, s)
      -- a beneficiary without a registered payout address
      else if !env.allow then (.error .validation, s)
      else if (dispute.escrowId, dispute.appealRound) ∈ s.rulingRecords then
        (.error .recordExists, s)
      else
        (.ok true, { s.claimRuling dispute payload signature issuedAt with
          rulingRecords := (dispute.escrowId, dispute.appealRound) :: s.rulingRecords })
  | .revertRuling dispute payload signature appealRound, _, s =>
    (.ok (), s.updateWhere (·.isGeneration dispute.id payload signature appealRound)
      (·.unruled dispute.status))
  | .deleteRulingRecord escrowId appealRound, _, s =>
    (.ok (), { s with rulingRecords := s.rulingRecords.filter (· ≠ (escrowId, appealRound)) })
  | .claimAppeal dispute newArbiterId, _, s =>
    let cond : DisputeRow → Bool := fun d =>
      d.id == dispute.id && d.status == .resolved && d.appealRound == dispute.appealRound
    if s.disputes.any cond then
      (.ok (), s.updateWhere cond (dispute.appealedFrom newArbiterId))
    else (.error .authorityChanged, s)
  | .authorize p disputeId, _, s => authorizeRun P p disputeId s
  | .emit, _, s => (.ok (), s)

/-- A call under the fate the environment gives it. -/
def Call.exec (q : Call) (env : QueryEnv) (s : Store) :
    Except DisputeError (Answer q) × Store :=
  env.fate.settle .fault (q.run P env s) s

/-- What a call is seen to do : it read a dispute, created one, or went to assign the
arbiter of one. -/
inductive Seen where
  | read (d : DisputeRow)
  | created (id : JsString)
  | assigning (id : JsString)
  deriving DecidableEq

/-- What a call tells about the disputes. -/
def Call.observe : (q : Call) → Store → Except DisputeError (Answer q) → List Seen
  | .findDispute _, _, .ok d => [.read d]
  | .createDispute _ _, _, .ok d => [.created d.id]
  | .updateArbiter id _, _, _ => [.assigning id]
  | _, _, _ => []

/-! ## Operations -/

/-- A program over these calls. -/
abbrev DisputeOp := Prog Answer DisputeError

/-- What an operation returns : an authorization, if the operation gives one. -/
abbrev Outcome := Option EconomicDispositionAuthorization

/-- `raiseDispute`. -/
def raiseDispute (tradeId escrowId : JsString) : DisputeOp Outcome := do
  Prog.perform (Call.check .tradeParty)
  Prog.perform (Call.check .openDispute)
  let dispute : DisputeRow ← Prog.perform (Call.createDispute tradeId escrowId)
  let arbiterId : JsString ← Prog.perform Call.assignArbiter
  Prog.perform (Call.updateArbiter dispute.id arbiterId)
  Prog.perform Call.emit
  pure none

/-- `submitEvidence`. -/
def submitEvidence (disputeId : JsString) : DisputeOp Outcome := do
  let dispute : DisputeRow ← Prog.perform (Call.findDispute disputeId)
  Prog.perform (Call.check .tradeParty)
  Prog.require (dispute.status == .opened || dispute.status == .evidenceSubmitted) .validation
  Prog.perform (Call.updateEvidence disputeId)
  Prog.perform Call.emit
  pure none

/-- `applyRuling`. A settlement that fails takes the ruling back, as long as the row still
is the one this call wrote. -/
def applyRuling (dispute : DisputeRow) (payload : AuthorityDecisionPayload)
    (signature : JsString) : DisputeOp Unit := do
  let updated : DisputeRow ← Prog.perform (Call.claimRuling dispute payload signature)
  (Prog.perform (Call.check .settlement) : DisputeOp Unit).tryCatch fun e => do
    Prog.perform (Call.revertRuling dispute payload signature updated.appealRound)
    throw e
  Prog.perform Call.emit

/-- `applyRulingCoreAuthoritative`, the MULTISIG path. -/
def applyRulingCoreAuthoritative (dispute : DisputeRow) (payload : AuthorityDecisionPayload)
    (signature : JsString) : DisputeOp Unit := do
  let committed : Bool ← Prog.perform (Call.commitRuling dispute payload signature)
  Prog.require committed .validation
  (Prog.perform (Call.check .settlement) : DisputeOp Unit).tryCatch fun e => do
    Prog.perform (Call.revertRuling dispute payload signature dispute.appealRound)
    Prog.perform (Call.deleteRulingRecord dispute.escrowId dispute.appealRound)
    throw e
  Prog.perform Call.emit

/-- The decision `resolveDispute` verifies the signature of. -/
def rulingPayload (dispute : DisputeRow) (arbiterId : JsString) (ruling : SettlementKind)
    (splitBuyerBps : Option ℤ) (issuedAt : JsString) : AuthorityDecisionPayload where
  disputeId := dispute.id
  escrowId := dispute.escrowId
  appealRound := dispute.appealRound
  authorityId := arbiterId
  outcome := ruling
  buyerBps := if ruling = .split then splitBuyerBps else none
  issuedAt := issuedAt

/-- `resolveDispute`. -/
def resolveDispute (disputeId arbiterId : JsString) (ruling : SettlementKind)
    (splitBuyerBps : Option ℤ) (signature issuedAt : JsString) : DisputeOp Outcome := do
  let dispute : DisputeRow ← Prog.perform (Call.findDispute disputeId)
  Prog.require (dispute.status != .resolved) .validation
  Prog.require (dispute.arbiterId == some arbiterId) .forbidden
  Prog.require (!(ruling == .split && splitBuyerBps.isNone)) .validation
  let publicKey : JsString ← Prog.perform (Call.findPublicKey arbiterId)
  let payload := rulingPayload dispute arbiterId ruling splitBuyerBps issuedAt
  let valid ← Prog.orThrow
    (verifyAuthorityDecisionSignature P.sha256 P.verify payload signature publicKey) .validation
  Prog.require valid .forbidden
  let multisig : Bool ← Prog.perform (Call.isMultisig dispute.escrowId)
  if multisig then do
    Prog.perform (Call.check .tradeParty)
    applyRulingCoreAuthoritative dispute payload signature
  else applyRuling dispute payload signature
  Prog.perform (Call.check .bookkeeping)
  pure none

/-- `appeal`. -/
def appeal (disputeId : JsString) : DisputeOp Outcome := do
  let dispute : DisputeRow ← Prog.perform (Call.findDispute disputeId)
  Prog.require (dispute.status == .resolved) .validation
  Prog.perform (Call.check .tradeParty)
  Prog.perform (Call.check .noCommittedArbiter)
  Prog.perform (Call.check .appealPanel)
  let newArbiterId : JsString ← Prog.perform Call.assignArbiter
  Prog.perform (Call.claimAppeal dispute newArbiterId)
  Prog.perform Call.emit
  pure none

/-- `authorizeDisputedPendingExecution`. -/
def authorizeDisputedPendingExecution (pending : DisputedPendingFacts) : DisputeOp Outcome :=
  match pending.dispute with
  | none => do
    let everDisputed : Bool ← Prog.perform (Call.disputeOfEscrow pending.escrowId)
    Prog.require (!everDisputed) .ambiguousOrigin
    pure none
  | some disputeId => do
    let row : EconomicDispositionAuthorization ← Prog.perform (Call.authorize pending disputeId)
    pure (some row)

/-! ## The system -/

/-- What can be asked about the disputes. -/
inductive Request where
  | raiseDispute (tradeId escrowId : JsString)
  | submitEvidence (disputeId : JsString)
  | resolveDispute (disputeId arbiterId : JsString) (ruling : SettlementKind)
      (splitBuyerBps : Option ℤ) (signature issuedAt : JsString)
  | appeal (disputeId : JsString)
  | authorizeDisputedPendingExecution (pending : DisputedPendingFacts)
  deriving DecidableEq

/-- The program that serves a request. -/
def Request.prog : Request → DisputeOp Outcome
  | .raiseDispute tradeId escrowId => Arbitration.raiseDispute tradeId escrowId
  | .submitEvidence disputeId => Arbitration.submitEvidence disputeId
  | .resolveDispute disputeId arbiterId ruling splitBuyerBps signature issuedAt =>
    Arbitration.resolveDispute P disputeId arbiterId ruling splitBuyerBps signature issuedAt
  | .appeal disputeId => Arbitration.appeal disputeId
  | .authorizeDisputedPendingExecution pending =>
    Arbitration.authorizeDisputedPendingExecution pending

/-- Any number of calls on the disputes. -/
def disputeSystem : System Answer DisputeError Outcome Store QueryEnv Request Seen where
  exec := Call.exec P
  observe := Call.observe
  prog := Request.prog P

/-- The disputes and the requests about them. -/
abbrev DisputeConfig := Config Answer DisputeError Outcome Store Request Seen

end System

/-! ## How the rows change -/

/-- What a call does to a row it rewrites. -/
inductive RowStep (P : Platform) (s : Store) : Call → DisputeRow → DisputeRow → Prop
  | assigned {d : DisputeRow} (arbiterId : JsString) :
    RowStep P s (.updateArbiter d.id arbiterId) d { d with arbiterId := some arbiterId }
  | evidence {d : DisputeRow} :
    RowStep P s (.updateEvidence d.id) d { d with status := .evidenceSubmitted }
  | ruled {d dispute : DisputeRow} {payload : AuthorityDecisionPayload} {signature : JsString}
      {issuedAt : Date} (hdate : P.parseDate payload.issuedAt = some issuedAt)
      (hclaim : d.claimable dispute.id payload.authorityId = true) :
    RowStep P s (.claimRuling dispute payload signature) d (d.ruled payload signature issuedAt)
  | committed {d dispute : DisputeRow} {payload : AuthorityDecisionPayload} {signature : JsString}
      {issuedAt : Date} (hdate : P.parseDate payload.issuedAt = some issuedAt)
      (hclaim : d.claimable dispute.id payload.authorityId = true)
      (hrecord : (dispute.escrowId, dispute.appealRound) ∉ s.rulingRecords) :
    RowStep P s (.commitRuling dispute payload signature) d (d.ruled payload signature issuedAt)
  | reverted {d dispute : DisputeRow} {payload : AuthorityDecisionPayload} {signature : JsString}
      {appealRound : ℕ}
      (hgen : d.isGeneration dispute.id payload signature appealRound = true) :
    RowStep P s (.revertRuling dispute payload signature appealRound) d (d.unruled dispute.status)
  | appealed {d dispute : DisputeRow} {newArbiterId : JsString} (hid : d.id = dispute.id)
      (hstatus : d.status = .resolved) (hround : d.appealRound = dispute.appealRound) :
    RowStep P s (.claimAppeal dispute newArbiterId) d (dispute.appealedFrom newArbiterId d)

/-- The row `createDispute` writes. -/
def DisputeRow.opened (id tradeId escrowId : JsString) : DisputeRow :=
  ⟨id, tradeId, escrowId, .opened, none, none, 0, none, none, none, none, none⟩

section Rows

variable {P : Platform} {s s' : Store} {q : Call} {env : QueryEnv}

/-- The disputes after a call : as before, one more, or some of them rewritten. -/
inductive DisputesStep (P : Platform) (s : Store) (q : Call) : List DisputeRow → Prop
  | same : DisputesStep P s q s.disputes
  | opened {id tradeId escrowId : JsString} (hq : q = .createDispute tradeId escrowId)
      (hfresh : ∀ d ∈ s.disputes, d.id ≠ id) :
    DisputesStep P s q (DisputeRow.opened id tradeId escrowId :: s.disputes)
  | rewritten {f : DisputeRow → DisputeRow}
      (hf : ∀ d ∈ s.disputes, f d = d ∨ RowStep P s q d (f d)) :
    DisputesStep P s q (s.disputes.map f)

theorem DisputesStep.updateWhere {cond : DisputeRow → Bool} {f : DisputeRow → DisputeRow}
    (hf : ∀ d ∈ s.disputes, cond d = true → RowStep P s q d (f d)) :
    DisputesStep P s q (s.updateWhere cond f).disputes := by
  refine .rewritten fun d hd => ?_
  cases hc : cond d with
  | true => exact Or.inr (by simpa using hf d hd hc)
  | false => exact Or.inl (by simp)

/-- What one call does to the disputes. -/
theorem disputesStep_run (q : Call) (env : QueryEnv) (s : Store) :
    DisputesStep P s q (q.run P env s).2.disputes := by
  cases q with
  | createDispute tradeId escrowId =>
    simp only [Call.run]
    split
    · exact .same
    · next h =>
      refine .opened rfl fun d hd heq => h ?_
      exact List.any_eq_true.mpr ⟨d, hd, by simp [heq]⟩
  | updateArbiter id arbiterId =>
    exact .updateWhere fun d _ hd => by
      obtain rfl := beq_iff_eq.mp hd
      exact .assigned arbiterId
  | updateEvidence id =>
    exact .updateWhere fun d _ hd => by
      obtain rfl := beq_iff_eq.mp hd
      exact .evidence
  | claimRuling dispute payload signature =>
    simp only [Call.run]
    split
    · exact .same
    · next hdate =>
      split
      · exact .same
      · exact .updateWhere fun d _ hd => .ruled hdate hd
  | commitRuling dispute payload signature =>
    simp only [Call.run]
    split
    · exact .same
    · next hdate =>
      split
      · exact .same
      · split
        · exact .same
        · split
          · exact .same
          · next hrecord => exact .updateWhere fun d _ hd => .committed hdate hd hrecord
  | revertRuling dispute payload signature appealRound =>
    exact .updateWhere fun d _ hd => .reverted hd
  | claimAppeal dispute newArbiterId =>
    simp only [Call.run]
    split
    · refine .updateWhere fun d _ hd => ?_
      simp only [Bool.and_eq_true, beq_iff_eq] at hd
      exact .appealed hd.1.1 hd.1.2 hd.2
    · exact .same
  | authorize p disputeId =>
    simp only [Call.run, authorizeRun]
    repeat' split
    all_goals exact .same
  | check g => exact .same
  | findDispute id => exact .same
  | disputeOfEscrow escrowId => exact .same
  | assignArbiter => exact .same
  | findPublicKey userId => exact .same
  | isMultisig escrowId => exact .same
  | deleteRulingRecord escrowId appealRound => exact .same
  | emit => exact .same

theorem disputesStep_exec (q : Call) (env : QueryEnv) (s : Store) :
    DisputesStep P s q (q.exec P env s).2.disputes := by
  rcases env.fate.settle_store DisputeError.fault (q.run P env s) s with h | h
  · rw [Call.exec, h]
    exact .same
  · rw [Call.exec, h]
    exact disputesStep_run q env s

/-- Where a row after a call comes from. -/
theorem row_of_exec {d' : DisputeRow} (h : d' ∈ (q.exec P env s).2.disputes) :
    d' ∈ s.disputes ∨
    (∃ id tradeId escrowId, q = .createDispute tradeId escrowId ∧
      d' = DisputeRow.opened id tradeId escrowId) ∨
    ∃ d ∈ s.disputes, RowStep P s q d d' := by
  generalize hl : (q.exec P env s).2.disputes = l at h
  have hstep := disputesStep_exec (P := P) q env s
  rw [hl] at hstep
  cases hstep with
  | same => exact Or.inl h
  | opened hq _ =>
    rcases List.mem_cons.mp h with rfl | h
    · exact Or.inr (Or.inl ⟨_, _, _, hq, rfl⟩)
    · exact Or.inl h
  | rewritten hf =>
    obtain ⟨d, hd, rfl⟩ := List.mem_map.mp h
    rcases hf d hd with heq | hr
    · rw [heq]
      exact Or.inl hd
    · exact Or.inr (Or.inr ⟨d, hd, hr⟩)

variable (q env) in
/-- No call deletes a row. -/
theorem row_kept {d : DisputeRow} (h : d ∈ s.disputes) :
    ∃ d' ∈ (q.exec P env s).2.disputes, d' = d ∨ RowStep P s q d d' := by
  generalize hl : (q.exec P env s).2.disputes = l
  have hstep := disputesStep_exec (P := P) q env s
  rw [hl] at hstep
  cases hstep with
  | same => exact ⟨d, h, Or.inl rfl⟩
  | opened _ _ => exact ⟨d, List.mem_cons_of_mem _ h, Or.inl rfl⟩
  | rewritten hf => exact ⟨_, List.mem_map_of_mem h, hf d h⟩

/-- The columns no call changes, and the round, which only grows. -/
structure DisputeRow.Later (d d' : DisputeRow) : Prop where
  id : d'.id = d.id
  escrowId : d'.escrowId = d.escrowId
  appealRound : d.appealRound ≤ d'.appealRound

theorem DisputeRow.Later.refl (d : DisputeRow) : d.Later d := ⟨rfl, rfl, Nat.le_refl _⟩

theorem DisputeRow.Later.trans {d d' d'' : DisputeRow} (h : d.Later d') (h' : d'.Later d'') :
    d.Later d'' :=
  ⟨h'.id.trans h.id, h'.escrowId.trans h.escrowId, h.appealRound.trans h'.appealRound⟩

theorem RowStep.later {d d' : DisputeRow} (h : RowStep P s q d d') : d.Later d' := by
  cases h with
  | appealed hid hstatus hround => exact ⟨rfl, rfl, by simp [DisputeRow.appealedFrom, hround]⟩
  | _ => exact ⟨rfl, rfl, Nat.le_refl _⟩

variable (q env) in
theorem later_kept {d : DisputeRow} (h : d ∈ s.disputes) :
    ∃ d' ∈ (q.exec P env s).2.disputes, d.Later d' := by
  obtain ⟨d', hd', rfl | hr⟩ := row_kept q env h
  · exact ⟨d', hd', .refl d'⟩
  · exact ⟨d', hd', hr.later⟩

/-- The id of a dispute is its key. -/
def Store.Keyed (s : Store) : Prop := (s.disputes.map DisputeRow.id).Nodup

theorem Store.Keyed.inj (h : s.Keyed) {d d' : DisputeRow} (hd : d ∈ s.disputes)
    (hd' : d' ∈ s.disputes) (hid : d.id = d'.id) : d = d' :=
  List.inj_on_of_nodup_map h hd hd' hid

/-- A call keeps the ids apart. -/
theorem Store.Keyed.exec (h : s.Keyed) : (q.exec P env s).2.Keyed := by
  unfold Store.Keyed at h ⊢
  generalize hl : (q.exec P env s).2.disputes = l
  have hstep := disputesStep_exec (P := P) q env s
  rw [hl] at hstep
  cases hstep with
  | same => exact h
  | opened _ hfresh =>
    rw [List.map_cons, List.nodup_cons]
    refine ⟨fun hmem => ?_, h⟩
    obtain ⟨d, hd, hid⟩ := List.mem_map.mp hmem
    exact hfresh d hd hid
  | rewritten hf =>
    rw [List.map_map]
    rwa [List.map_congr_left fun d hd => ?_]
    rcases hf d hd with heq | hr
    · rw [Function.comp_apply, heq]
    · exact hr.later.id

end Rows

end Sails.Arbitration
