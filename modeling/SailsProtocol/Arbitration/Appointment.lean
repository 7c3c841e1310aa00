import SailsProtocol.Async.Pool
import SailsProtocol.Escrow.World
import SailsProtocol.Numeric.Rounding

/-!
# Who becomes the arbiter

An arbiter comes to a dispute in four ways. `raiseDispute` takes the one that the escrow's
script has committed to, or else the next of the trusted list or a draw among the registered
ones, and `appeal` draws another (`dispute.service.ts`, `arbitration-provider.ts`,
`market-arbitration.provider.ts`). The draws leave out the buyer and the seller, the list and
the script take whom the operator has configured.

`arbiter_neutral` : while no turn of the list and no committed key falls on a party, no party
is ever the arbiter of the dispute or gets past the check of `resolveDispute`, and after an
appeal the arbiter is another one. `buyer_arbitrates` is a list that names the buyer.
-/

namespace Sails.Arbitration.Appointment

open Async Async.Prog Async.Config Numeric

/-! ## Draws -/

/-- The columns of an `ArbiterProfile` that a draw reads, amounts in units of the eighth decimal
place. -/
structure ArbiterCandidate where
  participantId : String
  monetaryCollateral : ℤ
  arbiterReputation : ℤ
  cumulativeFeesObserved : ℤ
  deriving DecidableEq, Repr

/-- `Number` of an amount. -/
def amount (units : ℤ) : ℚ := toDouble (units / 10 ^ 8)

/-- `REPUTATION_STAKE_FACTOR` is one hundredth. -/
def ArbiterCandidate.effectiveStake (c : ArbiterCandidate) : ℚ :=
  toDouble (amount c.monetaryCollateral + toDouble (c.arbiterReputation * toDouble (1 / 100)))

/-- `K_ELIGIBILITY` is one and a half. -/
def eligibleFor (profiles : List ArbiterCandidate) (disputeValue : ℤ)
    (excludeParticipantIds : List String) : List ArbiterCandidate :=
  profiles.filter fun c => decide (toDouble (amount disputeValue * (3 / 2)) ≤ c.effectiveStake) &&
    !excludeParticipantIds.contains c.participantId

/-- The loop of a weighted draw, the last candidate where the roll never runs out. -/
def roulette (weight : ArbiterCandidate → ℚ) : ℚ → List ArbiterCandidate → Option String
  | _, [] => none
  | _, [c] => some c.participantId
  | roll, c :: rest =>
    if toDouble (roll - weight c) ≤ 0 then some c.participantId
    else roulette weight (toDouble (roll - weight c)) rest

/-- The sum of the weights, rounded to a double after each addition. -/
def totalWeight (weight : ArbiterCandidate → ℚ) (candidates : List ArbiterCandidate) : ℚ :=
  candidates.foldl (fun sum c => toDouble (sum + weight c)) 0

/-- A draw with the random number it uses. -/
def weightedRandomPick (weight : ArbiterCandidate → ℚ) (random : ℚ)
    (candidates : List ArbiterCandidate) : Option String :=
  roulette weight (toDouble (random * totalWeight weight candidates)) candidates

/-- The weight on an appeal panel, seven tenths reputation and three tenths collateral. -/
def panelWeight (eligible : List ArbiterCandidate) (disputeValue : ℤ) (c : ArbiterCandidate) : ℚ :=
  let maxReputation : ℤ := (eligible.map ArbiterCandidate.arbiterReputation).foldl max 1
  let maxCollateral : ℚ := (eligible.map fun c => amount c.monetaryCollateral).foldl max 1
  let reputationTerm : ℚ := if amount disputeValue ≤ amount c.cumulativeFeesObserved then
    toDouble (c.arbiterReputation / maxReputation) else 0
  toDouble (toDouble (toDouble (7 / 10) * reputationTerm) +
    toDouble (toDouble (3 / 10) * toDouble (amount c.monetaryCollateral / maxCollateral)))

/-- `PANEL_SIZE_BASE` is three. -/
def appealPanel (eligible : List ArbiterCandidate) (disputeValue : ℤ) (round : ℕ) :
    List ArbiterCandidate :=
  (eligible.mergeSort fun a b =>
    panelWeight eligible disputeValue b ≤ panelWeight eligible disputeValue a).take (3 * 2 ^ round)

/-! ## Rows -/

/-- The columns of a `Dispute` row that decide who its arbiter is. -/
structure DisputeRow where
  status : DisputeStatus
  arbiterId : Option String
  ruling : Option SettlementKind
  appealRound : ℕ
  previousRuling : Option SettlementKind
  previousArbiterId : Option String
  deriving DecidableEq, Repr

/-- The rows an appointment reads and writes. -/
structure Store where
  /-- The dispute of the trade, if one was raised. -/
  dispute : Option DisputeRow
  /-- The `EscrowParticipantKey` of the role `arbiter`. -/
  committed : Option String
  profiles : List ArbiterCandidate
  deriving DecidableEq, Repr

/-- The trade and the value in dispute. -/
structure Platform where
  buyerId : String
  sellerId : String
  lockedAmount : ℤ

/-- Whether the participant is the buyer or the seller of the trade. -/
def Platform.isParty (P : Platform) (id : String) : Bool := id == P.buyerId || id == P.sellerId

/-- `ARBITRATION_MODE` of a deployment. -/
inductive ArbitrationMode where
  | trustedList
  | market
  deriving DecidableEq, Repr

/-- The configuration of the process that serves a request. -/
structure Deployment where
  mode : ArbitrationMode
  trustedArbitrators : List String
  deriving DecidableEq, Repr

/-! ## Calls -/

/-- What the operations await. -/
inductive Call where
  /-- Checks and writes outside these rows : the escrow, the signature, the settlement, events. -/
  | outside
  | createDispute
  | findDispute
  | findCommittedArbiterId
  /-- `TrustedArbitratorProvider.assign`. -/
  | assignTrusted (arbitrators : List String)
  | findProfiles
  | random
  /-- The `update` at the end of `raiseDispute`. -/
  | updateArbiter (arbiterId : String)
  /-- The claim of `appeal`, from the row as it was read. -/
  | claimAppeal (read : DisputeRow) (newArbiterId : String)
  | claimRuling (arbiterId : String) (ruling : SettlementKind)
  | revertRuling (status : DisputeStatus) (arbiterId : String) (ruling : SettlementKind)
      (appealRound : ℕ)
  /-- A status that evidence or an automatic resolution writes. -/
  | writeStatus (status : DisputeStatus)
  | saveProfile (profile : ArbiterCandidate)
  | createArbiterKey (arbiterId : String)
  deriving DecidableEq, Repr

/-- What each call returns. -/
abbrev Call.Ans : Call → Type
  | .findDispute => Option DisputeRow
  | .findCommittedArbiterId => Option String
  | .assignTrusted _ => String
  | .findProfiles => List ArbiterCandidate
  | .random => ℚ
  | .claimAppeal _ _ => Bool
  | .claimRuling _ _ => Option DisputeRow
  | _ => Unit

/-- What the operations throw. -/
inductive AppointmentError where
  | fault
  | forbidden
  | validation
  | notFound
  | uniqueConstraint
  | noEligibleArbiter
  deriving DecidableEq, Repr

/-- What becomes of a call, where the list of the process stands, and a random number. -/
structure Env where
  fate : Fate
  cursor : ℕ
  random : ℚ

/-- The entry whose turn it is. -/
def turn (arbitrators : List String) (cursor : ℕ) : Option String :=
  arbitrators[cursor % arbitrators.length]?

/-- The row that `raiseDispute` creates. -/
def DisputeRow.opened : DisputeRow := ⟨.opened, none, none, 0, none, none⟩

/-- The row that an appeal writes over the one it read. -/
def DisputeRow.appealed (read : DisputeRow) (newArbiterId : String) : DisputeRow :=
  ⟨.appealed, some newArbiterId, none, read.appealRound + 1, read.ruling, read.arbiterId⟩

/-- The row of a call under the condition of its `updateMany`, if it is met. -/
def Call.claimed (d : DisputeRow) : Call → Option DisputeRow
  | .updateArbiter arbiterId => some { d with arbiterId := some arbiterId }
  | .claimAppeal read newArbiterId =>
    if d.status = .resolved ∧ d.appealRound = read.appealRound then
      some (read.appealed newArbiterId)
    else none
  | .claimRuling arbiterId ruling =>
    if d.status ≠ .resolved ∧ d.arbiterId = some arbiterId then
      some { d with status := .resolved, ruling := some ruling }
    else none
  | .revertRuling status arbiterId ruling appealRound =>
    if d.status = .resolved ∧ d.ruling = some ruling ∧ d.arbiterId = some arbiterId ∧
        d.appealRound = appealRound then
      some { d with status := status, ruling := none }
    else none
  | .writeStatus status =>
    if status ≠ .resolved then some { d with status := status } else none
  | _ => none

/-- The dispute after a call. -/
def Call.dispute (q : Call) (dispute : Option DisputeRow) : Option DisputeRow :=
  match q, dispute with
  | .createDispute, none => some .opened
  | q, some d => some ((q.claimed d).getD d)
  | _, none => none

/-- What a call answers and does to the rows when it does not fail. -/
def Call.run : (q : Call) → Env → Store → Except AppointmentError q.Ans × Store
  | .outside, _, s => (.ok (), s)
  | .createDispute, _, s =>
    (if s.dispute.isSome then .error .uniqueConstraint else .ok (),
      { s with dispute := Call.createDispute.dispute s.dispute })
  | .findDispute, _, s => (.ok s.dispute, s)
  | .findCommittedArbiterId, _, s => (.ok s.committed, s)
  | .assignTrusted arbitrators, env, s =>
    (match turn arbitrators env.cursor with
      | some arbiterId => .ok arbiterId
      | none => .error .validation, s)
  | .findProfiles, _, s => (.ok s.profiles, s)
  | .random, env, s => (.ok env.random, s)
  | .updateArbiter arbiterId, _, s =>
    (if s.dispute.isSome then .ok () else .error .notFound,
      { s with dispute := (Call.updateArbiter arbiterId).dispute s.dispute })
  | .claimAppeal read newArbiterId, _, s =>
    (.ok (s.dispute.any fun d => ((Call.claimAppeal read newArbiterId).claimed d).isSome),
      { s with dispute := (Call.claimAppeal read newArbiterId).dispute s.dispute })
  | .claimRuling arbiterId ruling, _, s =>
    (.ok (s.dispute.bind fun d => (Call.claimRuling arbiterId ruling).claimed d),
      { s with dispute := (Call.claimRuling arbiterId ruling).dispute s.dispute })
  | .revertRuling status arbiterId ruling appealRound, _, s =>
    (.ok (), { s with
      dispute := (Call.revertRuling status arbiterId ruling appealRound).dispute s.dispute })
  | .writeStatus status, _, s =>
    (.ok (), { s with dispute := (Call.writeStatus status).dispute s.dispute })
  | .saveProfile profile, _, s =>
    (.ok (), { s with profiles :=
      profile :: s.profiles.filter fun p => p.participantId != profile.participantId })
  | .createArbiterKey arbiterId, _, s =>
    match s.committed with
    | some _ => (.error .uniqueConstraint, s)
    | none => (.ok (), { s with committed := some arbiterId })

/-- A call under the fate the environment gives it. -/
def Call.exec (q : Call) (env : Env) (s : Store) : Except AppointmentError q.Ans × Store :=
  env.fate.settle .fault (q.run env s) s

/-! ## Operations -/

/-- A program over these calls. -/
abbrev Op := Prog Call.Ans AppointmentError

/-- One call, as a program. -/
def await (q : Call) : Op q.Ans := perform q

section Operations

variable (P : Platform)

/-- The provider of the escrow's type; an empty list is refused. -/
def providerForEscrow (deployment : Deployment) : Op Unit := do
  await .outside
  require (deployment.mode != .trustedList || !deployment.trustedArbitrators.isEmpty) .validation

/-- `MarketArbitrationProvider.assign`. -/
def assignMarket : Op String := do
  let dispute : Option DisputeRow ← await .findDispute
  let _ ← orThrow dispute .notFound
  await .outside
  let profiles : List ArbiterCandidate ← await .findProfiles
  let random : ℚ ← await .random
  orThrow (weightedRandomPick ArbiterCandidate.effectiveStake random
    (eligibleFor profiles P.lockedAmount [P.buyerId, P.sellerId])) .noEligibleArbiter

/-- `assign` of the provider that the deployment is configured with. -/
def assign (deployment : Deployment) : Op String :=
  match deployment.mode with
  | .trustedList => await (.assignTrusted deployment.trustedArbitrators)
  | .market => assignMarket P

/-- `findCommittedArbiterId(..) ?? provider.assign(..)`. -/
def chooseArbiter (deployment : Deployment) : Op String := do
  providerForEscrow deployment
  let committedArbiterId : Option String ← await .findCommittedArbiterId
  match committedArbiterId with
  | some arbiterId => pure arbiterId
  | none => assign P deployment

/-- `raiseDispute`, up to the arbiter it writes. -/
def raiseDispute (deployment : Deployment) (raisedBy : String) : Op Unit := do
  require (P.isParty raisedBy) .forbidden
  await .outside
  await .createDispute
  let arbiterId ← chooseArbiter P deployment
  await (.updateArbiter arbiterId)
  await .outside

/-- `assignAppealPanel`, without the arbiter of the appealed ruling. -/
def assignAppealPanel (round : ℕ) (excludeParticipantId : Option String) : Op String := do
  let dispute : Option DisputeRow ← await .findDispute
  let _ ← orThrow dispute .notFound
  await .outside
  let profiles : List ArbiterCandidate ← await .findProfiles
  let random : ℚ ← await .random
  let eligible := eligibleFor profiles P.lockedAmount
    ([P.buyerId, P.sellerId] ++ excludeParticipantId.toList)
  orThrow (weightedRandomPick (panelWeight eligible P.lockedAmount) random
    (appealPanel eligible P.lockedAmount round)) .noEligibleArbiter

/-- `appeal`. -/
def appeal (deployment : Deployment) (requestedBy : String) : Op Unit := do
  let found : Option DisputeRow ← await .findDispute
  let dispute ← orThrow found .notFound
  require (dispute.status == .resolved) .validation
  await .outside
  require (P.isParty requestedBy) .forbidden
  let committedArbiterId : Option String ← await .findCommittedArbiterId
  require committedArbiterId.isNone .validation
  providerForEscrow deployment
  require (deployment.mode == .market) .validation
  let newArbiterId ← assignAppealPanel P (dispute.appealRound + 1) dispute.arbiterId
  let claimed : Bool ← await (.claimAppeal dispute newArbiterId)
  require claimed .validation
  await .outside

/-- `resolveDispute`, up to its claim. -/
def resolveDispute (arbiterId : String) (ruling : SettlementKind) : Op Unit := do
  let found : Option DisputeRow ← await .findDispute
  let dispute ← orThrow found .notFound
  require (dispute.status != .resolved) .validation
  require (dispute.arbiterId == some arbiterId) .forbidden
  await .outside
  let claimed : Option DisputeRow ← await (.claimRuling arbiterId ruling)
  let updated ← orThrow claimed .validation
  (await .outside).tryCatch fun e => do
    await (.revertRuling dispute.status arbiterId ruling updated.appealRound)
    throw e
  await .outside

/-- The part of `submitParticipantKey` that commits the escrow's script to an arbiter. -/
def submitParticipantKey (deployment : Deployment) : Op Unit := do
  await .outside
  let arbiterId ← orThrow deployment.trustedArbitrators.head? .validation
  await .outside
  await (.createArbiterKey arbiterId)

/-- What can be asked of a deployment. -/
inductive Req where
  | raiseDispute (deployment : Deployment) (raisedBy : String)
  | appeal (deployment : Deployment) (requestedBy : String)
  | resolveDispute (arbiterId : String) (ruling : SettlementKind)
  | submitParticipantKey (deployment : Deployment)
  /-- Registrations, slashes and track records. -/
  | saveProfile (profile : ArbiterCandidate)
  | writeStatus (status : DisputeStatus)

/-- The program that serves a request. -/
def Req.prog : Req → Op Unit
  | .raiseDispute deployment raisedBy => Appointment.raiseDispute P deployment raisedBy
  | .appeal deployment requestedBy => Appointment.appeal P deployment requestedBy
  | .resolveDispute arbiterId ruling => Appointment.resolveDispute arbiterId ruling
  | .submitParticipantKey deployment => Appointment.submitParticipantKey deployment
  | .saveProfile profile => await (.saveProfile profile)
  | .writeStatus status => await (.writeStatus status)

end Operations

/-- What is observed of a call. -/
inductive Obs where
  | created
  /-- The arbiter of a raised dispute was written, or the write failed. -/
  | wrote
  | read (dispute : DisputeRow)
  | committed (arbiterId : String)
  | assigned (arbiterId : String)
  deriving DecidableEq, Repr

/-- What a call tells about the arbiter of the dispute. -/
def Call.observe : (q : Call) → Store → Except AppointmentError q.Ans → List Obs
  | .createDispute, _, .ok _ => [.created]
  | .updateArbiter _, _, _ => [.wrote]
  | .findDispute, _, .ok dispute => dispute.toList.map .read
  | .findCommittedArbiterId, _, .ok arbiterId => arbiterId.toList.map .committed
  | .assignTrusted _, _, .ok arbiterId => [.assigned arbiterId]
  | _, _, _ => []

/-- One trade, with the requests that choose its arbiter. -/
def appointments (P : Platform) : System Call.Ans AppointmentError Unit Store Env Req Obs where
  exec := Call.exec
  observe := Call.observe
  prog := Req.prog P

/-- A dispute and the requests about it. -/
abbrev Docket := Config Call.Ans AppointmentError Unit Store Req Obs

/-! ## Neutral arbiters -/

/-- The participant is no party to the trade. -/
def Platform.Neutral (P : Platform) (id : String) : Prop := id ≠ P.buyerId ∧ id ≠ P.sellerId

/-- No party is the arbiter, nobody judges the appeal from the own ruling, and no party is past
the check of `resolveDispute`. -/
structure NeutralArbiter (P : Platform) (c : Docket) : Prop where
  arbiter : ∀ d, c.store.dispute = some d → ∀ arbiterId, d.arbiterId = some arbiterId →
    P.Neutral arbiterId
  appeal : ∀ d, c.store.dispute = some d → ∀ previous, d.previousArbiterId = some previous →
    d.arbiterId ≠ some previous
  ruling : ∀ i arbiterId ruling, c.next i = some (.claimRuling arbiterId ruling) →
    P.Neutral arbiterId

/-- Neither a turn of the trusted list nor a key committed to a script falls on a party. -/
def NamesNoParty (P : Platform) (c : Docket) : Action Env Req → Prop
  | .run i env =>
    match c.next i with
    | some (.assignTrusted arbitrators) => ∀ arbiterId,
        turn arbitrators env.cursor = some arbiterId → P.Neutral arbiterId
    | some (.createArbiterKey arbiterId) => P.Neutral arbiterId
    | _ => True
  | _ => True

/-! ## Draws leave out the parties -/

/-- The roulette draws one of its candidates. -/
theorem roulette_mem {weight : ArbiterCandidate → ℚ} {roll : ℚ} {candidates : List ArbiterCandidate}
    {arbiterId : String} (h : roulette weight roll candidates = some arbiterId) :
    ∃ c ∈ candidates, c.participantId = arbiterId := by
  fun_induction roulette weight roll candidates with
  | case1 => cases h
  | case2 roll c => exact ⟨c, List.mem_cons_self, Option.some.inj h⟩
  | case3 roll c rest _ _ => exact ⟨c, List.mem_cons_self, Option.some.inj h⟩
  | case4 roll c rest _ _ ih =>
    obtain ⟨c', hmem, heq⟩ := ih h
    exact ⟨c', List.mem_cons_of_mem c hmem, heq⟩

theorem not_excluded {profiles : List ArbiterCandidate} {disputeValue : ℤ} {excluded : List String}
    {c : ArbiterCandidate} (h : c ∈ eligibleFor profiles disputeValue excluded) :
    c.participantId ∉ excluded := by
  have hfilter := (List.mem_filter.mp h).2
  simp only [Bool.and_eq_true, Bool.not_eq_true', List.contains_eq_mem, decide_eq_false_iff_not]
    at hfilter
  exact hfilter.2

theorem neutral_of_not_mem {P : Platform} {id : String} (others : List String)
    (h : id ∉ [P.buyerId, P.sellerId] ++ others) : P.Neutral id ∧ id ∉ others := by
  simp only [List.cons_append, List.nil_append, List.mem_cons, not_or] at h
  exact ⟨⟨h.1, h.2.1⟩, h.2.2⟩

theorem mem_of_appealPanel {eligible : List ArbiterCandidate} {disputeValue : ℤ} {round : ℕ}
    {c : ArbiterCandidate} (h : c ∈ appealPanel eligible disputeValue round) : c ∈ eligible :=
  List.mem_mergeSort.mp (List.mem_of_mem_take h)

/-! ## What a thread is about to do -/

/-- Where the arbiter of a call comes from. -/
def Guard (P : Platform) (h : List Obs) : Call → Prop
  | .updateArbiter arbiterId => .created ∈ h ∧ .wrote ∉ h ∧
      (.committed arbiterId ∈ h ∨ .assigned arbiterId ∈ h ∨ P.Neutral arbiterId)
  | .claimAppeal read newArbiterId => P.Neutral newArbiterId ∧ read.arbiterId ≠ some newArbiterId
  | .claimRuling arbiterId _ => ∃ d, .read d ∈ h ∧ d.arbiterId = some arbiterId
  | _ => True

section Programs

variable {P : Platform} {can : ∀ q : Call, Store → Except AppointmentError q.Ans → Prop}
variable {h : List Obs}

/-- The dispute was created, and its arbiter is not written yet. -/
def Unassigned (h : List Obs) : Prop := .created ∈ h ∧ .wrote ∉ h

theorem providerForEscrow_guarded (deployment : Deployment) :
    (providerForEscrow deployment).Guarded can Call.observe (Guard P) (fun h' _ => h' = h) h := by
  refine (guarded_bind _ _ _).mpr ⟨trivial, fun s r _ => ?_⟩
  rcases r with e | u
  · rfl
  · exact (guarded_require _ _).mpr ⟨fun _ => rfl, fun _ => rfl⟩

/-- The market assigns someone neutral. -/
theorem assignMarket_guarded (hunassigned : Unassigned h) :
    (assignMarket P).Guarded can Call.observe (Guard P)
      (fun h' r => ∀ arbiterId, r = .ok arbiterId → Unassigned h' ∧ P.Neutral arbiterId) h := by
  refine (guarded_bind _ _ _).mpr ⟨trivial, fun s r _ => ?_⟩
  rcases r with e | dispute
  · nofun
  refine (guarded_bind _ _ _).mpr ((guarded_orThrow _ _).mpr ⟨fun d _ => ?_, nofun⟩)
  refine (guarded_bind _ _ _).mpr ⟨trivial, fun s r _ => ?_⟩
  rcases r with e | u
  · nofun
  refine (guarded_bind _ _ _).mpr ⟨trivial, fun s r _ => ?_⟩
  rcases r with e | profiles
  · nofun
  refine (guarded_bind _ _ _).mpr ⟨trivial, fun s r _ => ?_⟩
  rcases r with e | random
  · nofun
  refine (guarded_orThrow _ _).mpr ⟨fun arbiterId harbiter => ?_, nofun⟩
  rintro _ ⟨⟩
  obtain ⟨c, hc, rfl⟩ := roulette_mem harbiter
  refine ⟨⟨?_, ?_⟩, (neutral_of_not_mem [] (not_excluded hc)).1⟩
  · simp [Call.observe, hunassigned.1]
  · simp [Call.observe, hunassigned.2]

/-- Whoever is chosen at a dispute may be written to it. -/
theorem chooseArbiter_guarded (deployment : Deployment) (hunassigned : Unassigned h) :
    (chooseArbiter P deployment).Guarded can Call.observe (Guard P)
      (fun h' r => ∀ arbiterId, r = .ok arbiterId → Guard P h' (.updateArbiter arbiterId)) h := by
  refine (guarded_bind _ _ _).mpr ((providerForEscrow_guarded deployment).mono fun h' r hlog => ?_)
  subst hlog
  rcases r with e | u
  · nofun
  refine (guarded_bind _ _ _).mpr ⟨trivial, fun s r _ => ?_⟩
  rcases r with e | _ | arbiterId
  · nofun
  · unfold assign
    split
    · refine ⟨trivial, fun s r _ => ?_⟩
      rcases r with e | arbiterId
      · nofun
      · rintro _ ⟨⟩
        exact ⟨by simp [hunassigned.1], by simp [Call.observe, hunassigned.2],
          .inr (.inl List.mem_cons_self)⟩
    · refine (assignMarket_guarded hunassigned).mono fun h' r hpost arbiterId heq => ?_
      obtain ⟨hlog, hneutral⟩ := hpost arbiterId heq
      exact ⟨hlog.1, hlog.2, .inr (.inr hneutral)⟩
  · rintro _ ⟨⟩
    exact ⟨by simp [hunassigned.1], by simp [Call.observe, hunassigned.2],
      .inl List.mem_cons_self⟩

/-- Every call of `raiseDispute` meets its guard. -/
theorem raiseDispute_calls (deployment : Deployment) (raisedBy : String) :
    (raiseDispute P deployment raisedBy).Calls can Call.observe (Guard P) [] := by
  refine Calls.require_bind fun _ => ?_
  refine Calls.perform_bind trivial fun s _ _ => ?_
  refine Calls.perform_bind trivial fun s _ _ => ?_
  have hunassigned : Unassigned [.created] := ⟨List.mem_cons_self, by decide⟩
  refine Calls.bind ((chooseArbiter_guarded deployment hunassigned).mono
    fun h' r hpost arbiterId heq => ?_)
  exact Calls.perform_bind (hpost arbiterId heq) fun s _ _ => calls_perform trivial

/-- The panel of an appeal is neutral and leaves the last arbiter out. -/
theorem assignAppealPanel_guarded (round : ℕ) (excludeParticipantId : Option String) :
    (assignAppealPanel P round excludeParticipantId).Guarded can Call.observe (Guard P)
      (fun _ r => ∀ arbiterId, r = .ok arbiterId →
        P.Neutral arbiterId ∧ excludeParticipantId ≠ some arbiterId) h := by
  refine (guarded_bind _ _ _).mpr ⟨trivial, fun s r _ => ?_⟩
  rcases r with e | dispute
  · nofun
  refine (guarded_bind _ _ _).mpr ((guarded_orThrow _ _).mpr ⟨fun d _ => ?_, nofun⟩)
  refine (guarded_bind _ _ _).mpr ⟨trivial, fun s r _ => ?_⟩
  rcases r with e | u
  · nofun
  refine (guarded_bind _ _ _).mpr ⟨trivial, fun s r _ => ?_⟩
  rcases r with e | profiles
  · nofun
  refine (guarded_bind _ _ _).mpr ⟨trivial, fun s r _ => ?_⟩
  rcases r with e | random
  · nofun
  refine (guarded_orThrow _ _).mpr ⟨fun arbiterId harbiter => ?_, nofun⟩
  rintro _ ⟨⟩
  obtain ⟨c, hc, rfl⟩ := roulette_mem harbiter
  obtain ⟨hneutral, hother⟩ := neutral_of_not_mem _ (not_excluded (mem_of_appealPanel hc))
  refine ⟨hneutral, fun heq => hother ?_⟩
  simp [heq]

/-- Every call of `appeal` meets its guard. -/
theorem appeal_calls (deployment : Deployment) (requestedBy : String) :
    (appeal P deployment requestedBy).Calls can Call.observe (Guard P) [] := by
  refine Calls.perform_bind trivial fun s found _ => ?_
  refine Calls.orThrow_bind fun dispute _ => ?_
  refine Calls.require_bind fun _ => ?_
  refine Calls.perform_bind trivial fun s _ _ => ?_
  refine Calls.require_bind fun _ => ?_
  refine Calls.perform_bind trivial fun s committed _ => ?_
  refine Calls.require_bind fun _ => ?_
  refine Calls.then ((providerForEscrow_guarded deployment).mono fun _ _ _ => trivial) fun _ h => ?_
  refine Calls.require_bind fun _ => ?_
  refine Calls.bind ((assignAppealPanel_guarded _ _).mono fun h' r hpost newArbiterId heq => ?_)
  refine Calls.perform_bind (hpost newArbiterId heq) fun s claimed _ => ?_
  exact Calls.require_bind fun _ => calls_perform trivial

/-- Every call of `resolveDispute` meets its guard. -/
theorem resolveDispute_calls (arbiterId : String) (ruling : SettlementKind) :
    (resolveDispute arbiterId ruling).Calls can Call.observe (Guard P) [] := by
  refine Calls.perform_bind trivial fun s found _ => ?_
  refine Calls.orThrow_bind fun dispute hfound => ?_
  refine Calls.require_bind fun _ => ?_
  refine Calls.require_bind fun harbiter => ?_
  refine Calls.perform_bind trivial fun s _ _ => ?_
  refine Calls.perform_bind ⟨dispute, ?_, by simpa using harbiter⟩ fun s claimed _ => ?_
  · simp [Call.observe, hfound]
  refine Calls.orThrow_bind fun updated _ => ?_
  refine Calls.then (Calls.tryCatch (calls_perform trivial) fun e h => ?_) fun _ h =>
    calls_perform trivial
  exact Calls.perform_bind trivial fun s _ _ => trivial

theorem submitParticipantKey_calls (deployment : Deployment) :
    (submitParticipantKey deployment).Calls can Call.observe (Guard P) [] := by
  refine Calls.perform_bind trivial fun s _ _ => ?_
  refine Calls.orThrow_bind fun arbiterId _ => ?_
  exact Calls.perform_bind trivial fun s _ _ => calls_perform trivial

/-- Every call of a request meets its guard. -/
theorem prog_guarded (req : Req) : ((appointments P).prog req).Guarded
    (Answerable (appointments P) fun _ => True) (appointments P).observe (Guard P)
    (fun _ _ => True) [] := by
  cases req with
  | raiseDispute deployment raisedBy => exact raiseDispute_calls deployment raisedBy
  | appeal deployment requestedBy => exact appeal_calls deployment requestedBy
  | resolveDispute arbiterId ruling => exact resolveDispute_calls arbiterId ruling
  | submitParticipantKey deployment => exact submitParticipantKey_calls deployment
  | saveProfile profile => exact calls_perform trivial
  | writeStatus status => exact calls_perform trivial

end Programs

/-! ## Every run -/

/-- What holds of the row : its arbiter is neutral and not the one appealed from, and only an
arbiter resolves. -/
structure DisputeRow.Proper (P : Platform) (d : DisputeRow) : Prop where
  neutral : ∀ arbiterId, d.arbiterId = some arbiterId → P.Neutral arbiterId
  other : ∀ previous, d.previousArbiterId = some previous → d.arbiterId ≠ some previous
  resolved : d.status = .resolved → d.arbiterId ≠ none

/-- A row that `raiseDispute` has still to complete. -/
def DisputeRow.Vacant (d : DisputeRow) : Prop := d.arbiterId = none ∧ d.previousArbiterId = none

/-- No call but the one that completes a vacant row gives it an arbiter. -/
theorem claimed_vacant {P : Platform} {q : Call} {d d' : DisputeRow} (hd : d.Proper P)
    (hvacant : d.Vacant) (hq : ∀ arbiterId, q ≠ .updateArbiter arbiterId)
    (h : q.claimed d = some d') : d'.Vacant := by
  have hstatus : d.status ≠ .resolved := fun h => hd.resolved h hvacant.1
  cases q with
  | updateArbiter arbiterId => exact absurd rfl (hq arbiterId)
  | claimAppeal read newArbiterId => simp [Call.claimed, hstatus] at h
  | claimRuling arbiterId ruling => simp [Call.claimed, hvacant.1] at h
  | revertRuling status arbiterId ruling appealRound => simp [Call.claimed, hstatus] at h
  | writeStatus status =>
    simp only [Call.claimed, Option.ite_none_right_eq_some, Option.some.injEq] at h
    obtain ⟨-, rfl⟩ := h
    exact hvacant
  | _ => cases h

/-- A write that meets its guard leaves the row proper. -/
theorem claimed_proper {P : Platform} {q : Call} {d d' : DisputeRow} (hd : d.Proper P)
    (hupdate : ∀ arbiterId, q = .updateArbiter arbiterId → P.Neutral arbiterId ∧ d.Vacant)
    (happeal : ∀ read newArbiterId, q = .claimAppeal read newArbiterId →
      P.Neutral newArbiterId ∧ read.arbiterId ≠ some newArbiterId)
    (h : q.claimed d = some d') : d'.Proper P := by
  cases q with
  | updateArbiter arbiterId =>
    obtain ⟨hneutral, -, hprevious⟩ := hupdate arbiterId rfl
    cases h
    refine ⟨?_, ?_, nofun⟩
    · rintro _ ⟨⟩
      exact hneutral
    · rw [hprevious]
      nofun
  | claimAppeal read newArbiterId =>
    obtain ⟨hneutral, hother⟩ := happeal read newArbiterId rfl
    simp only [Call.claimed, Option.ite_none_right_eq_some, Option.some.injEq] at h
    obtain ⟨-, rfl⟩ := h
    refine ⟨?_, ?_, nofun⟩
    · rintro _ ⟨⟩
      exact hneutral
    · rintro previous hprevious heq
      cases heq
      exact hother hprevious
  | claimRuling arbiterId ruling =>
    simp only [Call.claimed, Option.ite_none_right_eq_some, Option.some.injEq] at h
    obtain ⟨⟨-, harbiter⟩, rfl⟩ := h
    refine ⟨hd.neutral, hd.other, fun _ => ?_⟩
    simp [harbiter]
  | revertRuling status arbiterId ruling appealRound =>
    simp only [Call.claimed, Option.ite_none_right_eq_some, Option.some.injEq] at h
    obtain ⟨⟨-, -, harbiter, -⟩, rfl⟩ := h
    refine ⟨hd.neutral, hd.other, fun _ => ?_⟩
    simp [harbiter]
  | writeStatus status =>
    simp only [Call.claimed, Option.ite_none_right_eq_some, Option.some.injEq] at h
    obtain ⟨hstatus, rfl⟩ := h
    exact ⟨hd.neutral, hd.other, fun h => absurd h hstatus⟩
  | _ => cases h

section Effects

variable {q : Call} {env : Env} {s : Store}

/-- A call leaves the dispute or has its effect on it. -/
theorem exec_dispute : (q.exec env s).2.dispute = s.dispute ∨
    (q.exec env s).2.dispute = q.dispute s.dispute := by
  rcases env.fate.settle_store .fault (q.run env s) s with h | h
  · left
    rw [Call.exec, h]
  · rw [Call.exec, h]
    cases q with
    | createArbiterKey arbiterId =>
      left
      simp only [Call.run]
      split <;> rfl
    | outside => exact .inl rfl
    | findDispute => exact .inl rfl
    | findCommittedArbiterId => exact .inl rfl
    | assignTrusted arbitrators => exact .inl rfl
    | findProfiles => exact .inl rfl
    | random => exact .inl rfl
    | saveProfile profile => exact .inl rfl
    | _ => exact .inr rfl

/-- A committed arbiter stays the one it was, or is the one a key was created for. -/
theorem exec_committed {arbiterId : String} (h : (q.exec env s).2.committed = some arbiterId) :
    s.committed = some arbiterId ∨ q = .createArbiterKey arbiterId := by
  rcases env.fate.settle_store .fault (q.run env s) s with hstore | hstore
  · rw [Call.exec, hstore] at h
    exact .inl h
  · rw [Call.exec, hstore] at h
    cases q with
    | createArbiterKey key =>
      simp only [Call.run] at h
      split at h
      · exact .inl h
      · cases h
        exact .inr rfl
    | _ => exact .inl h

end Effects

/-- What holds of every run that names no party. -/
structure Sound (P : Platform) (c : Docket) : Prop where
  proper : ∀ d, c.store.dispute = some d → d.Proper P
  committed : ∀ arbiterId, c.store.committed = some arbiterId → P.Neutral arbiterId
  reads : ∀ i d, .read d ∈ c.own i → ∀ arbiterId, d.arbiterId = some arbiterId →
    P.Neutral arbiterId
  choices : ∀ i arbiterId, .committed arbiterId ∈ c.own i ∨ .assigned arbiterId ∈ c.own i →
    P.Neutral arbiterId
  vacant : ∀ i, Unassigned (c.own i) → ∃ d, c.store.dispute = some d ∧ d.Vacant
  created : ∀ i, .created ∈ c.own i → c.store.dispute ≠ none
  once : ∀ i j, .created ∈ c.own i → .created ∈ c.own j → i = j

/-- Every thread of the docket is guarded at what it has seen. -/
abbrev Docket.Conforms (P : Platform) (c : Docket) : Prop :=
  Config.Conforms (appointments P) (fun _ => True) (fun _ => Guard P) (fun _ _ _ => True) c

section Answer

variable {P : Platform} {c : Docket} {i : ℕ} {env : Env} {req : Req} {q : Call}
variable {k : Except AppointmentError q.Ans → Prog Call.Ans AppointmentError Unit}

/-- A thread about to complete the dispute has created it and finds it vacant. -/
theorem Sound.updates (hc : Docket.Conforms P c) (h : Sound P c) {arbiterId : String}
    (ht : c.threads[i]? = some ⟨req, .call q k, true⟩) (hq : q = .updateArbiter arbiterId) :
    P.Neutral arbiterId ∧ ∃ d, c.store.dispute = some d ∧ d.Vacant := by
  subst hq
  obtain ⟨hcreated, hwrote, hchoice⟩ := hc.guard ht
  refine ⟨?_, h.vacant i ⟨hcreated, hwrote⟩⟩
  rcases hchoice with hcommitted | hassigned | hneutral
  · exact h.choices i arbiterId (.inl hcommitted)
  · exact h.choices i arbiterId (.inr hassigned)
  · exact hneutral

/-- The row a call leaves is proper. -/
theorem Sound.dispute (hc : Docket.Conforms P c) (h : Sound P c)
    (ht : c.threads[i]? = some ⟨req, .call q k, true⟩) :
    ∀ d, q.dispute c.store.dispute = some d → d.Proper P := by
  intro d' hd'
  cases hstore : c.store.dispute with
  | none =>
    rw [hstore] at hd'
    cases q with
    | createDispute =>
      cases hd'
      exact ⟨nofun, nofun, nofun⟩
    | _ => cases hd'
  | some d =>
    rw [hstore] at hd'
    have hproper := h.proper d hstore
    have hrow : (q.claimed d).getD d = d' := by
      cases q <;> exact Option.some.inj hd'
    cases hclaimed : q.claimed d with
    | none =>
      rw [hclaimed] at hrow
      exact hrow ▸ hproper
    | some d'' =>
      rw [hclaimed] at hrow
      obtain rfl : d'' = d' := hrow
      refine claimed_proper hproper (fun arbiterId hq => ?_) (fun read newArbiterId hq => ?_)
        hclaimed
      · obtain ⟨hneutral, d₀, hd₀, hvacant⟩ := h.updates hc ht hq
        rw [hstore] at hd₀
        cases hd₀
        exact ⟨hneutral, hvacant⟩
      · subst hq
        exact hc.guard ht

/-- Only the thread that created the dispute takes its vacancy away. -/
theorem Sound.keeps_vacant (hc : Docket.Conforms P c) (h : Sound P c)
    (ht : c.threads[i]? = some ⟨req, .call q k, true⟩) {j : ℕ} (hj : Unassigned (c.own j))
    (hother : j = i → ∀ arbiterId, q ≠ .updateArbiter arbiterId) :
    ∃ d, q.dispute c.store.dispute = some d ∧ d.Vacant := by
  obtain ⟨d, hd, hvacant⟩ := h.vacant j hj
  rw [hd]
  have hnot : ∀ arbiterId, q ≠ .updateArbiter arbiterId := by
    rintro arbiterId rfl
    obtain ⟨hcreated, -, -⟩ := hc.guard ht
    exact hother (h.once j i hj.1 hcreated) arbiterId rfl
  have hrow : q.dispute (some d) = some ((q.claimed d).getD d) := by cases q <;> rfl
  refine ⟨_, hrow, ?_⟩
  cases hclaimed : q.claimed d with
  | none => exact hvacant
  | some d' => exact claimed_vacant (h.proper d hd) hvacant hnot hclaimed

/-- A dispute is created only where there is none. -/
theorem created_of_observe {s : Store} (h : .created ∈ q.observe s (q.exec env s).1) :
    s.dispute = none ∧ (q.exec env s).2.dispute = some .opened := by
  cases q with
  | createDispute =>
    cases hdispute : s.dispute with
    | none =>
      refine ⟨rfl, ?_⟩
      cases hfate : env.fate <;>
        simp_all [Call.exec, Fate.settle, Call.run, Call.observe, Call.dispute]
    | some d =>
      cases hfate : env.fate <;> simp [Call.exec, Fate.settle, Call.run, Call.observe, hdispute,
        hfate] at h
  | _ =>
    generalize (Call.exec _ env s).1 = r at h
    cases r <;> simp [Call.observe] at h

theorem reads_of_observe {s : Store} {r : Except AppointmentError q.Ans} {d : DisputeRow}
    (h : .read d ∈ q.observe s r) : q = .findDispute := by
  cases q <;> cases r <;> simp [Call.observe] at h ⊢

/-- A dispute is read as it is. -/
theorem read_of_observe {s : Store} {d : DisputeRow}
    (h : .read d ∈ q.observe s (q.exec env s).1) : s.dispute = some d := by
  obtain rfl := reads_of_observe h
  cases hfate : env.fate <;> cases hdispute : s.dispute <;>
    simp_all [Call.exec, Fate.settle, Call.run, Call.observe]

theorem committed_of_observe {s : Store} {arbiterId : String}
    (h : .committed arbiterId ∈ q.observe s (q.exec env s).1) : s.committed = some arbiterId := by
  cases q with
  | findCommittedArbiterId =>
    cases hfate : env.fate <;> cases hcommitted : s.committed <;>
      simp_all [Call.exec, Fate.settle, Call.run, Call.observe]
  | _ =>
    generalize (Call.exec _ env s).1 = r at h
    cases r <;> simp [Call.observe] at h

/-- The list gives the entry whose turn it is. -/
theorem assigned_of_observe {s : Store} {arbiterId : String}
    (h : .assigned arbiterId ∈ q.observe s (q.exec env s).1) :
    ∃ arbitrators, q = .assignTrusted arbitrators ∧
      turn arbitrators env.cursor = some arbiterId := by
  cases q with
  | assignTrusted arbitrators =>
    refine ⟨arbitrators, rfl, ?_⟩
    cases hfate : env.fate <;> cases hturn : turn arbitrators env.cursor <;>
      simp_all [Call.exec, Fate.settle, Call.run, Call.observe]
  | _ =>
    generalize (Call.exec _ env s).1 = r at h
    cases r <;> simp [Call.observe] at h

theorem wrote_observe {s : Store} {arbiterId : String} (hq : q = .updateArbiter arbiterId)
    (r : Except AppointmentError q.Ans) : .wrote ∈ q.observe s r := by
  subst hq
  exact List.mem_cons_self

/-- One answered call keeps everything. -/
theorem Sound.answer (hc : Docket.Conforms P c) (h : Sound P c)
    (ht : c.threads[i]? = some ⟨req, .call q k, true⟩)
    (hnames : NamesNoParty P c (.run i env)) :
    Sound P (c.answer (appointments P) i env req q k) := by
  have hnext := next_of_call ht
  simp only [NamesNoParty, hnext] at hnames
  have hdispute : (c.answer (appointments P) i env req q k).store.dispute = c.store.dispute ∨
      (c.answer (appointments P) i env req q k).store.dispute = q.dispute c.store.dispute :=
    exec_dispute
  refine ⟨fun d hd => ?_, fun arbiterId hcommitted => ?_, fun j d hd => ?_,
    fun j arbiterId hchoice => ?_, fun j hj => ?_, fun j hj => ?_, fun j j' hj hj' => ?_⟩
  · rcases hdispute with heq | heq
    · exact h.proper d (heq ▸ hd)
    · exact h.dispute hc ht d (heq ▸ hd)
  · rcases exec_committed hcommitted with hold | rfl
    · exact h.committed arbiterId hold
    · exact hnames
  · rcases mem_own_of_answer hd with ⟨-, hnew⟩ | hold
    · exact (h.proper d (read_of_observe hnew)).neutral
    · exact h.reads j d hold
  · rcases hchoice with hcommitted | hassigned
    · rcases mem_own_of_answer hcommitted with ⟨-, hnew⟩ | hold
      · exact h.committed arbiterId (committed_of_observe hnew)
      · exact h.choices j arbiterId (.inl hold)
    · rcases mem_own_of_answer hassigned with ⟨-, hnew⟩ | hold
      · obtain ⟨arbitrators, rfl, hturn⟩ := assigned_of_observe hnew
        exact hnames arbiterId hturn
      · exact h.choices j arbiterId (.inr hold)
  · rcases mem_own_of_answer hj.1 with ⟨-, hnew⟩ | hold
    · exact ⟨_, (created_of_observe hnew).2, rfl, rfl⟩
    · have hunassigned : Unassigned (c.own j) := ⟨hold, fun hwrote => hj.2 (mem_own_answer hwrote)⟩
      rcases hdispute with heq | heq
      · rw [heq]
        exact h.vacant j hunassigned
      · rw [heq]
        refine h.keeps_vacant hc ht hunassigned ?_
        rintro rfl arbiterId hq
        refine hj.2 ?_
        rw [own_answer_self]
        exact List.mem_append_left _ (wrote_observe hq _)
  · rcases mem_own_of_answer hj with ⟨-, hnew⟩ | hold
    · have hopened : (c.answer (appointments P) i env req q k).store.dispute = some .opened :=
        (created_of_observe hnew).2
      simp [hopened]
    · obtain ⟨d, hd⟩ := Option.ne_none_iff_exists'.mp (h.created j hold)
      rcases hdispute with heq | heq
      · rw [heq]
        exact h.created j hold
      · have hrow : q.dispute (some d) = some ((q.claimed d).getD d) := by cases q <;> rfl
        rw [heq, hd, hrow]
        nofun
  · rcases mem_own_of_answer hj with ⟨rfl, hnew⟩ | hold <;>
      rcases mem_own_of_answer hj' with ⟨rfl, hnew'⟩ | hold'
    · rfl
    · exact absurd (created_of_observe hnew).1 (h.created j' hold')
    · exact absurd (created_of_observe hnew').1 (h.created j hold)
    · exact h.once j j' hold hold'

end Answer

/-- Soundness depends on the rows and the logs alone. -/
theorem Sound.congr {P : Platform} {c c' : Docket} (h : Sound P c) (hstore : c'.store = c.store)
    (hown : ∀ i, c'.own i = c.own i) : Sound P c' := by
  constructor <;> simp only [hstore, hown]
  · exact h.proper
  · exact h.committed
  · exact h.reads
  · exact h.choices
  · exact h.vacant
  · exact h.created
  · exact h.once

/-- A docket without a dispute is sound. -/
theorem Sound.start (P : Platform) (profiles : List ArbiterCandidate) :
    Sound P (init ⟨none, none, profiles⟩ : Docket) where
  proper := nofun
  committed := nofun
  reads i d hd := by cases hd
  choices i a ha := by rcases ha with ha | ha <;> cases ha
  vacant i hi := by cases hi.1
  created i hi := by cases hi
  once i j hi := by cases hi

/-- While neither the trusted list nor a committed key names a party, no party judges. -/
theorem arbiter_neutral (P : Platform) (profiles : List ArbiterCandidate)
    (run : List (Action Env Req))
    (hnames : Along (appointments P) (NamesNoParty P) (init ⟨none, none, profiles⟩) run) :
    NeutralArbiter P ((init ⟨none, none, profiles⟩ : Docket).exec (appointments P) run) := by
  obtain ⟨hc, h⟩ := run_invariant prog_guarded (fun _ _ _ _ => trivial)
    (fun _ h _ => h.congr rfl fun _ => rfl) (fun hc h hnames ht _ => h.answer hc ht hnames)
    (fun _ h _ _ => h.congr rfl fun _ => rfl) run (conforms_init trivial)
    (Sound.start P profiles) hnames
  refine ⟨fun d hd => (h.proper d hd).neutral, fun d hd => (h.proper d hd).other, ?_⟩
  intro i arbiterId ruling hnext
  obtain ⟨req, k, ht⟩ := call_of_next hnext
  obtain ⟨d, hread, harbiter⟩ := hc.guard ht
  exact h.reads i d hread arbiterId harbiter

/-- A trade worth 100000000 sats. -/
def samplePlatform : Platform := ⟨"buyer", "seller", 100000000⟩

/-- A list of trusted arbitrators, raised by the seller and ruled by the first on it. -/
def sampleRun (arbitrators : List String) (arbiterId : String) : List (Action Env Req) :=
  .start (.raiseDispute ⟨.trustedList, arbitrators⟩ "seller") ::
    List.replicate 6 (.run 0 ⟨.answered, 0, 0⟩) ++
    .start (.resolveDispute arbiterId .release) :: List.replicate 2 (.run 1 ⟨.answered, 0, 0⟩)

/-- The arbiter of the trusted list is neutral in the sample run. -/
theorem trusted_arbiter_neutral : NeutralArbiter samplePlatform
    ((init ⟨none, none, []⟩ : Docket).exec (appointments samplePlatform)
      (sampleRun ["arbiter"] "arbiter")) := by
  refine arbiter_neutral samplePlatform [] (sampleRun ["arbiter"] "arbiter")
    ⟨trivial, trivial, trivial, trivial, trivial, ?_, trivial, trivial, trivial, trivial, trivial⟩
  rintro arbiterId hturn
  cases hturn
  exact ⟨by decide, by decide⟩

/-- A buyer on the trusted list passes the check of `resolveDispute` on the own trade. -/
theorem buyer_arbitrates : ¬ ∀ (P : Platform) (profiles : List ArbiterCandidate)
    (run : List (Action Env Req)), NeutralArbiter P
      ((init ⟨none, none, profiles⟩ : Docket).exec (appointments P) run) := by
  intro h
  have hruling := (h samplePlatform [] (sampleRun ["buyer"] "buyer")).ruling 1 "buyer" .release rfl
  exact hruling.1 rfl

end Sails.Arbitration.Appointment
