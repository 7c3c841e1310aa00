import SailsProtocol.Ledger.HashChain
import SailsProtocol.Ledger.Reads
import SailsProtocol.Text.Chronology
import SailsProtocol.Text.Digest
import SailsProtocol.Text.JsonTree

/-!
# The durable event log

`PostgresEventStore` of `common/events/event-store.ts` appends the events of a correlation id
as one hash chain, and `verifyChain` of `core/timeline.ts` walks it. `publish` runs under the
advisory lock of its correlation id, so its transaction is one step here, with the clock it
reads and the row it finds last. The rows are in the order of their commits.

`log_verifies` is the chain that is written : while the clocks show years of four digits, the
rows of a correlation id have increasing timestamps, are read in the order of their commits,
and verify. After 9999 the order of the texts is no longer that of the instants
(`log_out_of_order`). `head_determines_log` is what verification means : a known head hash
determines the log.
-/

namespace Sails.EventLog

open Text HashChain Reads

/-! ## Events -/

/-- The keys of `SailsEventMap`. -/
inductive SailsEventName where
  | intentCreated
  | intentValidated
  | intentCoordinated
  | intentDiscovering
  | intentMatched
  | intentNegotiating
  | intentCommitted
  | intentSettling
  | intentFulfilled
  | intentExpired
  | intentCancelled
  | intentFailed
  | openp2pTradeCreated
  | openp2pTradeStatusChanged
  | openp2pTradeCompleted
  | openp2pTradeDisputed
  | openp2pTradeCancelled
  | openp2pMessageSent
  | settlementEscrowCreated
  | settlementEscrowLocked
  | settlementEscrowPaymentPending
  | settlementEscrowReleased
  | settlementEscrowDisputed
  | settlementEscrowRefunded
  | settlementEscrowSplit
  | settlementEscrowExpired
  | reputationScoreUpdated
  | reputationVouchCreated
  | reputationVouchBurned
  | liquidityOfferCreated
  | liquidityOfferStatusChanged
  | claimAsserted
  | proofSubmitted
  | proofHashMismatchDetected
  | proofDuplicateDetected
  | verificationAccepted
  | verificationRejected
  | disputeOpened
  | disputeEvidenceSubmitted
  | disputeArbitrated
  | disputeResolved
  | disputeAppealed
  | disputeSettlementCorrespondenceEvaluated
  | disputeAutoResolutionProposed
  | disputeAutoResolutionContested
  | arbiterSlashed
  | negotiationOpened
  | negotiationEventReceived
  | negotiationTermsAgreed
  | negotiationAbandoned
  | negotiationReconciled
  | peerConnected
  | peerDisconnected
  | agentsSocialEngineeringRiskDetected
  | liquidityOfferContentRiskDetected
  | securitySuspiciousActivityDetected
  deriving DecidableEq

/-- The name of an event. -/
def SailsEventName.name : SailsEventName → String
  | .intentCreated => "intent.created"
  | .intentValidated => "intent.validated"
  | .intentCoordinated => "intent.coordinated"
  | .intentDiscovering => "intent.discovering"
  | .intentMatched => "intent.matched"
  | .intentNegotiating => "intent.negotiating"
  | .intentCommitted => "intent.committed"
  | .intentSettling => "intent.settling"
  | .intentFulfilled => "intent.fulfilled"
  | .intentExpired => "intent.expired"
  | .intentCancelled => "intent.cancelled"
  | .intentFailed => "intent.failed"
  | .openp2pTradeCreated => "openp2p.trade.created"
  | .openp2pTradeStatusChanged => "openp2p.trade.status_changed"
  | .openp2pTradeCompleted => "openp2p.trade.completed"
  | .openp2pTradeDisputed => "openp2p.trade.disputed"
  | .openp2pTradeCancelled => "openp2p.trade.cancelled"
  | .openp2pMessageSent => "openp2p.message.sent"
  | .settlementEscrowCreated => "settlement.escrow.created"
  | .settlementEscrowLocked => "settlement.escrow.locked"
  | .settlementEscrowPaymentPending => "settlement.escrow.payment_pending"
  | .settlementEscrowReleased => "settlement.escrow.released"
  | .settlementEscrowDisputed => "settlement.escrow.disputed"
  | .settlementEscrowRefunded => "settlement.escrow.refunded"
  | .settlementEscrowSplit => "settlement.escrow.split"
  | .settlementEscrowExpired => "settlement.escrow.expired"
  | .reputationScoreUpdated => "reputation.score.updated"
  | .reputationVouchCreated => "reputation.vouch.created"
  | .reputationVouchBurned => "reputation.vouch.burned"
  | .liquidityOfferCreated => "liquidity.offer.created"
  | .liquidityOfferStatusChanged => "liquidity.offer.status_changed"
  | .claimAsserted => "claim.asserted"
  | .proofSubmitted => "proof.submitted"
  | .proofHashMismatchDetected => "proof.hash_mismatch_detected"
  | .proofDuplicateDetected => "proof.duplicate_detected"
  | .verificationAccepted => "verification.accepted"
  | .verificationRejected => "verification.rejected"
  | .disputeOpened => "dispute.opened"
  | .disputeEvidenceSubmitted => "dispute.evidence_submitted"
  | .disputeArbitrated => "dispute.arbitrated"
  | .disputeResolved => "dispute.resolved"
  | .disputeAppealed => "dispute.appealed"
  | .disputeSettlementCorrespondenceEvaluated => "dispute.settlement.correspondence_evaluated"
  | .disputeAutoResolutionProposed => "dispute.auto_resolution_proposed"
  | .disputeAutoResolutionContested => "dispute.auto_resolution_contested"
  | .arbiterSlashed => "arbiter.slashed"
  | .negotiationOpened => "negotiation.opened"
  | .negotiationEventReceived => "negotiation.event_received"
  | .negotiationTermsAgreed => "negotiation.terms_agreed"
  | .negotiationAbandoned => "negotiation.abandoned"
  | .negotiationReconciled => "negotiation.reconciled"
  | .peerConnected => "peer.connected"
  | .peerDisconnected => "peer.disconnected"
  | .agentsSocialEngineeringRiskDetected => "agents.social_engineering.risk_detected"
  | .liquidityOfferContentRiskDetected => "liquidity.offer.content_risk_detected"
  | .securitySuspiciousActivityDetected => "security.suspicious_activity.detected"

/-- The names of all events. -/
def SailsEventName.all : List SailsEventName :=
  [.intentCreated, .intentValidated, .intentCoordinated, .intentDiscovering, .intentMatched,
   .intentNegotiating, .intentCommitted, .intentSettling, .intentFulfilled, .intentExpired,
   .intentCancelled, .intentFailed, .openp2pTradeCreated, .openp2pTradeStatusChanged,
   .openp2pTradeCompleted, .openp2pTradeDisputed, .openp2pTradeCancelled, .openp2pMessageSent,
   .settlementEscrowCreated, .settlementEscrowLocked, .settlementEscrowPaymentPending,
   .settlementEscrowReleased, .settlementEscrowDisputed, .settlementEscrowRefunded,
   .settlementEscrowSplit, .settlementEscrowExpired, .reputationScoreUpdated,
   .reputationVouchCreated, .reputationVouchBurned, .liquidityOfferCreated,
   .liquidityOfferStatusChanged, .claimAsserted, .proofSubmitted, .proofHashMismatchDetected,
   .proofDuplicateDetected, .verificationAccepted, .verificationRejected, .disputeOpened,
   .disputeEvidenceSubmitted, .disputeArbitrated, .disputeResolved, .disputeAppealed,
   .disputeSettlementCorrespondenceEvaluated, .disputeAutoResolutionProposed,
   .disputeAutoResolutionContested, .arbiterSlashed, .negotiationOpened,
   .negotiationEventReceived, .negotiationTermsAgreed, .negotiationAbandoned,
   .negotiationReconciled, .peerConnected, .peerDisconnected,
   .agentsSocialEngineeringRiskDetected, .liquidityOfferContentRiskDetected,
   .securitySuspiciousActivityDetected]

/-- The name as a JavaScript string. -/
def SailsEventName.text (n : SailsEventName) : JsString := js n.name

/-- The `json` column : a text that is JSON, kept as it was given. -/
structure JsonColumn where
  text : JsString
  valid : (Json.parse text).isSome = true

/-- A value as it is written to a column. -/
def JsonColumn.write (v : Json) : JsonColumn :=
  ⟨v.stringify, by rw [v.parse_stringify, Option.isSome_some]⟩

/-- The value that a column is read as. -/
def JsonColumn.read (c : JsonColumn) : Json := (Json.parse c.text).get c.valid

theorem JsonColumn.read_write (v : Json) : (JsonColumn.write v).read = v :=
  Option.get_of_mem _ v.parse_stringify

/-- `DurableEventRecord`. -/
structure Row where
  id : ℕ
  eventName : SailsEventName
  correlationId : ℕ
  payload : JsonColumn
  publishedAt : IsoTimestamp
  entryHash : JsString
  prevHash : JsString

/-- An event as the log returns it. -/
structure DurableEvent where
  eventId : ℕ
  eventName : SailsEventName
  correlationId : ℕ
  payload : Json
  publishedAt : IsoTimestamp
  entryHash : JsString
  prevHash : JsString

/-- `GENESIS_HASH`. -/
def genesisHash : JsString := js "genesis"

/-- What is hashed of an entry. -/
def entryText (eventName publishedAt payload prevHash : JsString) : JsString :=
  eventName ++ 0x3A :: (publishedAt ++ 0x3A :: (payload ++ 0x3A :: prevHash))

section Log

variable (sha256 : List UInt8 → List UInt8)

/-- `computeEntryHash`. -/
def computeEntryHash (eventName : SailsEventName) (publishedAt : IsoTimestamp) (payload : Json)
    (prevHash : JsString) : JsString :=
  hexDigest sha256 (entryText eventName.text publishedAt.text payload.stringify prevHash)

/-! ## Writing -/

/-- What `publish` is called with, and the id of the new event. -/
structure Publication where
  eventId : ℕ
  eventName : SailsEventName
  payload : Json
  correlationId : ℕ

/-- What rows are ordered by. -/
def publishedKey (row : Row) : List ℕ := codeUnits row.publishedAt.text

/-- The timestamp one millisecond after a row's. An invalid date throws. -/
def bumped (last : Row) : Option IsoTimestamp := do
  let date ← last.publishedAt.toDate
  let next ← dateOfMs (date.ms + 1)
  some next.iso

/-- The timestamp of a new row. -/
def nextPublishedAt (last : Option Row) (clock : Date) : Option IsoTimestamp :=
  match last with
  | none => some clock.iso
  | some last =>
    if codeUnits clock.iso.text ≤ publishedKey last then bumped last else some clock.iso

/-- The row `publish` creates. -/
def publishedRow (p : Publication) (last : Option Row) (clock : Date) : Option Row := do
  let prevHash := (last.map Row.entryHash).getD genesisHash
  let publishedAt ← nextPublishedAt last clock
  some
    { id := p.eventId
      eventName := p.eventName
      correlationId := p.correlationId
      payload := .write p.payload
      publishedAt := publishedAt
      entryHash := computeEntryHash sha256 p.eventName publishedAt p.payload prevHash
      prevHash := prevHash }

/-- A transaction of `publish` : what it found last, the clock of its instance, and whether
it commits. -/
structure Transaction where
  publication : Publication
  last : Option Row
  clock : Date
  commits : Bool

/-- The rows of a correlation id. -/
def rowsOf (correlationId : ℕ) (rows : List Row) : List Row :=
  rows.filter (·.correlationId = correlationId)

/-- The rows after a transaction. One that throws leaves nothing. -/
def Transaction.run (t : Transaction) (rows : List Row) : List Row :=
  match publishedRow sha256 t.publication t.last t.clock with
  | some row => if t.commits then rows ++ [row] else rows
  | none => rows

/-- The logs that are reached by transactions that meet `A`. What a transaction found last is
an answer to its query. -/
inductive Reached (A : List Row → Transaction → Prop) : List Row → Prop where
  | empty : Reached A []
  | step {rows : List Row} {t : Transaction} (hrows : Reached A rows)
      (hlast : Latest publishedKey (rowsOf t.publication.correlationId rows) t.last)
      (ht : A rows t) : Reached A (t.run sha256 rows)

/-! ## Reading -/

/-- `toDurableEvent`. -/
def toDurableEvent (row : Row) : DurableEvent where
  eventId := row.id
  eventName := row.eventName
  correlationId := row.correlationId
  payload := row.payload.read
  publishedAt := row.publishedAt
  entryHash := row.entryHash
  prevHash := row.prevHash

/-- The answers of `getEvents`. -/
def GetEvents (rows : List Row) (correlationId : ℕ) (events : List DurableEvent) : Prop :=
  ∃ out, Ascending publishedKey (rowsOf correlationId rows) out ∧ events = out.map toDurableEvent

/-- What the verifier answers. -/
inductive Verdict where
  | valid
  | brokenAt (index : ℕ)
  deriving DecidableEq, Repr

/-- The loop of `verifyChain`. -/
def verifyFrom : ℕ → JsString → List DurableEvent → Verdict
  | _, _, [] => .valid
  | i, expectedPrevHash, event :: events =>
    let recomputed :=
      computeEntryHash sha256 event.eventName event.publishedAt event.payload event.prevHash
    if event.prevHash ≠ expectedPrevHash ∨ event.entryHash ≠ recomputed then .brokenAt i
    else verifyFrom (i + 1) event.entryHash events

/-- `verifyChain`. -/
def verifyChain (events : List DurableEvent) : Verdict := verifyFrom sha256 0 genesisHash events

/-- The chain format of events. -/
abbrev format : Format DurableEvent (SailsEventName × JsString × JsString) JsString where
  body e := (e.eventName, e.publishedAt.text, e.payload.stringify)
  prev := DurableEvent.prevHash
  hash := DurableEvent.entryHash
  digest b h := hexDigest sha256 (entryText b.1.text b.2.1 b.2.2 h)
  genesis := genesisHash

variable {sha256}

/-- The loop accepts the events that are linked. -/
theorem verifyFrom_eq_valid {events : List DurableEvent} {i : ℕ} {h : JsString} :
    verifyFrom sha256 i h events = .valid ↔ Linked (format sha256) h events := by
  induction events generalizing i h with
  | nil => exact iff_of_true rfl trivial
  | cons e events ih =>
    rw [verifyFrom, Linked, ← ih]
    dsimp only
    split
    · next hbroken =>
      refine iff_of_false (fun h => by cases h) fun hlinked => ?_
      rcases hbroken with hprev | hhash
      · exact hprev hlinked.1
      · exact hhash hlinked.2.1
    · next hok =>
      rw [not_or, not_not, not_not] at hok
      exact ⟨fun h => ⟨hok.1, hok.2, h⟩, fun h => h.2.2⟩

theorem verifyChain_eq_valid {events : List DurableEvent} :
    verifyChain sha256 events = .valid ↔ Linked (format sha256) genesisHash events :=
  verifyFrom_eq_valid

/-! ## The log that is written -/

/-- The years that are written with four digits. -/
def InYears (t : ℤ) : Prop := 0 ≤ yearOf t ∧ yearOf t ≤ 9999

instance (t : ℤ) : Decidable (InYears t) := inferInstanceAs (Decidable (_ ∧ _))

/-- The last of them. -/
def lastDate : Date := ⟨253402300799999, by decide⟩

theorem yearOf_mono {t t' : ℤ} (h : t ≤ t') : yearOf t ≤ yearOf t' :=
  yearFromDay_mono (Int.ediv_le_ediv (by decide) h)

/-- No time of a four digit year is after the last one. -/
theorem le_lastDate {t : ℤ} (h : InYears t) : t ≤ lastDate.ms := by
  by_contra hlt
  have hnext : (253402300800000 : ℤ) ≤ t := by
    have hms : lastDate.ms = 253402300799999 := rfl
    omega
  have hyear := yearOf_mono hnext
  have h10000 : yearOf 253402300800000 = 10000 := by decide
  have := h.2
  omega

/-- The next millisecond is of a four digit year, unless it is the last one. -/
theorem InYears.succ {t : ℤ} (h : InYears t) (hne : t ≠ lastDate.ms) : InYears (t + 1) := by
  have hlast : t + 1 ≤ lastDate.ms := by
    have := le_lastDate h
    omega
  have h9999 : yearOf lastDate.ms = 9999 := by decide
  have hup := yearOf_mono hlast
  have hdown := yearOf_mono (show t ≤ t + 1 by omega)
  have := h.1
  constructor <;> omega

/-- A transaction that commits has a clock of those years, and does not find the last
millisecond of them. -/
def Timely (_ : List Row) (t : Transaction) : Prop :=
  t.commits = true → InYears t.clock.ms ∧ ∀ l, t.last = some l → l.publishedAt ≠ lastDate.iso

/-- What holds of the rows of a correlation id, in the order of their commits. -/
structure Chained (sha256 : List UInt8 → List UInt8) (rows : List Row) : Prop where
  dated : ∀ r ∈ rows, ∃ d : Date, InYears d.ms ∧ r.publishedAt = d.iso
  increasing : Increasing publishedKey rows
  linked : Linked (format sha256) genesisHash (rows.map toDurableEvent)

/-- The time after that of a row is later and of a four digit year. -/
theorem bumped_eq {l : Row} {d : Date} (hl : l.publishedAt = d.iso) (hd : InYears d.ms)
    (hne : l.publishedAt ≠ lastDate.iso) :
    ∃ next : Date, bumped l = some next.iso ∧ InYears next.ms ∧ d.ms < next.ms := by
  have hms : d.ms ≠ lastDate.ms := by
    intro h
    have hdate : d = lastDate := by
      cases d
      exact (Date.mk.injEq ..).mpr h
    exact hne (hl.trans (congrArg Date.iso hdate))
  have hclipped : Clipped (d.ms + 1) := by
    have hle := le_lastDate hd
    have hlast : lastDate.ms = 253402300799999 := rfl
    have := d.clipped
    unfold Clipped at this ⊢
    omega
  refine ⟨⟨d.ms + 1, hclipped⟩, ?_, hd.succ hms, Int.lt_succ d.ms⟩
  rw [bumped, hl, Date.toDate_iso hd, Option.bind_eq_bind, Option.bind_some, dateOfMs,
    dif_pos hclipped]
  rfl

/-- A new row comes after all rows there are, also when the clock does not. -/
theorem Chained.nextPublishedAt {rows : List Row} (hrows : Chained sha256 rows) {clock : Date}
    (hclock : InYears clock.ms)
    (hne : ∀ l, rows.getLast? = some l → l.publishedAt ≠ lastDate.iso) :
    ∃ d : Date, EventLog.nextPublishedAt rows.getLast? clock = some d.iso ∧ InYears d.ms ∧
      ∀ r ∈ rows, publishedKey r < codeUnits d.iso.text := by
  cases hlast : rows.getLast? with
  | none =>
    obtain rfl := List.getLast?_eq_none_iff.mp hlast
    exact ⟨clock, rfl, hclock, nofun⟩
  | some l =>
    obtain ⟨dl, hdl, hl⟩ := hrows.dated l (List.mem_of_getLast? hlast)
    rw [EventLog.nextPublishedAt]
    split
    · obtain ⟨next, hnext, hin, hlt⟩ := bumped_eq hl hdl (hne l hlast)
      refine ⟨next, hnext, hin, hrows.increasing.lt_of_getLast? hlast ?_⟩
      rw [publishedKey, hl]
      exact toISOString_lt hlt hdl.1 hin.2
    · next hle =>
      exact ⟨clock, rfl, hclock, hrows.increasing.lt_of_getLast? hlast (not_le.mp hle)⟩

/-- The tip of the log is the hash of its last row. -/
theorem tip_rows (rows : List Row) : tip (format sha256) genesisHash (rows.map toDurableEvent) =
    (rows.getLast?.map Row.entryHash).getD genesisHash := by
  cases hlast : rows.getLast? with
  | none =>
    obtain rfl := List.getLast?_eq_none_iff.mp hlast
    rfl
  | some l =>
    have hmap : (rows.map toDurableEvent).getLast? = some (toDurableEvent l) := by
      rw [List.getLast?_map, hlast, Option.map_some]
    rw [tip_of_getLast? hmap]
    rfl

/-- The row of a transaction prolongs the chain. -/
theorem Chained.publish {rows : List Row} (hrows : Chained sha256 rows) {p : Publication}
    {clock : Date} (hclock : InYears clock.ms)
    (hne : ∀ l, rows.getLast? = some l → l.publishedAt ≠ lastDate.iso) {row : Row}
    (hrow : publishedRow sha256 p rows.getLast? clock = some row) :
    Chained sha256 (rows ++ [row]) := by
  obtain ⟨d, hnext, hin, hafter⟩ := hrows.nextPublishedAt hclock hne
  rw [publishedRow, hnext, Option.bind_eq_bind, Option.bind_some] at hrow
  obtain rfl := Option.some.inj hrow
  refine ⟨fun r hr => ?_, hrows.increasing.concat hafter, ?_⟩
  · rcases List.mem_append.mp hr with hr | hr
    · exact hrows.dated r hr
    · exact ⟨d, hin, by rw [List.mem_singleton.mp hr]⟩
  · rw [List.map_append, List.map_singleton, linked_concat, tip_rows]
    refine ⟨hrows.linked, rfl, ?_⟩
    dsimp only [toDurableEvent]
    rw [JsonColumn.read_write]
    rfl

theorem correlationId_of_publishedRow {p : Publication} {last : Option Row} {clock : Date}
    {row : Row} (hrow : publishedRow sha256 p last clock = some row) :
    row.correlationId = p.correlationId := by
  obtain ⟨publishedAt, -, hrow⟩ := Option.bind_eq_some_iff.mp hrow
  obtain rfl := Option.some.inj hrow
  rfl

/-- The rows of every correlation id are one chain. -/
theorem Reached.chained {rows : List Row} (h : Reached sha256 Timely rows) (correlationId : ℕ) :
    Chained sha256 (rowsOf correlationId rows) := by
  induction h with
  | empty => exact ⟨nofun, List.Pairwise.nil, trivial⟩
  | @step rows t _ hlast ht ih =>
    rw [Transaction.run]
    split
    · next row hrow =>
      split
      · next hcommits =>
        have hid := correlationId_of_publishedRow hrow
        rw [rowsOf, List.filter_append]
        by_cases hsame : row.correlationId = correlationId
        · rw [List.filter_singleton, decide_eq_true hsame]
          obtain ⟨hclock, hne⟩ := ht hcommits
          rw [← hid, hsame] at hlast
          have hgetLast := ih.increasing.latest_iff.mp hlast
          rw [hgetLast] at hne hrow
          exact ih.publish hclock hne hrow
        · rw [List.filter_singleton, decide_eq_false hsame, cond_false, List.append_nil]
          exact ih
      · exact ih
    · exact ih

/-- What the log of a correlation id is for. -/
structure Verifies (sha256 : List UInt8 → List UInt8) (rows : List Row) (correlationId : ℕ) :
    Prop where
  increasing : Increasing publishedKey (rowsOf correlationId rows)
  read : ∀ events, GetEvents rows correlationId events ↔
    events = (rowsOf correlationId rows).map toDurableEvent
  valid : ∀ events, GetEvents rows correlationId events → verifyChain sha256 events = .valid

/-- While the clocks show years of four digits, the log of every correlation id has increasing
timestamps, is read in the order of its commits, and verifies. -/
theorem log_verifies {rows : List Row} (h : Reached sha256 Timely rows) (correlationId : ℕ) :
    Verifies sha256 rows correlationId := by
  have hchained := h.chained correlationId
  have hread : ∀ events, GetEvents rows correlationId events ↔
      events = (rowsOf correlationId rows).map toDurableEvent := by
    intro events
    simp only [GetEvents, hchained.increasing.ascending_iff, exists_eq_left]
  refine ⟨hchained.increasing, hread, fun events hevents => ?_⟩
  rw [(hread events).mp hevents]
  exact verifyChain_eq_valid.mpr hchained.linked

/-! ### Two events at one reading of the clock -/

/-- The digests of the two events. -/
def sampleDigests : List (List UInt8 × List UInt8) :=
  [(toUtf8 (js "intent.created:2026-01-01T00:00:00.000Z:\x7b\"intentId\":\"i1\"\x7d:genesis"),
    [0xEF, 0xB9, 0x57, 0x11, 0x02, 0xF6, 0xA6, 0x9E, 0x47, 0x8A, 0x3F, 0x6A,
      0xD0, 0xE6, 0x54, 0xBE, 0x61, 0xC3, 0xD9, 0x3E, 0xD3, 0xF3, 0x8C, 0x3E,
      0xF0, 0xCE, 0xA8, 0xF5, 0x29, 0x92, 0x3B, 0x42]),
   (toUtf8 (js ("intent.validated:2026-01-01T00:00:00.001Z:\x7b\"intentId\":\"i1\"\x7d:" ++
      "efb9571102f6a69e478a3f6ad0e654be61c3d93ed3f38c3ef0cea8f529923b42")),
    [0xD6, 0x3B, 0x7E, 0x70, 0x8A, 0xC2, 0x81, 0x1C, 0x70, 0xD5, 0x63, 0x2D,
      0x4A, 0x30, 0x4B, 0xA5, 0x40, 0xD9, 0x89, 0x2A, 0xC7, 0x14, 0xEB, 0x3B,
      0x9B, 0x96, 0x0E, 0xCC, 0xCE, 0xC2, 0xD6, 0x3A])]

/-- The payload of the sample. -/
def samplePayload : Json := .obj [(js "intentId", .str (js "i1"))]

/-- The start of 2026. -/
def newYear : Date := ⟨1767225600000, by decide⟩

/-- The first publication of the sample. -/
def createdTransaction : Transaction := ⟨⟨1, .intentCreated, samplePayload, 7⟩, none, newYear, true⟩

/-- The log after it. -/
def createdRows : List Row := createdTransaction.run (tableHash sampleDigests) []

/-- The clock still shows the same millisecond. -/
def validatedTransaction : Transaction :=
  ⟨⟨2, .intentValidated, samplePayload, 7⟩, createdRows.getLast?, newYear, true⟩

/-- The log after the second publication. -/
def validatedRows : List Row := validatedTransaction.run (tableHash sampleDigests) createdRows

/-- The log of the sample is reached. -/
theorem reached_validatedRows : Reached (tableHash sampleDigests) Timely validatedRows := by
  have hyear : InYears newYear.ms := by decide
  have hcreated : Reached (tableHash sampleDigests) Timely createdRows :=
    .step .empty rfl fun _ => ⟨hyear, nofun⟩
  refine .step hcreated ((hcreated.chained 7).increasing.latest_iff.mpr rfl) fun _ => ⟨hyear, ?_⟩
  rintro l ⟨⟩ hiso
  have hdate : newYear = lastDate := Date.toISOString_inj (congrArg IsoTimestamp.text hiso)
  exact absurd (congrArg Date.ms hdate) (by decide)

theorem log_verifies_validated : validatedRows.length = 2 ∧
    Verifies (tableHash sampleDigests) validatedRows 7 :=
  ⟨by decide, log_verifies reached_validatedRows 7⟩

/-! ### The last millisecond of 9999 -/

/-- A publication at the last time of a four digit year. -/
def lastTransaction : Transaction := ⟨⟨1, .intentCreated, samplePayload, 7⟩, none, lastDate, true⟩

/-- The log after it. -/
def lastRows : List Row := lastTransaction.run (tableHash []) []

/-- The next timestamp is `+010000-01-01T00:00:00.000Z`. -/
def afterTransaction : Transaction :=
  ⟨⟨2, .intentValidated, samplePayload, 7⟩, lastRows.getLast?, lastDate, true⟩

/-- The log after one more publication. -/
def afterRows : List Row := afterTransaction.run (tableHash []) lastRows

/-- The row after it sorts before it, so the two are read in the wrong order. -/
theorem log_out_of_order : Reached (tableHash []) (fun _ _ => True) afterRows ∧
    ¬ Increasing publishedKey (rowsOf 7 afterRows) ∧
    ∃ events, GetEvents afterRows 7 events ∧
      verifyChain (tableHash []) events = .brokenAt 0 := by
  have hone : Increasing publishedKey (rowsOf 7 lastRows) := List.pairwise_singleton _ _
  have hrows : rowsOf 7 afterRows = afterRows := by
    have hall : afterRows.all (·.correlationId = 7) = true := by decide
    exact List.filter_eq_self.mpr (List.all_eq_true.mp hall)
  refine ⟨.step (.step .empty rfl trivial) (hone.latest_iff.mpr rfl) trivial, ?_,
    afterRows.reverse.map toDurableEvent, ⟨afterRows.reverse, ⟨?_, ?_⟩, rfl⟩, ?_⟩
  · rw [hrows]
    decide
  · rw [hrows]
    exact List.reverse_perm _
  · decide
  · decide

/-! ## What a head hash determines -/

theorem SailsEventName.mem_all (n : SailsEventName) : n ∈ SailsEventName.all := by
  cases n <;> exact List.mem_of_elem_eq_true rfl

/-- The names are plain and have no colon. -/
theorem SailsEventName.units (n : SailsEventName) :
    n.text.all (fun u => u.toNat < 0x80 && u != 0x3A) = true := by
  cases n <;> rw [text, name, js_ofList] <;> decide

/-- The names differ. -/
theorem SailsEventName.nodup_texts : (SailsEventName.all.map SailsEventName.text).Nodup := by
  simp only [all, List.map_cons, List.map_nil, text, name]
  repeat rw [js_ofList]
  decide +kernel

theorem SailsEventName.text_injective : Function.Injective SailsEventName.text :=
  fun n n' h => List.inj_on_of_nodup_map SailsEventName.nodup_texts n.mem_all n'.mem_all h

theorem SailsEventName.not_mem_text (n : SailsEventName) : 0x3A ∉ n.text := by
  intro h
  have := List.all_eq_true.mp n.units _ h
  simp at this

theorem SailsEventName.whole_text (n : SailsEventName) : Whole n.text := by
  refine whole_of_plain fun u hu => plain_of_lt ?_
  have := List.all_eq_true.mp n.units u hu
  rw [Bool.and_eq_true, decide_eq_true_eq] at this
  omega

theorem whole_timestamp (p : IsoTimestamp) : Whole p.text := by
  refine whole_of_plain fun u hu => plain_of_lt ?_
  have := p.ascii hu
  omega

theorem genesisHash_units : 0x3A ∉ genesisHash ∧ Whole genesisHash := by
  have hunits : genesisHash.all (fun u => !isSurrogate u && u != 0x3A) = true := by decide
  rw [List.all_eq_true] at hunits
  refine ⟨fun h => ?_, whole_of_plain fun u hu => ?_⟩
  · simpa using hunits _ h
  · have := hunits u hu
    rw [Bool.and_eq_true, Bool.not_eq_true_eq_eq_false] at this
    exact this.1

/-- The genesis hash starts with a `g`, which is no hex digit. -/
theorem genesisHash_head : (0x67 : UInt16) ∈ genesisHash := by
  decide

/-- A hash an entry points at has no colon, and no surrogate. -/
theorem link_units {h : JsString} (hlink : Link (format sha256) h) : 0x3A ∉ h ∧ Whole h := by
  rcases hlink with rfl | ⟨e, h', rfl⟩
  · exact genesisHash_units
  · exact ⟨not_mem_hexDigest (by decide) _, whole_of_plain fun u hu => plain_of_mem_hexDigest hu⟩

theorem whole_entryText {n p j h : JsString} (hn : Whole n) (hp : Whole p) (hj : Whole j)
    (hh : Whole h) : Whole (entryText n p j h) := by
  have hcolon : isSurrogate 0x3A = false := by decide
  exact hn.append (Whole.cons hcolon (hp.append (Whole.cons hcolon
    (hj.append (Whole.cons hcolon hh)))))

/-- The parts of an entry are found again in its text : the name ends at the first colon, the
timestamp has its own length, and the hash starts after the last colon. -/
theorem entryText_inj {n n' : SailsEventName} {p p' : IsoTimestamp} {j j' h h' : JsString}
    (hh : 0x3A ∉ h) (hh' : 0x3A ∉ h')
    (heq : entryText n.text p.text j h = entryText n'.text p'.text j' h') :
    n.text = n'.text ∧ p.text = p'.text ∧ j = j' ∧ h = h' := by
  obtain ⟨hn, hrest⟩ := split_first n.not_mem_text n'.not_mem_text heq
  obtain ⟨hp, hrest⟩ := IsoTimestamp.append_inj hrest
  obtain ⟨hj, hhash⟩ := split_last hh hh' (List.cons.inj hrest).2
  exact ⟨hn, hp, hj, hhash⟩

/-- Without a collision the hash binds what is hashed. -/
theorem format_binding (hsha : Function.Injective sha256) : Binding (format sha256) := by
  refine ⟨fun {e e' h h'} hh hh' heq => ?_, fun e h heq => ?_⟩
  · obtain ⟨hcolon, hwhole⟩ := link_units hh
    obtain ⟨hcolon', hwhole'⟩ := link_units hh'
    have htext := hexDigest_inj hsha
      (whole_entryText e.eventName.whole_text (whole_timestamp e.publishedAt)
        e.payload.whole_stringify hwhole).toWellFormed_eq
      (whole_entryText e'.eventName.whole_text (whole_timestamp e'.publishedAt)
        e'.payload.whole_stringify hwhole').toWellFormed_eq heq
    obtain ⟨hn, hp, hj, hhash⟩ := entryText_inj hcolon hcolon' htext
    exact ⟨Prod.ext (SailsEventName.text_injective hn) (Prod.ext hp hj), hhash⟩
  · have hg : (0x67 : UInt16) ∈ (format sha256).digest ((format sha256).body e) h := by
      rw [heq]
      exact genesisHash_head
    exact not_mem_hexDigest (by decide) _ hg

/-- Two entries agree in everything that is hashed, and in their hashes. -/
structure SameEntry (e e' : DurableEvent) : Prop where
  eventName : e.eventName = e'.eventName
  publishedAt : e.publishedAt = e'.publishedAt
  payload : e.payload.stringify = e'.payload.stringify
  prevHash : e.prevHash = e'.prevHash
  entryHash : e.entryHash = e'.entryHash

theorem sameEntry_of_content {e e' : DurableEvent}
    (h : content (format sha256) e = content (format sha256) e') : SameEntry e e' := by
  simp only [content, Prod.mk.injEq] at h
  obtain ⟨⟨hname, hpublished, hpayload⟩, hprev, hhash⟩ := h
  exact ⟨hname, IsoTimestamp.ext hpublished, hpayload, hprev, hhash⟩

/-- The log is tamper evident : two lists of events that verify and end in one entry hash have
the same length and agree at every position. -/
theorem head_determines_log (hsha : Function.Injective sha256) {events events' : List DurableEvent}
    (hvalid : verifyChain sha256 events = .valid) (hvalid' : verifyChain sha256 events' = .valid)
    {e e' : DurableEvent} (hlast : events.getLast? = some e) (hlast' : events'.getLast? = some e')
    (hhead : e.entryHash = e'.entryHash) :
    events.length = events'.length ∧
      ∀ (i : ℕ) (a b : DurableEvent), events[i]? = some a → events'[i]? = some b →
        SameEntry a b := by
  have htip : tip (format sha256) genesisHash events = tip (format sha256) genesisHash events' := by
    rw [tip_of_getLast? hlast, tip_of_getLast? hlast']
    exact hhead
  have hmap := Linked.eq_of_tip (format_binding hsha) (verifyChain_eq_valid.mp hvalid)
    (verifyChain_eq_valid.mp hvalid') htip
  refine ⟨by simpa using congrArg List.length hmap, fun i a b ha hb => ?_⟩
  have hi := congrArg (fun l => l[i]?) hmap
  simp only [List.getElem?_map, ha, hb, Option.map_some, Option.some.injEq] at hi
  exact sameEntry_of_content hi

/-- The two events of one millisecond. -/
theorem head_determines_log_validated :
    verifyChain (tableHash sampleDigests) (validatedRows.map toDurableEvent) = .valid ∧
      ∀ (i : ℕ) (a b : DurableEvent), (validatedRows.map toDurableEvent)[i]? = some a →
        (validatedRows.map toDurableEvent)[i]? = some b → SameEntry a b := by
  have hvalid : verifyChain (tableHash sampleDigests) (validatedRows.map toDurableEvent) =
      .valid := by decide +kernel
  cases hlast : (validatedRows.map toDurableEvent).getLast? with
  | none => exact absurd (congrArg Option.isSome hlast) (by decide)
  | some e =>
    exact ⟨hvalid, (head_determines_log (tableHash_injective (by decide)) hvalid hvalid
      hlast hlast rfl).2⟩

end Log

end Sails.EventLog
