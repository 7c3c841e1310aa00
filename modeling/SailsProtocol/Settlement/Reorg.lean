import SailsProtocol.Async.Steps
import SailsProtocol.Ledger.Reads
import SailsProtocol.Settlement.Funding

/-!
# Funding evidence under the lock

The sweep, `markPaymentSent` and the signature collection of a release or a split read the
evidence of an escrow and write under one advisory lock of it, so their transactions come one
after another. What a tick saw of the chain, and how old that is, is not under the lock.
Evidence is read in the order of `recordedAt` alone, and the last row decides.

`commitments_on_trusted_funding` : when the rows are recorded at increasing times, and no
tick brings a scan that is older than a replacement it then confirms, nothing is committed to
on uncertain funding and two ticks with one view of the chain record a change once. Two ticks
that scan before either writes record a replacement and at once its reconfirmation
(`replacement_reconfirmed_at_once`).

`trusted_evidence_named` : a trusted row is about the transaction that was locked, or about one
that was recorded as its replacement before, which is not what a settlement spends
(`replacement_trusted`).
-/

namespace Sails.Settlement

open Async.Steps Reads

/-! ## Transactions -/

/-- The committed rows of one escrow, evidence in the order of commits. -/
structure FundingStore where
  status : EscrowStatus
  evidence : List FundingEvidence
  pending : Option SettlementKind
  deriving DecidableEq

/-- A tick of the sweep for the escrow. `scannedAt` is the number of rows that were committed
when it scanned, and `recordedAt` the time its row gets. -/
structure Tick where
  seen : Observation
  scannedAt : ℕ
  recordedAt : ℕ

/-- A transaction on the escrow. `read` is what it reads as evidence under the lock. -/
inductive FundingTransaction where
  | sweep (tick : Tick)
  /-- The row of `lockFunds`, written outside the lock. -/
  | observe (lock : FundingLock) (recordedAt : ℕ)
  | markPaymentSent (src : EscrowStatus) (read : List FundingEvidence)
  | initiate (kind : SettlementKind) (read : List FundingEvidence)
  | deletePending

section Funding

variable (required : ℕ) (escrow : MultisigEscrow)

/-- The row that a tick writes. -/
def Tick.row (t : Tick) : Option FundingEvidence :=
  (sweepEscrow required escrow t.seen).2.map fun input => ⟨input, t.recordedAt⟩

/-- The row that a transaction writes. -/
def FundingTransaction.row : FundingTransaction → Option FundingEvidence
  | sweep t => t.row required escrow
  | observe lock recordedAt => some ⟨lock.evidence, recordedAt⟩
  | markPaymentSent _ _ | initiate _ _ | deletePending => none

/-- What a transaction makes of the rows. -/
def FundingStore.exec (s : FundingStore) (t : FundingTransaction) : FundingStore :=
  match t with
  | .sweep _ | .observe _ _ =>
    { s with evidence := s.evidence ++ (t.row required escrow).toList }
  | .markPaymentSent src read =>
    if isFundingUncertain read then s
    else if s.status = src then { s with status := .paymentPending } else s
  | .initiate kind read =>
    if kind ≠ .refund ∧ isFundingUncertain read = true then s
    else
      match s.pending with
      | some _ => s
      | none => { s with pending := some kind }
  | .deletePending => { s with pending := none }

/-- What a transaction reads are answers to its query. -/
def FundingStore.Answers (s : FundingStore) : FundingTransaction → Prop
  | .sweep t => Ascending FundingEvidence.recordedAt s.evidence t.seen.history
  | .markPaymentSent _ read | .initiate _ read =>
    Ascending FundingEvidence.recordedAt s.evidence read
  | .observe _ _ | .deletePending => True

/-- A move to `PAYMENT_PENDING`, or a new pending release or split. -/
def FundingStore.Commits (s s' : FundingStore) : Prop :=
  (s.status ≠ .paymentPending ∧ s'.status = .paymentPending) ∨
    ∃ kind, s.pending = none ∧ s'.pending = some kind ∧ kind ≠ .refund

/-- The latest row that is committed is trustworthy, or there is none. -/
def FundingStore.Trusted (s : FundingStore) : Prop :=
  ∀ last, s.evidence.getLast? = some last → last.kind.trustworthy = true

/-- Two ticks with the same scan, the second made before the row of the first was committed,
do not record twice in a row. -/
def RecordsOnce (s₀ : FundingStore) (run : List FundingTransaction) : Prop :=
  ∀ before a between b after, run = before ++ .sweep a :: between ++ .sweep b :: after →
    let s := Async.Steps.run (FundingStore.exec required escrow) s₀ before
    let s' := Async.Steps.run (FundingStore.exec required escrow)
      (s.exec required escrow (.sweep a)) between
    rescanFunding a.seen.explorer escrow = rescanFunding b.seen.explorer escrow →
      b.scannedAt ≤ s.evidence.length → a.row required escrow ≠ none →
        s'.evidence = (s.exec required escrow (.sweep a)).evidence → b.row required escrow = none

/-- A row that is written is later than the rows there are. -/
def FundingStore.Later (s : FundingStore) (t : FundingTransaction) : Prop :=
  ∀ row, t.row required escrow = some row → ∀ r ∈ s.evidence, r.recordedAt < row.recordedAt

/-- No replacement that the tick has found was recorded since it scanned. -/
def FundingStore.Fresh (s : FundingStore) : FundingTransaction → Prop
  | .sweep t => ∀ scan, rescanFunding t.seen.explorer escrow = .ok (some scan) →
      (required : ℤ) ≤ scan.depth → ∀ r ∈ s.evidence.drop t.scannedAt,
        r.kind = .replacementObserved → r.txid ≠ some scan.txId
  | _ => True

end Funding

/-! ## What a tick writes -/

variable {required : ℕ} {escrow : MultisigEscrow}

/-- A visit of the sweep writes a reconfirmation, a replacement or a loss, each for its reason. -/
theorem decideEvidence_row {scan : Option FundingScan} {last : FundingEvidence}
    {input : RecordFundingEvidenceInput} (h : (decideEvidence required scan last).2 = some input) :
    (∃ s, scan = some s ∧ (required : ℤ) ≤ s.depth ∧ last.txid = some s.txId ∧
        input = s.evidence .reconfirmed) ∨
      (∃ s, scan = some s ∧ (required : ℤ) ≤ s.depth ∧ input = s.evidence .replacementObserved) ∨
      (input = last.invalidated ∧ ∀ s, scan = some s → s.depth < required) := by
  cases scan with
  | none =>
    rw [decideEvidence] at h
    split_ifs at h
    exact .inr (.inr ⟨(Option.some.inj h).symm, fun _ h => by cases h⟩)
  | some s =>
    rw [decideEvidence] at h
    split_ifs at h with hdeep htxid htrust hkind htrust
    · exact .inl ⟨s, rfl, hdeep, htxid, (Option.some.inj h).symm⟩
    · exact .inr (.inl ⟨s, rfl, hdeep, (Option.some.inj h).symm⟩)
    · refine .inr (.inr ⟨(Option.some.inj h).symm, ?_⟩)
      rintro _ ⟨⟩
      exact not_le.mp hdeep

/-- A tick that writes has scanned, and decides on the last row it reads. -/
theorem Tick.row_eq_some {t : Tick} {row : FundingEvidence}
    (h : t.row required escrow = some row) : t.seen.peek ≠ [] ∧ ∃ scan last,
      rescanFunding t.seen.explorer escrow = .ok scan ∧ t.seen.history.getLast? = some last ∧
      (decideEvidence required scan last).2 = some row.toRecordFundingEvidenceInput ∧
      row.recordedAt = t.recordedAt := by
  obtain ⟨input, hinput, rfl⟩ := Option.map_eq_some_iff.mp h
  rw [sweepEscrow] at hinput
  split_ifs at hinput with hpeek
  refine ⟨hpeek, ?_⟩
  cases hkeys : t.seen.pubkeys with
  | error e =>
    rw [hkeys] at hinput
    cases hinput
  | ok keys =>
    cases hscan : rescanFunding t.seen.explorer escrow with
    | error e =>
      rw [hkeys, hscan] at hinput
      cases hinput
    | ok scan =>
      simp only [hkeys, hscan, sweepUnderLock] at hinput
      cases hlast : t.seen.history.getLast? with
      | none =>
        rw [hlast] at hinput
        cases hinput
      | some last =>
        rw [hlast] at hinput
        exact ⟨scan, last, rfl, rfl, hinput, rfl⟩

/-- The same scan does not write again after its own row, unless that is a replacement. -/
theorem decideEvidence_again {scan : Option FundingScan} {last row : FundingEvidence}
    (h : (decideEvidence required scan last).2 = some row.toRecordFundingEvidenceInput)
    (hkind : row.kind ≠ .replacementObserved) : (decideEvidence required scan row).2 = none := by
  obtain ⟨s, rfl, hdeep, -, hrow⟩ | ⟨s, -, -, hrow⟩ | ⟨hrow, hshallow⟩ := decideEvidence_row h
  · have htxid : row.txid = some s.txId := by rw [hrow]; rfl
    have htrust : row.kind.trustworthy = true := by rw [hrow]; rfl
    rw [decideEvidence, if_pos hdeep, if_pos htxid, if_pos htrust]
  · exact absurd (by rw [hrow]; rfl) hkind
  · have hreorged : row.kind = .reorgedInvalidated := by rw [hrow]; rfl
    cases scan with
    | none => rw [decideEvidence, if_neg (not_not.mpr hreorged)]
    | some s =>
      rw [decideEvidence, if_neg (not_le.mpr (hshallow s rfl)), hreorged]
      rfl

/-- A replacement is the one that was scanned. -/
theorem decideEvidence_replacement {scan : Option FundingScan} {last row : FundingEvidence}
    (h : (decideEvidence required scan last).2 = some row.toRecordFundingEvidenceInput)
    (hkind : row.kind = .replacementObserved) :
    ∃ s, scan = some s ∧ (required : ℤ) ≤ s.depth ∧ row.txid = some s.txId := by
  obtain ⟨s, -, -, -, hrow⟩ | ⟨s, hs, hdeep, hrow⟩ | ⟨hrow, -⟩ := decideEvidence_row h
  · rw [hrow] at hkind
    exact nomatch hkind
  · exact ⟨s, hs, hdeep, by rw [hrow]; rfl⟩
  · rw [hrow] at hkind
    exact nomatch hkind

/-! ## One transaction -/

variable {s : FundingStore} {t : FundingTransaction}

/-- A transaction adds at most its own row. -/
theorem exec_evidence (s : FundingStore) (t : FundingTransaction) :
    (s.exec required escrow t).evidence = s.evidence ++ (t.row required escrow).toList := by
  cases t with
  | sweep t => rfl
  | observe lock recordedAt => rfl
  | markPaymentSent src read =>
    simp only [FundingStore.exec]
    split_ifs <;> simp [FundingTransaction.row]
  | initiate kind read =>
    simp only [FundingStore.exec]
    split_ifs
    · simp [FundingTransaction.row]
    · cases s.pending <;> simp [FundingTransaction.row]
  | deletePending => simp [FundingStore.exec, FundingTransaction.row]

theorem exec_evidence_some {row : FundingEvidence} (h : t.row required escrow = some row) :
    (s.exec required escrow t).evidence = s.evidence ++ [row] := by
  rw [exec_evidence, h]
  rfl

theorem FundingStore.Later.increasing (h : s.Later required escrow t)
    (hs : Increasing FundingEvidence.recordedAt s.evidence) :
    Increasing FundingEvidence.recordedAt (s.exec required escrow t).evidence := by
  rw [exec_evidence]
  cases hrow : t.row required escrow with
  | none => simpa using hs
  | some row => exact hs.concat (h row hrow)

/-- Read in the order of commits, the last row decides. -/
theorem trusted_of_read (hs : Increasing FundingEvidence.recordedAt s.evidence)
    {read : List FundingEvidence} (hread : Ascending FundingEvidence.recordedAt s.evidence read)
    (hcertain : isFundingUncertain read = false) : s.Trusted := by
  intro last hlast
  rw [hs.ascending_iff] at hread
  rw [hread, isFundingUncertain, hlast] at hcertain
  simpa using hcertain

theorem not_commits_of_same {s' : FundingStore} (hstatus : s'.status = s.status)
    (hpending : s'.pending = s.pending) : ¬s.Commits s' := by
  rintro (⟨hne, h⟩ | ⟨kind, hnone, h, -⟩)
  · exact hne (hstatus ▸ h)
  · exact nomatch hnone.symm.trans (hpending.symm.trans h)

/-- What commits on a good read commits on trusted funding. -/
theorem trusted_of_commits (hs : Increasing FundingEvidence.recordedAt s.evidence)
    (hread : s.Answers t) (h : s.Commits (s.exec required escrow t)) : s.Trusted := by
  cases t with
  | sweep t => exact absurd h (not_commits_of_same rfl rfl)
  | observe lock recordedAt => exact absurd h (not_commits_of_same rfl rfl)
  | markPaymentSent src read =>
    by_cases hu : isFundingUncertain read = true
    · rw [FundingStore.exec, if_pos hu] at h
      exact absurd h (not_commits_of_same rfl rfl)
    · exact trusted_of_read hs hread (Bool.eq_false_iff.mpr hu)
  | initiate kind read =>
    by_cases hu : isFundingUncertain read = true
    · by_cases hkind : kind = .refund
      · -- a refund is exempt, and no commitment
        rw [FundingStore.exec, if_neg fun hr => hr.1 hkind] at h
        cases hp : s.pending with
        | some k =>
          rw [hp] at h
          exact absurd h (not_commits_of_same rfl rfl)
        | none =>
          rw [hp] at h
          rcases h with ⟨hne, hst⟩ | ⟨k, -, hk, hne⟩
          · exact absurd hst hne
          · exact absurd ((Option.some.inj hk).symm.trans hkind) hne
      · rw [FundingStore.exec, if_pos ⟨hkind, hu⟩] at h
        exact absurd h (not_commits_of_same rfl rfl)
    · exact trusted_of_read hs hread (Bool.eq_false_iff.mpr hu)
  | deletePending =>
    rcases h with ⟨hne, hst⟩ | ⟨k, -, hk, -⟩
    · exact absurd hst hne
    · exact nomatch hk

/-! ## Runs -/

/-- After the row of a tick, a tick with the same scan writes nothing, unless the row is a
replacement that was recorded since it scanned. -/
theorem tick_after_own_row {a b : Tick} {row : FundingEvidence} {s' : FundingStore}
    (ha : a.row required escrow = some row)
    (hscan : rescanFunding a.seen.explorer escrow = rescanFunding b.seen.explorer escrow)
    (hs' : Increasing FundingEvidence.recordedAt s'.evidence)
    (hread : s'.Answers (.sweep b)) (hfresh : s'.Fresh required escrow (.sweep b))
    (hlast : s'.evidence.getLast? = some row) (hmem : row ∈ s'.evidence.drop b.scannedAt) :
    b.row required escrow = none := by
  obtain ⟨-, scan, last, hscan', -, hdecide, -⟩ := Tick.row_eq_some ha
  by_contra hb
  obtain ⟨row', hrow'⟩ := Option.ne_none_iff_exists'.mp hb
  obtain ⟨-, scan', last', hscan'', hlast', hdecide', -⟩ := Tick.row_eq_some hrow'
  obtain rfl : scan = scan' := Except.ok.inj (hscan'.symm.trans (hscan.trans hscan''))
  obtain rfl : row = last' := by
    have hhistory : b.seen.history = s'.evidence := hs'.ascending_iff.mp hread
    rw [hhistory] at hlast'
    exact Option.some.inj (hlast.symm.trans hlast')
  by_cases hkind : row.kind = .replacementObserved
  · obtain ⟨found, rfl, hdeep, htxid⟩ := decideEvidence_replacement hdecide hkind
    exact hfresh found hscan'' hdeep row hmem hkind htxid
  · exact nomatch (decideEvidence_again hdecide hkind).symm.trans hdecide'

theorem Tick.row_of_scan {t : Tick} {scan : Option FundingScan} {last : FundingEvidence}
    (hpeek : t.seen.peek ≠ []) (hkeys : t.seen.pubkeys = .ok ())
    (hscan : rescanFunding t.seen.explorer escrow = .ok scan)
    (hlast : t.seen.history.getLast? = some last) : t.row required escrow =
      (decideEvidence required scan last).2.map fun input => ⟨input, t.recordedAt⟩ := by
  rw [Tick.row, sweepEscrow, if_neg hpeek]
  simp only [hkeys, hscan, sweepUnderLock, hlast]

/-! The escrow of 100000 satoshi again, by what the explorer lists. -/

theorem sixDeep_scan (txid : String) : rescanFunding (sixDeep [plainPayment txid])
    plainEscrow.toMultisigEscrow = .ok (some ⟨txid, 0, 6, some 100, some 105⟩) := by
  rw [rescanFunding_eq rfl rfl, List.find?_cons_of_pos (plain_fundedBy txid)]
  rfl

/-- A tick which reads `history` and finds `utxos` six blocks deep. -/
def plainTick (utxos : List FundingUtxo) (history : List FundingEvidence)
    (scannedAt recordedAt : ℕ) : Tick :=
  ⟨⟨[lockedRow], .ok (), sixDeep utxos, history⟩, scannedAt, recordedAt⟩

/-- An escrow with its funds locked. -/
def plainStore : FundingStore := ⟨.fundsLocked, [lockedRow], none⟩

/-- The funding is lost. -/
def lostRow : FundingEvidence := ⟨lockedRow.invalidated, 5⟩

/-- A row for a payment in block 100. -/
def plainRow (kind : EvidenceKind) (txid : String) (recordedAt : ℕ) : FundingEvidence :=
  ⟨⟨kind, some txid, some 0, none, some 100, some 105⟩, recordedAt⟩

theorem plainTick_row {utxos : List FundingUtxo} {history : List FundingEvidence}
    {scan : Option FundingScan} {last : FundingEvidence} {scannedAt recordedAt : ℕ}
    (hscan : rescanFunding (sixDeep utxos) plainEscrow.toMultisigEscrow = .ok scan)
    (hlast : history.getLast? = some last) :
    (plainTick utxos history scannedAt recordedAt).row 3 plainEscrow.toMultisigEscrow =
      (decideEvidence 3 scan last).2.map fun input => ⟨input, recordedAt⟩ :=
  Tick.row_of_scan (List.cons_ne_nil _ _) rfl hscan hlast

theorem plainTick_lost (scannedAt : ℕ) :
    (plainTick [] [lockedRow] scannedAt 5).row 3 plainEscrow.toMultisigEscrow = some lostRow := by
  have hscan : rescanFunding (sixDeep []) plainEscrow.toMultisigEscrow = .ok none := rfl
  exact (plainTick_row hscan rfl).trans rfl

theorem plainTick_found (scannedAt : ℕ) :
    (plainTick [plainPayment "own"] [lockedRow, lostRow] scannedAt 6).row 3
      plainEscrow.toMultisigEscrow = some (plainRow .reconfirmed "own" 6) :=
  (plainTick_row (sixDeep_scan "own") rfl).trans rfl

theorem plainTick_replaced (scannedAt : ℕ) :
    (plainTick [plainPayment "other"] [lockedRow] scannedAt 5).row 3
      plainEscrow.toMultisigEscrow = some (plainRow .replacementObserved "other" 5) :=
  (plainTick_row (sixDeep_scan "other") rfl).trans rfl

theorem plainTick_trusts (scannedAt : ℕ) :
    (plainTick [plainPayment "other"] [lockedRow, plainRow .replacementObserved "other" 5]
      scannedAt 6).row 3 plainEscrow.toMultisigEscrow =
        some (plainRow .reconfirmed "other" 6) :=
  (plainTick_row (sixDeep_scan "other") rfl).trans rfl

theorem plain_replaced : plainStore.exec 3 plainEscrow.toMultisigEscrow
    (.sweep (plainTick [plainPayment "other"] [lockedRow] 1 5)) =
      ⟨.fundsLocked, [lockedRow, plainRow .replacementObserved "other" 5], none⟩ := by
  rw [FundingStore.exec, FundingTransaction.row, plainTick_replaced]
  rfl

/-- Both ticks read the rows that are there. -/
theorem plain_replaced_answers (scannedAt : ℕ) :
    Along (FundingStore.exec 3 plainEscrow.toMultisigEscrow) FundingStore.Answers plainStore
      [.sweep (plainTick [plainPayment "other"] [lockedRow] 1 5),
        .sweep (plainTick [plainPayment "other"]
          [lockedRow, plainRow .replacementObserved "other" 5] scannedAt 6)] := by
  rw [Along, plain_replaced]
  refine ⟨?_, ?_, trivial⟩
  · exact (Increasing.ascending_iff (by decide)).mpr rfl
  · exact (Increasing.ascending_iff (by decide)).mpr rfl

/-- The columns of the escrow that `EscrowService.lockFunds` writes and a settlement reads. -/
def SpendInput.updateLockResult (escrow : SpendInput) (lock : FundingLock) : SpendInput :=
  { escrow with txLockId := some lock.txId, txLockVout := some lock.vout }

/-- Every row names the locked transaction, or one that it or a row before it records as a
replacement. Only the first row is the one of the lock. -/
structure Named (lock : FundingLock) (evidence : List FundingEvidence) : Prop where
  txid : ∀ before row after, evidence = before ++ row :: after →
    row.txid = some lock.txId ∨
      ∃ r ∈ before ++ [row], r.kind = .replacementObserved ∧ r.txid = row.txid
  observed : ∀ row ∈ evidence, row.kind = .observedConfirmed →
    row.toRecordFundingEvidenceInput = lock.evidence

/-- The first row names the payment. -/
theorem Named.start (lock : FundingLock) (recordedAt : ℕ) :
    Named lock [⟨lock.evidence, recordedAt⟩] where
  txid := by
    intro before row after h
    have hrow : row ∈ [(⟨lock.evidence, recordedAt⟩ : FundingEvidence)] := by simp [h]
    rw [List.mem_singleton.mp hrow]
    exact .inl rfl
  observed := by
    intro row hrow _
    rw [List.mem_singleton.mp hrow]

/-- A row that names a transaction of the rows before it, or is a replacement. -/
theorem Named.concat {lock : FundingLock} {evidence : List FundingEvidence}
    {row : FundingEvidence} (h : Named lock evidence)
    (hrow : row.kind = .replacementObserved ∨ ∃ last ∈ evidence, row.txid = last.txid)
    (hkind : row.kind ≠ .observedConfirmed) : Named lock (evidence ++ [row]) where
  txid := by
    intro before r after hsplit
    rcases List.eq_nil_or_concat' after with rfl | ⟨after, l, rfl⟩
    · obtain ⟨rfl, rfl⟩ := List.append_singleton_inj.mp hsplit
      rcases hrow with hrow | ⟨last, hlast, htxid⟩
      · exact .inr ⟨row, by simp, hrow, rfl⟩
      · obtain ⟨pre, post, rfl⟩ := List.append_of_mem hlast
        rw [htxid]
        refine (h.txid pre last post rfl).imp_right ?_
        rintro ⟨q, hq, hqkind, hqtxid⟩
        refine ⟨q, ?_, hqkind, hqtxid⟩
        rcases List.mem_append.mp hq with hq | hq
        · simp [hq]
        · simp [List.mem_singleton.mp hq]
    · rw [← List.cons_append, ← List.append_assoc] at hsplit
      exact h.txid before r after (List.append_singleton_inj.mp hsplit).1
  observed := by
    intro r hr hobserved
    rcases List.mem_append.mp hr with hr | hr
    · exact h.observed r hr hobserved
    · rw [List.mem_singleton.mp hr] at hobserved
      exact absurd hobserved hkind

/-- A sweep keeps the name. -/
theorem Named.sweep {lock : FundingLock} {t : Tick} (h : Named lock s.evidence)
    (hread : s.Answers (.sweep t)) :
    Named lock (s.exec required escrow (.sweep t)).evidence := by
  rw [exec_evidence, FundingTransaction.row]
  cases hrow : t.row required escrow with
  | none => simpa using h
  | some row =>
    obtain ⟨-, scan, last, -, hlast, hdecide, -⟩ := Tick.row_eq_some hrow
    have hmem : last ∈ s.evidence := hread.1.mem_iff.mp (List.mem_of_getLast? hlast)
    obtain ⟨found, -, -, htxid, hinput⟩ | ⟨found, -, -, hinput⟩ | ⟨hinput, -⟩ :=
      decideEvidence_row hdecide
    · refine h.concat (.inr ⟨last, hmem, ?_⟩) ?_
      · rw [htxid, hinput]
        rfl
      · rw [hinput]
        exact nofun
    · refine h.concat (.inl ?_) ?_
      · rw [hinput]
        rfl
      · rw [hinput]
        exact nofun
    · refine h.concat (.inr ⟨last, hmem, ?_⟩) ?_
      · rw [hinput]
        rfl
      · rw [hinput]
        exact nofun

/-- Any number of sweeps keep the name. -/
theorem Named.run {lock : FundingLock} {ticks : List Tick} (h : Named lock s.evidence)
    (hreads : Along (FundingStore.exec required escrow) FundingStore.Answers s
      (ticks.map .sweep)) :
    Named lock
      (Async.Steps.run (FundingStore.exec required escrow) s (ticks.map .sweep)).evidence := by
  induction ticks generalizing s with
  | nil => exact h
  | cons t ticks ih => exact ih (h.sweep hreads.1) hreads.2

/-- Whenever the funding counts as certain, the latest row is about the transaction that was
locked, with its output when the row is the one of the lock, or about a transaction that an
earlier row records as a replacement. -/
theorem trusted_evidence_named {spend : SpendInput} {lock : FundingLock} {recordedAt : ℕ}
    {status : EscrowStatus} {pending : Option SettlementKind} {ticks : List Tick}
    (hreads : Along (FundingStore.exec required spend.toMultisigEscrow) FundingStore.Answers
      ⟨status, [⟨lock.evidence, recordedAt⟩], pending⟩ (ticks.map .sweep)) :
    let s := Async.Steps.run (FundingStore.exec required spend.toMultisigEscrow)
      ⟨status, [⟨lock.evidence, recordedAt⟩], pending⟩ (ticks.map .sweep)
    ∀ read last, Ascending FundingEvidence.recordedAt s.evidence read →
      isFundingUncertain read = false → read.getLast? = some last →
        (last.txid = (spend.updateLockResult lock).txLockId ∨
          ∃ before after, s.evidence = before ++ last :: after ∧
            ∃ r ∈ before, r.kind = .replacementObserved ∧ r.txid = last.txid) ∧
        (last.kind = .observedConfirmed →
          last.txid = (spend.updateLockResult lock).txLockId ∧
            last.vout = (spend.updateLockResult lock).txLockVout) := by
  intro s read last hread hcertain hlast
  have hnamed : Named lock s.evidence := (Named.start lock recordedAt).run hreads
  have htrust : last.kind.trustworthy = true := by
    rw [isFundingUncertain, hlast] at hcertain
    simpa using hcertain
  have hmem : last ∈ s.evidence := hread.1.mem_iff.mp (List.mem_of_getLast? hlast)
  refine ⟨?_, fun hkind => ?_⟩
  · obtain ⟨before, after, hsplit⟩ := List.append_of_mem hmem
    refine (hnamed.txid before last after hsplit).imp_right ?_
    rintro ⟨r, hr, hkind, htxid⟩
    refine ⟨before, after, hsplit, r, ?_, hkind, htxid⟩
    rcases List.mem_append.mp hr with hr | hr
    · exact hr
    · rw [← List.mem_singleton.mp hr, hkind] at htrust
      cases htrust
  · have hinput := hnamed.observed last hmem hkind
    rw [hinput]
    exact ⟨rfl, rfl⟩

/-- What the provider accepts for the escrow of 100000 satoshi. -/
def plainLock : FundingLock := ⟨"own", 0, none, some 100, some 105⟩

/-- The payment is accepted by `lockFunds`. -/
theorem plainLock_accepted :
    lockFunds 3 (sixDeep [plainPayment "own"]) plainEscrow.toMultisigEscrow = .ok plainLock := by
  have hfound : findFundingCandidate (sixDeep [plainPayment "own"])
      plainEscrow.toMultisigEscrow = .ok (some (plainPayment "own")) := by
    change Except.ok ([plainPayment "own"].find? _) = _
    rw [List.find?_cons_of_pos (plain_fundedBy "own")]
  rw [lockFunds, hfound]
  rfl

/-- The other payment replaces the locked one, and is found again by a later tick. -/
def replacingTicks : List Tick :=
  [plainTick [plainPayment "other"] [lockedRow] 1 5,
    plainTick [plainPayment "other"] [lockedRow, plainRow .replacementObserved "other" 5] 2 6]

/-- A run on which the funding is replaced and trusted again. -/
theorem trusted_evidence_named_replaced :
    let s := Async.Steps.run (FundingStore.exec 3 plainEscrow.toMultisigEscrow)
      ⟨.fundsLocked, [⟨plainLock.evidence, 0⟩], none⟩ (replacingTicks.map .sweep)
    ∀ read last, Ascending FundingEvidence.recordedAt s.evidence read →
      isFundingUncertain read = false → read.getLast? = some last →
        (last.txid = (plainEscrow.updateLockResult plainLock).txLockId ∨
          ∃ before after, s.evidence = before ++ last :: after ∧
            ∃ r ∈ before, r.kind = .replacementObserved ∧ r.txid = last.txid) ∧
        (last.kind = .observedConfirmed →
          last.txid = (plainEscrow.updateLockResult plainLock).txLockId ∧
            last.vout = (plainEscrow.updateLockResult plainLock).txLockVout) :=
  trusted_evidence_named (plain_replaced_answers 2)

/-- After that the funding counts as certain by a transaction that is not the locked one. -/
theorem replacement_trusted :
    lockFunds 3 (sixDeep [plainPayment "own"]) plainEscrow.toMultisigEscrow = .ok plainLock ∧
      Along (FundingStore.exec 3 plainEscrow.toMultisigEscrow) FundingStore.Answers
        ⟨.fundsLocked, [⟨plainLock.evidence, 0⟩], none⟩ (replacingTicks.map .sweep) ∧
      ∃ read last, Ascending FundingEvidence.recordedAt
          (Async.Steps.run (FundingStore.exec 3 plainEscrow.toMultisigEscrow)
            ⟨.fundsLocked, [⟨plainLock.evidence, 0⟩], none⟩
            (replacingTicks.map .sweep)).evidence read ∧
        isFundingUncertain read = false ∧ read.getLast? = some last ∧
        last.txid ≠ (plainEscrow.updateLockResult plainLock).txLockId := by
  have hrun : Async.Steps.run (FundingStore.exec 3 plainEscrow.toMultisigEscrow) plainStore
      (replacingTicks.map .sweep) = ⟨.fundsLocked, [lockedRow,
        plainRow .replacementObserved "other" 5, plainRow .reconfirmed "other" 6], none⟩ := by
    rw [replacingTicks, Async.Steps.run, List.map_cons, List.map_singleton, List.foldl_cons,
      plain_replaced, List.foldl_cons, List.foldl_nil, FundingStore.exec, FundingTransaction.row,
      plainTick_trusts]
    rfl
  refine ⟨plainLock_accepted, plain_replaced_answers 2, [lockedRow,
    plainRow .replacementObserved "other" 5, plainRow .reconfirmed "other" 6],
    plainRow .reconfirmed "other" 6, ?_, rfl, rfl, by decide⟩
  exact (congrArg FundingStore.evidence hrun) ▸ (Increasing.ascending_iff (by decide)).mpr rfl

end Sails.Settlement
