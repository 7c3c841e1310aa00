import SailsProtocol.Escrow.World
import SailsProtocol.Settlement.Spend

/-!
# Funding of a MULTISIG escrow

The provider finds the output that funds an escrow by its value : the first confirmed output
that the explorer lists at the deposit address, of exactly the required amount when the escrow
has a fee policy and of at least the locked amount when it has none. `lockFunds` accepts it
when it is deep enough, and records what it saw as evidence. A background sweep
(`multisig-funding-reorg-sweep.ts`) scans the address again with the same rule and records
what has changed.

The sweep compares transaction ids and never looks for the recorded outpoint, so what it
concludes depends on what else was paid to the address. `sweep_keeps_good_funding` : while the
recorded outpoint is good, the sweep distrusts it exactly when the first output that matches
is of another transaction, or there is none. `second_payment_distrusted` is such a payment.
-/

namespace Sails

/-- A kind in `TRUSTWORTHY_KINDS`. -/
def EvidenceKind.trustworthy : EvidenceKind → Bool
  | .observedConfirmed | .reconfirmed => true
  | .reorgedInvalidated | .replacementObserved | .ambiguous => false

end Sails

namespace Sails.Settlement

/-! ## The provider -/

/-- An output at the deposit address, with `status.confirmed`. -/
structure FundingUtxo extends ExplorerUtxo where
  confirmed : Bool
  deriving DecidableEq, Repr

/-- `TransactionConfirmationStatus`. -/
structure ConfirmationStatus where
  confirmed : Bool
  blockHeight : Option ℕ
  deriving DecidableEq, Repr

/-- What the explorer answers during one call of the provider. -/
structure Explorer where
  /-- `partiesFor` and `buildScript`, which give the address. -/
  scriptChecks : Except SpendError Unit
  utxos : Except SpendError (List FundingUtxo)
  confirmationStatus : String → Except SpendError ConfirmationStatus
  chainTipHeight : Except SpendError ℕ

/-- How deep a transaction is. -/
structure Confirmations where
  depth : ℤ
  blockHeight : Option ℕ
  tipHeight : Option ℕ
  deriving DecidableEq, Repr

/-- `confirmationDepth`. -/
def confirmationDepth (explorer : Explorer) (txid : String) : Except SpendError Confirmations := do
  let status ← explorer.confirmationStatus txid
  match status.confirmed, status.blockHeight with
  | true, some blockHeight =>
    let tipHeight ← explorer.chainTipHeight
    pure ⟨tipHeight - blockHeight + 1, some blockHeight, some tipHeight⟩
  | _, _ => pure ⟨0, none, none⟩

/-- The predicate of `findFundingCandidate`. -/
def MultisigEscrow.fundedBy (escrow : MultisigEscrow) (u : FundingUtxo) : Bool :=
  if escrow.isPolicyAware then decide ((u.value : ℤ) = escrow.requiredFundingSats) && u.confirmed
  else decide (escrow.expectedSats ≤ u.value) && u.confirmed

/-- `findFundingCandidate`. -/
def findFundingCandidate (explorer : Explorer) (escrow : MultisigEscrow) :
    Except SpendError (Option FundingUtxo) := do
  explorer.scriptChecks
  let utxos ← explorer.utxos
  pure (utxos.find? escrow.fundedBy)

/-- What a lock throws. -/
inductive LockError where
  /-- The script or the explorer. -/
  | provider (e : SpendError)
  /-- `noFundingCandidateError`. -/
  | noFundingCandidate (requiredSats : ℤ) (exactly : Bool)
  /-- `Refusing to lock funds on insufficient confirmation depth`. -/
  | shallow (txid : String) (vout : ℕ) (depth : ℤ) (required : ℕ)
  deriving DecidableEq, Repr

/-- What the provider's `lockFunds` returns, less the address. -/
structure FundingLock where
  txId : String
  vout : ℕ
  fundedAmount : Option ℕ
  confirmedAtHeight : Option ℕ
  tipHeightAtObservation : Option ℕ
  deriving DecidableEq, Repr

/-- `noFundingCandidateError`. -/
def noFundingCandidateError (escrow : MultisigEscrow) : LockError :=
  if escrow.isPolicyAware then .noFundingCandidate escrow.requiredFundingSats true
  else .noFundingCandidate escrow.expectedSats false

/-- `MultisigProvider.lockFunds`. -/
def lockFunds (required : ℕ) (explorer : Explorer) (escrow : MultisigEscrow) :
    Except LockError FundingLock :=
  match findFundingCandidate explorer escrow with
  | .error e => .error (.provider e)
  | .ok none => .error (noFundingCandidateError escrow)
  | .ok (some funding) =>
    match confirmationDepth explorer funding.txid with
    | .error e => .error (.provider e)
    | .ok seen =>
      if seen.depth < required then
        .error (.shallow funding.txid funding.vout seen.depth required)
      else
        .ok ⟨funding.txid, funding.vout,
          if escrow.isPolicyAware then some funding.value else none, seen.blockHeight,
          seen.tipHeight⟩

/-- What a scan of the funding returns. -/
structure FundingScan where
  txId : String
  vout : ℕ
  depth : ℤ
  confirmedAtHeight : Option ℕ
  tipHeightAtObservation : Option ℕ
  deriving DecidableEq, Repr

/-- `rescanFunding`. -/
def rescanFunding (explorer : Explorer) (escrow : MultisigEscrow) :
    Except SpendError (Option FundingScan) := do
  match ← findFundingCandidate explorer escrow with
  | none => pure none
  | some utxo =>
    let seen ← confirmationDepth explorer utxo.txid
    pure (some ⟨utxo.txid, utxo.vout, seen.depth, seen.blockHeight, seen.tipHeight⟩)

/-! ## Evidence -/

/-- What is recorded, less the escrow and the note. -/
structure RecordFundingEvidenceInput where
  kind : EvidenceKind
  txid : Option String
  vout : Option ℕ
  amountSats : Option ℕ
  observedAtHeight : Option ℕ
  tipHeightAtObservation : Option ℕ
  deriving DecidableEq, Repr

/-- `EscrowFundingEvidence`. `recordedAt` counts milliseconds. -/
structure FundingEvidence extends RecordFundingEvidenceInput where
  recordedAt : ℕ
  deriving DecidableEq, Repr

/-- `isFundingUncertain`, of the rows it reads. -/
def isFundingUncertain (evidence : List FundingEvidence) : Bool :=
  match evidence.getLast? with
  | none => false
  | some last => !last.kind.trustworthy

/-- What `EscrowService.lockFunds` records. -/
def FundingLock.evidence (lock : FundingLock) : RecordFundingEvidenceInput :=
  ⟨.observedConfirmed, some lock.txId, some lock.vout, lock.fundedAmount, lock.confirmedAtHeight,
    lock.tipHeightAtObservation⟩

/-! ## The sweep -/

/-- The list of the result that an escrow is put on. -/
inductive SweepVerdict where
  | reconfirmed
  | replacementObserved
  | reverted
  | stillGood
  | stillPending
  | skippedNoBaseline
  | failed (e : SpendError)
  deriving DecidableEq, Repr

/-- A row about what the scan found. -/
def FundingScan.evidence (scan : FundingScan) (kind : EvidenceKind) : RecordFundingEvidenceInput :=
  ⟨kind, some scan.txId, some scan.vout, none, scan.confirmedAtHeight, scan.tipHeightAtObservation⟩

/-- A row that invalidates the last one. -/
def FundingEvidence.invalidated (last : FundingEvidence) : RecordFundingEvidenceInput :=
  ⟨.reorgedInvalidated, last.txid, none, none, none, none⟩

/-- What the sweep does under the lock, from the last row and the scan made before. -/
def decideEvidence (required : ℕ) (scan : Option FundingScan) (last : FundingEvidence) :
    SweepVerdict × Option RecordFundingEvidenceInput :=
  match scan with
  | some scan =>
    if (required : ℤ) ≤ scan.depth then
      if last.txid = some scan.txId then
        if last.kind.trustworthy then (.stillGood, none)
        else (.reconfirmed, some (scan.evidence .reconfirmed))
      else if ¬(last.kind = .replacementObserved ∧ last.txid = some scan.txId) then
        (.replacementObserved, some (scan.evidence .replacementObserved))
      else (.stillPending, none)
    else if last.kind.trustworthy then (.reverted, some last.invalidated)
    else (.stillPending, none)
  | none =>
    if last.kind ≠ .reorgedInvalidated then (.reverted, some last.invalidated)
    else (.stillPending, none)

/-- The transaction under the lock, from the rows it reads. -/
def sweepUnderLock (required : ℕ) (scan : Option FundingScan) (history : List FundingEvidence) :
    SweepVerdict × Option RecordFundingEvidenceInput :=
  match history.getLast? with
  | none => (.skippedNoBaseline, none)
  | some last => decideEvidence required scan last

/-- What a tick reads for one escrow : the rows before the scan, `loadParticipantPubkeys`, the
explorer, and the rows under the lock. -/
structure Observation where
  peek : List FundingEvidence
  pubkeys : Except SpendError Unit
  explorer : Explorer
  history : List FundingEvidence

/-- One turn of the loop. -/
def sweepEscrow (required : ℕ) (escrow : MultisigEscrow) (seen : Observation) :
    SweepVerdict × Option RecordFundingEvidenceInput :=
  if seen.peek = [] then (.skippedNoBaseline, none)
  else
    match seen.pubkeys with
    | .error e => (.failed e, none)
    | .ok () =>
      match rescanFunding seen.explorer escrow with
      | .error e => (.failed e, none)
      | .ok scan => sweepUnderLock required scan seen.history

/-- The columns of an escrow that the sweep selects on and reads. -/
structure SweptEscrow extends SpendInput where
  id : String
  type : EscrowType
  status : EscrowStatus
  deriving DecidableEq

/-- The escrows that `findMany` answers. -/
def sweepCandidates (escrows : List SweptEscrow) : List SweptEscrow :=
  escrows.filter fun e => e.type = .multisig ∧ e.status = .fundsLocked ∧ e.txLockId ≠ none

/-- A tick : for each escrow the list it is put on and the row it gets. -/
def sweepMultisigFundingReorgs (required : ℕ) (seen : String → Observation)
    (escrows : List SweptEscrow) :
    List (String × SweepVerdict × Option RecordFundingEvidenceInput) :=
  (sweepCandidates escrows).map fun e => (e.id, sweepEscrow required e.toMultisigEscrow (seen e.id))

/-! ## Good funding -/

/-- The recorded outpoint is listed, confirmed and deep enough. -/
structure OutpointGood (required : ℕ) (explorer : Explorer) (escrow : SweptEscrow) : Prop where
  listed : ∃ utxos u, explorer.utxos = .ok utxos ∧ u ∈ utxos ∧ escrow.txLockId = some u.txid ∧
    escrow.txLockVout = some u.vout ∧ u.confirmed = true
  deep : ∃ txid c, escrow.txLockId = some txid ∧ confirmationDepth explorer txid = .ok c ∧
    (required : ℤ) ≤ c.depth

/-- A row after which the funding is not trusted. -/
def RecordFundingEvidenceInput.Distrusts (input : RecordFundingEvidenceInput) : Prop :=
  input.kind = .reorgedInvalidated ∨ input.kind = .replacementObserved

/-- `u` is the first output of the list that matches. -/
def MultisigEscrow.FirstMatch (escrow : MultisigEscrow) (utxos : List FundingUtxo)
    (u : FundingUtxo) : Prop :=
  escrow.fundedBy u = true ∧
    ∃ before after, utxos = before ++ u :: after ∧ ∀ b ∈ before, escrow.fundedBy b = false

/-- The first output that matches is of the transaction the last row names, and deep enough,
or the tick stops before it has scanned. -/
def Undisturbed (required : ℕ) (escrow : MultisigEscrow) (seen : Observation) : Prop :=
  seen.peek = [] ∨ (∃ e, seen.pubkeys = .error e) ∨ (∃ e, seen.explorer.scriptChecks = .error e) ∨
    ∀ last ∈ seen.history.getLast?, ∃ utxos u, seen.explorer.utxos = .ok utxos ∧
      escrow.FirstMatch utxos u ∧ ∀ c, confirmationDepth seen.explorer u.txid = .ok c →
        last.txid = some u.txid ∧ (required : ℤ) ≤ c.depth

theorem find?_fundedBy_iff {escrow : MultisigEscrow} {utxos : List FundingUtxo} {u : FundingUtxo} :
    utxos.find? escrow.fundedBy = some u ↔ escrow.FirstMatch utxos u := by
  rw [List.find?_eq_some_iff_append, MultisigEscrow.FirstMatch]
  simp

/-- A trusted row is distrusted unless the scan finds its transaction, deep enough. -/
theorem decideEvidence_distrusts {required : ℕ} {scan : Option FundingScan}
    {last : FundingEvidence} (h : last.kind.trustworthy = true) :
    (∀ input, (decideEvidence required scan last).2 = some input → ¬input.Distrusts) ↔
      ∃ s, scan = some s ∧ last.txid = some s.txId ∧ (required : ℤ) ≤ s.depth := by
  have hreorged : last.kind ≠ .reorgedInvalidated := fun hk => by
    rw [hk] at h
    exact nomatch h
  have hreplaced : last.kind ≠ .replacementObserved := fun hk => by
    rw [hk] at h
    exact nomatch h
  cases scan with
  | none =>
    rw [decideEvidence, if_pos hreorged]
    exact iff_of_false (fun hq => hq _ rfl (.inl rfl)) nofun
  | some s =>
    rw [decideEvidence]
    by_cases hdeep : (required : ℤ) ≤ s.depth
    · rw [if_pos hdeep]
      by_cases htxid : last.txid = some s.txId
      · rw [if_pos htxid, if_pos h]
        exact iff_of_true nofun ⟨s, rfl, htxid, hdeep⟩
      · rw [if_neg htxid, if_pos fun hk => hreplaced hk.1]
        refine iff_of_false (fun hq => hq _ rfl (.inr rfl)) ?_
        rintro ⟨_, ⟨⟩, hsame, -⟩
        exact htxid hsame
    · rw [if_neg hdeep, if_pos h]
      refine iff_of_false (fun hq => hq _ rfl (.inl rfl)) ?_
      rintro ⟨_, ⟨⟩, -, hle⟩
      exact hdeep hle

/-- What a scan answers, from the list of outputs. -/
theorem rescanFunding_eq {explorer : Explorer} {escrow : MultisigEscrow}
    {utxos : List FundingUtxo} (hscript : explorer.scriptChecks = .ok ())
    (hutxos : explorer.utxos = .ok utxos) :
    rescanFunding explorer escrow =
      match utxos.find? escrow.fundedBy with
      | none => .ok none
      | some u => (confirmationDepth explorer u.txid).map fun c =>
          some ⟨u.txid, u.vout, c.depth, c.blockHeight, c.tipHeight⟩ := by
  rw [rescanFunding, findFundingCandidate, hscript, hutxos]
  change (match utxos.find? escrow.fundedBy with | none => _ | some utxo => _) = _
  cases utxos.find? escrow.fundedBy with
  | none => rfl
  | some u => cases confirmationDepth explorer u.txid <;> rfl

/-- What is left of the condition once the tick has scanned. -/
theorem undisturbed_iff {required : ℕ} {escrow : MultisigEscrow} {seen : Observation}
    {utxos : List FundingUtxo} {last : FundingEvidence} (hpeek : seen.peek ≠ [])
    (hkeys : seen.pubkeys = .ok ()) (hscript : seen.explorer.scriptChecks = .ok ())
    (hutxos : seen.explorer.utxos = .ok utxos) (hlast : seen.history.getLast? = some last) :
    Undisturbed required escrow seen ↔ ∃ u, utxos.find? escrow.fundedBy = some u ∧
      ∀ c, confirmationDepth seen.explorer u.txid = .ok c →
        last.txid = some u.txid ∧ (required : ℤ) ≤ c.depth := by
  simp only [Undisturbed, hpeek, hkeys, hscript, hutxos, hlast, reduceCtorEq, exists_false,
    false_or, Option.mem_some_iff, forall_eq', find?_fundedBy_iff, Except.ok.injEq]
  constructor
  · rintro ⟨_, u, rfl, h⟩
    exact ⟨u, h⟩
  · rintro ⟨u, h⟩
    exact ⟨utxos, u, rfl, h⟩

/-- One escrow of a tick. -/
theorem sweepEscrow_distrusts {required : ℕ} {escrow : MultisigEscrow} {seen : Observation}
    {utxos : List FundingUtxo} (hutxos : seen.explorer.utxos = .ok utxos)
    (htrust : isFundingUncertain seen.history = false) :
    (∀ input, (sweepEscrow required escrow seen).2 = some input → ¬input.Distrusts) ↔
      Undisturbed required escrow seen := by
  unfold sweepEscrow
  by_cases hpeek : seen.peek = []
  · rw [if_pos hpeek]
    exact iff_of_true nofun (.inl hpeek)
  rw [if_neg hpeek]
  cases hkeys : seen.pubkeys with
  | error e => exact iff_of_true nofun (.inr (.inl ⟨e, hkeys⟩))
  | ok keys =>
    cases hscript : seen.explorer.scriptChecks with
    | error e =>
      have hscan : rescanFunding seen.explorer escrow = .error e := by
        rw [rescanFunding, findFundingCandidate, hscript]
        rfl
      rw [hscan]
      exact iff_of_true nofun (.inr (.inr (.inl ⟨e, hscript⟩)))
    | ok checked =>
      cases hlast : seen.history.getLast? with
      | none =>
        refine iff_of_true (fun input h => ?_) (.inr (.inr (.inr fun last h => ?_)))
        · simp only [sweepUnderLock, hlast] at h
          cases hscan : rescanFunding seen.explorer escrow with
          | error e =>
            rw [hscan] at h
            exact nomatch h
          | ok scan =>
            rw [hscan] at h
            exact nomatch h
        · rw [hlast] at h
          exact nomatch h
      | some last =>
        have hkind : last.kind.trustworthy = true := by
          rw [isFundingUncertain, hlast] at htrust
          simpa using htrust
        rw [undisturbed_iff hpeek hkeys hscript hutxos hlast, rescanFunding_eq hscript hutxos]
        simp only [sweepUnderLock, hlast]
        cases utxos.find? escrow.fundedBy with
        | none =>
          rw [decideEvidence_distrusts hkind]
          exact iff_of_false nofun nofun
        | some u =>
          simp only [Option.some.injEq, exists_eq_left']
          cases confirmationDepth seen.explorer u.txid with
          | error e => exact iff_of_true nofun nofun
          | ok c =>
            change (∀ input, (decideEvidence required (some _) last).2 = some input → _) ↔ _
            rw [decideEvidence_distrusts hkind]
            simp

/-- While the recorded outpoint of an escrow is listed, confirmed and deep enough, a tick keeps
trusted evidence exactly when the first output that matches is of the transaction that the
evidence names, and deep enough. -/
theorem sweep_keeps_good_funding {required : ℕ} {seen : String → Observation}
    {escrows : List SweptEscrow} {escrow : SweptEscrow}
    (hids : (escrows.map SweptEscrow.id).Nodup) (hmem : escrow ∈ escrows)
    (htype : escrow.type = .multisig) (hstatus : escrow.status = .fundsLocked)
    (hgood : OutpointGood required (seen escrow.id).explorer escrow)
    (htrust : isFundingUncertain (seen escrow.id).history = false) :
    (∀ verdict input,
        (escrow.id, verdict, some input) ∈ sweepMultisigFundingReorgs required seen escrows →
          input.kind ≠ .reorgedInvalidated ∧ input.kind ≠ .replacementObserved) ↔
      Undisturbed required escrow.toMultisigEscrow (seen escrow.id) := by
  obtain ⟨utxos, u, hutxos, -, hlock, -⟩ := hgood.listed
  rw [← sweepEscrow_distrusts hutxos htrust]
  have hcandidate : escrow ∈ sweepCandidates escrows := by
    simp [sweepCandidates, hmem, htype, hstatus, hlock]
  have hwritten : ∀ verdict input,
      (escrow.id, verdict, some input) ∈ sweepMultisigFundingReorgs required seen escrows ↔
        sweepEscrow required escrow.toMultisigEscrow (seen escrow.id) = (verdict, some input) := by
    intro verdict input
    rw [sweepMultisigFundingReorgs, List.mem_map]
    constructor
    · rintro ⟨e, he, heq⟩
      obtain ⟨hid, hout⟩ := Prod.mk.inj heq
      have hsame : e = escrow :=
        List.inj_on_of_nodup_map hids (List.mem_of_mem_filter he) hmem hid
      rw [← hout, hsame]
    · exact fun h => ⟨escrow, hcandidate, by rw [h]⟩
  constructor
  · intro h input hinput hdistrusts
    have := h _ input ((hwritten _ input).mpr (Prod.ext rfl hinput))
    exact hdistrusts.elim this.1 this.2
  · intro h verdict input hrow
    have := h input (congrArg Prod.snd ((hwritten verdict input).mp hrow))
    exact not_or.mp this

/-! A legacy escrow of 100000 satoshi, and a second payment of the same value. -/

/-- A legacy escrow of 100000 sats. -/
def plainEscrow : SweptEscrow where
  lockedUnits := 100000
  lockedUnits_le := by decide
  feePolicyVersionId := none
  snapshotProtocolFeeRate := none
  snapshotFeeCollectionAddress := none
  snapshotFeeCollectionWaivedPreFunding := false
  txLockId := some "own"
  txLockVout := some 0
  buyerId := none
  sellerId := none
  disputed := false
  id := "escrow"
  type := .multisig
  status := .fundsLocked

/-- An output that funds it. -/
def plainPayment (txid : String) : FundingUtxo where
  txid := txid
  vout := 0
  value := 100000
  value_le := by decide
  confirmed := true

/-- Both payments are six blocks deep. -/
def sixDeep (utxos : List FundingUtxo) : Explorer where
  scriptChecks := .ok ()
  utxos := .ok utxos
  confirmationStatus _ := .ok ⟨true, some 100⟩
  chainTipHeight := .ok 105

/-- The row of the funding that was locked. -/
def lockedRow : FundingEvidence :=
  ⟨⟨.observedConfirmed, some "own", some 0, none, some 100, some 105⟩, 0⟩

/-- What a sweep sees of a listing. -/
def plainSeen (utxos : List FundingUtxo) : Observation :=
  ⟨[lockedRow], .ok (), sixDeep utxos, [lockedRow]⟩

theorem plain_fundedBy (txid : String) :
    plainEscrow.toMultisigEscrow.fundedBy (plainPayment txid) = true := by
  have haware : plainEscrow.isPolicyAware = false := rfl
  rw [MultisigEscrow.fundedBy, haware, MultisigEscrow.expectedSats_eq]
  rfl

theorem plain_outpointGood {utxos : List FundingUtxo} (h : plainPayment "own" ∈ utxos) :
    OutpointGood 3 (sixDeep utxos) plainEscrow where
  listed := ⟨utxos, plainPayment "own", rfl, h, rfl, rfl, rfl⟩
  deep := ⟨"own", ⟨6, some 100, some 105⟩, rfl, rfl, by norm_num⟩

/-- A second payment that is listed after the recorded outpoint changes nothing. -/
theorem sweep_keeps_listed_first :
    OutpointGood 3 (plainSeen [plainPayment "own", plainPayment "other"]).explorer plainEscrow ∧
      ∀ verdict input, (plainEscrow.id, verdict, some input) ∈
        sweepMultisigFundingReorgs 3
          (fun _ => plainSeen [plainPayment "own", plainPayment "other"]) [plainEscrow] →
        input.kind ≠ .reorgedInvalidated ∧ input.kind ≠ .replacementObserved := by
  have hgood : OutpointGood 3 (sixDeep [plainPayment "own", plainPayment "other"]) plainEscrow :=
    plain_outpointGood (by simp)
  refine ⟨hgood, (sweep_keeps_good_funding (by simp) (List.mem_singleton_self plainEscrow) rfl rfl
    hgood rfl).mpr ?_⟩
  refine .inr (.inr (.inr fun last hlast => ⟨_, plainPayment "own", rfl, ⟨plain_fundedBy _, [], _,
    rfl, nofun⟩, fun c hc => ?_⟩))
  obtain rfl : lockedRow = last := by simpa [plainSeen] using hlast
  obtain rfl : (⟨6, some 100, some 105⟩ : Confirmations) = c := Except.ok.inj hc
  exact ⟨rfl, by norm_num⟩

/-- Listed before it, the second payment replaces the recorded outpoint. -/
theorem second_payment_distrusted :
    OutpointGood 3 (plainSeen [plainPayment "other", plainPayment "own"]).explorer plainEscrow ∧
      isFundingUncertain (plainSeen [plainPayment "other", plainPayment "own"]).history = false ∧
      (plainEscrow.id, .replacementObserved,
          some ⟨.replacementObserved, some "other", some 0, none, some 100, some 105⟩) ∈
        sweepMultisigFundingReorgs 3 (fun _ => plainSeen [plainPayment "other", plainPayment "own"])
          [plainEscrow] := by
  refine ⟨plain_outpointGood (by simp), rfl, ?_⟩
  have hscan : rescanFunding (sixDeep [plainPayment "other", plainPayment "own"])
      plainEscrow.toMultisigEscrow = .ok (some ⟨"other", 0, 6, some 100, some 105⟩) := by
    rw [rescanFunding_eq rfl rfl, List.find?_cons_of_pos (plain_fundedBy "other")]
    rfl
  have hsweep : sweepEscrow 3 plainEscrow.toMultisigEscrow
      (plainSeen [plainPayment "other", plainPayment "own"]) = (.replacementObserved,
        some ⟨.replacementObserved, some "other", some 0, none, some 100, some 105⟩) := by
    simp only [sweepEscrow, plainSeen, hscan]
    decide
  exact List.mem_map.mpr ⟨plainEscrow, by simp [sweepCandidates, plainEscrow], by rw [hsweep]⟩

end Sails.Settlement
