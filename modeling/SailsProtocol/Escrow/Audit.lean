import SailsProtocol.Escrow.Status
import SailsProtocol.Ledger.HashChain
import SailsProtocol.Ledger.Reads
import SailsProtocol.Text.Digest

/-!
# The audit chain of an escrow

`emitEscrowTransition` appends the transitions of an escrow as a hash chain of `EscrowEvent`
rows, and `verifyEscrowEventChain` walks it. Rows without an entry hash are older than the
chain, and the walk skips them. Both sides order the rows by `createdAt` alone, which has
milliseconds.

`audit_verifies` is the chain that is written : when every new row is later than the rows
there are, it verifies. Two rows of one millisecond can be read in either order
(`audit_out_of_order`). `audit_head_determines` says what the last entry hash determines : the
transitions of the rows with an entry hash, and so the sequence of all rows after the first of
them exactly when no row without one stands between them.
-/

namespace Sails.Audit

open Text HashChain Reads

/-! ## Rows -/

/-- The name of a status in the schema. -/
def statusText : EscrowStatus → JsString
  | .created => js "CREATED"
  | .fundsLocked => js "FUNDS_LOCKED"
  | .paymentPending => js "PAYMENT_PENDING"
  | .completed => js "COMPLETED"
  | .disputed => js "DISPUTED"
  | .refunded => js "REFUNDED"
  | .split => js "SPLIT"
  | .expired => js "EXPIRED"

/-- What a text column holds. -/
@[ext] structure ColumnText where
  text : JsString
  wellFormed : toWellFormed text = text

/-- `EscrowEvent`, of one escrow. `createdAt` counts milliseconds. -/
structure EscrowEvent where
  fromStatus : EscrowStatus
  toStatus : EscrowStatus
  triggeredBy : ColumnText
  createdAt : ℕ
  entryHash : Option JsString
  prevHash : Option JsString

/-- What the chain is about. -/
def EscrowEvent.transition (e : EscrowEvent) : EscrowStatus × EscrowStatus × ColumnText :=
  (e.fromStatus, e.toStatus, e.triggeredBy)

/-- The hash before the first row. -/
def genesis : JsString := js "genesis"

/-- What is hashed of a transition. -/
def eventText (fromStatus toStatus triggeredBy prevHash : JsString) : JsString :=
  fromStatus ++ 0x7C :: (toStatus ++ 0x7C :: (triggeredBy ++ 0x7C :: prevHash))

section Audit

variable (sha256 : List UInt8 → List UInt8)

/-- `computeEscrowEventHash`. -/
def computeEscrowEventHash (fromStatus toStatus : EscrowStatus) (triggeredBy prevHash : JsString) :
    JsString :=
  hexDigest sha256 (eventText (statusText fromStatus) (statusText toStatus) triggeredBy prevHash)

/-! ## Writing -/

/-- A call of `emitEscrowTransition` : the row it found last, the time its row gets, and
whether its transaction commits. -/
structure Emission where
  src : EscrowStatus
  dst : EscrowStatus
  triggeredBy : ColumnText
  last : Option EscrowEvent
  createdAt : ℕ
  commits : Bool

/-- The row of a call. -/
def Emission.row (e : Emission) : EscrowEvent :=
  let prevHash := (e.last.bind EscrowEvent.entryHash).getD genesis
  { fromStatus := e.src
    toStatus := e.dst
    triggeredBy := e.triggeredBy
    createdAt := e.createdAt
    entryHash := some (computeEscrowEventHash sha256 e.src e.dst e.triggeredBy.text prevHash)
    prevHash := some prevHash }

/-- The transition has a row already. -/
def alreadyEmitted (rows : List EscrowEvent) (dst : EscrowStatus) : Bool :=
  rows.any (·.toStatus = dst)

/-- `emitEscrowTransition`, under the lock of the escrow. -/
def emitEscrowTransition (e : Emission) (rows : List EscrowEvent) : List EscrowEvent :=
  if alreadyEmitted rows e.dst then rows
  else if e.commits then rows ++ [e.row sha256] else rows

/-- The rows that are reached by calls that meet `A`, from rows that are older than the chain.
What a call found last is an answer to its query. -/
inductive Reached (A : List EscrowEvent → Emission → Prop) : List EscrowEvent → Prop where
  | start {rows : List EscrowEvent} (hold : ∀ r ∈ rows, r.entryHash = none) : Reached A rows
  | step {rows : List EscrowEvent} {e : Emission} (hrows : Reached A rows)
      (hlast : Latest EscrowEvent.createdAt rows e.last) (he : A rows e) :
      Reached A (emitEscrowTransition sha256 e rows)

/-! ## Verifying -/

/-- Why a row is wrong. -/
inductive Reason where
  | mutated
  | unlinked (expected got : JsString)
  | notGenesis (got : JsString)
  deriving DecidableEq

/-- `EscrowChainVerification`. -/
inductive Verification where
  | valid
  | broken (index : ℕ) (reason : Reason)
  deriving DecidableEq

/-- The loop of `verifyEscrowEventChain`. -/
def verifyFrom : ℕ → JsString → Bool → List EscrowEvent → Verification
  | _, _, _, [] => .valid
  | i, expectedPrevHash, chainStarted, event :: events =>
    match event.entryHash with
    | none => verifyFrom (i + 1) expectedPrevHash chainStarted events
    | some entryHash =>
      let storedPrevHash := event.prevHash.getD genesis
      let recomputed := computeEscrowEventHash sha256 event.fromStatus event.toStatus
        event.triggeredBy.text storedPrevHash
      let expected := if chainStarted then expectedPrevHash else genesis
      if entryHash ≠ recomputed then .broken i .mutated
      else if storedPrevHash ≠ expected then
        .broken i (if chainStarted then .unlinked expected storedPrevHash
          else .notGenesis storedPrevHash)
      else verifyFrom (i + 1) entryHash true events

/-- `verifyEscrowEventChain`, of the rows it reads. -/
def verifyEscrowEventChain (events : List EscrowEvent) : Verification :=
  verifyFrom sha256 0 genesis false events

/-! ## The chain of a list of rows -/

/-- The rows with an entry hash. -/
def chainedRows (rows : List EscrowEvent) : List EscrowEvent := rows.filter (·.entryHash.isSome)

/-- The hash chain of the audit rows. -/
abbrev format : Format EscrowEvent (EscrowStatus × EscrowStatus × ColumnText) JsString where
  body := EscrowEvent.transition
  prev e := e.prevHash.getD genesis
  hash e := e.entryHash.getD genesis
  digest b h := computeEscrowEventHash sha256 b.1 b.2.1 b.2.2.text h
  genesis := genesis

variable {sha256}

/-- The loop accepts the rows that are linked. -/
theorem verifyFrom_eq_valid {events : List EscrowEvent} {i : ℕ} {h : JsString} {started : Bool} :
    verifyFrom sha256 i h started events = .valid ↔
      Linked (format sha256) (if started then h else genesis) (chainedRows events) := by
  induction events generalizing i h started with
  | nil => exact iff_of_true rfl trivial
  | cons e events ih =>
    rw [verifyFrom, chainedRows]
    cases hhash : e.entryHash with
    | none =>
      rw [List.filter_cons_of_neg (by simp [hhash])]
      exact ih
    | some entryHash =>
      have hentry : (format sha256).hash e = entryHash := by
        change e.entryHash.getD genesis = entryHash
        rw [hhash, Option.getD_some]
      rw [List.filter_cons_of_pos (by simp [hhash]), Linked, hentry]
      dsimp only
      by_cases hsame : entryHash = computeEscrowEventHash sha256 e.fromStatus e.toStatus
          e.triggeredBy.text (e.prevHash.getD genesis)
      · rw [if_neg (not_not.mpr hsame)]
        by_cases hlinked : e.prevHash.getD genesis = if started then h else genesis
        · rw [if_neg (not_not.mpr hlinked), ih, if_pos rfl]
          exact ⟨fun h => ⟨hlinked, hsame, h⟩, fun h => h.2.2⟩
        · rw [if_pos hlinked]
          exact iff_of_false (fun h => by cases h) fun h => hlinked h.1
      · rw [if_pos hsame]
        exact iff_of_false (fun h => by cases h) fun h => hsame h.2.1

theorem verify_eq_valid {events : List EscrowEvent} :
    verifyEscrowEventChain sha256 events = .valid ↔
      Linked (format sha256) genesis (chainedRows events) :=
  verifyFrom_eq_valid

/-! ## The chain that is written -/

/-- A row that a call adds is later than all rows there are. -/
def Later (rows : List EscrowEvent) (e : Emission) : Prop :=
  e.commits = true → alreadyEmitted rows e.dst = false → ∀ r ∈ rows, r.createdAt < e.createdAt

/-- The rows with an entry hash are a chain in the order of their commits, after the others. -/
structure Chained (sha256 : List UInt8 → List UInt8) (rows : List EscrowEvent) : Prop where
  increasing : Increasing EscrowEvent.createdAt (chainedRows rows)
  older : ∀ r ∈ rows, r.entryHash = none → ∀ r' ∈ chainedRows rows, r.createdAt < r'.createdAt
  linked : Linked (format sha256) genesis (chainedRows rows)

theorem mem_chainedRows {rows : List EscrowEvent} {r : EscrowEvent} :
    r ∈ chainedRows rows ↔ r ∈ rows ∧ r.entryHash.isSome = true :=
  List.mem_filter

/-- The row that is found last is the end of the chain, or older than it. -/
theorem Chained.tip_of_latest {rows : List EscrowEvent} (hrows : Chained sha256 rows)
    {last : Option EscrowEvent} (hlast : Latest EscrowEvent.createdAt rows last) :
    (last.bind EscrowEvent.entryHash).getD genesis =
      tip (format sha256) genesis (chainedRows rows) := by
  cases hend : (chainedRows rows).getLast? with
  | none =>
    rw [List.getLast?_eq_none_iff.mp hend, tip_nil]
    cases last with
    | none => rfl
    | some r =>
      have hnone : r.entryHash = none := by
        by_contra hsome
        have hr : r ∈ chainedRows rows := mem_chainedRows.mpr
          ⟨hlast.1, Option.isSome_iff_ne_none.mpr hsome⟩
        rw [List.getLast?_eq_none_iff.mp hend] at hr
        cases hr
      rw [Option.bind_some, hnone, Option.getD_none]
  | some l =>
    have hl := mem_chainedRows.mp (List.mem_of_getLast? hend)
    cases last with
    | none =>
      rw [show rows = [] from hlast] at hl
      cases hl.1
    | some r =>
      have hsome : r.entryHash.isSome = true := by
        rw [Option.isSome_iff_ne_none]
        intro hnone
        have hlt := hrows.older r hlast.1 hnone l (mem_chainedRows.mpr hl)
        exact absurd (hlast.2 l hl.1) (Nat.not_le.mpr hlt)
      have hlatest : Latest EscrowEvent.createdAt (chainedRows rows) (some r) :=
        ⟨mem_chainedRows.mpr ⟨hlast.1, hsome⟩, fun r' hr' => hlast.2 r' (mem_chainedRows.mp hr').1⟩
      have hrl : some r = some l := (hrows.increasing.latest_iff.mp hlatest).trans hend
      rw [hrl, tip_of_getLast? hend]
      rfl

/-- A call prolongs the chain. -/
theorem Chained.emit {rows : List EscrowEvent} (hrows : Chained sha256 rows) {e : Emission}
    (hlast : Latest EscrowEvent.createdAt rows e.last)
    (hlater : ∀ r ∈ rows, r.createdAt < e.createdAt) :
    Chained sha256 (rows ++ [e.row sha256]) := by
  have hchained : chainedRows (rows ++ [e.row sha256]) = chainedRows rows ++ [e.row sha256] := by
    rw [chainedRows, List.filter_append]
    rfl
  refine ⟨?_, fun r hr hnone r' hr' => ?_, ?_⟩
  · rw [hchained]
    exact hrows.increasing.concat fun r hr => hlater r (mem_chainedRows.mp hr).1
  · have hr : r ∈ rows := by
      rcases List.mem_append.mp hr with hr | hr
      · exact hr
      · rw [List.mem_singleton.mp hr] at hnone
        cases hnone
    rw [hchained] at hr'
    rcases List.mem_append.mp hr' with hr' | hr'
    · exact hrows.older r hr hnone r' hr'
    · rw [List.mem_singleton.mp hr']
      exact hlater r hr
  · rw [hchained, linked_concat, ← hrows.tip_of_latest hlast]
    exact ⟨hrows.linked, rfl, rfl⟩

/-- Rows that were written later each time form a chain. -/
theorem Reached.chained {rows : List EscrowEvent} (h : Reached sha256 Later rows) :
    Chained sha256 rows := by
  induction h with
  | @start rows hold =>
    have hnil : chainedRows rows = [] :=
      List.filter_eq_nil_iff.mpr fun r hr => by simp [hold r hr]
    refine ⟨?_, fun _ _ _ r' hr' => ?_, ?_⟩
    · rw [hnil]
      exact List.Pairwise.nil
    · rw [hnil] at hr'
      cases hr'
    · rw [hnil]
      trivial
  | @step rows e _ hlast he ih =>
    rw [emitEscrowTransition]
    split
    · exact ih
    · next hnew =>
      split
      · next hcommits => exact ih.emit hlast (he hcommits (Bool.not_eq_true _ ▸ hnew))
      · exact ih

/-- Any read of the rows has the rows of the chain in the order of their commits. -/
theorem Chained.chainedRows_of_ascending {rows out : List EscrowEvent}
    (hrows : Chained sha256 rows) (hout : Ascending EscrowEvent.createdAt rows out) :
    chainedRows out = chainedRows rows :=
  hrows.increasing.ascending_iff.mp ⟨hout.1.filter _, hout.2.filter _⟩

theorem Reached.linked_read {rows out : List EscrowEvent} (h : Reached sha256 Later rows)
    (hout : Ascending EscrowEvent.createdAt rows out) :
    Linked (format sha256) genesis (chainedRows out) := by
  rw [h.chained.chainedRows_of_ascending hout]
  exact h.chained.linked

/-- When every new row is later than the rows there are, the chain verifies, however ties
among the older rows are read. -/
theorem audit_verifies {rows out : List EscrowEvent} (h : Reached sha256 Later rows)
    (hout : Ascending EscrowEvent.createdAt rows out) :
    verifyEscrowEventChain sha256 out = .valid :=
  verify_eq_valid.mpr (h.linked_read hout)

/-! ### Two transitions -/

/-- The digests of the two transitions. -/
def sampleDigests : List (List UInt8 × List UInt8) :=
  [(toUtf8 (js "CREATED|FUNDS_LOCKED|seller-1|genesis"),
    [0x50, 0x20, 0x48, 0x10, 0xAE, 0x0A, 0x99, 0x3F, 0xAE, 0xA4, 0x2E, 0x4B,
      0xBA, 0x63, 0xAF, 0x27, 0x75, 0xAB, 0xF7, 0x17, 0x5D, 0x06, 0xA0, 0x00,
      0x61, 0x4B, 0x6B, 0xD5, 0x19, 0x0C, 0xA6, 0x67]),
   (toUtf8 (js ("FUNDS_LOCKED|PAYMENT_PENDING|buyer-1|" ++
      "50204810ae0a993faea42e4bba63af2775abf7175d06a000614b6bd5190ca667")),
    [0xA7, 0x6C, 0xAB, 0xA2, 0x37, 0x8A, 0x21, 0x9A, 0xAA, 0x70, 0xA6, 0x03,
      0xAB, 0x76, 0x2F, 0xFA, 0x8F, 0xFD, 0x4E, 0xCE, 0xF0, 0xA8, 0x1C, 0xF5,
      0x70, 0x06, 0x72, 0x56, 0x82, 0x3D, 0x9C, 0x87])]

/-- The lock of the sample. -/
def lockedEmission : Emission :=
  ⟨.created, .fundsLocked, ⟨js "seller-1", by decide⟩, none, 1000, true⟩

/-- The row of the lock. -/
def lockedRow : EscrowEvent := lockedEmission.row (tableHash sampleDigests)

/-- A payment that is reported after the lock. -/
def pendingEmission (createdAt : ℕ) : Emission :=
  ⟨.fundsLocked, .paymentPending, ⟨js "buyer-1", by decide⟩, some lockedRow, createdAt,
    true⟩

/-- The row of the payment. -/
def pendingRow (createdAt : ℕ) : EscrowEvent :=
  (pendingEmission createdAt).row (tableHash sampleDigests)

/-- The two rows are reached. -/
theorem reached_pendingRow {A : List EscrowEvent → Emission → Prop} {createdAt : ℕ}
    (hlocked : A [] lockedEmission) (hpending : A [lockedRow] (pendingEmission createdAt)) :
    Reached (tableHash sampleDigests) A [lockedRow, pendingRow createdAt] := by
  have hlast : Latest EscrowEvent.createdAt [lockedRow] (some lockedRow) :=
    ⟨List.mem_singleton_self _, fun r hr => by rw [List.mem_singleton.mp hr]⟩
  have hfirst : Reached (tableHash sampleDigests) A [lockedRow] :=
    @Reached.step _ _ [] lockedEmission (.start nofun) rfl hlocked
  exact @Reached.step _ _ [lockedRow] (pendingEmission createdAt) hfirst hlast hpending

theorem reached_later : Reached (tableHash sampleDigests) Later [lockedRow, pendingRow 1001] := by
  refine reached_pendingRow (fun _ _ => nofun) fun _ _ r hr => ?_
  rw [List.mem_singleton.mp hr]
  decide

theorem ascending_later : Ascending EscrowEvent.createdAt [lockedRow, pendingRow 1001]
    [lockedRow, pendingRow 1001] :=
  ⟨List.Perm.refl _, by simp [lockedRow, pendingRow, Emission.row, lockedEmission, pendingEmission]⟩

theorem audit_verifies_pending :
    verifyEscrowEventChain (tableHash sampleDigests) [lockedRow, pendingRow 1001] = .valid :=
  audit_verifies reached_later ascending_later

/-- Two transitions of one millisecond, read in the other order : the first row that is read
points at the second. -/
theorem audit_out_of_order :
    Reached (tableHash sampleDigests) (fun _ _ => True) [lockedRow, pendingRow 1000] ∧
      Ascending EscrowEvent.createdAt [lockedRow, pendingRow 1000] [pendingRow 1000, lockedRow] ∧
      verifyEscrowEventChain (tableHash sampleDigests) [pendingRow 1000, lockedRow] =
        .broken 0 (.notGenesis (lockedRow.entryHash.getD genesis)) :=
  ⟨reached_pendingRow trivial trivial,
    ⟨List.Perm.swap _ _ _,
      by simp [lockedRow, pendingRow, Emission.row, lockedEmission, pendingEmission]⟩,
    by decide +kernel⟩

/-! ## What the last entry hash determines -/

/-- The rows from the first one with an entry hash on. -/
def fromFirst (rows : List EscrowEvent) : List EscrowEvent := rows.dropWhile (·.entryHash.isNone)

/-- No row without an entry hash stands among them. -/
def unbroken (rows : List EscrowEvent) : Bool := (fromFirst rows).all (·.entryHash.isSome)

/-- The transitions of the rows after the first one with an entry hash. -/
def transitions (rows : List EscrowEvent) : List (EscrowStatus × EscrowStatus × ColumnText) :=
  (fromFirst rows).tail.map EscrowEvent.transition

theorem statusText_units : ∀ status : EscrowStatus,
    (statusText status).all (fun u => !isSurrogate u && u != 0x7C) = true := by
  intro status
  cases status <;> rw [statusText, js_ofList] <;> decide

theorem statusText_injective : ∀ status status' : EscrowStatus,
    statusText status = statusText status' → status = status' := by
  intro status status'
  cases status <;> cases status' <;> unfold statusText <;> repeat rw [js_ofList]
  all_goals decide

theorem not_mem_statusText (status : EscrowStatus) : 0x7C ∉ statusText status := by
  intro h
  simpa using List.all_eq_true.mp (statusText_units status) _ h

theorem whole_statusText (status : EscrowStatus) : Whole (statusText status) := by
  refine whole_of_plain fun u hu => ?_
  have := List.all_eq_true.mp (statusText_units status) u hu
  rw [Bool.and_eq_true, Bool.not_eq_true_eq_eq_false] at this
  exact this.1

theorem genesis_units : genesis.all (fun u => !isSurrogate u && u != 0x7C) = true ∧
    (0x67 : UInt16) ∈ genesis := by
  decide

/-- A hash a row points at has no separator, and is well formed. -/
theorem link_units {h : JsString} (hlink : Link (format sha256) h) :
    0x7C ∉ h ∧ toWellFormed h = h := by
  rcases hlink with rfl | ⟨e, h', rfl⟩
  · refine ⟨fun hmem => ?_, toWellFormed_of_plain fun u hu => ?_⟩
    · simpa using List.all_eq_true.mp genesis_units.1 _ hmem
    · have := List.all_eq_true.mp genesis_units.1 u hu
      rw [Bool.and_eq_true, Bool.not_eq_true_eq_eq_false] at this
      exact this.1
  · exact ⟨not_mem_hexDigest (by decide) _,
      toWellFormed_of_plain fun u hu => plain_of_mem_hexDigest hu⟩

/-- The text of a row is well formed. -/
theorem toWellFormed_eventText {e : EscrowEvent} {h : JsString} (hh : toWellFormed h = h) :
    toWellFormed
        (eventText (statusText e.fromStatus) (statusText e.toStatus) e.triggeredBy.text h) =
      eventText (statusText e.fromStatus) (statusText e.toStatus) e.triggeredBy.text h := by
  have hsep : isSurrogate 0x7C = false := by decide
  rw [eventText, toWellFormed_append_plain hsep, toWellFormed_append_plain hsep,
    toWellFormed_append_plain hsep, (whole_statusText e.fromStatus).toWellFormed_eq,
    (whole_statusText e.toStatus).toWellFormed_eq, e.triggeredBy.wellFormed, hh]

/-- Without a collision the hash binds what is hashed. -/
theorem format_binding (hsha : Function.Injective sha256) : Binding (format sha256) := by
  refine ⟨fun {e e' h h'} hh hh' heq => ?_, fun e h heq => ?_⟩
  · obtain ⟨hsep, hwell⟩ := link_units hh
    obtain ⟨hsep', hwell'⟩ := link_units hh'
    -- The statuses end at the first two separators, and the hash starts after the last one.
    have htext := hexDigest_inj hsha (toWellFormed_eventText hwell)
      (toWellFormed_eventText hwell') heq
    obtain ⟨hfrom, hrest⟩ := split_first (not_mem_statusText _) (not_mem_statusText _) htext
    obtain ⟨hto, hrest⟩ := split_first (not_mem_statusText _) (not_mem_statusText _) hrest
    obtain ⟨hby, hprev⟩ := split_last hsep hsep' hrest
    exact ⟨Prod.ext (statusText_injective _ _ hfrom)
      (Prod.ext (statusText_injective _ _ hto) (ColumnText.ext hby)), hprev⟩
  · have hg : (0x67 : UInt16) ∈ (format sha256).digest ((format sha256).body e) h := by
      rw [heq]
      exact genesis_units.2
    exact not_mem_hexDigest (by decide) _ hg

/-! ### Rows from the first one on -/

/-- The rows the verifier looks at, from the first chained one on. -/
theorem chainedRows_eq (rows : List EscrowEvent) :
    chainedRows rows = (fromFirst rows).filter (·.entryHash.isSome) := by
  have hnone : (rows.takeWhile (·.entryHash.isNone)).filter (·.entryHash.isSome) = [] := by
    refine List.filter_eq_nil_iff.mpr fun r hr => ?_
    have := List.all_eq_true.mp List.all_takeWhile r hr
    simpa using this
  rw [chainedRows, fromFirst]
  nth_rewrite 1 [← List.takeWhile_append_dropWhile (p := (·.entryHash.isNone)) (l := rows)]
  rw [List.filter_append, hnone, List.nil_append]

theorem unbroken_iff {rows : List EscrowEvent} :
    unbroken rows = true ↔ fromFirst rows = chainedRows rows := by
  rw [unbroken, chainedRows_eq, List.all_eq_true, eq_comm, List.filter_eq_self]

/-- The transitions of an unbroken list are those of its chain. -/
theorem transitions_eq_iff {rows rows' : List EscrowEvent} (hne : chainedRows rows ≠ [])
    (hrows' : unbroken rows' = true) (hbody : (chainedRows rows).map EscrowEvent.transition =
      (chainedRows rows').map EscrowEvent.transition) :
    transitions rows = transitions rows' ↔ unbroken rows = true := by
  have htail' : transitions rows' = ((chainedRows rows).map EscrowEvent.transition).tail := by
    rw [transitions, unbroken_iff.mp hrows', hbody, ← List.map_tail]
  rw [htail']
  constructor
  · intro h
    have hlen := congrArg List.length h
    rw [transitions, List.length_map, List.length_tail, List.length_tail, List.length_map] at hlen
    have hsub : (chainedRows rows).Sublist (fromFirst rows) := by
      rw [chainedRows_eq]
      exact List.filter_sublist
    have hpos := List.length_pos_iff.mpr hne
    have hle := hsub.length_le
    exact unbroken_iff.mpr (hsub.eq_of_length (by omega)).symm
  · intro h
    rw [transitions, unbroken_iff.mp h, ← List.map_tail]

theorem getLast?_chainedRows {rows : List EscrowEvent} {r : EscrowEvent}
    (hlast : rows.getLast? = some r) (hr : r.entryHash.isSome = true) :
    (chainedRows rows).getLast? = some r := by
  obtain ⟨init, rfl⟩ := List.getLast?_eq_some_iff.mp hlast
  rw [chainedRows, List.filter_append, List.filter_singleton, hr, cond_true, List.getLast?_concat]

/-- Rows that keep their hashes once they have them are unbroken. -/
theorem unbroken_of_pairwise {rows : List EscrowEvent} (h : rows.Pairwise fun a b =>
    a.entryHash.isSome = true → b.entryHash.isSome = true) : unbroken rows = true := by
  induction rows with
  | nil => rfl
  | cons a rows ih =>
    obtain ⟨hfirst, hrest⟩ := List.pairwise_cons.mp h
    rw [unbroken, fromFirst]
    cases ha : a.entryHash with
    | none =>
      rw [List.dropWhile_cons_of_pos (by simp [ha])]
      exact ih hrest
    | some h =>
      rw [List.dropWhile_cons_of_neg (by simp [ha]), List.all_eq_true]
      intro b hb
      rcases List.mem_cons.mp hb with rfl | hb
      · rw [ha, Option.isSome_some]
      · exact hfirst b hb (by rw [ha, Option.isSome_some])

/-- A read of the rows has the older ones first. -/
theorem Chained.unbroken_read {rows out : List EscrowEvent} (hrows : Chained sha256 rows)
    (hout : Ascending EscrowEvent.createdAt rows out) : unbroken out = true := by
  refine unbroken_of_pairwise (hout.2.imp_of_mem fun {a b} ha hb hab hsome => ?_)
  rw [Option.isSome_iff_ne_none]
  intro hnone
  have hlt := hrows.older b (hout.1.mem_iff.mp hb) hnone a
    (mem_chainedRows.mpr ⟨hout.1.mem_iff.mp ha, hsome⟩)
  exact absurd hab (Nat.not_le.mpr hlt)

/-- The last row of unbroken rows is the last chained one. -/
theorem getLast?_of_unbroken {rows : List EscrowEvent} (h : unbroken rows = true)
    (hne : chainedRows rows ≠ []) : rows.getLast? = (chainedRows rows).getLast? := by
  have hsplit : rows = rows.takeWhile (·.entryHash.isNone) ++ chainedRows rows := by
    rw [← unbroken_iff.mp h]
    exact List.takeWhile_append_dropWhile.symm
  cases hlast : (chainedRows rows).getLast? with
  | none => exact absurd (List.getLast?_eq_none_iff.mp hlast) hne
  | some r => rw [hsplit, List.getLast?_append, hlast, Option.some_or]

/-- Let a list that verifies end in the entry hash of the rows that were written. Then the
transitions of its rows after the first one with an entry hash are those that were written,
exactly when no row without an entry hash stands among them. -/
theorem audit_head_determines (hsha : Function.Injective sha256)
    {rows out events : List EscrowEvent} (h : Reached sha256 Later rows)
    (hout : Ascending EscrowEvent.createdAt rows out) (hne : chainedRows out ≠ [])
    (hhead : events.getLast?.bind EscrowEvent.entryHash = out.getLast?.bind EscrowEvent.entryHash)
    (hvalid : verifyEscrowEventChain sha256 events = .valid) :
    transitions events = transitions out ↔ unbroken events = true := by
  have hunbroken := h.chained.unbroken_read hout
  have hlinked := h.linked_read hout
  cases hlast : (chainedRows out).getLast? with
  | none => exact absurd (List.getLast?_eq_none_iff.mp hlast) hne
  | some l =>
    obtain ⟨entryHash, hl⟩ := Option.isSome_iff_exists.mp
      (mem_chainedRows.mp (List.mem_of_getLast? hlast)).2
    rw [getLast?_of_unbroken hunbroken hne, hlast, Option.bind_some, hl] at hhead
    obtain ⟨r, hr, hhash⟩ := Option.bind_eq_some_iff.mp hhead
    have hrlast := getLast?_chainedRows hr (by rw [hhash, Option.isSome_some])
    have htip : tip (format sha256) genesis (chainedRows events) =
        tip (format sha256) genesis (chainedRows out) := by
      rw [tip_of_getLast? hrlast, tip_of_getLast? hlast]
      change r.entryHash.getD genesis = l.entryHash.getD genesis
      rw [hhash, hl]
    have hcontent := Linked.eq_of_tip (format_binding hsha) (verify_eq_valid.mp hvalid) hlinked htip
    have hbody := congrArg (List.map Prod.fst) hcontent
    rw [List.map_map, List.map_map] at hbody
    refine transitions_eq_iff (fun hnil => ?_) hunbroken hbody
    rw [hnil] at hrlast
    cases hrlast

/-- A row without hash columns, put between the two. -/
def forgedRow : EscrowEvent :=
  ⟨.fundsLocked, .disputed, ⟨js "attacker", by decide⟩, 1000, none, none⟩

/-- A row of the time before the hash columns, put in front. -/
def legacyRow : EscrowEvent :=
  ⟨.created, .fundsLocked, ⟨js "seller-1", by decide⟩, 999, none, none⟩

/-- The forged row breaks the rows that have an entry hash, the legacy row does not. -/
theorem audit_head_determines_forged :
    ((transitions [lockedRow, forgedRow, pendingRow 1001] =
        transitions [lockedRow, pendingRow 1001] ↔
      unbroken [lockedRow, forgedRow, pendingRow 1001] = true) ∧
      unbroken [lockedRow, forgedRow, pendingRow 1001] = false) ∧
    (transitions [legacyRow, lockedRow, pendingRow 1001] =
        transitions [lockedRow, pendingRow 1001] ↔
      unbroken [legacyRow, lockedRow, pendingRow 1001] = true) ∧
      unbroken [legacyRow, lockedRow, pendingRow 1001] = true :=
  ⟨⟨audit_head_determines (tableHash_injective (by decide)) reached_later ascending_later
      nofun rfl (by decide +kernel), by decide⟩,
    audit_head_determines (tableHash_injective (by decide)) reached_later ascending_later
      nofun rfl (by decide +kernel), by decide⟩

/-- Of two transitions of one millisecond that are read in the other order, the first one alone
verifies and keeps the last entry hash. -/
example : verifyEscrowEventChain (tableHash sampleDigests) [lockedRow] = .valid ∧
    [lockedRow].getLast? = [pendingRow 1000, lockedRow].getLast? ∧
    transitions [lockedRow] ≠ transitions [pendingRow 1000, lockedRow] :=
  ⟨by decide +kernel, rfl, fun h => absurd (congrArg List.length h) (by decide)⟩

/-- The forged row is skipped : the list verifies, and keeps the last entry hash. -/
theorem forged_row_accepted :
    Reached (tableHash sampleDigests) Later [lockedRow, pendingRow 1001] ∧
      verifyEscrowEventChain (tableHash sampleDigests)
        [lockedRow, forgedRow, pendingRow 1001] = .valid ∧
      [lockedRow, forgedRow, pendingRow 1001].getLast? = some (pendingRow 1001) ∧
      transitions [lockedRow, forgedRow, pendingRow 1001] ≠
        transitions [lockedRow, pendingRow 1001] := by
  refine ⟨reached_later, by decide +kernel, rfl, fun h => ?_⟩
  exact absurd (congrArg List.length h) (by decide)

end Audit

end Sails.Audit
