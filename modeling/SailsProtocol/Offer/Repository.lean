import SailsProtocol.Async.Pool
import SailsProtocol.Offer.Persistence

/-!
# The envelope store of a node

`ingest` verifies an envelope and stores it, in three awaited queries : a read of the
envelopes at its revision, the insert, and, when the insert meets the unique
constraint, a read of the row that is already there. Any number of calls may be
interleaved at these points, a query may fail with or without its effect, and a call
may be cut off.

`getLatest` reads the rows of an offer at its highest revision, one for each content
digest, ordered by the digest.
-/

namespace Sails.Offer

open Text Async

/-- What the unique constraint ranges over. -/
structure Fact where
  ownerPublicKey : JsString
  logicalOfferId : JsString
  revision : ℤ
  contentDigest : JsString
  deriving DecidableEq, Repr

/-- What the table keeps unique of a row. -/
def OfferEnvelopeRow.fact (row : OfferEnvelopeRow) : Fact :=
  ⟨row.ownerPublicKey, row.logicalOfferId, row.revision, row.contentDigest⟩

/-- A row with the id the database gave it. -/
structure StoredRow where
  id : ℕ
  row : OfferEnvelopeRow
  deriving DecidableEq, Repr

/-- The row is one of the owner's offer. -/
def StoredRow.isFor (r : StoredRow) (ownerPublicKey logicalOfferId : JsString) : Bool :=
  r.row.ownerPublicKey == ownerPublicKey && r.row.logicalOfferId == logicalOfferId

/-! ## Queries -/

/-- The queries of the repository. -/
inductive Call where
  | findMany (ownerPublicKey logicalOfferId : JsString) (revision : JsNumber)
  | create (data : Option OfferEnvelopeRow)
  | findFirst (ownerPublicKey logicalOfferId : JsString) (revision : JsNumber)
      (contentDigest : JsString)

/-- The answer to a query ; an insert answers with the new id. -/
abbrev Answer : Call → Type
  | .findMany _ _ _ => List StoredRow
  | .create _ => ℕ
  | .findFirst _ _ _ _ => Option StoredRow

/-- The errors of the repository. -/
inductive DbError where
  /-- The unique constraint. -/
  | P2002
  /-- Any other failure. -/
  | fault
  deriving DecidableEq, Repr

/-- Whether a query fails, and the id of the row it writes. -/
structure QueryEnv where
  fate : Fate
  newId : ℕ
  deriving DecidableEq, Repr

/-- The row matches the columns of a query. -/
def matchesRow (ownerPublicKey logicalOfferId : JsString) (revision : JsNumber) (r : StoredRow) :
    Bool :=
  r.isFor ownerPublicKey logicalOfferId && JsNumber.int r.row.revision == revision

/-- The effect and the answer of a query that reaches the database. -/
def Call.run : (q : Call) → ℕ → List StoredRow → Except DbError (Answer q) × List StoredRow
  | .findMany owner id rev, _, table => (.ok (table.filter (matchesRow owner id rev)), table)
  | .create none, _, table => (.error .fault, table)
  | .create (some row), newId, table =>
    if table.any fun r => r.row.fact == row.fact then (.error .P2002, table)
    else (.ok newId, table ++ [⟨newId, row⟩])
  | .findFirst owner id rev digest, _, table =>
    (.ok (table.find? fun r => matchesRow owner id rev r && r.row.contentDigest == digest), table)

/-- A query under the fate the environment gives it. -/
def Call.exec (q : Call) (env : QueryEnv) (table : List StoredRow) :
    Except DbError (Answer q) × List StoredRow :=
  env.fate.settle .fault (q.run env.newId table) table

/-- The row an insert found or put in the table. -/
def Call.observe : (q : Call) → List StoredRow → Except DbError (Answer q) → List OfferEnvelopeRow
  | .create (some row), _, .ok _ => [row]
  | .create (some row), _, .error .P2002 => [row]
  | _, _, _ => []

/-! ## Ingesting -/

/-- What `ingest` returns. -/
inductive IngestResult where
  | rejected (reason : JsString)
  | accepted (id : ℕ) (equivocationDetected : Bool)
  deriving DecidableEq, Repr

/-- The hex text of bytes. -/
def toHex (bytes : List UInt8) : JsString :=
  bytes.flatMap fun b => [hexDigit (b.toNat / 16), hexDigit (b.toNat % 16)]

section Ingest

variable (sha256 : List UInt8 → List UInt8)
variable (verify : List UInt8 → List UInt8 → List UInt8 → Bool)

/-- `contentDigest`, the hex text of the hash. -/
def contentDigest (e : SignedOfferEnvelope) : JsString := toHex (hashOfferEnvelope sha256 e)

/-- `ingest`. -/
def ingest (e : SignedOfferEnvelope) : Prog Answer DbError IngestResult :=
  match verifyOfferEnvelope sha256 verify e with
  | .invalid reason => pure (.rejected reason)
  | .valid => do
    let digest := contentDigest sha256 e
    let siblings : List StoredRow ←
      Prog.perform (Call.findMany e.ownerPublicKey e.logicalOfferId e.revision)
    let isNewDistinctFact :=
      !siblings.isEmpty && !siblings.any fun r => r.row.contentDigest == digest
    let insert : Prog Answer DbError IngestResult := do
      let id ← Prog.perform (Call.create (toRowData e digest))
      pure (.accepted id isNewDistinctFact)
    insert.tryCatch fun err =>
      match err with
      | .P2002 => do
        let existing : Option StoredRow ← Prog.perform
          (Call.findFirst e.ownerPublicKey e.logicalOfferId e.revision digest)
        match existing with
        | some r => pure (.accepted r.id false)
        | none => throw .P2002
      | .fault => throw .fault

/-- A node : any number of `ingest` calls over its table. -/
def node : System Answer DbError IngestResult (List StoredRow) QueryEnv SignedOfferEnvelope
    OfferEnvelopeRow where
  exec := Call.exec
  observe := Call.observe
  prog := ingest sha256 verify

end Ingest

/-! ## The current state of an offer -/

/-- `LatestOfferState`. -/
inductive LatestOfferState where
  | NOT_FOUND
  | RESOLVED (row : StoredRow)
  | EQUIVOCATED (revision : ℤ) (rows : List StoredRow)
  deriving DecidableEq, Repr

/-- `map.set(row.contentDigest, row)` on the entries of a `Map` in insertion order. -/
def mapSet (entries : List StoredRow) (row : StoredRow) : List StoredRow :=
  if entries.any fun r => r.row.contentDigest == row.row.contentDigest then
    entries.map fun r => if r.row.contentDigest = row.row.contentDigest then row else r
  else entries ++ [row]

/-- The last row of each digest, in order of the first. -/
def distinctByContentDigest (rows : List StoredRow) : List StoredRow := rows.foldl mapSet []

/-- The order of `localeCompare` on hex digests. -/
def digestLe (a b : StoredRow) : Prop :=
  a.row.contentDigest.map UInt16.toNat ≤ b.row.contentDigest.map UInt16.toNat

instance : DecidableRel digestLe := fun _ _ => inferInstanceAs (Decidable (_ ≤ _))

/-- The rows of a revision. -/
def rowsAt (table : List StoredRow) (ownerPublicKey logicalOfferId : JsString) (revision : ℤ) :
    List StoredRow :=
  table.filter fun r => r.isFor ownerPublicKey logicalOfferId && r.row.revision == revision

/-- The highest revision of an offer. -/
def highestRevision (table : List StoredRow) (ownerPublicKey logicalOfferId : JsString) :
    Option ℤ :=
  ((table.filter fun r => r.isFor ownerPublicKey logicalOfferId).map fun r => r.row.revision).max?

/-- Both queries read the table as it is when nothing is being ingested. There is a row
at the highest revision, so the rows are never none. -/
def getLatest (table : List StoredRow) (ownerPublicKey logicalOfferId : JsString) :
    LatestOfferState :=
  match highestRevision table ownerPublicKey logicalOfferId with
  | none => .NOT_FOUND
  | some revision =>
    match (distinctByContentDigest (rowsAt table ownerPublicKey logicalOfferId revision)).insertionSort
      digestLe with
    | [] => .NOT_FOUND
    | [row] => .RESOLVED row
    | rows => .EQUIVOCATED revision rows

/-- `isOfferEnvelopeEconomicallyActive`. -/
def isOfferEnvelopeEconomicallyActive (status : OfferEnvelopeStatus) (expiresAt : JsString)
    (now : ℤ) : Bool :=
  status == .ACTIVE && (newDate expiresAt).any fun t => now < t

/-- `isOfferStateEconomicallyActive`. -/
def isOfferStateEconomicallyActive (state : LatestOfferState) (now : ℤ) : Bool :=
  match state with
  | .RESOLVED r =>
    isOfferEnvelopeEconomicallyActive r.row.status (formatCanonicalTimestamp r.row.expiresAt) now
  | _ => false

end Sails.Offer
