import SailsProtocol.Text.Calendar

/-!
# Signed offer envelopes

An offer travels as an envelope : thirteen signed fields and an Ed25519 signature by
its owner. `validateOfferEnvelopeFields` checks the shape of every field before
anything else is asked of it, `canonicalizeOfferEnvelope` gives the bytes that are
hashed and signed, and `verifyOfferEnvelope` puts the two together with the
signature check.

The validator takes whatever arrived (`PartialEnvelope`, any JavaScript value in any
field). What it accepts is a typed envelope (`exists_of_accepted`) whose fields are
as `WellFormed` says (`accepted_iff`).
-/

namespace Sails.Offer

open Text

/-! ## Values -/

/-- A JavaScript number, with what `String` prints of one that is no integer. -/
inductive JsNumber where
  | int (n : ℤ)
  | fraction (text : JsString)
  | nonFinite (text : JsString)
  deriving DecidableEq, Repr

/-- The decimal text of a whole number. -/
def intText (n : ℤ) : JsString := if n < 0 then 0x2D :: natText n.natAbs else natText n.natAbs

/-- `String(n)`. -/
def JsNumber.text : JsNumber → JsString
  | .int n => intText n
  | .fraction text => text
  | .nonFinite text => text

/-- What may stand in a field of an envelope as it arrives. An object carries its own
JSON text. -/
inductive JsValue where
  | undefined
  | str (s : JsString)
  | num (n : JsNumber)
  | object (json : JsString)
  deriving DecidableEq, Repr

/-- A hex digit. -/
def hexDigit (d : ℕ) : UInt16 := if d < 10 then digitUnit d else UInt16.ofNat (0x57 + d)

/-- `\uxxxx`. -/
def unicodeEscape (u : UInt16) : JsString :=
  [0x5C, 0x75, hexDigit (u.toNat / 4096), hexDigit (u.toNat / 256 % 16),
    hexDigit (u.toNat / 16 % 16), hexDigit (u.toNat % 16)]

/-- What `JSON.stringify` writes for one code unit of a string. -/
def jsonUnit (u : UInt16) : JsString :=
  if u = 0x22 then [0x5C, 0x22]
  else if u = 0x5C then [0x5C, 0x5C]
  else if u = 0x08 then [0x5C, 0x62]
  else if u = 0x09 then [0x5C, 0x74]
  else if u = 0x0A then [0x5C, 0x6E]
  else if u = 0x0C then [0x5C, 0x66]
  else if u = 0x0D then [0x5C, 0x72]
  else if u.toNat < 0x20 || isSurrogate u then unicodeEscape u
  else [u]

/-- The code units of a text inside a JSON string. -/
def jsonUnits : JsString → JsString
  | [] => []
  | [u] => jsonUnit u
  | u :: v :: rest =>
    if isHighSurrogate u && isLowSurrogate v then u :: v :: jsonUnits rest
    else jsonUnit u ++ jsonUnits (v :: rest)

/-- `JSON.stringify(value)`, as a template string prints it. -/
def jsonStringify : JsValue → JsString
  | .undefined => js "undefined"
  | .str s => 0x22 :: (jsonUnits s ++ [0x22])
  | .num (.int n) => intText n
  | .num (.fraction text) => text
  | .num (.nonFinite _) => js "null"
  | .object json => json

/-! ## Fields -/

/-- `AssetType`. -/
inductive AssetType where
  | BTC | USDT_ERC20 | USDT_TRC20 | USDT_LIQUID | USDT_LIGHTNING | LN_BTC | LIQUID_BTC | SPARK
  | STACKS | RSK_BTC
  deriving DecidableEq, Repr

/-- `TradeSide`. -/
inductive TradeSide where
  | BUY | SELL
  deriving DecidableEq, Repr

/-- `PaymentMethod`. -/
inductive PaymentMethod where
  | PIX | TED | BANK_TRANSFER | CRYPTO_DIRECT | LIGHTNING_DIRECT | CASH | OTHER
  deriving DecidableEq, Repr

/-- `OfferEnvelopeStatus`. -/
inductive OfferEnvelopeStatus where
  | ACTIVE | CANCELLED
  deriving DecidableEq, Repr

/-- The text of an asset. -/
def AssetType.text : AssetType → JsString
  | .BTC => js "BTC"
  | .USDT_ERC20 => js "USDT_ERC20"
  | .USDT_TRC20 => js "USDT_TRC20"
  | .USDT_LIQUID => js "USDT_LIQUID"
  | .USDT_LIGHTNING => js "USDT_LIGHTNING"
  | .LN_BTC => js "LN_BTC"
  | .LIQUID_BTC => js "LIQUID_BTC"
  | .SPARK => js "SPARK"
  | .STACKS => js "STACKS"
  | .RSK_BTC => js "RSK_BTC"

/-- The text of a side. -/
def TradeSide.text : TradeSide → JsString
  | .BUY => js "BUY"
  | .SELL => js "SELL"

/-- The text of a payment method. -/
def PaymentMethod.text : PaymentMethod → JsString
  | .PIX => js "PIX"
  | .TED => js "TED"
  | .BANK_TRANSFER => js "BANK_TRANSFER"
  | .CRYPTO_DIRECT => js "CRYPTO_DIRECT"
  | .LIGHTNING_DIRECT => js "LIGHTNING_DIRECT"
  | .CASH => js "CASH"
  | .OTHER => js "OTHER"

/-- The text of a status. -/
def OfferEnvelopeStatus.text : OfferEnvelopeStatus → JsString
  | .ACTIVE => js "ACTIVE"
  | .CANCELLED => js "CANCELLED"

/-- `VALID_ASSETS`. -/
def validAssets : List AssetType :=
  [.BTC, .USDT_ERC20, .USDT_TRC20, .USDT_LIQUID, .USDT_LIGHTNING, .LN_BTC, .LIQUID_BTC, .SPARK,
    .STACKS, .RSK_BTC]

/-- `VALID_SIDES`. -/
def validSides : List TradeSide := [.BUY, .SELL]

/-- `VALID_PAYMENT_METHODS`. -/
def validPaymentMethods : List PaymentMethod :=
  [.PIX, .TED, .BANK_TRANSFER, .CRYPTO_DIRECT, .LIGHTNING_DIRECT, .CASH, .OTHER]

/-- `VALID_STATUSES`. -/
def validStatuses : List OfferEnvelopeStatus := [.ACTIVE, .CANCELLED]

/-- An envelope as its type declares it. -/
structure SignedOfferEnvelope where
  logicalOfferId : JsString
  ownerPublicKey : JsString
  asset : AssetType
  side : TradeSide
  priceUsd : JsString
  minAmount : JsString
  maxAmount : JsString
  paymentMethod : PaymentMethod
  revision : JsNumber
  createdAt : JsString
  revisedAt : JsString
  expiresAt : JsString
  status : OfferEnvelopeStatus
  signature : JsString
  deriving DecidableEq, Repr

/-- An envelope as it arrives. -/
structure PartialEnvelope where
  logicalOfferId : JsValue
  ownerPublicKey : JsValue
  asset : JsValue
  side : JsValue
  priceUsd : JsValue
  minAmount : JsValue
  maxAmount : JsValue
  paymentMethod : JsValue
  revision : JsValue
  createdAt : JsValue
  revisedAt : JsValue
  expiresAt : JsValue
  status : JsValue
  signature : JsValue
  deriving DecidableEq, Repr

/-- An envelope as the validator receives it. -/
def SignedOfferEnvelope.toPartial (e : SignedOfferEnvelope) : PartialEnvelope :=
  { logicalOfferId := .str e.logicalOfferId
    ownerPublicKey := .str e.ownerPublicKey
    asset := .str e.asset.text
    side := .str e.side.text
    priceUsd := .str e.priceUsd
    minAmount := .str e.minAmount
    maxAmount := .str e.maxAmount
    paymentMethod := .str e.paymentMethod.text
    revision := .num e.revision
    createdAt := .str e.createdAt
    revisedAt := .str e.revisedAt
    expiresAt := .str e.expiresAt
    status := .str e.status.text
    signature := .str e.signature }

/-! ## Lexical forms -/

/-- The separator of the signed fields. -/
def fieldSeparator : UInt16 := 0x1F

/-- The largest revision. -/
def maxRevision : ℤ := 2147483647

/-- A lower case hex digit. -/
def isLowerHex (u : UInt16) : Bool := isDigit u || 0x61 ≤ u.toNat && u.toNat ≤ 0x66

/-- `/^[0-9a-f]{n}$/`. -/
def isHex (n : ℕ) (s : JsString) : Bool := s.length == n && s.all isLowerHex

/-- A control character. -/
def isControl (u : UInt16) : Bool := u.toNat ≤ 0x1F || u == 0x7F

/-- `/^(0|[1-9]\d{0,15})\.\d{8}$/` : the digits before the point and those after it. -/
def scanDecimal (s : JsString) : Option (JsString × JsString) :=
  match s.takeWhile isDigit, s.dropWhile isDigit with
  | u :: int, 0x2E :: frac =>
    if (u == digitUnit 0 && int == [] || u != digitUnit 0 && int.length ≤ 15) &&
        frac.length == 8 && frac.all isDigit then some (u :: int, frac) else none
  | _, _ => none

/-- The pattern of a canonical decimal. -/
def isCanonicalDecimal (s : JsString) : Bool := (scanDecimal s).isSome

/-- `/^0\.0{8}$/`. -/
def isZeroDecimal (s : JsString) : Bool := s == js "0.00000000"

/-- The pattern of a canonical timestamp. -/
def isCanonicalTimestamp (s : JsString) : Bool := (scanTimestamp s).isSome

/-! ## Shape validation -/

/-- What the validator answers. -/
inductive ShapeVerdict where
  | valid
  | invalid (reason : JsString)
  deriving DecidableEq, Repr

/-- `texts.join(', ')`. -/
def joinComma (texts : List JsString) : JsString := List.intercalate (js ", ") texts

/-- The check of `logicalOfferId`. -/
def logicalOfferIdFault : JsValue → Option JsString
  | .str s =>
    if s.length < 1 || 200 < s.length then
      some (js "logicalOfferId must be a string of 1-200 characters")
    else if s.any isControl then
      some (js ("logicalOfferId must not contain control characters " ++
      "(including the canonical field separator)"))
    else none
  | _ => some (js "logicalOfferId must be a string of 1-200 characters")

/-- A field that must be a string with the property `ok`. -/
def stringFault (ok : JsString → Bool) (reason : JsString) : JsValue → Option JsString
  | .str s => if ok s then none else some reason
  | _ => some reason

/-- The check of `ownerPublicKey`. -/
def ownerPublicKeyFault : JsValue → Option JsString :=
  stringFault (isHex 64) (js ("ownerPublicKey must be exactly 64 lowercase hex characters " ++
      "(a 32-byte Ed25519 public key)"))

/-- The check of `signature`. -/
def signatureFault : JsValue → Option JsString :=
  stringFault (isHex 128) (js ("signature must be exactly 128 lowercase hex characters " ++
      "(a 64-byte Ed25519 signature)"))

/-- A field that must be one of a list of texts. -/
def enumFault (name : JsString) (texts : List JsString) : JsValue → Option JsString :=
  stringFault texts.contains (name ++ js " must be one of: " ++ joinComma texts)

/-- The check of `asset`. -/
def assetFault : JsValue → Option JsString := enumFault (js "asset") (validAssets.map (·.text))

/-- The check of `side`. -/
def sideFault : JsValue → Option JsString := enumFault (js "side") (validSides.map (·.text))

/-- The check of `paymentMethod`. -/
def paymentMethodFault : JsValue → Option JsString :=
  enumFault (js "paymentMethod") (validPaymentMethods.map (·.text))

/-- The check of `status`. -/
def statusFault : JsValue → Option JsString := enumFault (js "status") (validStatuses.map (·.text))

/-- The check of an amount or a price. -/
def decimalFault (name : JsString) (value : JsValue) : Option JsString :=
  stringFault (fun s => isCanonicalDecimal s && !isZeroDecimal s)
    (name ++ js (" must be a canonical positive decimal string with exactly 8 fractional digits, " ++
      "no sign, no exponent, no whitespace, and strictly greater than zero (e.g. \"1.00000000\") " ++
      "— got ") ++ jsonStringify value) value

/-- The shape, then the round trip through `Date` that only a real instant survives. -/
def timestampFault (name : JsString) (value : JsValue) : Option JsString :=
  match stringFault isCanonicalTimestamp
    (name ++ js (" must be a canonical UTC ISO-8601 timestamp with millisecond precision " ++
      "(e.g. \"2026-09-09T00:00:00.000Z\") — got ") ++ jsonStringify value) value with
  | some reason => some reason
  | none =>
    stringFault (fun s => (newDate s).map toISOString == some s)
      (name ++ js " is not a real, canonically-formatted UTC instant: " ++ jsonStringify value)
      value

/-- The check of `revision`. -/
def revisionFault : JsValue → Option JsString
  | .num (.int n) =>
    if n < 0 || maxRevision < n then
      some (js "revision must be an integer between 0 and " ++ intText maxRevision
        ++ js " inclusive")
    else none
  | _ => some (js "revision must be an integer between 0 and " ++ intText maxRevision
      ++ js " inclusive")

/-- The checks, in the order in which the validator makes them. -/
def PartialEnvelope.faults (e : PartialEnvelope) : List (Option JsString) :=
  [logicalOfferIdFault e.logicalOfferId, ownerPublicKeyFault e.ownerPublicKey, assetFault e.asset,
    sideFault e.side, paymentMethodFault e.paymentMethod, statusFault e.status,
    decimalFault (js "priceUsd") e.priceUsd, decimalFault (js "minAmount") e.minAmount,
    decimalFault (js "maxAmount") e.maxAmount, timestampFault (js "createdAt") e.createdAt,
    timestampFault (js "revisedAt") e.revisedAt, timestampFault (js "expiresAt") e.expiresAt,
    revisionFault e.revision, signatureFault e.signature]

/-- `validateOfferEnvelopeFields`. -/
def validateOfferEnvelopeFields (e : PartialEnvelope) : ShapeVerdict :=
  match e.faults.findSome? id with
  | some reason => .invalid reason
  | none => .valid

/-- The validator accepts the envelope. -/
def Accepted (e : SignedOfferEnvelope) : Prop := validateOfferEnvelopeFields e.toPartial = .valid

instance (e : SignedOfferEnvelope) : Decidable (Accepted e) := inferInstanceAs (Decidable (_ = _))

/-! ## Signed bytes -/

/-- The first of the signed fields. -/
def offerEnvelopeDomainTag : JsString := js "sails-offer-envelope-v1"

/-- The fields that are signed, in order. -/
def SignedOfferEnvelope.signedFields (e : SignedOfferEnvelope) : List JsString :=
  [offerEnvelopeDomainTag, e.logicalOfferId, e.ownerPublicKey, e.asset.text, e.side.text,
    e.priceUsd, e.minAmount, e.maxAmount, e.paymentMethod.text, e.revision.text, e.createdAt,
    e.revisedAt, e.expiresAt, e.status.text]

/-- `canonicalizeOfferEnvelope`. -/
def canonicalizeOfferEnvelope (e : SignedOfferEnvelope) : List UInt8 :=
  toUtf8 (join fieldSeparator e.signedFields)

section Signature

variable (sha256 : List UInt8 → List UInt8)

/-- `hashOfferEnvelope`. -/
def hashOfferEnvelope (e : SignedOfferEnvelope) : List UInt8 := sha256 (canonicalizeOfferEnvelope e)

/-- The value of a hex digit. -/
def hexValue (u : UInt16) : ℕ := if isDigit u then digitValue u else u.toNat - 0x57

/-- `Buffer.from(s, 'hex')` of a string of hex digits. -/
def hexBytes : JsString → List UInt8
  | u :: v :: rest => UInt8.ofNat (16 * hexValue u + hexValue v) :: hexBytes rest
  | _ => []

/-- `bytesToBigIntLE`. -/
def bytesToBigIntLE (bytes : List UInt8) : ℕ := Nat.ofDigits 256 (bytes.map UInt8.toNat)

/-- The order of the group. -/
def ed25519L : ℕ := 2 ^ 252 + 27742317777372353535851937790883648493

/-- The prime of the field. -/
def ed25519P : ℕ := 2 ^ 255 - 19

/-- `isCanonicalEd25519Encoding`. -/
def isCanonicalEd25519Encoding (signatureBytes publicKeyBytes : List UInt8) : Bool :=
  signatureBytes.length == 64 && publicKeyBytes.length == 32 &&
    bytesToBigIntLE (signatureBytes.drop 32) < ed25519L &&
    bytesToBigIntLE (signatureBytes.take 32) % 2 ^ 255 < ed25519P &&
    bytesToBigIntLE publicKeyBytes % 2 ^ 255 < ed25519P

-- `nacl.sign.detached.verify`, on a digest, a signature and a public key.
variable (verify : List UInt8 → List UInt8 → List UInt8 → Bool)

/-- `verifyOfferEnvelope`. -/
def verifyOfferEnvelope (e : SignedOfferEnvelope) : ShapeVerdict :=
  match validateOfferEnvelopeFields e.toPartial with
  | .invalid reason => .invalid reason
  | .valid =>
    if !isCanonicalEd25519Encoding (hexBytes e.signature) (hexBytes e.ownerPublicKey) then
      .invalid (js ("signature or public key is not canonically encoded (RFC 8032 §5.1.7: S must " ++
      "satisfy 0 <= S < L, and the y-coordinate in R/ownerPublicKey must satisfy 0 <= y < P) — " ++
      "rejected before verification, not merely non-preferred"))
    else if !verify (hashOfferEnvelope sha256 e) (hexBytes e.signature)
        (hexBytes e.ownerPublicKey) then
      .invalid (js "signature does not verify against the envelope's own ownerPublicKey")
    else .valid

end Signature

/-! ## What the validator accepts -/

/-- The shape of every field of an accepted envelope. -/
structure SignedOfferEnvelope.WellFormed (e : SignedOfferEnvelope) : Prop where
  idLength : 1 ≤ e.logicalOfferId.length ∧ e.logicalOfferId.length ≤ 200
  idPlain : ∀ u ∈ e.logicalOfferId, isControl u = false
  ownerPublicKey : isHex 64 e.ownerPublicKey = true
  priceUsd : isCanonicalDecimal e.priceUsd = true ∧ isZeroDecimal e.priceUsd = false
  minAmount : isCanonicalDecimal e.minAmount = true ∧ isZeroDecimal e.minAmount = false
  maxAmount : isCanonicalDecimal e.maxAmount = true ∧ isZeroDecimal e.maxAmount = false
  createdAt : isCanonicalTimestamp e.createdAt = true ∧
    (newDate e.createdAt).map toISOString = some e.createdAt
  revisedAt : isCanonicalTimestamp e.revisedAt = true ∧
    (newDate e.revisedAt).map toISOString = some e.revisedAt
  expiresAt : isCanonicalTimestamp e.expiresAt = true ∧
    (newDate e.expiresAt).map toISOString = some e.expiresAt
  revision : ∃ n : ℕ, e.revision = .int n ∧ (n : ℤ) ≤ maxRevision
  signature : isHex 128 e.signature = true

/-- The validator accepts what no check finds fault with. -/
theorem validate_eq_valid_iff {p : PartialEnvelope} :
    validateOfferEnvelopeFields p = .valid ↔ ∀ fault ∈ p.faults, fault = none := by
  unfold validateOfferEnvelopeFields
  split
  · next reason h =>
    obtain ⟨fault, hmem, heq⟩ := List.exists_of_findSome?_eq_some h
    simp only [reduceCtorEq, false_iff, not_forall]
    exact ⟨fault, hmem, by simp_all⟩
  · next h => simpa using h

/-- A string check accepts the strings of its pattern. -/
theorem stringFault_eq_none_iff {ok : JsString → Bool} {reason : JsString} {v : JsValue} :
    stringFault ok reason v = none ↔ ∃ s, v = .str s ∧ ok s = true := by
  cases v <;> simp [stringFault]

/-- What the check of the id accepts. -/
theorem logicalOfferIdFault_eq_none_iff {v : JsValue} :
    logicalOfferIdFault v = none ↔
      ∃ s, v = .str s ∧ (1 ≤ s.length ∧ s.length ≤ 200) ∧ ∀ u ∈ s, isControl u = false := by
  cases v with
  | str s =>
    simp only [logicalOfferIdFault, JsValue.str.injEq]
    split
    · next h =>
      simp at h
      simp
      grind
    · split
      · next h => simp_all
      · next h => simp_all; grind
  | _ => simp [logicalOfferIdFault]

/-- What the check of a timestamp accepts. -/
theorem timestampFault_eq_none_iff {name : JsString} {v : JsValue} :
    timestampFault name v = none ↔ ∃ s, v = .str s ∧ isCanonicalTimestamp s = true ∧
      (newDate s).map toISOString = some s := by
  unfold timestampFault
  split
  · next reason h =>
    cases v <;> simp_all [stringFault]
  · next h =>
    obtain ⟨s, rfl, hs⟩ := stringFault_eq_none_iff.mp h
    simp [stringFault, hs]

/-- What the check of the revision accepts. -/
theorem revisionFault_eq_none_iff {v : JsValue} :
    revisionFault v = none ↔ ∃ n : ℕ, v = .num (.int n) ∧ (n : ℤ) ≤ maxRevision := by
  unfold revisionFault
  split
  · next n =>
    split
    · next h =>
      simp only [Bool.or_eq_true, decide_eq_true_eq] at h
      simp
      omega
    · next h =>
      simp only [Bool.or_eq_true, decide_eq_true_eq, not_or, not_lt] at h
      simp only [true_iff]
      exact ⟨n.toNat, by simp [h.1], by omega⟩
  · next h =>
    simp only [reduceCtorEq, false_iff, not_exists, not_and]
    rintro n rfl
    exact absurd rfl (h n)

/-- The list has every asset. -/
theorem AssetType.mem_validAssets (a : AssetType) : a ∈ validAssets := by
  cases a <;> decide

theorem TradeSide.mem_validSides (side : TradeSide) : side ∈ validSides := by
  cases side <;> decide

/-- The list has every payment method. -/
theorem PaymentMethod.mem_validPaymentMethods (m : PaymentMethod) : m ∈ validPaymentMethods := by
  cases m <;> decide

theorem OfferEnvelopeStatus.mem_validStatuses (st : OfferEnvelopeStatus) : st ∈ validStatuses := by
  cases st <;> decide

/-- A text of the list is valid. -/
theorem contains_map_text {α : Type} {text : α → JsString} {valid : List α} {a : α}
    (h : a ∈ valid) : (valid.map text).contains (text a) = true :=
  List.contains_iff_mem.mpr (List.mem_map_of_mem h)

/-- What the check of an enumeration accepts. -/
theorem enumFault_eq_none_iff {α : Type} {text : α → JsString} {valid : List α}
    {name : JsString} {v : JsValue} :
    enumFault name (valid.map text) v = none ↔ ∃ a ∈ valid, v = .str (text a) := by
  unfold enumFault
  rw [stringFault_eq_none_iff]
  constructor
  · rintro ⟨s, rfl, hs⟩
    obtain ⟨a, ha, rfl⟩ := List.mem_map.mp (List.contains_iff_mem.mp hs)
    exact ⟨a, ha, rfl⟩
  · rintro ⟨a, ha, rfl⟩
    exact ⟨text a, rfl, contains_map_text ha⟩

/-- The validator accepts the well formed envelopes. -/
theorem accepted_iff {e : SignedOfferEnvelope} : Accepted e ↔ e.WellFormed := by
  unfold Accepted
  rw [validate_eq_valid_iff]
  simp only [PartialEnvelope.faults, SignedOfferEnvelope.toPartial, List.forall_mem_cons,
    logicalOfferIdFault_eq_none_iff, ownerPublicKeyFault, signatureFault, assetFault, sideFault,
    paymentMethodFault, statusFault, enumFault_eq_none_iff, decimalFault,
    timestampFault_eq_none_iff, stringFault_eq_none_iff, revisionFault_eq_none_iff,
    JsValue.str.injEq, JsValue.num.injEq, exists_eq_left', Bool.and_eq_true, Bool.not_eq_true']
  constructor
  · rintro ⟨⟨hlen, hplain⟩, hkey, -, -, -, -, hprice, hmin, hmax, hcreated, hrevised, hexpires,
      hrev, hsig, -⟩
    exact ⟨hlen, hplain, hkey, hprice, hmin, hmax, hcreated, hrevised, hexpires, hrev, hsig⟩
  · intro h
    exact ⟨⟨h.idLength, h.idPlain⟩, h.ownerPublicKey, ⟨_, e.asset.mem_validAssets, rfl⟩,
      ⟨_, e.side.mem_validSides, rfl⟩, ⟨_, e.paymentMethod.mem_validPaymentMethods, rfl⟩,
      ⟨_, e.status.mem_validStatuses, rfl⟩, h.priceUsd, h.minAmount, h.maxAmount, h.createdAt,
      h.revisedAt, h.expiresAt, h.revision, h.signature, by simp⟩

/-- Whatever the validator accepts is a typed envelope. -/
theorem exists_of_accepted {p : PartialEnvelope} (h : validateOfferEnvelopeFields p = .valid) :
    ∃ e : SignedOfferEnvelope, p = e.toPartial := by
  rw [validate_eq_valid_iff] at h
  simp only [PartialEnvelope.faults, List.forall_mem_cons, logicalOfferIdFault_eq_none_iff,
    ownerPublicKeyFault, signatureFault, assetFault, sideFault, paymentMethodFault, statusFault,
    enumFault_eq_none_iff, decimalFault, timestampFault_eq_none_iff, stringFault_eq_none_iff,
    revisionFault_eq_none_iff] at h
  obtain ⟨⟨id, hid, -⟩, ⟨key, hkey, -⟩, ⟨asset, -, hasset⟩, ⟨side, -, hside⟩, ⟨method, -, hmethod⟩,
    ⟨status, -, hstatus⟩, ⟨price, hprice, -⟩, ⟨min, hmin, -⟩, ⟨max, hmax, -⟩,
    ⟨created, hcreated, -⟩, ⟨revised, hrevised, -⟩, ⟨expires, hexpires, -⟩, ⟨rev, hrev, -⟩,
    ⟨sig, hsig, -⟩, -⟩ := h
  refine ⟨⟨id, key, asset, side, price, min, max, method, .int rev, created, revised, expires,
    status, sig⟩, ?_⟩
  cases p
  simp_all [SignedOfferEnvelope.toPartial]

end Sails.Offer
