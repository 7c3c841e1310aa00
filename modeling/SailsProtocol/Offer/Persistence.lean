import SailsProtocol.Offer.Signing

/-!
# Storing an envelope and rebuilding it

`toRowData` stores an envelope as a row : the amounts as exact decimals of scale 8,
the timestamps as instants. `reconstructSignedEnvelope` writes them out again in
their canonical form. An accepted envelope comes back as it was, since a canonical
decimal is the text of its value (`decimal_accepted_iff`) and an accepted
timestamp the text of its instant. A row with values of the columns' ranges
(`Admissible`) is rebuilt to an accepted envelope that is stored as that same row, so
the two are inverse to each other (`persistence_round_trip`).
-/

namespace Sails.Offer

open Text

/-- A row of the table. Amounts are in units of the scale, 10⁻⁸. -/
structure OfferEnvelopeRow where
  logicalOfferId : JsString
  ownerPublicKey : JsString
  asset : AssetType
  side : TradeSide
  priceUsd : ℤ
  minAmount : ℤ
  maxAmount : ℤ
  paymentMethod : PaymentMethod
  revision : ℤ
  createdAt : ℤ
  revisedAt : ℤ
  expiresAt : ℤ
  status : OfferEnvelopeStatus
  signature : JsString
  contentDigest : JsString
  deriving DecidableEq, Repr

/-- The exact value of a decimal text, in units of 10⁻⁸. -/
def decimalValue (s : JsString) : Option ℤ :=
  (scanDecimal s).map fun p => (natValue p.1 * 10 ^ 8 + natValue p.2 : ℕ)

/-- The whole number that a number is. -/
def JsNumber.toInt? : JsNumber → Option ℤ
  | .int n => some n
  | _ => none

/-- The row of an envelope, if every column can hold its value. -/
def toRowData (e : SignedOfferEnvelope) (contentDigest : JsString) : Option OfferEnvelopeRow := do
  let priceUsd ← decimalValue e.priceUsd
  let minAmount ← decimalValue e.minAmount
  let maxAmount ← decimalValue e.maxAmount
  let revision ← e.revision.toInt?
  let createdAt ← newDate e.createdAt
  let revisedAt ← newDate e.revisedAt
  let expiresAt ← newDate e.expiresAt
  some { logicalOfferId := e.logicalOfferId
         ownerPublicKey := e.ownerPublicKey
         asset := e.asset
         side := e.side
         priceUsd, minAmount, maxAmount
         paymentMethod := e.paymentMethod
         revision, createdAt, revisedAt, expiresAt
         status := e.status
         signature := e.signature
         contentDigest }

/-- `decimal.toFixed(8)`. -/
def formatCanonicalDecimal (units : ℤ) : JsString :=
  let text := natText (units.natAbs / 10 ^ 8) ++ 0x2E :: padded 8 (units.natAbs % 10 ^ 8)
  if units < 0 then 0x2D :: text else text

/-- `formatCanonicalTimestamp`. -/
def formatCanonicalTimestamp (t : ℤ) : JsString := toISOString t

/-- `reconstructSignedEnvelope`. -/
def reconstructSignedEnvelope (row : OfferEnvelopeRow) : SignedOfferEnvelope :=
  { logicalOfferId := row.logicalOfferId
    ownerPublicKey := row.ownerPublicKey
    asset := row.asset
    side := row.side
    priceUsd := formatCanonicalDecimal row.priceUsd
    minAmount := formatCanonicalDecimal row.minAmount
    maxAmount := formatCanonicalDecimal row.maxAmount
    paymentMethod := row.paymentMethod
    revision := .int row.revision
    createdAt := formatCanonicalTimestamp row.createdAt
    revisedAt := formatCanonicalTimestamp row.revisedAt
    expiresAt := formatCanonicalTimestamp row.expiresAt
    status := row.status
    signature := row.signature }

/-- A positive amount of at most 24 digits. -/
def AmountInRange (units : ℤ) : Prop := 0 < units ∧ units < 10 ^ 24

/-- An instant whose year has four digits. -/
def InstantInRange (t : ℤ) : Prop := 0 ≤ yearOf t ∧ yearOf t ≤ 9999

/-- Every column holds a value of its range. -/
structure OfferEnvelopeRow.Admissible (row : OfferEnvelopeRow) : Prop where
  idLength : 1 ≤ row.logicalOfferId.length ∧ row.logicalOfferId.length ≤ 200
  idPlain : ∀ u ∈ row.logicalOfferId, isControl u = false
  ownerPublicKey : isHex 64 row.ownerPublicKey = true
  priceUsd : AmountInRange row.priceUsd
  minAmount : AmountInRange row.minAmount
  maxAmount : AmountInRange row.maxAmount
  createdAt : InstantInRange row.createdAt
  revisedAt : InstantInRange row.revisedAt
  expiresAt : InstantInRange row.expiresAt
  revision : 0 ≤ row.revision ∧ row.revision ≤ maxRevision
  signature : isHex 128 row.signature = true

/-! ## Amounts -/

theorem formatCanonicalDecimal_natCast (n : ℕ) :
    formatCanonicalDecimal n = natText (n / 10 ^ 8) ++ 0x2E :: padded 8 (n % 10 ^ 8) := by
  simp [formatCanonicalDecimal]

/-- A canonical decimal is the text of its value, which has at most 24 digits. -/
theorem formatCanonicalDecimal_of_decimalValue {s : JsString} (h : isCanonicalDecimal s = true) :
    ∃ n : ℕ, decimalValue s = some (n : ℤ) ∧ n < 10 ^ 24 ∧ formatCanonicalDecimal n = s := by
  obtain ⟨⟨int, frac⟩, hscan⟩ := Option.isSome_iff_exists.mp h
  obtain ⟨rfl, hint, hfrac, hlen, hintlen, u, rest, rfl, hlead⟩ := scanDecimal_eq_some hscan
  have hf := natValue_lt hfrac
  have hi := natValue_lt hint
  rw [hlen] at hf
  have hi16 : natValue (u :: rest) < 10 ^ 16 :=
    lt_of_lt_of_le hi (Nat.pow_le_pow_right (by omega) hintlen)
  refine ⟨natValue (u :: rest) * 10 ^ 8 + natValue frac, by rw [decimalValue, hscan]; rfl,
    by omega, ?_⟩
  have hdiv : (natValue (u :: rest) * 10 ^ 8 + natValue frac) / 10 ^ 8 = natValue (u :: rest) := by
    omega
  have hmod : (natValue (u :: rest) * 10 ^ 8 + natValue frac) % 10 ^ 8 = natValue frac := by omega
  have hpad := padded_natValue hfrac
  rw [hlen] at hpad
  rw [formatCanonicalDecimal_natCast, hdiv, hmod, natText_natValue hint hlead, hpad]

/-- The text of an amount is scanned into its digits. -/
theorem scanDecimal_format {n : ℕ} (h : n < 10 ^ 24) :
    scanDecimal (natText (n / 10 ^ 8) ++ 0x2E :: padded 8 (n % 10 ^ 8)) =
      some (natText (n / 10 ^ 8), padded 8 (n % 10 ^ 8)) := by
  have hdigits : ∀ u ∈ natText (n / 10 ^ 8), isDigit u = true :=
    fun u hu => isDigit_of_mem_natText hu
  have hpoint : isDigit 0x2E = false := by decide
  have htake : (natText (n / 10 ^ 8) ++ 0x2E :: padded 8 (n % 10 ^ 8)).takeWhile isDigit =
      natText (n / 10 ^ 8) := by
    rw [List.takeWhile_append_of_pos hdigits, List.takeWhile_cons_of_neg (by simp [hpoint]),
      List.append_nil]
  have hdrop : (natText (n / 10 ^ 8) ++ 0x2E :: padded 8 (n % 10 ^ 8)).dropWhile isDigit =
      0x2E :: padded 8 (n % 10 ^ 8) := by
    rw [List.dropWhile_append_of_pos hdigits, List.dropWhile_cons_of_neg (by simp [hpoint])]
  have hlen : (natText (n / 10 ^ 8)).length ≤ 16 := length_natText_le (by omega) (by omega)
  have hlead : ∀ u rest, natText (n / 10 ^ 8) = u :: rest → u = digitUnit 0 → rest = [] := by
    intro u rest heq hu
    by_cases h0 : n / 10 ^ 8 = 0
    · rw [h0] at heq
      have : natText 0 = [digitUnit 0] := rfl
      rw [this] at heq
      exact (List.cons.inj heq).2.symm
    · have := head_natText h0
      rw [heq, hu] at this
      exact absurd rfl this
  have hall : (padded 8 (n % 10 ^ 8)).all isDigit = true :=
    List.all_eq_true.mpr fun u hu => isDigit_of_mem_padded hu
  unfold scanDecimal
  rw [htake, hdrop]
  cases hint : natText (n / 10 ^ 8) with
  | nil => exact absurd hint (natText_ne_nil _)
  | cons u rest =>
    have hrest := hlead u rest hint
    rw [hint] at hlen
    simp only [length_padded, hall, beq_self_eq_true, Bool.and_true]
    rw [if_pos]
    by_cases hu : u = digitUnit 0
    · simp [hu, hrest hu]
    · simp only [List.length_cons] at hlen
      simp [hu]
      omega

theorem decimalValue_format {n : ℕ} (h : n < 10 ^ 24) :
    decimalValue (formatCanonicalDecimal n) = some (n : ℤ) := by
  rw [formatCanonicalDecimal_natCast, decimalValue, scanDecimal_format h, Option.map_some,
    natValue_natText, natValue_padded, Nat.mod_mod]
  congr 2
  omega

/-- The accepted texts are those of the amounts in range. -/
theorem decimal_accepted_iff {s : JsString} :
    isCanonicalDecimal s = true ∧ isZeroDecimal s = false ↔
      ∃ units, AmountInRange units ∧ decimalValue s = some units ∧
        formatCanonicalDecimal units = s := by
  have hzero : formatCanonicalDecimal (0 : ℕ) = js "0.00000000" := by decide
  constructor
  · rintro ⟨hc, hz⟩
    obtain ⟨n, hv, hlt, hf⟩ := formatCanonicalDecimal_of_decimalValue hc
    refine ⟨n, ⟨?_, by exact_mod_cast hlt⟩, hv, hf⟩
    rcases Nat.eq_zero_or_pos n with rfl | hpos
    · rw [hzero] at hf
      simp [isZeroDecimal, hf] at hz
    · exact_mod_cast hpos
  · rintro ⟨units, ⟨hpos, hlt⟩, hv, hf⟩
    lift units to ℕ using hpos.le
    have hn : units < 10 ^ 24 := by exact_mod_cast hlt
    have hpos' : 0 < units := by exact_mod_cast hpos
    rw [formatCanonicalDecimal_natCast] at hf
    rw [← hf]
    refine ⟨by rw [isCanonicalDecimal, scanDecimal_format hn]; rfl, ?_⟩
    by_contra hz
    have hz' : formatCanonicalDecimal units = formatCanonicalDecimal (0 : ℕ) := by
      rw [hzero, formatCanonicalDecimal_natCast]
      simpa [isZeroDecimal] using hz
    have hval := decimalValue_format hn
    rw [hz', decimalValue_format (by omega)] at hval
    have : (0 : ℕ) = units := by exact_mod_cast Option.some.inj hval
    omega

theorem decimalValue_format_of_amount {units : ℤ} (h : AmountInRange units) :
    decimalValue (formatCanonicalDecimal units) = some units := by
  obtain ⟨hpos, hlt⟩ := h
  lift units to ℕ using hpos.le
  exact decimalValue_format (by exact_mod_cast hlt)

/-! ## Instants -/

/-- The accepted texts are those of the instants in range. -/
theorem timestamp_accepted_iff {s : JsString} :
    isCanonicalTimestamp s = true ∧ (newDate s).map toISOString = some s ↔
      ∃ t, InstantInRange t ∧ newDate s = some t ∧ formatCanonicalTimestamp t = s := by
  constructor
  · rintro ⟨hc, hmap⟩
    obtain ⟨t, ht, hs⟩ := Option.map_eq_some_iff.mp hmap
    obtain ⟨f, hf⟩ := Option.isSome_iff_exists.mp hc
    rw [← hs] at hf
    exact ⟨t, yearOf_of_scanTimestamp hf, ht, hs⟩
  · rintro ⟨t, -, ht, hs⟩
    refine ⟨?_, by rw [ht, Option.map_some, ← hs]; rfl⟩
    obtain ⟨f, hf, -⟩ := Option.bind_eq_some_iff.mp ht
    rw [isCanonicalTimestamp, hf]
    rfl

/-! ## The round trip -/

/-- An accepted envelope is stored as an admissible row and rebuilt as it was. -/
theorem reconstruct_toRowData {e : SignedOfferEnvelope} (h : Accepted e) (d : JsString) :
    ∃ row, toRowData e d = some row ∧ row.Admissible ∧ reconstructSignedEnvelope row = e := by
  have hwf := accepted_iff.mp h
  obtain ⟨price, hpr, hpv, hpf⟩ := decimal_accepted_iff.mp hwf.priceUsd
  obtain ⟨min, hnr, hnv, hnf⟩ := decimal_accepted_iff.mp hwf.minAmount
  obtain ⟨max, hxr, hxv, hxf⟩ := decimal_accepted_iff.mp hwf.maxAmount
  obtain ⟨created, hcr, hcv, hcf⟩ := timestamp_accepted_iff.mp hwf.createdAt
  obtain ⟨revised, hrr, hrv, hrf⟩ := timestamp_accepted_iff.mp hwf.revisedAt
  obtain ⟨expires, her, hev, hef⟩ := timestamp_accepted_iff.mp hwf.expiresAt
  obtain ⟨rev, hrev, hmax⟩ := hwf.revision
  have hint : e.revision.toInt? = some (rev : ℤ) := by rw [hrev]; rfl
  refine ⟨_, by simp only [toRowData, hpv, hnv, hxv, hint, hcv, hrv, hev, Option.bind_eq_bind,
    Option.bind_some]; rfl, ?_, ?_⟩
  · exact ⟨hwf.idLength, hwf.idPlain, hwf.ownerPublicKey, hpr, hnr, hxr, hcr, hrr, her,
      ⟨Int.natCast_nonneg rev, hmax⟩, hwf.signature⟩
  · unfold reconstructSignedEnvelope
    simp only [hpf, hnf, hxf, hcf, hrf, hef, ← hrev]

/-- An admissible row is rebuilt to an accepted envelope that is stored as that row. -/
theorem toRowData_reconstruct {row : OfferEnvelopeRow} (h : row.Admissible) :
    Accepted (reconstructSignedEnvelope row) ∧
      toRowData (reconstructSignedEnvelope row) row.contentDigest = some row := by
  have hpv := decimalValue_format_of_amount h.priceUsd
  have hnv := decimalValue_format_of_amount h.minAmount
  have hxv := decimalValue_format_of_amount h.maxAmount
  have hcv : newDate (formatCanonicalTimestamp row.createdAt) = _ := newDate_toISOString h.createdAt
  have hrv : newDate (formatCanonicalTimestamp row.revisedAt) = _ := newDate_toISOString h.revisedAt
  have hev : newDate (formatCanonicalTimestamp row.expiresAt) = _ := newDate_toISOString h.expiresAt
  refine ⟨accepted_iff.mpr ?_, ?_⟩
  · exact ⟨h.idLength, h.idPlain, h.ownerPublicKey,
      decimal_accepted_iff.mpr ⟨_, h.priceUsd, hpv, rfl⟩,
      decimal_accepted_iff.mpr ⟨_, h.minAmount, hnv, rfl⟩,
      decimal_accepted_iff.mpr ⟨_, h.maxAmount, hxv, rfl⟩,
      timestamp_accepted_iff.mpr ⟨_, h.createdAt, hcv, rfl⟩,
      timestamp_accepted_iff.mpr ⟨_, h.revisedAt, hrv, rfl⟩,
      timestamp_accepted_iff.mpr ⟨_, h.expiresAt, hev, rfl⟩,
      ⟨row.revision.toNat, by simp [reconstructSignedEnvelope, h.revision.1],
        by simpa [h.revision.1] using h.revision.2⟩,
      h.signature⟩
  · simp only [toRowData, reconstructSignedEnvelope, hpv, hnv, hxv, hcv, hrv, hev,
      JsNumber.toInt?, Option.bind_eq_bind, Option.bind_some]

/-- Storing an accepted envelope and rebuilding it gives that envelope, with its bytes,
digest and verdict, and every admissible row is rebuilt to an accepted envelope that
is stored as the same row. -/
theorem persistence_round_trip (sha256 : List UInt8 → List UInt8)
    (verify : List UInt8 → List UInt8 → List UInt8 → Bool) :
    (∀ (e : SignedOfferEnvelope) (d : JsString), Accepted e →
      ∃ row, toRowData e d = some row ∧ row.Admissible ∧ reconstructSignedEnvelope row = e ∧
        canonicalizeOfferEnvelope (reconstructSignedEnvelope row) = canonicalizeOfferEnvelope e ∧
        hashOfferEnvelope sha256 (reconstructSignedEnvelope row) = hashOfferEnvelope sha256 e ∧
        verifyOfferEnvelope sha256 verify (reconstructSignedEnvelope row) =
          verifyOfferEnvelope sha256 verify e) ∧
    ∀ row : OfferEnvelopeRow, row.Admissible →
      Accepted (reconstructSignedEnvelope row) ∧
        toRowData (reconstructSignedEnvelope row) row.contentDigest = some row := by
  refine ⟨?_, fun row h => toRowData_reconstruct h⟩
  intro e d h
  obtain ⟨row, hrow, hadm, hrec⟩ := reconstruct_toRowData h d
  exact ⟨row, hrow, hadm, hrec, by rw [hrec], by rw [hrec], by rw [hrec]⟩

theorem persistence_round_trip_offer : ∃ row,
    toRowData (sampleEnvelope (js "offer-1")) (js "d1") = some row ∧ row.Admissible ∧
      reconstructSignedEnvelope row = sampleEnvelope (js "offer-1") := by
  obtain ⟨row, hrow, hadm, hrec, -⟩ := (persistence_round_trip id fun _ _ _ => true).1
    (sampleEnvelope (js "offer-1")) (js "d1") (by decide +kernel)
  exact ⟨row, hrow, hadm, hrec⟩

end Sails.Offer
