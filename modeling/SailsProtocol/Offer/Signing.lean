import SailsProtocol.Offer.Envelope

/-!
# What a signature over an envelope commits to

The signed bytes are the signed fields, joined by a separator that no accepted field
holds and encoded as UTF-8. Every field but `logicalOfferId` is printable ASCII
(`Printable`), which the encoding leaves as it is, so those fields can be read back
from the bytes. `logicalOfferId` is any string without control characters, and the
encoding replaces each of its unpaired surrogates by U+FFFD
(`canonicalize_eq_iff`).

So two accepted envelopes with the same signed bytes have the same signed fields
unless they differ in nothing but such surrogates of `logicalOfferId`
(`signing_injective_iff`).
-/

namespace Sails.Offer

open Text

/-- `a` and `b` agree in every signed field. -/
def SignedOfferEnvelope.SameSigned (a b : SignedOfferEnvelope) : Prop :=
  { a with signature := b.signature } = b

instance (a b : SignedOfferEnvelope) : Decidable (a.SameSigned b) :=
  inferInstanceAs (Decidable (_ = _))

/-- Equal signed bytes mean equal signed fields. Under a hash that does not confuse
the two, a signature that verifies for no digest but that of `a` lets `b` pass only if
`b` has the signed fields of `a`. -/
def SigningInjective (a b : SignedOfferEnvelope) : Prop :=
  (canonicalizeOfferEnvelope a = canonicalizeOfferEnvelope b → a.SameSigned b) ∧
  ∀ (sha256 : List UInt8 → List UInt8) (verify : List UInt8 → List UInt8 → List UInt8 → Bool),
    (hashOfferEnvelope sha256 a = hashOfferEnvelope sha256 b →
      canonicalizeOfferEnvelope a = canonicalizeOfferEnvelope b) →
    (∀ digest, verify digest (hexBytes b.signature) (hexBytes b.ownerPublicKey) = true →
      digest = hashOfferEnvelope sha256 a) →
    verifyOfferEnvelope sha256 verify b = .valid → a.SameSigned b

/-- `a` and `b` are told apart by unpaired surrogates of `logicalOfferId` and by nothing
else that is signed. -/
def DifferInLoneSurrogates (a b : SignedOfferEnvelope) : Prop :=
  a.logicalOfferId ≠ b.logicalOfferId ∧
  toWellFormed a.logicalOfferId = toWellFormed b.logicalOfferId ∧
  { a with logicalOfferId := b.logicalOfferId }.SameSigned b

instance (a b : SignedOfferEnvelope) : Decidable (DifferInLoneSurrogates a b) :=
  inferInstanceAs (Decidable (_ ∧ _ ∧ _))

/-! ## Printable fields -/

/-- Every code unit is a printable ASCII character. -/
def Printable (s : JsString) : Prop := ∀ u ∈ s, 0x20 ≤ u.toNat ∧ u.toNat ≤ 0x7E

instance (s : JsString) : Decidable (Printable s) := List.decidableBAll _ s

theorem Printable.toWellFormed_eq {s : JsString} (h : Printable s) : toWellFormed s = s := by
  refine toWellFormed_of_plain fun u hu => ?_
  have := h u hu
  simp [isSurrogate]
  omega

theorem Printable.not_separator {s : JsString} (h : Printable s) : fieldSeparator ∉ s := by
  intro hmem
  have := (h _ hmem).1
  revert this
  decide

theorem printable_digit {u : UInt16} (h : isDigit u = true) : 0x20 ≤ u.toNat ∧ u.toNat ≤ 0x7E := by
  rw [isDigit_iff] at h
  omega

/-- The texts of the enumerations are printable. -/
theorem printable_texts : (∀ a : AssetType, Printable a.text) ∧
    (∀ side : TradeSide, Printable side.text) ∧ (∀ m : PaymentMethod, Printable m.text) ∧
    ∀ st : OfferEnvelopeStatus, Printable st.text := by
  refine ⟨fun a => ?_, fun side => ?_, fun m => ?_, fun st => ?_⟩
  · cases a <;> decide
  · cases side <;> decide
  · cases m <;> decide
  · cases st <;> decide

/-- A hex text is printable. -/
theorem printable_of_isHex {n : ℕ} {s : JsString} (h : isHex n s = true) : Printable s := by
  intro u hu
  simp only [isHex, Bool.and_eq_true, List.all_eq_true] at h
  have hx := h.2 u hu
  simp only [isLowerHex, Bool.or_eq_true, Bool.and_eq_true, decide_eq_true_eq] at hx
  rcases hx with hd | hx
  · exact printable_digit hd
  · omega

/-- The parts of a canonical decimal. -/
theorem scanDecimal_eq_some {s int frac : JsString} (h : scanDecimal s = some (int, frac)) :
    s = int ++ 0x2E :: frac ∧ (∀ u ∈ int, isDigit u = true) ∧ (∀ u ∈ frac, isDigit u = true) ∧
      frac.length = 8 ∧ int.length ≤ 16 ∧
      ∃ u rest, int = u :: rest ∧ (u = digitUnit 0 → rest = []) := by
  unfold scanDecimal at h
  split at h
  · next u rest frac' htake hdrop =>
    split at h
    · next hc =>
      simp only [Bool.and_eq_true, Bool.or_eq_true, beq_iff_eq, bne_iff_ne, decide_eq_true_eq,
        List.all_eq_true] at hc
      obtain ⟨⟨hint, hlen⟩, hall⟩ := hc
      obtain ⟨rfl, rfl⟩ := Prod.mk.inj (Option.some.inj h)
      refine ⟨?_, ?_, hall, hlen, ?_, u, rest, rfl, ?_⟩
      · rw [← htake, ← hdrop, List.takeWhile_append_dropWhile]
      · intro v hv
        rw [← htake] at hv
        exact List.mem_takeWhile_imp hv
      · rcases hint with ⟨-, rfl⟩ | ⟨-, hle⟩
        · simp
        · simpa using Nat.lt_succ_of_le hle
      · rcases hint with ⟨-, hnil⟩ | ⟨hne, -⟩
        · exact fun _ => hnil
        · exact fun h0 => absurd h0 hne
    · cases h
  · cases h

/-- A canonical decimal is printable. -/
theorem printable_of_isCanonicalDecimal {s : JsString} (h : isCanonicalDecimal s = true) :
    Printable s := by
  obtain ⟨⟨int, frac⟩, hscan⟩ := Option.isSome_iff_exists.mp h
  obtain ⟨rfl, hint, hfrac, -⟩ := scanDecimal_eq_some hscan
  intro u hu
  rcases List.mem_append.mp hu with hu | hu
  · exact printable_digit (hint u hu)
  · rcases List.mem_cons.mp hu with rfl | hu
    · decide
    · exact printable_digit (hfrac u hu)

/-- A canonical timestamp is printable. -/
theorem printable_of_isCanonicalTimestamp {s : JsString} (h : isCanonicalTimestamp s = true) :
    Printable s := by
  obtain ⟨f, hscan⟩ := Option.isSome_iff_exists.mp h
  rw [render_of_scanTimestamp hscan]
  intro u hu
  rcases mem_render hu with hd | hd
  · exact printable_digit hd
  · have hshape : Printable ((timestampShape 4).map Prod.snd) := by decide
    exact hshape u hd

theorem printable_natText (n : ℕ) : Printable (natText n) :=
  fun _ hu => printable_digit (isDigit_of_mem_natText hu)

/-- The texts of the enumerations are distinct. -/
theorem texts_injective : Function.Injective AssetType.text ∧ Function.Injective TradeSide.text ∧
    Function.Injective PaymentMethod.text ∧ Function.Injective OfferEnvelopeStatus.text := by
  refine ⟨fun a b h => ?_, fun a b h => ?_, fun a b h => ?_, fun a b h => ?_⟩
  · revert h
    cases a <;> cases b <;> decide
  · revert h
    cases a <;> cases b <;> decide
  · revert h
    cases a <;> cases b <;> decide
  · revert h
    cases a <;> cases b <;> decide

/-! ## Signed bytes -/

/-- The signed fields other than `logicalOfferId`. -/
def SignedOfferEnvelope.otherFields (e : SignedOfferEnvelope) : List JsString :=
  [e.ownerPublicKey, e.asset.text, e.side.text, e.priceUsd, e.minAmount, e.maxAmount,
    e.paymentMethod.text, e.revision.text, e.createdAt, e.revisedAt, e.expiresAt, e.status.text]

theorem signedFields_eq (e : SignedOfferEnvelope) :
    e.signedFields = offerEnvelopeDomainTag :: e.logicalOfferId :: e.otherFields := rfl

/-- Every signed field but the id is printable. -/
theorem SignedOfferEnvelope.WellFormed.printable {e : SignedOfferEnvelope} (h : e.WellFormed) :
    ∀ s ∈ e.otherFields, Printable s := by
  obtain ⟨n, hn, -⟩ := h.revision
  simp only [SignedOfferEnvelope.otherFields, List.forall_mem_cons]
  refine ⟨printable_of_isHex h.ownerPublicKey, printable_texts.1 _, printable_texts.2.1 _,
    printable_of_isCanonicalDecimal h.priceUsd.1, printable_of_isCanonicalDecimal h.minAmount.1,
    printable_of_isCanonicalDecimal h.maxAmount.1, printable_texts.2.2.1 _, ?_,
    printable_of_isCanonicalTimestamp h.createdAt.1,
    printable_of_isCanonicalTimestamp h.revisedAt.1,
    printable_of_isCanonicalTimestamp h.expiresAt.1, printable_texts.2.2.2 _, by simp⟩
  rw [hn]
  exact printable_natText n

/-- No signed field has a separator. -/
theorem SignedOfferEnvelope.WellFormed.not_separator {e : SignedOfferEnvelope}
    (h : e.WellFormed) : ∀ s ∈ e.signedFields, fieldSeparator ∉ s := by
  rw [signedFields_eq]
  intro s hs
  rcases List.mem_cons.mp hs with rfl | hs
  · decide
  rcases List.mem_cons.mp hs with rfl | hs
  · intro hmem
    have := h.idPlain _ hmem
    revert this
    decide
  · exact (h.printable s hs).not_separator

theorem SignedOfferEnvelope.WellFormed.map_toWellFormed {e : SignedOfferEnvelope}
    (h : e.WellFormed) : e.otherFields.map toWellFormed = e.otherFields := by
  conv_rhs => rw [← List.map_id e.otherFields]
  exact List.map_congr_left fun s hs => (h.printable s hs).toWellFormed_eq

theorem revision_eq_of_text {a b : SignedOfferEnvelope} (ha : a.WellFormed) (hb : b.WellFormed)
    (h : a.revision.text = b.revision.text) : a.revision = b.revision := by
  obtain ⟨m, hm, -⟩ := ha.revision
  obtain ⟨n, hn, -⟩ := hb.revision
  rw [hm, hn] at h ⊢
  have hmn : natText m = natText n := h
  rw [natText_injective hmn]

/-- The other fields determine what is signed besides the id. -/
theorem otherFields_eq_iff {a b : SignedOfferEnvelope} (ha : a.WellFormed) (hb : b.WellFormed) :
    a.otherFields = b.otherFields ↔ { a with logicalOfferId := b.logicalOfferId }.SameSigned b := by
  constructor
  · intro h
    simp only [SignedOfferEnvelope.otherFields, List.cons.injEq, and_true] at h
    obtain ⟨hkey, hasset, hside, hprice, hmin, hmax, hmethod, hrev, hcreated, hrevised, hexpires,
      hstatus⟩ := h
    have h1 := texts_injective.1 hasset
    have h2 := texts_injective.2.1 hside
    have h3 := texts_injective.2.2.1 hmethod
    have h4 := revision_eq_of_text ha hb hrev
    have h5 := texts_injective.2.2.2 hstatus
    unfold SignedOfferEnvelope.SameSigned
    rw [hkey, h1, h2, hprice, hmin, hmax, h3, h4, hcreated, hrevised, hexpires, h5]
  · intro h
    unfold SignedOfferEnvelope.SameSigned at h
    rw [← h]
    rfl

/-- The signed bytes of two accepted envelopes are the same exactly when their ids
have the same well-formed form and every other signed field agrees. -/
theorem canonicalize_eq_iff {a b : SignedOfferEnvelope} (ha : a.WellFormed) (hb : b.WellFormed) :
    canonicalizeOfferEnvelope a = canonicalizeOfferEnvelope b ↔
      toWellFormed a.logicalOfferId = toWellFormed b.logicalOfferId ∧
      { a with logicalOfferId := b.logicalOfferId }.SameSigned b := by
  unfold canonicalizeOfferEnvelope
  rw [toUtf8_join_eq_iff (by decide) (by decide) ha.not_separator hb.not_separator
    (by simp [signedFields_eq]) (by simp [signedFields_eq]), signedFields_eq, signedFields_eq]
  simp only [List.map_cons, List.cons.injEq, true_and]
  rw [ha.map_toWellFormed, hb.map_toWellFormed, otherFields_eq_iff ha hb]

theorem sameSigned_of_id {a b : SignedOfferEnvelope}
    (h : { a with logicalOfferId := b.logicalOfferId }.SameSigned b)
    (hid : a.logicalOfferId = b.logicalOfferId) : a.SameSigned b := by
  unfold SignedOfferEnvelope.SameSigned at h ⊢
  rw [← h]
  simp [hid]

/-- An envelope that verifies has a signature of its hash. -/
theorem digest_of_verify {sha256 : List UInt8 → List UInt8}
    {verify : List UInt8 → List UInt8 → List UInt8 → Bool} {e : SignedOfferEnvelope}
    (h : verifyOfferEnvelope sha256 verify e = .valid) :
    verify (hashOfferEnvelope sha256 e) (hexBytes e.signature) (hexBytes e.ownerPublicKey) = true := by
  unfold verifyOfferEnvelope at h
  split at h
  · cases h
  · split at h
    · cases h
    · split at h
      · cases h
      · next hv => simpa using hv

/-- Equal signed bytes mean equal signed fields, and a signature stays with its
envelope, exactly for pairs that are not told apart by unpaired surrogates of
`logicalOfferId` alone. -/
theorem signing_injective_iff (a b : SignedOfferEnvelope) (ha : Accepted a) (hb : Accepted b) :
    SigningInjective a b ↔ ¬ DifferInLoneSurrogates a b := by
  have hcanon := canonicalize_eq_iff (accepted_iff.mp ha) (accepted_iff.mp hb)
  constructor
  · rintro ⟨hinj, -⟩ ⟨hne, hwf, hother⟩
    have hsame := hinj (hcanon.mpr ⟨hwf, hother⟩)
    apply hne
    rw [← hsame]
  · intro hdiff
    have hinj : canonicalizeOfferEnvelope a = canonicalizeOfferEnvelope b → a.SameSigned b := by
      intro h
      obtain ⟨hwf, hother⟩ := hcanon.mp h
      refine sameSigned_of_id hother ?_
      by_contra hne
      exact hdiff ⟨hne, hwf, hother⟩
    refine ⟨hinj, ?_⟩
    intro sha256 verify hsha hsig hvalid
    exact hinj (hsha (hsig _ (digest_of_verify hvalid)).symm)

/-- An envelope with the given id and owner key. -/
def sampleEnvelope (id : JsString) : SignedOfferEnvelope :=
  { logicalOfferId := id
    ownerPublicKey := List.replicate 64 0x61
    asset := .BTC
    side := .SELL
    priceUsd := js "50000.00000000"
    minAmount := js "0.00100000"
    maxAmount := js "1.00000000"
    paymentMethod := .PIX
    revision := .int 0
    createdAt := js "2026-09-09T00:00:00.000Z"
    revisedAt := js "2026-09-09T00:00:00.000Z"
    expiresAt := js "2026-10-09T00:00:00.000Z"
    status := .ACTIVE
    signature := List.replicate 128 0x30 }

theorem signing_injective_iff_ids : SigningInjective (sampleEnvelope (js "offer-1"))
    (sampleEnvelope (js "offer-2")) :=
  (signing_injective_iff _ _ (by decide +kernel) (by decide +kernel)).mpr (by decide +kernel)

/-- Two ids that are one unpaired surrogate each, U+D800 and U+D801, are signed as the
same bytes. -/
theorem lone_surrogates_signed_alike :
    ¬ ∀ a b : SignedOfferEnvelope, Accepted a → Accepted b → SigningInjective a b := by
  intro h
  have hinj := (h (sampleEnvelope [0xD800]) (sampleEnvelope [0xD801]) (by decide +kernel)
    (by decide +kernel)).1
  have heq : canonicalizeOfferEnvelope (sampleEnvelope [0xD800]) =
      canonicalizeOfferEnvelope (sampleEnvelope [0xD801]) := by decide +kernel
  have hne : ¬ (sampleEnvelope [0xD800]).SameSigned (sampleEnvelope [0xD801]) := by decide
  exact hne (hinj heq)

end Sails.Offer
