import SailsProtocol.Arbitration.Authority
import SailsProtocol.Offer.Signing

/-!
# Five things one key signs

A participant's Ed25519 key signs login challenges and registration proofs (`auth.ts`),
arbitration decisions (`arbitration-authority.ts`), offer envelopes (`offer-envelope.ts`) and
evidence (`proof.service.ts`). Login and registration sign their text itself, the others the
SHA-256 digest of theirs. A registration proof, a decision and an envelope start with a tag of
their own, evidence is hashed as it is.

`message_eq_iff` : two messages of different purposes are equal exactly when one is of
evidence whose media are the very bytes the other is hashed from. `signature_transfers_iff` :
so these are the signatures a verifier of another purpose accepts.
-/

namespace Sails.Identity

open Arbitration Offer Text

/-! ## Messages -/

/-- `REGISTRATION_PROOF_DOMAIN`. -/
def REGISTRATION_PROOF_DOMAIN : JsString := js "sails-registration-proof-of-possession:v1"

/-- The separator of the registration proof. -/
def colon : UInt16 := 0x3A

/-- An omitted name is signed as an empty one. -/
def registrationProofMessage (challenge : JsString) (displayName : Option JsString) :
    List UInt8 :=
  toUtf8 (REGISTRATION_PROOF_DOMAIN ++ colon :: challenge ++ colon :: displayName.getD [])

/-- What is signed, by its purpose. -/
inductive Content where
  | login (challenge : JsString)
  | registration (challenge : JsString) (displayName : Option JsString)
  | decision (payload : AuthorityDecisionPayload)
  | offer (envelope : SignedOfferEnvelope)
  | evidence (media : List UInt8)
  deriving DecidableEq

/-- What a signature is made for. -/
inductive Purpose where
  | login
  | registration
  | decision
  | offer
  | evidence
  deriving DecidableEq, Repr

namespace Content

/-- What a content is signed for. -/
def purpose : Content → Purpose
  | login _ => .login
  | registration _ _ => .registration
  | decision _ => .decision
  | offer _ => .offer
  | evidence _ => .evidence

/-- The bytes a content is hashed from, if its digest is signed. -/
def hashed : Content → Option (List UInt8)
  | decision payload => (canonicalizeAuthorityDecision payload).map toUtf8
  | offer envelope => some (canonicalizeOfferEnvelope envelope)
  | evidence media => some media
  | _ => none

/-- The bytes that are signed as they are. -/
def raw : Content → List UInt8
  | login challenge => toUtf8 challenge
  | registration challenge displayName => registrationProofMessage challenge displayName
  | _ => []

/-- The bytes that are signed. -/
def message (sha256 : List UInt8 → List UInt8) (content : Content) : List UInt8 :=
  match content.hashed with
  | some bytes => sha256 bytes
  | none => content.raw

/-- A challenge is 32 bytes in hex, a decision and an envelope pass their checks, and a name
and media are anything. -/
def WellFormed : Content → Prop
  | login challenge => isHex 64 challenge = true
  | registration challenge _ => isHex 64 challenge = true
  | decision payload => payload.wellFormed = true
  | offer envelope => Accepted envelope
  | evidence _ => True

end Content

/-! ## Verifiers -/

section Verifiers

variable (sha256 : List UInt8 → List UInt8)
-- `nacl.sign.detached.verify`, on a message, a signature and a public key.
variable (verify : List UInt8 → List UInt8 → List UInt8 → Bool)

/-- The check of a signature and a key in hex. -/
def verifyHex (message : List UInt8) (signatureHex publicKeyHex : JsString) : Bool :=
  verify message (hexBytes signatureHex) (hexBytes publicKeyHex)

/-- The verifier of the content's purpose accepts the signature of the key. -/
def Accepts (signatureHex publicKeyHex : JsString) : Content → Prop
  | .login challenge => verifyHex verify (toUtf8 challenge) signatureHex publicKeyHex = true
  | .registration challenge displayName =>
    verifyHex verify (registrationProofMessage challenge displayName) signatureHex publicKeyHex =
      true
  | .decision payload => verifyAuthorityDecisionSignature sha256 (verifyHex verify) payload
      signatureHex publicKeyHex = some true
  | .offer envelope => envelope.ownerPublicKey = publicKeyHex ∧
      verifyOfferEnvelope sha256 verify { envelope with signature := signatureHex } = .valid
  | .evidence media => verifyHex verify (sha256 media) signatureHex publicKeyHex = true

/-- A signature the holder of the key made over a message, and what Ed25519 promises of it :
it is encoded canonically and verifies for this message only. -/
structure HonestSignature (signatureHex publicKeyHex : JsString) (message : List UInt8) : Prop
    where
  signature : isHex 128 signatureHex = true
  publicKey : isHex 64 publicKeyHex = true
  canonical : isCanonicalEd25519Encoding (hexBytes signatureHex) (hexBytes publicKeyHex) = true
  verifies : ∀ m, verifyHex verify m signatureHex publicKeyHex = true ↔ m = message

end Verifiers

/-- One content is evidence whose media are the bytes the other is hashed from. -/
def Content.Quotes (a b : Content) : Prop :=
  ∃ media, a = .evidence media ∧ b.hashed = some media ∨
    b = .evidence media ∧ a.hashed = some media

/-- An envelope names its owner's key. -/
def Content.BoundTo (publicKeyHex : JsString) : Content → Prop
  | .offer envelope => envelope.ownerPublicKey = publicKeyHex
  | _ => True

/-! ## The bytes of the messages -/

/-- A text of ASCII characters starts with one byte for each. -/
theorem toUtf8_ascii_append {p : JsString} (h : ∀ u ∈ p, u.toNat < 0x80) (s : JsString) :
    toUtf8 (p ++ s) = p.map (fun u => UInt8.ofNat u.toNat) ++ toUtf8 s := by
  induction p with
  | nil => rfl
  | cons u p ih =>
    have hu : u.toNat < 0x80 := h u List.mem_cons_self
    have hplain : isSurrogate u = false := plain_of_lt (by omega)
    have hscalar : (unitScalar u).val.toNat = u.toNat := toNat_unitScalar hplain
    have hchar : String.utf8EncodeChar (unitScalar u) = [UInt8.ofNat u.toNat] := by
      simp only [String.utf8EncodeChar, hscalar]
      rw [if_pos (by omega)]
    rw [List.cons_append, toUtf8, scalars_cons_plain hplain, List.flatMap_cons, hchar,
      List.map_cons, List.singleton_append, List.cons_append,
      ← ih fun v hv => h v (List.mem_cons_of_mem _ hv)]
    rfl

theorem toUtf8_ascii {p : JsString} (h : ∀ u ∈ p, u.toNat < 0x80) :
    toUtf8 p = p.map fun u => UInt8.ofNat u.toNat := by
  simpa [toUtf8, scalars] using toUtf8_ascii_append h []

theorem ascii_of_isHex {n : ℕ} {s : JsString} (h : isHex n s = true) :
    s.length = n ∧ ∀ u ∈ s, u.toNat < 0x80 := by
  simp only [isHex, Bool.and_eq_true, beq_iff_eq, List.all_eq_true] at h
  refine ⟨h.1, fun u hu => ?_⟩
  have hdigit := h.2 u hu
  simp only [isLowerHex, isDigit, Bool.or_eq_true, Bool.and_eq_true, decide_eq_true_eq] at hdigit
  omega

theorem length_login {challenge : JsString} (h : isHex 64 challenge = true) :
    (toUtf8 challenge).length = 64 := by
  obtain ⟨hlength, hascii⟩ := ascii_of_isHex h
  rw [toUtf8_ascii hascii, List.length_map, hlength]

/-- A registration message has more than 64 bytes. -/
theorem length_registration {challenge : JsString} (h : isHex 64 challenge = true)
    (displayName : Option JsString) :
    64 < (registrationProofMessage challenge displayName).length := by
  obtain ⟨hlength, hascii⟩ := ascii_of_isHex h
  have hdomain : ∀ u ∈ REGISTRATION_PROOF_DOMAIN, u.toNat < 0x80 := by
    have hall : (REGISTRATION_PROOF_DOMAIN.all fun u => decide (u.toNat < 0x80)) = true := by
      rw [REGISTRATION_PROOF_DOMAIN, js_ofList]
      decide
    simpa using hall
  have hprefix : ∀ u ∈ REGISTRATION_PROOF_DOMAIN ++ colon :: challenge ++ [colon],
      u.toNat < 0x80 := by
    simp only [List.mem_append, List.mem_cons, List.not_mem_nil, or_false]
    rintro u ((hu | rfl | hu) | rfl)
    · exact hdomain u hu
    · decide
    · exact hascii u hu
    · decide
  have hsplit : REGISTRATION_PROOF_DOMAIN ++ colon :: challenge ++ colon :: displayName.getD [] =
      (REGISTRATION_PROOF_DOMAIN ++ colon :: challenge ++ [colon]) ++ displayName.getD [] := by
    simp
  rw [registrationProofMessage, hsplit, toUtf8_ascii_append hprefix, List.length_append,
    List.length_map, List.length_append, List.length_append, List.length_cons, hlength]
  omega

/-- A join starts with the first character of its first field. -/
theorem head_toUtf8_join {sep u : UInt16} {tag field : JsString} {fields : List JsString}
    (hu : u.toNat < 0x80) : (toUtf8 (join sep ((u :: tag) :: field :: fields))).head? =
      some (UInt8.ofNat u.toNat) := by
  have hsplit : join sep ((u :: tag) :: field :: fields) =
      [u] ++ (tag ++ sep :: join sep (field :: fields)) := by
    simp [join, List.intercalate_cons_cons]
  rw [hsplit, toUtf8_ascii_append (by simpa using hu)]
  rfl

/-- The canonical text of a decision starts with its tag. -/
theorem head_decision {payload : AuthorityDecisionPayload} {text : JsString}
    (h : canonicalizeAuthorityDecision payload = some text) :
    (toUtf8 text).head? = some 0x53 := by
  have htag : js "SAILS_AUTHORITY_DECISION_V1" = 0x53 :: js "AILS_AUTHORITY_DECISION_V1" := by
    rw [js_ofList, js_ofList]
    decide
  unfold canonicalizeAuthorityDecision at h
  split_ifs at h
  rw [← Option.some.inj h, htag]
  exact head_toUtf8_join (by decide)

/-- The canonical bytes of an envelope start with its tag. -/
theorem head_offer (envelope : SignedOfferEnvelope) :
    (canonicalizeOfferEnvelope envelope).head? = some 0x73 := by
  have htag : offerEnvelopeDomainTag = 0x73 :: js "ails-offer-envelope-v1" := by
    rw [offerEnvelopeDomainTag, js_ofList, js_ofList]
    decide
  rw [canonicalizeOfferEnvelope, SignedOfferEnvelope.signedFields, htag]
  exact head_toUtf8_join (by decide)

/-! ## Messages of different purposes -/

section Messages

variable {sha256 : List UInt8 → List UInt8} {a b : Content}

/-- The hashed bytes of the two contents are no collision. -/
def NoCollision (sha256 : List UInt8 → List UInt8) (a b : Content) : Prop :=
  ∀ x ∈ a.hashed, ∀ y ∈ b.hashed, sha256 x = sha256 y → x = y

theorem Content.message_of_hashed {bytes : List UInt8} (h : a.hashed = some bytes) :
    a.message sha256 = sha256 bytes := by
  rw [message, h]

/-- A decision that passes its check has a canonical text. -/
theorem hashed_decision {payload : AuthorityDecisionPayload} (h : payload.wellFormed = true) :
    ∃ text, canonicalizeAuthorityDecision payload = some text ∧
      (Content.decision payload).hashed = some (toUtf8 text) := by
  refine ⟨_, if_pos h, ?_⟩
  rw [Content.hashed, canonicalizeAuthorityDecision, if_pos h]
  rfl

/-- The length of a signed text tells its purpose, and no digest is as long. -/
theorem Content.length_message (hlength : ∀ x, (sha256 x).length = 32) (h : a.WellFormed) :
    match a.purpose with
    | .login => (a.message sha256).length = 64
    | .registration => 64 < (a.message sha256).length
    | _ => (a.message sha256).length = 32 := by
  cases a with
  | login challenge => exact length_login h
  | registration challenge displayName => exact length_registration h displayName
  | decision payload =>
    obtain ⟨text, -, hhashed⟩ := hashed_decision h
    change ((Content.decision payload).message sha256).length = 32
    rw [message_of_hashed hhashed, hlength]
  | offer envelope => exact hlength _
  | evidence media => exact hlength _

/-- Digests of different purposes are equal only where evidence quotes the other content. -/
theorem quotes_of_hashed {x : List UInt8} (ha : a.WellFormed) (hb : b.WellFormed)
    (hpurpose : a.purpose ≠ b.purpose) (hax : a.hashed = some x) (hbx : b.hashed = some x) :
    a.Quotes b := by
  cases a with
  | evidence media => exact ⟨x, .inl ⟨by rw [Option.some.inj hax], hbx⟩⟩
  | login challenge => cases hax
  | registration challenge displayName => cases hax
  | decision payload =>
    cases b with
    | evidence media => exact ⟨x, .inr ⟨by rw [Option.some.inj hbx], hax⟩⟩
    | login challenge => cases hbx
    | registration challenge displayName => cases hbx
    | decision payload' => exact absurd rfl hpurpose
    | offer envelope =>
      obtain ⟨text, htext, hhashed⟩ := hashed_decision ha
      rw [hhashed, Option.some.injEq] at hax
      have hhead := head_decision htext
      rw [hax, ← Option.some.inj hbx, head_offer] at hhead
      cases hhead
  | offer envelope =>
    cases b with
    | evidence media => exact ⟨x, .inr ⟨by rw [Option.some.inj hbx], hax⟩⟩
    | login challenge => cases hbx
    | registration challenge displayName => cases hbx
    | offer envelope' => exact absurd rfl hpurpose
    | decision payload =>
      obtain ⟨text, htext, hhashed⟩ := hashed_decision hb
      rw [hhashed, Option.some.injEq] at hbx
      have hhead := head_decision htext
      rw [hbx, ← Option.some.inj hax, head_offer] at hhead
      cases hhead

/-- Raw messages of different purposes differ in length, and no digest is as long. -/
theorem Content.hashed_of_message_eq (hlength : ∀ x, (sha256 x).length = 32) (ha : a.WellFormed)
    (hb : b.WellFormed) (hpurpose : a.purpose ≠ b.purpose)
    (heq : b.message sha256 = a.message sha256) :
    ∃ x y, a.hashed = some x ∧ b.hashed = some y := by
  have hla := Content.length_message hlength ha
  have hlb := Content.length_message hlength hb
  rw [heq] at hlb
  have hsome : ∀ c : Content, c.WellFormed → c.purpose ≠ .login → c.purpose ≠ .registration →
      ∃ x, c.hashed = some x := by
    intro c hc hlogin hregistration
    cases c with
    | login challenge => exact absurd rfl hlogin
    | registration challenge displayName => exact absurd rfl hregistration
    | decision payload =>
      obtain ⟨text, -, hhashed⟩ := hashed_decision hc
      exact ⟨_, hhashed⟩
    | offer envelope => exact ⟨_, rfl⟩
    | evidence media => exact ⟨_, rfl⟩
  have hdigest : (a.purpose ≠ .login ∧ a.purpose ≠ .registration) ∧
      b.purpose ≠ .login ∧ b.purpose ≠ .registration := by
    cases hpa : a.purpose <;> cases hpb : b.purpose <;> simp_all
  obtain ⟨x, hx⟩ := hsome a ha hdigest.1.1 hdigest.1.2
  obtain ⟨y, hy⟩ := hsome b hb hdigest.2.1 hdigest.2.2
  exact ⟨x, y, hx, hy⟩

/-- Two purposes have one message when one content quotes the other. -/
theorem message_eq_iff (hlength : ∀ x, (sha256 x).length = 32) (ha : a.WellFormed)
    (hb : b.WellFormed) (hpurpose : a.purpose ≠ b.purpose) (hcollision : NoCollision sha256 a b) :
    b.message sha256 = a.message sha256 ↔ a.Quotes b := by
  constructor
  · intro heq
    obtain ⟨x, y, hx, hy⟩ := Content.hashed_of_message_eq hlength ha hb hpurpose heq
    rw [Content.message_of_hashed hx, Content.message_of_hashed hy] at heq
    obtain rfl := hcollision x hx y hy heq.symm
    exact quotes_of_hashed ha hb hpurpose hx hy
  · rintro ⟨media, ⟨rfl, hhashed⟩ | ⟨rfl, hhashed⟩⟩
    · rw [Content.message_of_hashed hhashed]
      rfl
    · rw [Content.message_of_hashed hhashed]
      rfl

end Messages

/-! ## Signatures of one purpose at the verifiers of the others -/

section Transfer

variable {sha256 : List UInt8 → List UInt8} {verify : List UInt8 → List UInt8 → List UInt8 → Bool}
variable {signatureHex publicKeyHex : JsString}

/-- A verifier checks the message of its own purpose. -/
theorem accepts_iff {b : Content} (hb : b.WellFormed) (hsignature : isHex 128 signatureHex = true)
    (hcanonical : isCanonicalEd25519Encoding (hexBytes signatureHex) (hexBytes publicKeyHex) =
      true) :
    Accepts sha256 verify signatureHex publicKeyHex b ↔ b.BoundTo publicKeyHex ∧
      verifyHex verify (b.message sha256) signatureHex publicKeyHex = true := by
  cases b with
  | login challenge => exact (iff_of_eq (true_and _)).symm
  | registration challenge displayName => exact (iff_of_eq (true_and _)).symm
  | evidence media => exact (iff_of_eq (true_and _)).symm
  | decision payload =>
    obtain ⟨text, htext, hhashed⟩ := hashed_decision hb
    rw [Content.message_of_hashed hhashed]
    simp [Accepts, Content.BoundTo, verifyAuthorityDecisionSignature, hashAuthorityDecision, htext]
  | offer envelope =>
    have hvalid : Accepted { envelope with signature := signatureHex } :=
      accepted_iff.mpr { accepted_iff.mp hb with signature := hsignature }
    have hcanon : canonicalizeOfferEnvelope { envelope with signature := signatureHex } =
      canonicalizeOfferEnvelope envelope := rfl
    rw [Content.message_of_hashed rfl]
    simp only [Accepts, Content.BoundTo]
    refine and_congr_right ?_
    rintro rfl
    rw [verifyOfferEnvelope, show validateOfferEnvelopeFields _ = .valid from hvalid]
    simp only [hcanonical, hashOfferEnvelope, hcanon, verifyHex]
    cases verify (sha256 (canonicalizeOfferEnvelope envelope)) (hexBytes signatureHex)
      (hexBytes envelope.ownerPublicKey) <;> simp

/-- A signature made for one purpose is accepted for another exactly where one of the contents
is evidence of the bytes the other is hashed from, and an envelope names the key. -/
theorem signature_transfers_iff (a b : Content) (hlength : ∀ x, (sha256 x).length = 32)
    (ha : a.WellFormed) (hb : b.WellFormed) (hpurpose : a.purpose ≠ b.purpose)
    (hcollision : NoCollision sha256 a b)
    (hsigned : HonestSignature verify signatureHex publicKeyHex (a.message sha256)) :
    ¬ Accepts sha256 verify signatureHex publicKeyHex b ↔
      ¬ (a.Quotes b ∧ b.BoundTo publicKeyHex) := by
  rw [accepts_iff hb hsigned.signature hsigned.canonical, hsigned.verifies,
    message_eq_iff hlength ha hb hpurpose hcollision, and_comm]

end Transfer

/-- A release that an arbiter decided. -/
def sampleDecision : AuthorityDecisionPayload where
  disputeId := js "d1"
  escrowId := js "e1"
  appealRound := 0
  authorityId := js "arbiter"
  outcome := .release
  buyerBps := none
  issuedAt := js "2026-11-18T00:00:00.000Z"

/-- The bytes that are hashed for it. -/
def sampleDecisionBytes : List UInt8 :=
  toUtf8 (js "SAILS_AUTHORITY_DECISION_V1|1|d1|e1|0|arbiter|RELEASE||2026-11-18T00:00:00.000Z")

/-- Their SHA-256. -/
def sampleDecisionDigest : List UInt8 :=
  hexBytes (js "5a6f0d1e04affab44e9ab3616045824ea9856bf82f7a9acd5b6f0817a3d46926")

/-- SHA-256 at the two inputs of the samples. -/
def sampleSha256 (bytes : List UInt8) : List UInt8 :=
  if bytes = sampleDecisionBytes then sampleDecisionDigest
  else if bytes = [1, 2, 3] then
    hexBytes (js "039058c6f2c0cb492c533b0a4d14ef77cc0f78abccced5287d84a1a2011cfb81")
  else List.replicate 32 0

/-- The key of the sample. -/
def samplePublicKey : JsString :=
  js "03a107bff3ce10be1d70dd18e74bc09967e4d6309ba50d5f1ddc8664125531b8"

/-- The signature of the decision's digest. -/
def sampleSignature : JsString :=
  js ("b8707cf460c22b246636eea0c83e39536483742f6ca0bf609096269a8179b50f" ++
    "ede40316751d86466faf0cee793531c05abb52b0d60f9c79ba10ecd6ed563403")

/-- Ed25519 at the sample's key and signature. -/
def sampleVerify (message signature publicKey : List UInt8) : Bool :=
  message = sampleDecisionDigest && signature = hexBytes sampleSignature &&
    publicKey = hexBytes samplePublicKey

/-- The hash of the sample has 32 bytes. -/
theorem length_sampleSha256 (bytes : List UInt8) : (sampleSha256 bytes).length = 32 := by
  unfold sampleSha256
  split_ifs
  · rw [sampleDecisionDigest, js_ofList]
    decide
  · rw [js_ofList]
    decide
  · rfl

theorem sampleSha256_decision : sampleSha256 sampleDecisionBytes = sampleDecisionDigest :=
  if_pos rfl

theorem media_ne_sampleDecision : [1, 2, 3] ≠ sampleDecisionBytes := by
  rw [sampleDecisionBytes, js_ofList]
  decide

theorem sampleSha256_media : sampleSha256 [1, 2, 3] =
    hexBytes (js "039058c6f2c0cb492c533b0a4d14ef77cc0f78abccced5287d84a1a2011cfb81") := by
  rw [sampleSha256, if_neg media_ne_sampleDecision, if_pos rfl]

/-- The decision is hashed before it is signed. -/
theorem hashed_sampleDecision :
    (Content.decision sampleDecision).hashed = some sampleDecisionBytes := by
  have hwellFormed : sampleDecision.wellFormed = true := rfl
  have htext : canonicalizeAuthorityDecision sampleDecision = some (js
      "SAILS_AUTHORITY_DECISION_V1|1|d1|e1|0|arbiter|RELEASE||2026-11-18T00:00:00.000Z") := by
    rw [canonicalizeAuthorityDecision, if_pos hwellFormed]
    simp only [sampleDecision, rulingText]
    repeat rw [js_ofList]
    decide
  rw [Content.hashed, htext]
  rfl

/-- The key of the sample signed the digest. -/
theorem sample_honest :
    HonestSignature sampleVerify sampleSignature samplePublicKey sampleDecisionDigest where
  signature := by
    rw [sampleSignature, js_append, js_ofList, js_ofList]
    decide +kernel
  publicKey := by
    rw [samplePublicKey, js_ofList]
    decide
  canonical := by
    rw [sampleSignature, samplePublicKey, js_append, js_ofList, js_ofList, js_ofList]
    decide
  verifies m := by simp [verifyHex, sampleVerify]

/-- The signature of a decision is no signature of other media. -/
theorem decision_signature_not_evidence :
    ¬ Accepts sampleSha256 sampleVerify sampleSignature samplePublicKey (.evidence [1, 2, 3]) := by
  refine (signature_transfers_iff (.decision sampleDecision) (.evidence [1, 2, 3])
    length_sampleSha256 rfl trivial (by decide) ?_ ?_).mpr ?_
  · rintro x hx y hy heq
    rw [hashed_sampleDecision] at hx
    cases hx
    cases hy
    rw [sampleSha256_decision, sampleSha256_media, sampleDecisionDigest] at heq
    rw [js_ofList, js_ofList] at heq
    exact absurd heq (by decide)
  · rw [Content.message_of_hashed hashed_sampleDecision, sampleSha256_decision]
    exact sample_honest
  · rintro ⟨⟨media, ⟨h, -⟩ | ⟨h, hhashed⟩⟩, -⟩
    · cases h
    · cases h
      rw [hashed_sampleDecision] at hhashed
      exact media_ne_sampleDecision (Option.some.inj hhashed).symm

/-- Whoever signs the bytes of a decision as evidence has signed the decision. -/
theorem evidence_signature_decides :
    ¬ ∀ (sha256 : List UInt8 → List UInt8) (verify : List UInt8 → List UInt8 → List UInt8 → Bool)
      (signatureHex publicKeyHex : JsString) (a b : Content), (∀ x, (sha256 x).length = 32) →
      a.WellFormed → b.WellFormed → a.purpose ≠ b.purpose → NoCollision sha256 a b →
      HonestSignature verify signatureHex publicKeyHex (a.message sha256) →
      ¬ Accepts sha256 verify signatureHex publicKeyHex b := by
  intro h
  have hmessage : (Content.evidence sampleDecisionBytes).message sampleSha256 =
      sampleDecisionDigest := sampleSha256_decision
  refine h sampleSha256 sampleVerify sampleSignature samplePublicKey
    (.evidence sampleDecisionBytes) (.decision sampleDecision) length_sampleSha256 trivial
    rfl (by decide) ?_ (hmessage ▸ sample_honest) ?_
  · rintro x hx y hy -
    rw [hashed_sampleDecision] at hy
    cases hx
    cases hy
    rfl
  · have hwellFormed : (Content.decision sampleDecision).WellFormed := rfl
    rw [accepts_iff hwellFormed sample_honest.signature sample_honest.canonical,
      Content.message_of_hashed hashed_sampleDecision, sampleSha256_decision]
    exact ⟨trivial, (sample_honest.verifies _).mpr rfl⟩

end Sails.Identity
