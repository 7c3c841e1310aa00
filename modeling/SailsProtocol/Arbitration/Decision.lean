import SailsProtocol.Arbitration.Authority
import SailsProtocol.Numeric.Shortest
import SailsProtocol.Text.Digest

/-!
# What one signature of an arbiter decides

`arbitration-authority.ts` takes the appeal round and the buyer's share as JavaScript numbers,
which `Arbitration.AuthorityDecisionPayload` narrows to the whole numbers its callers pass.
Here they are numbers, and on small whole numbers the two write one text (`canonicalize_whole`).

The nine fields are joined by a bar. The last of them is the arbiter's own text of the time, so
the text can be split at its first eight bars where no id holds one (`fields_of_join`), and
every field determines what it was written from (`agrees_of_canonicalize`).

`signature_fits_one_decision` : a signature of one decision verifies for no other.
-/

namespace Sails.Authority

open Arbitration Numeric Text

/-! ## Payloads -/

/-- What an arbitration authority signs, with the numbers of JavaScript. -/
structure AuthorityDecisionPayload where
  disputeId : JsString
  escrowId : JsString
  appealRound : JsNumber
  authorityId : JsString
  outcome : SettlementKind
  /-- The buyer's share of a split, in basis points, and null for the other outcomes. -/
  buyerBps : Option JsNumber
  issuedAt : JsString
  deriving DecidableEq

/-- The text of an outcome. -/
def outcomeName : SettlementKind → String
  | .release => "RELEASE"
  | .refund => "REFUND"
  | .split => "SPLIT"

/-- `Number.isInteger`. -/
def isInteger : JsNumber → Bool
  | .finite _ size => size.val.isInt
  | _ => false

/-- `x < bound`. -/
def isBelow (bound : ℚ) : JsNumber → Bool
  | .nan => false
  | .infinite negative => negative
  | .finite negative size => (if negative then -size.val else size.val) < bound

/-- `x > bound`. -/
def isAbove (bound : ℚ) : JsNumber → Bool
  | .nan => false
  | .infinite negative => !negative
  | .finite negative size => bound < (if negative then -size.val else size.val)

/-- `assertWellFormed`, with the message it throws. -/
def assertWellFormed (payload : AuthorityDecisionPayload) : Except String Unit :=
  if payload.outcome = .split then
    -- null is refused here as a number out of range is
    if payload.buyerBps.all fun bps => !isInteger bps || isBelow 1 bps || isAbove 9999 bps then
      throw "Authority decision for SPLIT requires an integer buyerBps between 1 and 9999"
    else pure ()
  else if payload.buyerBps ≠ none then
    throw ("Authority decision for " ++ outcomeName payload.outcome ++
      " must not carry a buyerBps")
  else pure ()

/-- `AUTHORITY_DECISION_DOMAIN`. -/
def AUTHORITY_DECISION_DOMAIN : JsString := js "SAILS_AUTHORITY_DECISION_V1"

/-- `AUTHORITY_DECISION_VERSION`. -/
def AUTHORITY_DECISION_VERSION : ℕ := 1

/-- The fields before the time. -/
def fields (payload : AuthorityDecisionPayload) : List JsString :=
  [AUTHORITY_DECISION_DOMAIN, natText AUTHORITY_DECISION_VERSION, payload.disputeId,
    payload.escrowId, numberText payload.appealRound, payload.authorityId,
    rulingText payload.outcome, (payload.buyerBps.map numberText).getD []]

/-- `canonicalizeAuthorityDecision`. -/
def canonicalizeAuthorityDecision (payload : AuthorityDecisionPayload) :
    Except String JsString := do
  assertWellFormed payload
  return join bar (fields payload ++ [payload.issuedAt])

/-! ## Signatures -/

/-- `nacl.sign.detached` and its `verify`, which throw on keys and signatures of another
length, and the public key of a secret key. -/
structure SignDetached where
  sign : List UInt8 → List UInt8 → Except String (List UInt8)
  verify : List UInt8 → List UInt8 → List UInt8 → Except String Bool
  publicKeyOf : List UInt8 → List UInt8

/-- A signature of one message verifies for no other. -/
def SignDetached.Unforgeable (nacl : SignDetached) : Prop :=
  ∀ {message message' secretKey signature : List UInt8},
    nacl.sign message secretKey = .ok signature →
    nacl.verify message' signature (nacl.publicKeyOf secretKey) = .ok true → message' = message

section Signatures

variable (sha256 : List UInt8 → List UInt8) (nacl : SignDetached)

/-- `hashAuthorityDecision`, as the hex text of the hash. -/
def hashAuthorityDecision (payload : AuthorityDecisionPayload) : Except String JsString := do
  return hexDigest sha256 (← canonicalizeAuthorityDecision payload)

/-- `signAuthorityDecision`, as the hex text of the signature. -/
def signAuthorityDecision (payload : AuthorityDecisionPayload) (secretKey : List UInt8) :
    Except String JsString := do
  let digest ← hashAuthorityDecision sha256 payload
  let signature ← nacl.sign (fromHex digest) secretKey
  return hexText signature

/-- What `verify` throws is caught, and what `assertWellFormed` throws is not. -/
def verifyAuthorityDecisionSignature (payload : AuthorityDecisionPayload)
    (signatureHex publicKeyHex : JsString) : Except String Bool := do
  let digest ← hashAuthorityDecision sha256 payload
  match nacl.verify (fromHex digest) (fromHex signatureHex) (fromHex publicKeyHex) with
  | .ok valid => return valid
  | .error _ => return false

end Signatures

/-! ## Splitting the text -/

/-- A join is split at its separators where only its last field may hold one. -/
theorem fields_of_join {sep : UInt16} {last last' : JsString} :
    ∀ {l l' : List JsString}, l.length = l'.length → (∀ s ∈ l, sep ∉ s) → (∀ s ∈ l', sep ∉ s) →
      join sep (l ++ [last]) = join sep (l' ++ [last']) → l = l' ∧ last = last'
  | [], [], _, _, _, h => ⟨rfl, by simpa [join] using h⟩
  | s :: l, t :: l', hlen, hl, hl', h => by
    have hjoin : ∀ (s : JsString) (l : List JsString) (last : JsString),
        join sep (s :: l ++ [last]) = s ++ sep :: join sep (l ++ [last]) := by
      intro s l last
      cases l <;> simp [join, List.intercalate_cons_cons]
    rw [hjoin, hjoin] at h
    obtain ⟨rfl, hrest⟩ := split_first (hl s List.mem_cons_self) (hl' t List.mem_cons_self) h
    obtain ⟨rfl, hlast⟩ := fields_of_join (Nat.succ.inj hlen)
      (fun u hu => hl u (List.mem_cons_of_mem _ hu))
      (fun u hu => hl' u (List.mem_cons_of_mem _ hu)) hrest
    exact ⟨rfl, hlast⟩

theorem bar_not_mem_numberText (x : JsNumber) : bar ∉ numberText x :=
  not_mem_numberText (by decide) (by decide) (by decide) x

theorem bar_not_mem_rulingText (kind : SettlementKind) : bar ∉ rulingText kind := by
  cases kind <;> decide

/-- `assertWellFormed` accepts the payload, no id holds a bar, and its strings are valid
Unicode. -/
structure Admissible (p : AuthorityDecisionPayload) : Prop where
  wellFormed : assertWellFormed p = .ok ()
  disputeId : bar ∉ p.disputeId
  escrowId : bar ∉ p.escrowId
  authorityId : bar ∉ p.authorityId
  unicode : ∀ s ∈ [p.disputeId, p.escrowId, p.authorityId, p.issuedAt], toWellFormed s = s

/-- No field before the last has a bar. -/
theorem Admissible.bar_not_mem {p : AuthorityDecisionPayload} (h : Admissible p) :
    ∀ s ∈ fields p, bar ∉ s := by
  have hbps : bar ∉ (p.buyerBps.map numberText).getD [] := by
    cases p.buyerBps with
    | none => exact List.not_mem_nil
    | some bps => exact bar_not_mem_numberText bps
  have hdomain : bar ∉ AUTHORITY_DECISION_DOMAIN := by
    rw [AUTHORITY_DECISION_DOMAIN, js_ofList]
    decide
  have hversion : bar ∉ natText AUTHORITY_DECISION_VERSION := fun hmem =>
    absurd (isDigit_of_mem_natText hmem) (by decide)
  simp only [fields, List.forall_mem_cons]
  exact ⟨hdomain, hversion, h.disputeId, h.escrowId, bar_not_mem_numberText _, h.authorityId,
    bar_not_mem_rulingText _, hbps, nofun⟩

/-! ## Agreement -/

/-- The same decision, the appeal rounds being the same number. -/
structure Agrees (p q : AuthorityDecisionPayload) : Prop where
  disputeId : p.disputeId = q.disputeId
  escrowId : p.escrowId = q.escrowId
  appealRound : p.appealRound.Same q.appealRound
  authorityId : p.authorityId = q.authorityId
  outcome : p.outcome = q.outcome
  buyerBps : p.buyerBps = q.buyerBps
  issuedAt : p.issuedAt = q.issuedAt

/-- A share that is accepted. -/
structure IsShare (bps : JsNumber) : Prop where
  integer : isInteger bps = true
  least : isBelow 1 bps = false
  most : isAbove 9999 bps = false

/-- What `assertWellFormed` accepts : a share for a split, and null for the other outcomes. -/
theorem assertWellFormed_ok {p : AuthorityDecisionPayload} (h : assertWellFormed p = .ok ()) :
    (p.outcome = .split ∧ ∃ bps, p.buyerBps = some bps ∧ IsShare bps) ∨
      (p.outcome ≠ .split ∧ p.buyerBps = none) := by
  unfold assertWellFormed at h
  split_ifs at h with hsplit hbad hbps
  · cases hbuyer : p.buyerBps with
    | none => simp [hbuyer] at hbad
    | some bps =>
      simp only [hbuyer, Option.all_some, Bool.or_eq_true, Bool.not_eq_true', not_or,
        Bool.not_eq_false, Bool.not_eq_true] at hbad
      exact Or.inl ⟨hsplit, bps, rfl, hbad.1.1, hbad.1.2, hbad.2⟩
  · exact Or.inr ⟨hsplit, not_not.mp hbps⟩

/-- Shares are not zero, so those of one number are equal. -/
theorem IsShare.eq_of_same {x y : JsNumber} (hx : IsShare x) (hy : IsShare y) (h : x.Same y) :
    x = y := by
  have hself : ∀ {z : JsNumber}, IsShare z → z.withoutSignOfZero = z := by
    intro z hz
    cases z with
    | nan => rfl
    | infinite negative => rfl
    | finite negative size =>
      have hne : size.val ≠ 0 := by
        intro hzero
        have := hz.least
        simp [isBelow, hzero] at this
      simp [JsNumber.withoutSignOfZero, hne]
  rw [← hself hx, ← hself hy]
  exact h

/-- Equal texts of the share come from equal shares. -/
theorem buyerBps_eq {p q : AuthorityDecisionPayload} (hp : assertWellFormed p = .ok ())
    (hq : assertWellFormed q = .ok ()) (houtcome : p.outcome = q.outcome)
    (h : (p.buyerBps.map numberText).getD [] = (q.buyerBps.map numberText).getD []) :
    p.buyerBps = q.buyerBps := by
  rcases assertWellFormed_ok hp with ⟨hsplit, x, hx, hshare⟩ | ⟨hsplit, hx⟩
  · rcases assertWellFormed_ok hq with ⟨-, y, hy, hshare'⟩ | ⟨hsplit', -⟩
    · rw [hx, hy] at h ⊢
      exact congrArg some (hshare.eq_of_same hshare' (numberText_eq_iff.mp h))
    · exact absurd (houtcome ▸ hsplit) hsplit'
  · rcases assertWellFormed_ok hq with ⟨hsplit', -⟩ | ⟨-, hy⟩
    · exact absurd (houtcome ▸ hsplit') hsplit
    · rw [hx, hy]

theorem canonicalize_ok {p : AuthorityDecisionPayload} (h : assertWellFormed p = .ok ()) :
    canonicalizeAuthorityDecision p = .ok (join bar (fields p ++ [p.issuedAt])) := by
  rw [canonicalizeAuthorityDecision, h]
  rfl

/-- Equal canonical texts come from payloads that agree. -/
theorem agrees_of_join {p q : AuthorityDecisionPayload} (hp : Admissible p) (hq : Admissible q)
    (h : join bar (fields p ++ [p.issuedAt]) = join bar (fields q ++ [q.issuedAt])) :
    Agrees p q := by
  obtain ⟨hfields, hissued⟩ := fields_of_join (by rfl) hp.bar_not_mem hq.bar_not_mem h
  simp only [fields, List.cons.injEq, and_true, true_and] at hfields
  obtain ⟨hdispute, hescrow, hround, hauthority, hruling, hbps⟩ := hfields
  have houtcome := rulingText_injective hruling
  exact ⟨hdispute, hescrow, numberText_eq_iff.mp hround, hauthority, houtcome,
    buyerBps_eq hp.wellFormed hq.wellFormed houtcome hbps, hissued⟩

/-- The text that is hashed determines the decision. -/
theorem agrees_of_canonicalize {p q : AuthorityDecisionPayload} (hp : Admissible p)
    (hq : Admissible q)
    (h : canonicalizeAuthorityDecision p = canonicalizeAuthorityDecision q) : Agrees p q := by
  rw [canonicalize_ok hp.wellFormed, canonicalize_ok hq.wellFormed] at h
  exact agrees_of_join hp hq (Except.ok.inj h)

/-! ## Whole numbers -/

/-- The payload with its numbers as whole numbers. -/
structure Narrows (p : AuthorityDecisionPayload)
    (w : Arbitration.AuthorityDecisionPayload) : Prop where
  disputeId : p.disputeId = w.disputeId
  escrowId : p.escrowId = w.escrowId
  appealRound : ∃ h, p.appealRound = .finite false (.ofNat w.appealRound h)
  authorityId : p.authorityId = w.authorityId
  outcome : p.outcome = w.outcome
  buyerBps : (p.buyerBps = none ∧ w.buyerBps = none) ∨
    ∃ (n : ℕ) (h : n < 2 ^ 53), p.buyerBps = some (.finite false (.ofNat n h)) ∧
      w.buyerBps = some (n : ℤ)
  issuedAt : p.issuedAt = w.issuedAt

theorem isShare_ofNat {n : ℕ} (hn : n < 2 ^ 53) :
    (!isInteger (.finite false (.ofNat n hn)) || isBelow 1 (.finite false (.ofNat n hn)) ||
      isAbove 9999 (.finite false (.ofNat n hn))) =
        !(decide (1 ≤ (n : ℤ)) && decide ((n : ℤ) ≤ 9999)) := by
  have hint : (n : ℚ).isInt = true := rfl
  rw [Bool.eq_iff_iff]
  simp [isInteger, isBelow, isAbove, Magnitude.ofNat, hint]

/-- The fields of a payload of whole numbers. -/
theorem fields_whole {p : AuthorityDecisionPayload} {w : Arbitration.AuthorityDecisionPayload}
    (h : Narrows p w) : fields p ++ [p.issuedAt] =
      [js "SAILS_AUTHORITY_DECISION_V1", js "1", w.disputeId, w.escrowId, natText w.appealRound,
        w.authorityId, rulingText w.outcome, (w.buyerBps.map intText).getD [], w.issuedAt] := by
  obtain ⟨hround, happeal⟩ := h.appealRound
  have hversion : natText AUTHORITY_DECISION_VERSION = js "1" := by decide
  have hbps : (p.buyerBps.map numberText).getD [] = (w.buyerBps.map intText).getD [] := by
    rcases h.buyerBps with ⟨hp, hw⟩ | ⟨n, hn, hp, hw⟩
    · rw [hp, hw]
      rfl
    · have hint : intText n = natText n := by
        rw [intText, if_neg (by omega), Int.natAbs_natCast]
      rw [hp, hw, Option.map_some, Option.map_some, Option.getD_some, Option.getD_some,
        numberText_ofNat, hint]
  rw [fields, h.disputeId, h.escrowId, happeal, numberText_ofNat, h.authorityId, h.outcome, hbps,
    h.issuedAt, hversion]
  rfl

/-- On whole numbers the two checks are the same. -/
theorem wellFormed_whole {p : AuthorityDecisionPayload}
    {w : Arbitration.AuthorityDecisionPayload} (h : Narrows p w) :
    assertWellFormed p = .ok () ↔ w.wellFormed = true := by
  unfold assertWellFormed Arbitration.AuthorityDecisionPayload.wellFormed
  rw [h.outcome]
  rcases h.buyerBps with ⟨hp, hw⟩ | ⟨n, hn, hp, hw⟩
  · rw [hp, hw]
    cases w.outcome <;> simp [pure, Except.pure, throw, throwThe, MonadExceptOf.throw]
  · rw [hp, hw, Option.all_some, isShare_ofNat]
    cases w.outcome <;>
      by_cases hle : 1 ≤ (n : ℤ) <;> by_cases hge : (n : ℤ) ≤ 9999 <;>
      simp [hle, hge, pure, Except.pure, throw, throwThe, MonadExceptOf.throw]

/-- On whole numbers the text is that of the narrower payload. -/
theorem canonicalize_whole {p : AuthorityDecisionPayload}
    {w : Arbitration.AuthorityDecisionPayload} (h : Narrows p w) :
    (canonicalizeAuthorityDecision p).toOption = Arbitration.canonicalizeAuthorityDecision w := by
  unfold Arbitration.canonicalizeAuthorityDecision
  split_ifs with hw
  · rw [canonicalize_ok ((wellFormed_whole h).mpr hw), fields_whole h]
    rfl
  · rw [canonicalizeAuthorityDecision]
    cases hp : assertWellFormed p with
    | ok u => exact absurd ((wellFormed_whole h).mp hp) hw
    | error e => rfl

/-! ## One decision -/

/-- A join of well formed texts is well formed. -/
theorem toWellFormed_join {sep : UInt16} (hsep : isSurrogate sep = false) :
    ∀ {l : List JsString}, (∀ s ∈ l, toWellFormed s = s) → toWellFormed (join sep l) = join sep l
  | [], _ => rfl
  | [s], h => by simpa [join] using h s List.mem_cons_self
  | s :: t :: l, h => by
    have hjoin : join sep (s :: t :: l) = s ++ sep :: join sep (t :: l) := by
      simp [join, List.intercalate_cons_cons]
    rw [hjoin, toWellFormed_append_plain hsep, h s List.mem_cons_self,
      toWellFormed_join hsep fun u hu => h u (List.mem_cons_of_mem _ hu)]

theorem toWellFormed_numberText (x : JsNumber) : toWellFormed (numberText x) = numberText x := by
  refine toWellFormed_of_plain fun u hu => ?_
  by_contra hsurrogate
  have hplain : ∀ {s : JsString}, (∀ v ∈ s, isSurrogate v = false) → u ∉ s := fun h hmem =>
    hsurrogate (h u hmem)
  have hunit : isNumberUnit u = false := by
    by_contra hnumber
    rw [Bool.not_eq_false, isNumberUnit, isDigit] at hnumber
    simp only [Bool.or_eq_true, Bool.and_eq_true, decide_eq_true_eq, beq_iff_eq] at hnumber
    rcases hnumber with (((hdigit | rfl) | rfl) | rfl) | rfl
    · exact hsurrogate (plain_of_lt (by omega))
    all_goals exact hsurrogate (by decide)
  have hnan : ∀ v ∈ js "NaN", isSurrogate v = false :=
    List.forall_iff_forall_mem.mp (by decide)
  have hinfinity : ∀ v ∈ js "Infinity", isSurrogate v = false :=
    List.forall_iff_forall_mem.mp (by decide)
  exact not_mem_numberText hunit (hplain hnan) (hplain hinfinity) x hu

theorem Admissible.toWellFormed_join {p : AuthorityDecisionPayload} (h : Admissible p) :
    toWellFormed (join bar (fields p ++ [p.issuedAt])) = join bar (fields p ++ [p.issuedAt]) := by
  have hstring := h.unicode
  simp only [List.forall_mem_cons] at hstring
  obtain ⟨hdispute, hescrow, hauthority, hissued, -⟩ := hstring
  have hbps : toWellFormed ((p.buyerBps.map numberText).getD []) =
      (p.buyerBps.map numberText).getD [] := by
    cases p.buyerBps with
    | none => rfl
    | some bps => exact toWellFormed_numberText bps
  have hdomain : toWellFormed AUTHORITY_DECISION_DOMAIN = AUTHORITY_DECISION_DOMAIN := by
    rw [AUTHORITY_DECISION_DOMAIN, js_ofList]
    decide
  have hversion : toWellFormed (natText AUTHORITY_DECISION_VERSION) =
      natText AUTHORITY_DECISION_VERSION := (whole_natText _).toWellFormed_eq
  have hruling : toWellFormed (rulingText p.outcome) = rulingText p.outcome := by
    cases p.outcome <;> decide
  refine Authority.toWellFormed_join (by decide) ?_
  simp only [fields, List.cons_append, List.nil_append, List.forall_mem_cons]
  exact ⟨hdomain, hversion, hdispute, hescrow, toWellFormed_numberText _, hauthority, hruling,
    hbps, hissued, nofun⟩

section OneDecision

variable {sha256 : List UInt8 → List UInt8} {nacl : SignDetached}
variable {p q : AuthorityDecisionPayload}

theorem hash_ok (h : assertWellFormed p = .ok ()) : hashAuthorityDecision sha256 p =
    .ok (hexDigest sha256 (join bar (fields p ++ [p.issuedAt]))) := by
  rw [hashAuthorityDecision, canonicalize_ok h]
  rfl

/-- A signature is one of the digest. -/
theorem sign_ok {secretKey : List UInt8} {signatureHex : JsString}
    (hp : assertWellFormed p = .ok ())
    (h : signAuthorityDecision sha256 nacl p secretKey = .ok signatureHex) :
    ∃ signature, nacl.sign (sha256 (toUtf8 (join bar (fields p ++ [p.issuedAt])))) secretKey =
      .ok signature ∧ signatureHex = hexText signature := by
  rw [signAuthorityDecision, hash_ok hp] at h
  simp only [bind, Except.bind, hexDigest, fromHex_hexText] at h
  cases hsign : nacl.sign (sha256 (toUtf8 (join bar (fields p ++ [p.issuedAt])))) secretKey with
  | error e =>
    rw [hsign] at h
    cases h
  | ok signature =>
    rw [hsign] at h
    exact ⟨signature, rfl, (Except.ok.inj h).symm⟩

/-- A signature that verifies was made of the canonical text. -/
theorem verify_ok {signature publicKey : List UInt8} (hq : assertWellFormed q = .ok ())
    (h : verifyAuthorityDecisionSignature sha256 nacl q (hexText signature) (hexText publicKey) =
      .ok true) :
    nacl.verify (sha256 (toUtf8 (join bar (fields q ++ [q.issuedAt])))) signature publicKey =
      .ok true := by
  rw [verifyAuthorityDecisionSignature, hash_ok hq] at h
  simp only [bind, Except.bind, hexDigest, fromHex_hexText] at h
  split at h
  · next valid hvalid =>
    rw [hvalid, Except.ok.inj h]
  · cases h

/-- Two decisions of one text agree, and a signature of one verifies for the other only then. -/
theorem signature_fits_one_decision (hsha : Function.Injective sha256)
    (hnacl : nacl.Unforgeable) (hp : Admissible p) (hq : Admissible q) :
    (canonicalizeAuthorityDecision p = canonicalizeAuthorityDecision q → Agrees p q) ∧
      ∀ secretKey signatureHex,
        signAuthorityDecision sha256 nacl p secretKey = .ok signatureHex →
        verifyAuthorityDecisionSignature sha256 nacl q signatureHex
          (hexText (nacl.publicKeyOf secretKey)) = .ok true →
        Agrees p q := by
  refine ⟨agrees_of_canonicalize hp hq, fun secretKey signatureHex hsign hverify => ?_⟩
  obtain ⟨signature, hsignature, rfl⟩ := sign_ok hp.wellFormed hsign
  have hdigest := hnacl hsignature (verify_ok hq.wellFormed hverify)
  have htext := toUtf8_eq_iff.mp (hsha hdigest)
  rw [hp.toWellFormed_join, hq.toWellFormed_join] at htext
  exact agrees_of_join hp hq htext.symm

end OneDecision

/-! ### A decision and the one whose round is the other zero -/

/-- The canonical text of the sample. -/
def sampleText : JsString :=
  js "SAILS_AUTHORITY_DECISION_V1|1|d1|e1|0|arbiter|RELEASE||2026-11-18T00:00:00.000Z"

/-- A release in round zero, of either sign. -/
def sampleDecision (negative : Bool) : AuthorityDecisionPayload where
  disputeId := js "d1"
  escrowId := js "e1"
  appealRound := .finite negative (.ofNat 0 (by norm_num))
  authorityId := js "arbiter"
  outcome := .release
  buyerBps := none
  issuedAt := js "2026-11-18T00:00:00.000Z"

/-- The SHA-256 of the sample's text. -/
def sampleDigest : List UInt8 :=
  fromHex (js "5a6f0d1e04affab44e9ab3616045824ea9856bf82f7a9acd5b6f0817a3d46926")

/-- The key of the sample's authority. -/
def samplePublicKey : List UInt8 :=
  fromHex (js "03a107bff3ce10be1d70dd18e74bc09967e4d6309ba50d5f1ddc8664125531b8")

/-- The seed and the public key. -/
def sampleSecretKey : List UInt8 :=
  (List.range 32).map UInt8.ofNat ++ samplePublicKey

/-- The authority's signature of the digest. -/
def sampleSignature : List UInt8 :=
  fromHex (js ("b8707cf460c22b246636eea0c83e39536483742f6ca0bf609096269a8179b50f" ++
    "ede40316751d86466faf0cee793531c05abb52b0d60f9c79ba10ecd6ed563403"))

/-- Ed25519 at the key and the digest of the sample. -/
def sampleNacl : SignDetached where
  sign message secretKey :=
    if message = sampleDigest ∧ secretKey = sampleSecretKey then .ok sampleSignature
    else .error "bad secret key size"
  verify message signature publicKey := .ok (message = sampleDigest &&
    signature = sampleSignature && publicKey = samplePublicKey)
  publicKeyOf secretKey := secretKey.drop 32

/-- The scheme of the sample cannot be forged. -/
theorem sampleNacl_unforgeable : sampleNacl.Unforgeable := by
  intro message message' secretKey signature hsign hverify
  have hmessage : message = sampleDigest := by
    by_contra hne
    simp [sampleNacl, hne] at hsign
  have hmessage' : message' = sampleDigest := by
    have h := Except.ok.inj hverify
    simp only [Bool.and_eq_true, decide_eq_true_eq] at h
    exact h.1.1
  rw [hmessage, hmessage']

/-- The hash of the sample, known at its text only. -/
def sampleSha256 : List UInt8 → List UInt8 := tableHash [(toUtf8 sampleText, sampleDigest)]

theorem sampleSha256_injective : Function.Injective sampleSha256 := by
  have hlength : sampleDigest.length = 32 := by
    rw [sampleDigest, js_ofList]
    decide
  exact tableHash_injective (by simp [TableOk, hlength])

/-- Both samples are admissible. -/
theorem sampleDecision_admissible (negative : Bool) : Admissible (sampleDecision negative) where
  wellFormed := rfl
  disputeId := by
    change bar ∉ js "d1"
    decide
  escrowId := by
    change bar ∉ js "e1"
    decide
  authorityId := by
    change bar ∉ js "arbiter"
    decide
  unicode := by
    simp only [sampleDecision, List.forall_mem_cons]
    exact ⟨by decide, by decide, by decide, by decide, fun _ h => by cases h⟩

/-- Both samples have one text. -/
theorem sampleDecision_text (negative : Bool) :
    join bar (fields (sampleDecision negative) ++ [(sampleDecision negative).issuedAt]) =
      sampleText := by
  have hround : numberText (sampleDecision negative).appealRound = js "0" := by
    have hsame : (sampleDecision negative).appealRound.Same
        (.finite false (.ofNat 0 (by norm_num))) := by
      simp [JsNumber.Same, JsNumber.withoutSignOfZero, sampleDecision, Magnitude.ofNat]
    rw [numberText_eq_iff.mpr hsame, numberText_ofNat]
    decide
  rw [fields, hround]
  simp only [sampleDecision, AUTHORITY_DECISION_DOMAIN, sampleText, rulingText]
  decide

theorem signature_fits_one_decision_zero :
    signAuthorityDecision sampleSha256 sampleNacl (sampleDecision false) sampleSecretKey =
      .ok (hexText sampleSignature) ∧
    verifyAuthorityDecisionSignature sampleSha256 sampleNacl (sampleDecision true)
      (hexText sampleSignature) (hexText samplePublicKey) = .ok true ∧
    Agrees (sampleDecision false) (sampleDecision true) := by
  have hdigest : sampleSha256 (toUtf8 sampleText) = sampleDigest := by
    simp [sampleSha256, tableHash]
  have hsign : signAuthorityDecision sampleSha256 sampleNacl (sampleDecision false)
      sampleSecretKey = .ok (hexText sampleSignature) := by
    rw [signAuthorityDecision, hash_ok (sampleDecision_admissible false).wellFormed,
      sampleDecision_text, hexDigest, hdigest]
    simp [bind, Except.bind, fromHex_hexText, sampleNacl, pure, Except.pure]
  have hverify : verifyAuthorityDecisionSignature sampleSha256 sampleNacl (sampleDecision true)
      (hexText sampleSignature) (hexText samplePublicKey) = .ok true := by
    rw [verifyAuthorityDecisionSignature, hash_ok (sampleDecision_admissible true).wellFormed,
      sampleDecision_text, hexDigest, hdigest]
    simp [bind, Except.bind, fromHex_hexText, sampleNacl, pure, Except.pure]
  exact ⟨hsign, hverify, (signature_fits_one_decision sampleSha256_injective
    sampleNacl_unforgeable (sampleDecision_admissible false)
    (sampleDecision_admissible true)).2 _ _ hsign hverify⟩

end Sails.Authority
