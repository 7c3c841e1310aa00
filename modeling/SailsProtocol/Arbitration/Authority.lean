import SailsProtocol.Escrow.Status
import SailsProtocol.Text.Calendar
import SailsProtocol.Text.Json

/-!
# What an arbiter signs and what an authorization commits to

An arbiter signs the hash of `canonicalizeAuthorityDecision` : the dispute, its
escrow and appeal round, the arbiter, the outcome, the buyer's share and the time of
the decision, joined by a bar. The time is a text of the arbiter's own.

`economicDispositionOperationDigest` is the hash of every fact of a pending
operation, written as one JSON object. Under a hash without collisions it determines
the operation (`digest_injective`).
-/

namespace Sails.Arbitration

open Text

/-- The ruling as the database and the signed text spell it. -/
def rulingText : SettlementKind → JsString
  | .release => js "RELEASE"
  | .refund => js "REFUND"
  | .split => js "SPLIT"

theorem rulingText_injective : Function.Injective rulingText := by
  intro a b h
  revert h
  cases a <;> cases b <;> decide

/-! ## Authority decisions -/

/-- What an arbitration authority signs, with whole numbers. -/
structure AuthorityDecisionPayload where
  disputeId : JsString
  escrowId : JsString
  appealRound : ℕ
  authorityId : JsString
  outcome : SettlementKind
  /-- The buyer's share of a split, in basis points. -/
  buyerBps : Option ℤ
  /-- The arbiter's own text of the time of the decision. -/
  issuedAt : JsString
  deriving DecidableEq

/-- `assertWellFormed` does not throw. -/
def AuthorityDecisionPayload.wellFormed (p : AuthorityDecisionPayload) : Bool :=
  match p.outcome, p.buyerBps with
  | .split, some bps => 1 ≤ bps && bps ≤ 9999
  | .split, none => false
  | _, bps => bps.isNone

/-- The separator of the fields. -/
def bar : UInt16 := 0x7C

/-- `canonicalizeAuthorityDecision`, and none where it throws. -/
def canonicalizeAuthorityDecision (p : AuthorityDecisionPayload) : Option JsString :=
  if p.wellFormed then
    some (join bar [js "SAILS_AUTHORITY_DECISION_V1", js "1", p.disputeId, p.escrowId,
      natText p.appealRound, p.authorityId, rulingText p.outcome,
      (p.buyerBps.map intText).getD [], p.issuedAt])
  else none

section Hashed

variable (sha256 : List UInt8 → List UInt8)

/-- The digest the arbiter signs, and none where the payload is not well formed. -/
def hashAuthorityDecision (p : AuthorityDecisionPayload) : Option (List UInt8) :=
  (canonicalizeAuthorityDecision p).map fun text => sha256 (toUtf8 text)

/-- `verifyAuthorityDecisionSignature` over `verify`, which decodes a signature and a key
from hex and checks the signature of a digest. -/
def verifyAuthorityDecisionSignature (verify : List UInt8 → JsString → JsString → Bool)
    (p : AuthorityDecisionPayload) (signatureHex publicKeyHex : JsString) : Option Bool :=
  (hashAuthorityDecision sha256 p).map fun digest => verify digest signatureHex publicKeyHex

end Hashed

/-! ## Pending operations -/

/-- The facts of a pending operation `authorizeDisputedPendingExecution` reads. -/
structure DisputedPendingFacts where
  id : JsString
  escrowId : JsString
  kind : JsString
  toAddress : JsString
  toAddressSecondary : Option JsString
  buyerBps : Option ℤ
  feeCollectionSats : Option ℤ
  feeCollectionWaived : Option Bool
  minerFeeSats : Option ℤ
  unsignedPsbtBase64 : JsString
  requiredSigners : List JsString
  triggeredBy : JsString
  disputeId : Option JsString
  rulingAppealRound : Option ℕ
  rulingArbiterId : Option JsString
  rulingOutcome : Option SettlementKind
  rulingAuthoritySignature : Option JsString
  rulingAuthorityIssuedAt : Option Date
  deriving DecidableEq

/-- A column that may be null. -/
def orNull {α : Type} (f : α → Value) : Option α → Value
  | none => .null
  | some a => f a

/-- A field that may be null tells which it was. -/
theorem orNull_injective {α : Type} {f : α → Value} (hf : Function.Injective f)
    (hnull : ∀ a, f a ≠ .null) : Function.Injective (orNull f) := by
  intro x y h
  cases x <;> cases y
  · rfl
  · exact absurd h.symm (hnull _)
  · exact absurd h (hnull _)
  · exact congrArg some (hf h)

namespace DisputedPendingFacts

/-- The object whose text is hashed. -/
def members (p : DisputedPendingFacts) : List (JsString × Value) :=
  [(js "pendingOperationId", .str p.id),
    (js "escrowId", .str p.escrowId),
    (js "kind", .str p.kind),
    (js "toAddress", .str p.toAddress),
    (js "toAddressSecondary", orNull .str p.toAddressSecondary),
    (js "buyerBps", orNull .num p.buyerBps),
    (js "feeCollectionSats", orNull .num p.feeCollectionSats),
    (js "feeCollectionWaived", orNull .bool p.feeCollectionWaived),
    (js "minerFeeSats", orNull .num p.minerFeeSats),
    (js "unsignedPsbtBase64", .str p.unsignedPsbtBase64),
    (js "requiredSigners", .strs p.requiredSigners),
    (js "triggeredBy", .str p.triggeredBy),
    (js "disputeId", orNull .str p.disputeId),
    (js "rulingAppealRound", orNull (fun n : ℕ => .num n) p.rulingAppealRound),
    (js "rulingArbiterId", orNull .str p.rulingArbiterId),
    (js "rulingOutcome", orNull (fun k => .str (rulingText k)) p.rulingOutcome),
    (js "rulingAuthoritySignature", orNull .str p.rulingAuthoritySignature),
    (js "rulingAuthorityIssuedAt", orNull (fun d => .str d.toISOString)
      p.rulingAuthorityIssuedAt)]

/-- The members determine the facts. -/
theorem members_injective : Function.Injective members := by
  have hstr : Function.Injective (orNull Value.str) :=
    orNull_injective (fun _ _ h => Value.str.inj h) nofun
  have hnum : Function.Injective (orNull Value.num) :=
    orNull_injective (fun _ _ h => Value.num.inj h) nofun
  have hbool : Function.Injective (orNull Value.bool) :=
    orNull_injective (fun _ _ h => Value.bool.inj h) nofun
  have hround : Function.Injective (orNull fun n : ℕ => Value.num n) :=
    orNull_injective (fun _ _ h => Int.ofNat.inj (Value.num.inj h)) nofun
  have houtcome : Function.Injective (orNull fun k => Value.str (rulingText k)) :=
    orNull_injective (fun _ _ h => rulingText_injective (Value.str.inj h)) nofun
  have hdate : Function.Injective (orNull fun d : Date => Value.str d.toISOString) :=
    orNull_injective (fun _ _ h => Date.toISOString_inj (Value.str.inj h)) nofun
  intro p q h
  cases p
  cases q
  simp only [members, List.cons.injEq, Prod.mk.injEq, true_and, Value.str.injEq,
    Value.strs.injEq, hstr.eq_iff, hnum.eq_iff, hbool.eq_iff, hround.eq_iff, houtcome.eq_iff,
    hdate.eq_iff, and_true] at h
  simpa only [DisputedPendingFacts.mk.injEq] using h

/-- The dispute the operation was recorded under. An empty id counts as none. -/
def dispute (p : DisputedPendingFacts) : Option JsString := p.disputeId.filter fun id => id ≠ []

end DisputedPendingFacts

section Hashed

variable {sha256 : List UInt8 → List UInt8}

variable (sha256) in
/-- `economicDispositionOperationDigest`. -/
def economicDispositionOperationDigest (p : DisputedPendingFacts) : List UInt8 :=
  sha256 (toUtf8 (stringify p.members))

theorem digest_injective (h : Function.Injective sha256) :
    Function.Injective (economicDispositionOperationDigest sha256) :=
  fun _ _ heq => DisputedPendingFacts.members_injective (toUtf8_stringify_injective (h heq))

end Hashed

end Sails.Arbitration
