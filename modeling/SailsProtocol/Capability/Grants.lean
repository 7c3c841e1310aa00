import SailsProtocol.Arbitration.Authority
import SailsProtocol.Async.Alone
import SailsProtocol.Capability.Constraints
import SailsProtocol.Text.Digest

/-!
# Capability grants and the execution commit gate

A participant registers grants of a capability for itself and revokes them
(`capability-registry.ts`, `capability-grant-repository.ts`). The gates in front of intents and
fund movements check that some grant is live, and the gate in front of a broadcast commits an
authorization that cites one (`capability-execution-authorization.ts`).

`create`, `markRevoked` and the gate hold the advisory lock of the holder and the capability, so
each of these transactions is one call, with the clock it reads. Two transactions about one
operation under different locks are kept apart by the unique key, so the second one fails.
`commits` keeps what took effect, newest first.
-/

namespace Sails.Capability

open Async Text Arbitration

/-! ## Rows -/

/-- What `create` is given. -/
structure GrantInput where
  grantedTo : JsString
  capabilityName : JsString
  scope : List JsString
  constraints : Option ParsedJson
  issuedBy : JsString

/-- A grant as the repository returns it. -/
structure Grant extends GrantInput where
  id : JsString
  createdAt : ℤ

/-- A row of `CapabilityGrant`. -/
structure GrantRow extends Grant where
  revokedAt : Option ℤ

/-- `CapabilityExecutionAuthorization`. -/
structure Authorization where
  id : JsString
  pendingOperationId : JsString
  escrowId : JsString
  grantId : JsString
  grantedTo : JsString
  capabilityName : JsString
  requiredScope : JsString
  constraints : Option ParsedJson
  operationDigest : JsString

/-- What took effect, with the clock it was done by. -/
inductive Commit where
  | granted (grant : Grant) (now : ℤ)
  | revoked (grantId : JsString) (now : ℤ)
  | authorized (authorization : Authorization) (now : ℤ)

/-- The two tables, and what took effect. -/
structure Store where
  grants : List GrantRow
  authorizations : List Authorization
  commits : List Commit

/-- The reading of a value as a date, none for an invalid one, the hash, and the feature flag. -/
structure Platform where
  newDate : Tree → Option ℤ
  sha256 : List UInt8 → List UInt8
  enforceCapabilities : Bool

/-! ## Live grants -/

section Expiry

variable (p : Platform)

/-- `new Date(value) <= now`. -/
def Platform.reached (value : Tree) (now : ℤ) : Bool :=
  match p.newDate value with
  | some t => decide (t ≤ now)
  | none => false

/-- The `expiresAt` of the constraints. -/
def expiresAt (constraints : Option ParsedJson) : Option Tree :=
  match constraints.map ParsedJson.tree with
  | some (.obj members) => members.lookup (js "expiresAt")
  | _ => none

/-- `isPastExpiry` of the repository, and the test of the gate. -/
def isPastExpiry (constraints : Option ParsedJson) (now : ℤ) : Bool :=
  match expiresAt constraints with
  | some (.str s) => p.reached (.str s) now
  | _ => false

/-- A value that JavaScript takes for true. -/
def truthy : Tree → Bool
  | .null => false
  | .bool b => b
  | .num _ size => decide (size.val ≠ 0)
  | .str s => !s.isEmpty
  | .arr _ => true
  | .obj _ => true

/-- The test of `resolveActiveGrant`. -/
def isExpired (constraints : Option ParsedJson) (now : ℤ) : Bool :=
  match expiresAt constraints with
  | some value => truthy value && p.reached value now
  | none => false

end Expiry

namespace Store

variable (s : Store)

/-- Oldest first. -/
def older (a b : GrantRow) : Bool :=
  decide (a.createdAt < b.createdAt ∨ a.createdAt = b.createdAt ∧ unitsLe a.id b.id = true)

/-- The rows of the holder and the capability that are not revoked. -/
def active (grantedTo capabilityName : JsString) : List GrantRow :=
  (s.grants.filter fun g => decide (g.grantedTo = grantedTo ∧ g.capabilityName = capabilityName ∧
    g.revokedAt = none)).mergeSort older

end Store

/-! ## Canonical grants -/

/-- `CANONICAL_CAPABILITY_SCOPES`. -/
def CANONICAL_CAPABILITY_SCOPES : List (JsString × List JsString) := [
  (js "trade-coordination", [js "intent.created", js "intent.discovering"]),
  (js "settlement", [js "settlement.escrow.released", js "settlement.escrow.refunded",
    js "settlement.escrow.split"])]

/-- What the routes and the gate throw. -/
inductive CapabilityError where
  | fault
  | invalidBody
  | validationError (message : JsString)
  | notFound (grantId : JsString)
  | forbidden (message : JsString)
  | escrowError (message : JsString)
  deriving DecidableEq

/-- `texts.join(', ')`. -/
def joinComma (texts : List JsString) : JsString := List.intercalate (js ", ") texts

/-- `assertCanonicalCapabilityGrant`. -/
def assertCanonicalCapabilityGrant (capabilityName : JsString) (scope : List JsString) :
    Except CapabilityError Unit :=
  match CANONICAL_CAPABILITY_SCOPES.lookup capabilityName with
  | none => .error (.validationError (js "Unknown capabilityName '" ++ capabilityName ++
      js "' - expected one of: " ++ joinComma (CANONICAL_CAPABILITY_SCOPES.map Prod.fst)))
  | some allowed =>
    let invalid := scope.filter fun s => !allowed.contains s
    if invalid = [] then .ok ()
    else .error (.validationError (js "Invalid scope(s) for capability '" ++ capabilityName ++
      js "': " ++ joinComma invalid ++ js " - allowed: " ++ joinComma allowed))

/-! ## Pending operations -/

/-- What the gate is told about the operation. -/
structure PendingExecutionFacts where
  id : JsString
  escrowId : JsString
  kind : JsString
  toAddress : JsString
  toAddressSecondary : Option JsString
  buyerBps : Option ℤ
  feeCollectionSats : Option ℤ
  feeCollectionWaived : Option Bool
  minerFeeSats : Option ℤ
  unsignedPsbtBase64 : JsString
  requiredSigners : List JsString
  triggeredBy : JsString
  deriving DecidableEq

/-- `requiredScope(kind)`, none for a kind that is not known. -/
def requiredScope (kind : JsString) : Option JsString :=
  if kind = js "release" then some (js "settlement.escrow.released")
  else if kind = js "refund" then some (js "settlement.escrow.refunded")
  else if kind = js "split" then some (js "settlement.escrow.split")
  else none

namespace PendingExecutionFacts

/-- The object whose text is hashed. -/
def members (f : PendingExecutionFacts) : List (JsString × Value) :=
  [(js "pendingOperationId", .str f.id),
    (js "escrowId", .str f.escrowId),
    (js "kind", .str f.kind),
    (js "toAddress", .str f.toAddress),
    (js "toAddressSecondary", orNull .str f.toAddressSecondary),
    (js "buyerBps", orNull .num f.buyerBps),
    (js "feeCollectionSats", orNull .num f.feeCollectionSats),
    (js "feeCollectionWaived", orNull .bool f.feeCollectionWaived),
    (js "minerFeeSats", orNull .num f.minerFeeSats),
    (js "unsignedPsbtBase64", .str f.unsignedPsbtBase64),
    (js "requiredSigners", .strs f.requiredSigners),
    (js "triggeredBy", .str f.triggeredBy)]

/-- The members determine the facts. -/
theorem members_injective : Function.Injective members := by
  have hstr : Function.Injective (orNull Value.str) :=
    orNull_injective (fun _ _ h => Value.str.inj h) (fun _ h => by cases h)
  have hnum : Function.Injective (orNull Value.num) :=
    orNull_injective (fun _ _ h => Value.num.inj h) (fun _ h => by cases h)
  have hbool : Function.Injective (orNull Value.bool) :=
    orNull_injective (fun _ _ h => Value.bool.inj h) (fun _ h => by cases h)
  intro f f' h
  cases f
  cases f'
  simp only [members, List.cons.injEq, Prod.mk.injEq, true_and, Value.str.injEq,
    Value.strs.injEq, hstr.eq_iff, hnum.eq_iff, hbool.eq_iff, and_true] at h
  simpa only [PendingExecutionFacts.mk.injEq] using h

end PendingExecutionFacts

/-- `capabilityOperationDigest`. -/
def capabilityOperationDigest (p : Platform) (pending : PendingExecutionFacts) : JsString :=
  hexDigest p.sha256 (stringify pending.members)

/-- The text that is hashed, as bytes. -/
def PendingExecutionFacts.preimage (f : PendingExecutionFacts) : List UInt8 :=
  toUtf8 (stringify f.members)

/-- The digest binds every fact, unless the hash collides on the two texts. -/
theorem facts_eq_or_collision {p : Platform} {f f' : PendingExecutionFacts}
    (h : capabilityOperationDigest p f = capabilityOperationDigest p f') :
    f = f' ∨ f.preimage ≠ f'.preimage ∧ p.sha256 f.preimage = p.sha256 f'.preimage := by
  have hhash : p.sha256 f.preimage = p.sha256 f'.preimage := hexText_injective h
  by_cases htext : f.preimage = f'.preimage
  · exact Or.inl (PendingExecutionFacts.members_injective (toUtf8_stringify_injective htext))
  · exact Or.inr ⟨htext, hhash⟩

/-! ## Calls -/

/-- What the routes and the gate await. -/
inductive Call where
  | create (input : GrantInput)
  | findById (grantId : JsString)
  | markRevoked (grant : Grant)
  | findActiveGrants (grantedTo capabilityName : JsString)
  | listActiveGrants (grantedTo : JsString)
  | now
  | authorize (pending : PendingExecutionFacts) (scope operationDigest : JsString)

/-- What each call returns. -/
abbrev Answer : Call → Type
  | .create _ => Grant
  | .findById _ => Option Grant
  | .markRevoked _ => Unit
  | .findActiveGrants _ _ => List Grant
  | .listActiveGrants _ => List Grant
  | .now => ℤ
  | .authorize _ _ _ => Authorization

/-- A program over these calls. -/
abbrev CapabilityOp := Prog Answer CapabilityError

/-- One call, as a program. -/
def await (q : Call) : CapabilityOp (Answer q) := Prog.perform q

/-- The clock of the process, the id and the time of a new row, and whether the call succeeds. -/
structure Env where
  fate : Fate
  now : ℤ
  id : JsString
  createdAt : ℤ

section Transactions

variable (p : Platform)

/-- A live grant that `create` returns in place of a new one. -/
def GrantRow.equivalent (g : GrantRow) (input : GrantInput) (now : ℤ) : Bool :=
  decide (g.issuedBy = input.issuedBy) && !isPastExpiry p g.constraints now &&
    input.scope.all (fun s => g.scope.contains s) && sameConstraints g.constraints input.constraints

/-- `create` of the repository. -/
def Store.create (s : Store) (env : Env) (input : GrantInput) :
    Except CapabilityError Grant × Store :=
  match (s.active input.grantedTo input.capabilityName).find? fun g =>
      g.equivalent p input env.now with
  | some g => (.ok g.toGrant, s)
  | none =>
    if s.grants.any fun g => g.id = env.id then (.error .fault, s)
    else
      (.ok ⟨input, env.id, env.createdAt⟩,
        { s with
          grants := ⟨⟨input, env.id, env.createdAt⟩, none⟩ :: s.grants
          commits := .granted ⟨input, env.id, env.createdAt⟩ env.now :: s.commits })

/-- `markRevoked`. -/
def Store.markRevoked (s : Store) (env : Env) (grant : Grant) :
    Except CapabilityError Unit × Store :=
  if s.grants.any fun g => g.id = grant.id then
    (.ok (), { s with
      grants := s.grants.map fun g =>
        if g.id = grant.id then { g with revokedAt := some env.now } else g
      commits := .revoked grant.id env.now :: s.commits })
  else (.error .fault, s)

/-- `CAPABILITY_IMPLEMENTATIONS.opensettlement`. -/
def settlement : JsString := js "settlement"

/-- The error of an operation that changed since its authorization. -/
def mismatch (pendingId : JsString) : CapabilityError :=
  .escrowError (js "Pending operation " ++ pendingId ++
    js " no longer matches its committed capability authorization")

/-- The error of an operation that no live grant covers. -/
def noGrant (triggeredBy scope : JsString) : CapabilityError :=
  .forbidden (triggeredBy ++ js " has no active '" ++ settlement ++
    js "' capability grant covering '" ++ scope ++ js "' at execution commit")

/-- The transaction of `authorizePendingExecution`. -/
def Store.authorize (s : Store) (env : Env) (pending : PendingExecutionFacts)
    (scope operationDigest : JsString) : Except CapabilityError Authorization × Store :=
  match s.authorizations.find? fun a => a.pendingOperationId = pending.id with
  | some existing =>
    if existing.escrowId ≠ pending.escrowId ∨ existing.grantedTo ≠ pending.triggeredBy ∨
        existing.capabilityName ≠ settlement ∨ existing.requiredScope ≠ scope ∨
        existing.operationDigest ≠ operationDigest then (.error (mismatch pending.id), s)
    else (.ok existing, s)
  | none =>
    match (s.active pending.triggeredBy settlement).find? fun g =>
        g.scope.contains scope && !isPastExpiry p g.constraints env.now with
    | none => (.error (noGrant pending.triggeredBy scope), s)
    | some g =>
      (.ok ⟨env.id, pending.id, pending.escrowId, g.id, g.grantedTo, g.capabilityName, scope,
          g.constraints, operationDigest⟩,
        { s with
          authorizations := ⟨env.id, pending.id, pending.escrowId, g.id, g.grantedTo,
            g.capabilityName, scope, g.constraints, operationDigest⟩ :: s.authorizations
          commits := .authorized ⟨env.id, pending.id, pending.escrowId, g.id, g.grantedTo,
            g.capabilityName, scope, g.constraints, operationDigest⟩ env.now :: s.commits })

/-- The answer to a call that does not fail. -/
def Call.run : (q : Call) → Env → Store → Except CapabilityError (Answer q) × Store
  | .create input, env, s => s.create p env input
  | .findById grantId, _, s =>
    (.ok ((s.grants.find? fun g => g.id = grantId).map GrantRow.toGrant), s)
  | .markRevoked grant, env, s => s.markRevoked env grant
  | .findActiveGrants grantedTo capabilityName, _, s =>
    (.ok ((s.active grantedTo capabilityName).map GrantRow.toGrant), s)
  | .listActiveGrants grantedTo, _, s =>
    (.ok (((s.grants.filter fun g => decide (g.grantedTo = grantedTo ∧
      g.revokedAt = none)).mergeSort fun a b => decide (b.createdAt ≤ a.createdAt)).map
        GrantRow.toGrant), s)
  | .now, env, s => (.ok env.now, s)
  | .authorize pending scope operationDigest, env, s =>
    s.authorize p env pending scope operationDigest

/-- Whether the call leaves the process. -/
def Call.remote : Call → Bool
  | .now => false
  | _ => true

/-- A call under the fate the environment gives it, when it leaves the process. -/
def Call.exec (q : Call) (env : Env) (s : Store) : Except CapabilityError (Answer q) × Store :=
  if q.remote then env.fate.settle .fault (q.run p env s) s else q.run p env s

end Transactions

/-! ## Requests -/

/-- What can be asked of the routes and the gate. -/
inductive Request where
  | register (participantId capabilityName : JsString) (scope : List JsString)
    (constraints : Option ParsedJson)
  | revoke (grantId requestedBy : JsString)
  | list (participantId : JsString)
  | check (grantedTo capabilityName requiredScope : JsString)
  | commit (pending : PendingExecutionFacts)

/-- What a request is answered. -/
inductive Reply where
  | granted (grant : Grant)
  | revoked
  | grants (grants : List Grant)
  | allowed (b : Bool)
  | authorized (authorization : Option Authorization)

/-- `registerSchema`. -/
def validBody (capabilityName : JsString) (scope : List JsString)
    (constraints : Option ParsedJson) : Bool :=
  !capabilityName.isEmpty && !scope.isEmpty && scope.all (fun s => !s.isEmpty) &&
    match constraints.map ParsedJson.tree with
    | none => true
    | some (.obj _) => true
    | some _ => false

section Programs

variable (p : Platform)

/-- `grant` of the registry. -/
def grant (input : GrantInput) : CapabilityOp Grant :=
  match assertCanonicalCapabilityGrant input.capabilityName input.scope with
  | .error e => throw e
  | .ok _ => await (.create input)

/-- `check` of the registry. -/
def check (grantedTo capabilityName scope : JsString) : CapabilityOp Bool := do
  let grants ← await (.findActiveGrants grantedTo capabilityName)
  let now ← await .now
  pure (grants.find? fun g => g.scope.contains scope && !isExpired p g.constraints now).isSome

/-- `revoke` of the registry. -/
def revoke (grantId requestedBy : JsString) : CapabilityOp Unit := do
  let existing ← await (.findById grantId)
  match existing with
  | none => throw (.notFound grantId)
  | some existing =>
    if existing.grantedTo ≠ requestedBy then
      throw (.forbidden (requestedBy ++ js " does not own CapabilityGrant " ++ grantId))
    else await (.markRevoked existing)

/-- `authorizePendingExecution`. -/
def authorizePendingExecution (pending : PendingExecutionFacts) :
    CapabilityOp (Option Authorization) :=
  if p.enforceCapabilities = false then pure none
  else
    match requiredScope pending.kind with
    | none =>
      throw (.escrowError (js "Unknown pending settlement kind '" ++ pending.kind ++ js "'"))
    | some scope => do
      let authorization ← await (.authorize pending scope (capabilityOperationDigest p pending))
      pure (some authorization)

/-- The program that serves a request. -/
def Request.prog : Request → CapabilityOp Reply
  | .register participantId capabilityName scope constraints => do
    Prog.require (validBody capabilityName scope constraints) .invalidBody
    let g ← grant ⟨participantId, capabilityName, scope, constraints, participantId⟩
    pure (.granted g)
  | .revoke grantId requestedBy => do
    Prog.require (!grantId.isEmpty) .invalidBody
    Capability.revoke grantId requestedBy
    pure .revoked
  | .list participantId => do
    Prog.require (!participantId.isEmpty) .invalidBody
    let l ← await (.listActiveGrants participantId)
    pure (.grants l)
  | .check grantedTo capabilityName scope => do
    let b ← Capability.check p grantedTo capabilityName scope
    pure (.allowed b)
  | .commit pending => do
    let authorization ← authorizePendingExecution p pending
    pure (.authorized authorization)

end Programs

end Sails.Capability
