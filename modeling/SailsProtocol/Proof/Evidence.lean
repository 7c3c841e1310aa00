import SailsProtocol.Async.Pool
import SailsProtocol.Text.Digest
import SailsProtocol.Text.Tree

/-!
# Evidence and its hash

A proof is evidence for a claim. `submitProof` (`proof.service.ts`) stores the evidence with
the SHA-256 of its canonical text and never with a hash the caller sends, and
`findDuplicates` (`proof-registry.ts`) looks for other proofs of one hash.

`evidenceHash_eq_iff` : in every run the hashes of two stored proofs are equal exactly when
their evidence is the same up to the order of object keys. So a proof is found as a duplicate
exactly when its evidence is the same (`mem_findDuplicates_iff`).
-/

namespace Sails.OpenProof

open Async Async.Prog Text

/-- `createHash('sha256').update(canonicalize(evidence)).digest('hex')`. -/
def hashEvidence (sha256 : List UInt8 → List UInt8) (evidence : ParsedJson) : JsString :=
  hexDigest sha256 (canonicalize evidence.tree)

/-! ## Rows -/

/-- A row of `Claim`. -/
structure Claim where
  id : String
  claimedBy : String
  claimType : String
  assertion : ParsedJson
  tradeId : Option String
  createdAt : ℤ

/-- What `prisma.proof.create` is called with. -/
structure ProofData where
  claimId : String
  evidence : ParsedJson
  evidenceHash : JsString
  submittedBy : String

/-- A row of `Proof`. -/
structure Proof extends ProofData where
  id : String
  submittedAt : ℤ

/-- The columns of a `Trade` row that the service reads. -/
structure Trade where
  id : String
  buyerId : String
  sellerId : String

/-- The columns of a `Dispute` row that the service reads. -/
structure Dispute where
  tradeId : String
  arbiterId : Option String

/-- The rows the service reads and writes. -/
structure Store where
  claims : List Claim
  proofs : List Proof
  trades : List Trade
  disputes : List Dispute

/-- Before any claim. -/
def Store.empty : Store := ⟨[], [], [], []⟩

/-- `ProofRegistryMatch`. -/
structure ProofRegistryMatch where
  proofId : String
  tradeId : Option String
  matchedAt : ℤ
  deriving DecidableEq

/-- The claim of an id. -/
def Store.findClaim (s : Store) (id : String) : Option Claim := s.claims.find? (·.id == id)

/-- A missing and an empty id are no trade. -/
def scope (tradeId : Option String) : Option String := tradeId.filter (· != "")

/-- The claim is of another trade than the excluded one, or of none. -/
def Claim.elsewhere (claim : Claim) (excludeTradeId : Option String) : Bool :=
  match scope excludeTradeId with
  | none => true
  | some tradeId => claim.tradeId != some tradeId

/-- The row a duplicate is reported with, if it is one. -/
def Store.matchOf (s : Store) (fingerprint : JsString) (excludeTradeId : Option String)
    (proof : Proof) : Option ProofRegistryMatch := do
  let claim ← s.findClaim proof.claimId
  if proof.evidenceHash = fingerprint ∧ claim.elsewhere excludeTradeId then
    some ⟨proof.id, claim.tradeId, proof.submittedAt⟩
  else none

/-- `findDuplicates`. -/
def Store.findDuplicates (s : Store) (fingerprint : JsString) (excludeTradeId : Option String) :
    List ProofRegistryMatch :=
  (s.proofs.filterMap (s.matchOf fingerprint excludeTradeId)).mergeSort
    fun a b => decide (a.matchedAt ≤ b.matchedAt)

/-! ## Calls -/

/-- The events of the service. -/
inductive ProofEvent where
  | claimAsserted (claimId claimedBy claimType : String)
  | hashMismatchDetected (proofId claimId : String) (claimedHash actualHash : JsString)
  | duplicateDetected (proofId claimId : String) (evidenceHash : JsString)
      (duplicates : List ProofRegistryMatch)
  | submitted (proofId claimId : String)

/-- What the service awaits. -/
inductive Call where
  | findClaim (id : String)
  | findTrade (id : String)
  /-- A dispute of the trade with this arbiter. -/
  | findDispute (tradeId arbiterId : String)
  | now
  | createClaim (claimedBy claimType : String) (assertion : ParsedJson) (tradeId : Option String)
  | createProof (data : ProofData)
  | findDuplicates (fingerprint : JsString) (excludeTradeId : Option String)
  | emit (event : ProofEvent)
  /-- Trades and disputes are written by other modules. -/
  | writeTrades (trades : List Trade)
  | writeDisputes (disputes : List Dispute)

/-- What each call returns. -/
abbrev Call.Ans : Call → Type
  | .findClaim _ => Option Claim
  | .findTrade _ => Option Trade
  | .findDispute _ _ => Option Dispute
  | .now => ℤ
  | .createClaim _ _ _ _ => Claim
  | .createProof _ => Proof
  | .findDuplicates _ _ => List ProofRegistryMatch
  | _ => Unit

/-- What the service throws. -/
inductive ProofError where
  | fault
  | uniqueConstraint
  | foreignKey
  /-- Prisma refuses a null for a column of JSON. -/
  | invalidArgument
  | notFound (resource id : String)
  | forbidden (message : String)
  | validation (message : String)
  deriving DecidableEq

/-- What becomes of a call, the id of a row it creates and the clock. -/
structure Env where
  fate : Fate
  id : String
  clock : ℤ

/-- A top-level null. -/
def isNull (evidence : ParsedJson) : Bool :=
  match evidence.tree with
  | .null => true
  | _ => false

/-- The creation of a claim. -/
def Store.createClaim (s : Store) (claim : Claim) : Except ProofError Claim × Store :=
  if s.claims.any (·.id == claim.id) then (.error .uniqueConstraint, s)
  else if isNull claim.assertion then (.error .invalidArgument, s)
  else (.ok claim, { s with claims := s.claims ++ [claim] })

/-- The creation of a proof. -/
def Store.createProof (s : Store) (proof : Proof) : Except ProofError Proof × Store :=
  if s.proofs.any (·.id == proof.id) then (.error .uniqueConstraint, s)
  else if (s.findClaim proof.claimId).isNone then (.error .foreignKey, s)
  else if isNull proof.evidence then (.error .invalidArgument, s)
  else (.ok proof, { s with proofs := s.proofs ++ [proof] })

/-- What a call answers and does to the rows when it does not fail. -/
def Call.run : (q : Call) → Env → Store → Except ProofError q.Ans × Store
  | .findClaim id, _, s => (.ok (s.findClaim id), s)
  | .findTrade id, _, s => (.ok (s.trades.find? (·.id == id)), s)
  | .findDispute tradeId arbiterId, _, s =>
    (.ok (s.disputes.find? fun d => d.tradeId == tradeId && d.arbiterId == some arbiterId), s)
  | .now, env, s => (.ok env.clock, s)
  | .createClaim claimedBy claimType assertion tradeId, env, s =>
    s.createClaim ⟨env.id, claimedBy, claimType, assertion, tradeId, env.clock⟩
  | .createProof data, env, s => s.createProof ⟨data, env.id, env.clock⟩
  | .findDuplicates fingerprint excludeTradeId, _, s =>
    (.ok (s.findDuplicates fingerprint excludeTradeId), s)
  | .emit _, _, s => (.ok (), s)
  | .writeTrades trades, _, s => (.ok (), { s with trades := trades })
  | .writeDisputes disputes, _, s => (.ok (), { s with disputes := disputes })

/-- A call under the fate the environment gives it. -/
def Call.exec (q : Call) (env : Env) (s : Store) : Except ProofError q.Ans × Store :=
  env.fate.settle .fault (q.run env s) s

/-! ## Operations -/

/-- A program over these calls. -/
abbrev Op := Prog Call.Ans ProofError

/-- One call, as a program. -/
def await (q : Call) : Op q.Ans := perform q

/-- `AssertClaimInput`. -/
structure AssertClaimInput where
  claimedBy : String
  claimType : String
  assertion : ParsedJson
  tradeId : Option String

/-- `SubmitProofInput`. -/
structure SubmitProofInput where
  claimId : String
  evidence : ParsedJson
  submittedBy : String
  claimedHash : Option JsString

/-- `tradeService.assertParticipant`. -/
def assertParticipant (tradeId participantId : String) : Op Unit := do
  let found : Option Trade ← await (.findTrade tradeId)
  let trade ← orThrow found (.notFound "Trade" tradeId)
  require (participantId == trade.buyerId || participantId == trade.sellerId)
    (.forbidden (participantId ++ " is not a party to trade " ++ tradeId))

/-- The current arbiter, for an actor who is no party. -/
def assertArbiter (tradeId actorId : String) : Op Unit := do
  let currentDispute : Option Dispute ← await (.findDispute tradeId actorId)
  require currentDispute.isSome (.forbidden (actorId ++ " is neither a party to trade " ++ tradeId ++
    " nor its current assigned arbiter — no economic-scope authority over this Claim's evidence."))

/-- `assertClaimEconomicScopeAccess`. -/
def assertClaimEconomicScopeAccess (claim : Claim) (actorId : String) : Op Unit :=
  match scope claim.tradeId with
  | none => require (actorId == claim.claimedBy) (.forbidden (actorId ++
      " has no economic-scope authority over this Claim — it has no tradeId, so only its creator (" ++
      claim.claimedBy ++ ") does; no trade relationship exists here to establish a wider authority."))
  | some tradeId => (assertParticipant tradeId actorId).tryCatch fun e =>
    match e with
    | .forbidden _ => assertArbiter tradeId actorId
    | e => throw e

/-- `assertClaim`. -/
def assertClaim (input : AssertClaimInput) : Op Unit := do
  forSome (scope input.tradeId) fun tradeId => assertParticipant tradeId input.claimedBy
  let claim : Claim ←
    await (.createClaim input.claimedBy input.claimType input.assertion input.tradeId)
  await (.emit (.claimAsserted claim.id claim.claimedBy claim.claimType))

/-- `Math.round(ageMs / 3600000)`. -/
def ageHours (ageMs : ℤ) : ℤ := (2 * ageMs + 3600000) / 7200000

section Submission

variable (submissionWindowHours : ℤ) (sha256 : List UInt8 → List UInt8)

/-- A hash the caller sent is compared only. -/
def reportMismatch (input : SubmitProofInput) (proof : Proof) : Op Unit :=
  forSome (input.claimedHash.filter fun claimedHash =>
      claimedHash != [] && claimedHash != proof.evidenceHash) fun claimedHash =>
    await (.emit (.hashMismatchDetected proof.id input.claimId claimedHash proof.evidenceHash))

/-- The report of other proofs with the same evidence. -/
def reportDuplicates (input : SubmitProofInput) (claim : Claim) (proof : Proof) : Op Unit := do
  let duplicates : List ProofRegistryMatch ←
    await (.findDuplicates proof.evidenceHash claim.tradeId)
  let realDuplicates := duplicates.filter fun d => d.proofId != proof.id
  when (!realDuplicates.isEmpty)
    (await (.emit (.duplicateDetected proof.id input.claimId proof.evidenceHash realDuplicates)))

/-- `submitProof`. -/
def submitProof (input : SubmitProofInput) : Op Unit := do
  let found : Option Claim ← await (.findClaim input.claimId)
  let claim ← orThrow found (.notFound "Claim" input.claimId)
  assertClaimEconomicScopeAccess claim input.submittedBy
  let windowMs := submissionWindowHours * 3600 * 1000
  let now : ℤ ← await .now
  let ageMs := now - claim.createdAt
  require (ageMs ≤ windowMs) (.validation ("Proof submitted " ++ toString (ageHours ageMs) ++
    "h after its Claim — outside the " ++ toString submissionWindowHours ++ "h submission window"))
  let evidenceHash := hashEvidence sha256 input.evidence
  let proof : Proof ←
    await (.createProof ⟨input.claimId, input.evidence, evidenceHash, input.submittedBy⟩)
  reportMismatch input proof
  reportDuplicates input claim proof
  await (.emit (.submitted proof.id proof.claimId))

/-- What can be asked of the service, and what others write. -/
inductive Req where
  | assertClaim (input : AssertClaimInput)
  | submitProof (input : SubmitProofInput)
  | writeTrades (trades : List Trade)
  | writeDisputes (disputes : List Dispute)

/-- The program that serves a request. -/
def Req.prog : Req → Op Unit
  | .assertClaim input => OpenProof.assertClaim input
  | .submitProof input => OpenProof.submitProof submissionWindowHours sha256 input
  | .writeTrades trades => await (.writeTrades trades)
  | .writeDisputes disputes => await (.writeDisputes disputes)

end Submission

/-- An event that was emitted. -/
def Call.observe : (q : Call) → Store → Except ProofError q.Ans → List ProofEvent
  | .emit event, _, .ok _ => [event]
  | _, _, _ => []

/-- Any number of requests to the service. -/
def proofs (submissionWindowHours : ℤ) (sha256 : List UInt8 → List UInt8) :
    System Call.Ans ProofError Unit Store Env Req ProofEvent where
  exec := Call.exec
  observe := Call.observe
  prog := Req.prog submissionWindowHours sha256

/-- The rows and the requests to the service. -/
abbrev Service := Config Call.Ans ProofError Unit Store Req ProofEvent

/-- The service after a run from empty tables. -/
def serviceAfter (submissionWindowHours : ℤ) (sha256 : List UInt8 → List UInt8)
    (as : List (Action Env Req)) : Service :=
  (Config.init .empty).exec (proofs submissionWindowHours sha256) as

/-! ## What is stored -/

section Hashed

variable {submissionWindowHours : ℤ} {sha256 : List UInt8 → List UInt8}

/-- The hash is that of the evidence. -/
def ProofData.Hashed (sha256 : List UInt8 → List UInt8) (data : ProofData) : Prop :=
  data.evidenceHash = hashEvidence sha256 data.evidence

/-- Every proof has the hash of its evidence. -/
def Store.Hashed (sha256 : List UInt8 → List UInt8) (s : Store) : Prop :=
  ∀ p ∈ s.proofs, p.toProofData.Hashed sha256

/-- Only evidence with its hash is stored. -/
def Computes (sha256 : List UInt8 → List UInt8) : Call → Prop
  | .createProof data => data.Hashed sha256
  | _ => True

theorem assertParticipant_makes (tradeId participantId : String) :
    (assertParticipant tradeId participantId).Makes (Computes sha256) := by
  refine Makes.bind (fun found => ?_) (makes_perform trivial)
  exact Makes.bind (fun trade => makes_require _ _) (makes_orThrow _ _)

theorem assertArbiter_makes (tradeId actorId : String) :
    (assertArbiter tradeId actorId).Makes (Computes sha256) := by
  refine Makes.bind (fun currentDispute => ?_) (makes_perform trivial)
  exact makes_require _ _

/-- The check of the scope writes nothing. -/
theorem assertClaimEconomicScopeAccess_makes (claim : Claim) (actorId : String) :
    (assertClaimEconomicScopeAccess claim actorId).Makes (Computes sha256) := by
  unfold assertClaimEconomicScopeAccess
  split
  · exact makes_require _ _
  · refine Makes.tryCatch (fun e => ?_) (assertParticipant_makes _ _)
    split
    · exact assertArbiter_makes _ _
    · exact makes_throw _

/-- A claim writes no proof. -/
theorem assertClaim_makes (input : AssertClaimInput) :
    (assertClaim input).Makes (Computes sha256) := by
  refine Makes.bind (fun _ => ?_) (makes_forSome fun _ => assertParticipant_makes _ _)
  refine Makes.bind (fun claim => ?_) (makes_perform trivial)
  exact makes_perform trivial

/-- The reports write nothing. -/
theorem reports_makes (input : SubmitProofInput) (claim : Claim) (proof : Proof) :
    (reportMismatch input proof).Makes (Computes sha256) ∧
      (reportDuplicates input claim proof).Makes (Computes sha256) := by
  refine ⟨makes_forSome fun _ => makes_perform trivial, ?_⟩
  refine Makes.bind (fun _ => Makes.when ?_ _) (makes_perform trivial)
  exact makes_perform trivial

/-- Whatever hash the caller claims, the hash of the evidence is stored. -/
theorem submitProof_makes (input : SubmitProofInput) :
    (submitProof submissionWindowHours sha256 input).Makes (Computes sha256) := by
  refine Makes.bind (fun found => ?_) (makes_perform trivial)
  refine Makes.bind (fun claim => ?_) (makes_orThrow _ _)
  refine Makes.bind (fun _ => ?_) (assertClaimEconomicScopeAccess_makes _ _)
  refine Makes.bind (fun now => ?_) (makes_perform trivial)
  refine Makes.bind (fun _ => ?_) (makes_require _ _)
  refine Makes.bind (fun proof => ?_) (makes_perform rfl)
  refine Makes.bind (fun _ => ?_) (reports_makes input claim proof).1
  refine Makes.bind (fun _ => ?_) (reports_makes input claim proof).2
  exact makes_perform trivial

/-- Every request writes hashed proofs only. -/
theorem prog_makes (req : Req) :
    (req.prog submissionWindowHours sha256).Makes (Computes sha256) := by
  cases req with
  | assertClaim input => exact assertClaim_makes input
  | submitProof input => exact submitProof_makes input
  | writeTrades trades => exact makes_perform trivial
  | writeDisputes disputes => exact makes_perform trivial

/-- A claim leaves the proofs. -/
theorem createClaim_proofs (s : Store) (claim : Claim) :
    (s.createClaim claim).2.proofs = s.proofs := by
  unfold Store.createClaim
  split_ifs <;> rfl

/-- A proof is added or nothing is. -/
theorem createProof_proofs (s : Store) (proof : Proof) :
    (s.createProof proof).2.proofs = s.proofs ∨
      (s.createProof proof).2.proofs = s.proofs ++ [proof] := by
  unfold Store.createProof
  split_ifs
  · exact Or.inl rfl
  · exact Or.inl rfl
  · exact Or.inl rfl
  · exact Or.inr rfl

/-- A call keeps the proofs hashed. -/
theorem run_hashed {q : Call} {s : Store} (hs : s.Hashed sha256) (hq : Computes sha256 q)
    (env : Env) : (q.run env s).2.Hashed sha256 := by
  cases q with
  | createClaim claimedBy claimType assertion tradeId =>
    intro p hp
    rw [Call.run, createClaim_proofs] at hp
    exact hs p hp
  | createProof data =>
    intro p hp
    rw [Call.run] at hp
    rcases createProof_proofs s ⟨data, env.id, env.clock⟩ with h | h <;> rw [h] at hp
    · exact hs p hp
    · rcases List.mem_append.mp hp with hp | hp
      · exact hs p hp
      · rw [List.mem_singleton.mp hp]
        exact hq
  | _ => exact hs

/-- A call keeps the proofs hashed, whatever its fate. -/
theorem exec_hashed {q : Call} {s : Store} (hs : s.Hashed sha256) (hq : Computes sha256 q)
    (env : Env) : (q.exec env s).2.Hashed sha256 := by
  rcases env.fate.settle_store .fault (q.run env s) s with h | h
  · rw [Call.exec, h]
    exact hs
  · rw [Call.exec, h]
    exact run_hashed hs hq env

/-- In every run only evidence with its hash is stored. -/
theorem hashed_of_run (as : List (Action Env Req)) :
    (serviceAfter submissionWindowHours sha256 as).store.Hashed sha256 := by
  refine (Config.run_invariant (S := proofs submissionWindowHours sha256)
    (I := fun c => c.store.Hashed sha256) (R := fun _ => True) (Q := fun _ _ _ => True)
    (fun req => (prog_makes req).calls fun _ _ h => h) (fun _ _ _ _ => trivial)
    (fun _ hI _ => hI) (fun _ hI _ _ hq => exec_hashed hI hq _) (fun _ hI _ _ => hI) as
    (Config.conforms_init trivial) ?_ (Config.along_true as)).2
  exact fun p hp => absurd hp List.not_mem_nil

/-! ## Equal hashes -/

/-- Without a collision equal hashes are of the same evidence. -/
theorem hashEvidence_eq_iff (hsha : Function.Injective sha256) (a b : ParsedJson) :
    hashEvidence sha256 a = hashEvidence sha256 b ↔ a.tree.Same b.tree := by
  rw [← toUtf8_canonicalize_eq_iff, hashEvidence, hashEvidence, hexDigest, hexDigest,
    hexText_injective.eq_iff, hsha.eq_iff]

/-- A stored proof is found for evidence exactly when its own is the same. -/
theorem mem_findDuplicates_iff (hsha : Function.Injective sha256) {s : Store}
    (hs : s.Hashed sha256) {evidence : ParsedJson} {excludeTradeId : Option String}
    {m : ProofRegistryMatch} :
    m ∈ s.findDuplicates (hashEvidence sha256 evidence) excludeTradeId ↔
      ∃ p ∈ s.proofs, p.evidence.tree.Same evidence.tree ∧ ∃ claim,
        s.findClaim p.claimId = some claim ∧ claim.elsewhere excludeTradeId = true ∧
          m = ⟨p.id, claim.tradeId, p.submittedAt⟩ := by
  rw [Store.findDuplicates, List.mem_mergeSort, List.mem_filterMap]
  refine exists_congr fun p => and_congr_right fun hp => ?_
  have hhash : p.evidenceHash = hashEvidence sha256 p.evidence := hs p hp
  rw [← hashEvidence_eq_iff hsha, ← hhash]
  cases hclaim : s.findClaim p.claimId with
  | none => simp [Store.matchOf, hclaim]
  | some claim =>
    simp only [Store.matchOf, hclaim, Option.bind_eq_bind, Option.bind_some,
      Option.ite_none_right_eq_some, Option.some.injEq, exists_eq_left', and_assoc]
    exact and_congr_right fun _ => and_congr_right fun _ => eq_comm

/-- The canonical text and the hash of stored evidence identify the same evidence and no other. -/
theorem evidenceHash_eq_iff (hsha : Function.Injective sha256) :
    (∀ a b : ParsedJson, canonicalize a.tree = canonicalize b.tree ↔ a.tree.Same b.tree) ∧
      ∀ as : List (Action Env Req),
        ∀ p ∈ (serviceAfter submissionWindowHours sha256 as).store.proofs,
        ∀ q ∈ (serviceAfter submissionWindowHours sha256 as).store.proofs,
          p.evidenceHash = q.evidenceHash ↔ p.evidence.tree.Same q.evidence.tree := by
  refine ⟨canonicalize_eq_iff, fun as p hp q hq => ?_⟩
  have hp' : p.evidenceHash = hashEvidence sha256 p.evidence := hashed_of_run as p hp
  have hq' : q.evidenceHash = hashEvidence sha256 q.evidence := hashed_of_run as q hq
  rw [hp', hq', hashEvidence_eq_iff hsha]

end Hashed

/-! ### One receipt submitted twice, its keys in another order -/

/-- The evidence of the sample. -/
def receipt : ParsedJson where
  tree := .obj [(js "paid", .bool true), (js "ref", .str (js "e2e"))]
  distinct := by
    rw [Tree.Distinct]
    exact ⟨by decide, trivial, trivial, trivial⟩

/-- The same evidence in another order. -/
def reordered : ParsedJson where
  tree := .obj [(js "ref", .str (js "e2e")), (js "paid", .bool true)]
  distinct := by
    rw [Tree.Distinct]
    exact ⟨by decide, trivial, trivial, trivial⟩

/-- The digest of the canonical text of both. -/
def sampleDigests : List (List UInt8 × List UInt8) :=
  [(toUtf8 (js "\x7b\"paid\":true,\"ref\":\"e2e\"\x7d"),
    [0xAB, 0xE7, 0xAE, 0xFB, 0x84, 0x32, 0x71, 0x9E, 0xD6, 0x52, 0x87, 0x39,
      0xE0, 0xD0, 0x9D, 0xE4, 0x0E, 0x18, 0xC7, 0x06, 0x0D, 0x89, 0x79, 0x9B,
      0x3C, 0x6A, 0xA1, 0xF0, 0x93, 0x7D, 0x7C, 0x33])]

/-- The submission of a proof, as thread `i`. -/
def submission (id : String) (evidence : ParsedJson) (i : ℕ) : List (Action Env Req) :=
  [.start (.submitProof ⟨"c1", evidence, "ana", none⟩), .run i ⟨.answered, "", 0⟩,
    .run i ⟨.answered, "", 1000⟩, .run i ⟨.answered, id, 1000⟩]

/-- A claim and two proofs of it. -/
def sampleRun : List (Action Env Req) :=
  [.start (.assertClaim ⟨"ana", "payment_sent", receipt, none⟩), .run 0 ⟨.answered, "c1", 0⟩] ++
    submission "p1" receipt 1 ++ submission "p2" reordered 2

/-- A proof of the sample. -/
def sampleProof (id : String) (evidence : ParsedJson) : Proof :=
  ⟨⟨"c1", evidence, hashEvidence (tableHash sampleDigests) evidence, "ana"⟩, id, 1000⟩

/-- The proofs of the sample. -/
theorem sampleRun_proofs : (serviceAfter 72 (tableHash sampleDigests) sampleRun).store.proofs =
    [sampleProof "p1" receipt, sampleProof "p2" reordered] :=
  rfl

/-- The two pieces of evidence are the same. -/
theorem same_reordered : receipt.tree.Same reordered.tree := by
  rw [receipt, reordered, Tree.Same]
  exact ⟨rfl, ⟨.bool true, by simp, rfl⟩, ⟨.str (js "e2e"), by simp, rfl⟩, trivial⟩

/-- The two proofs of the sample have one hash. -/
theorem evidenceHash_eq_iff_reordered :
    sampleProof "p1" receipt ∈
      (serviceAfter 72 (tableHash sampleDigests) sampleRun).store.proofs ∧
    sampleProof "p2" reordered ∈
      (serviceAfter 72 (tableHash sampleDigests) sampleRun).store.proofs ∧
    (sampleProof "p1" receipt).evidenceHash = (sampleProof "p2" reordered).evidenceHash := by
  have hone : sampleProof "p1" receipt ∈
      (serviceAfter 72 (tableHash sampleDigests) sampleRun).store.proofs := by
    simp [sampleRun_proofs]
  have htwo : sampleProof "p2" reordered ∈
      (serviceAfter 72 (tableHash sampleDigests) sampleRun).store.proofs := by
    simp [sampleRun_proofs]
  have hsha : Function.Injective (tableHash sampleDigests) := tableHash_injective (by decide)
  exact ⟨hone, htwo, ((evidenceHash_eq_iff hsha).2 sampleRun _ hone _ htwo).mpr same_reordered⟩

end Sails.OpenProof
