import SailsProtocol.Escrow.Discipline

/-!
# Every operation keeps the discipline

One theorem per operation, and `prog_disciplined` for all requests : from the empty log
every operation makes its calls under `Guard` and ends in `Done`.

An operation starts with a `Fresh` footprint. Its checks are neutral and leave it fresh.
The claim turns it into `Held`, and from there it ends `Settled` : with its history row,
with a revert, or, where it has no revert, with a failure. A recovery pass `Owes` the
history row of the status it read, and settles by writing it, finding it, or failing.
-/

namespace Sails

open Async Async.Prog

variable {cfg : Settings} {type : EscrowType} {req : Request} {h h' : List Obs}

/-! ## States of an operation -/

/-- The operation has claimed, moved and emitted nothing. -/
structure Fresh (h : List Obs) : Prop where
  idle : (Footprint.of h).Idle
  claim : (Footprint.of h).claim = none
  undo : (Footprint.of h).undo = none
  moved : (Footprint.of h).moved = false
  emitted : (Footprint.of h).emitted = false
  completion : (Footprint.of h).completion = none
  txId : (Footprint.of h).txIdWritten = none

/-- The operation holds its claim, and has not emitted what it moved. -/
structure Held (src dst : EscrowStatus) (h : List Obs) : Prop where
  idle : (Footprint.of h).Idle
  holds : (Footprint.of h).Holds src dst
  unsent : (Footprint.of h).moved = true → (Footprint.of h).emitted = false
  completion : (Footprint.of h).completion = none
  txId : (Footprint.of h).txIdWritten = none

/-- The history row of `t` is all that is left to settle. -/
structure Owes (req : Request) (t : EscrowStatus) (h : List Obs) : Prop where
  idle : (Footprint.of h).Idle
  may : MayRecord req t h
  claim : ∀ src dst, (Footprint.of h).Holds src dst → dst = t ∨
    (dst ∈ (Footprint.of h).rows ∧ (dst = .fundsLocked → (Footprint.of h).locked ≠ none)) ∨
      (req.reverts dst = false ∧ (Footprint.of h).failedSinceClaim = true)
  completion : ∀ t', (Footprint.of h).completion = some (some t') → t' = t ∨
    t' ∈ (Footprint.of h).rows ∨ (Footprint.of h).failedSinceCompletion = true
  txId : ∀ t', (Footprint.of h).txIdWritten = some t' → t' = t ∨
    t' ∈ (Footprint.of h).rows ∨ (Footprint.of h).failedSinceTxId = true

theorem Fresh.extends (hf : Fresh h) (hext : (Footprint.of h).Extends (Footprint.of h')) :
    Fresh h' where
  idle := hext.idle hf.idle
  claim := (hext.field Footprint.claim fun _ => rfl).trans hf.claim
  undo := (hext.field Footprint.undo fun _ => rfl).trans hf.undo
  moved := (hext.field Footprint.moved fun _ => rfl).trans hf.moved
  emitted := (hext.field Footprint.emitted fun _ => rfl).trans hf.emitted
  completion := (hext.field Footprint.completion fun _ => rfl).trans hf.completion
  txId := (hext.field Footprint.txIdWritten fun _ => rfl).trans hf.txId

theorem Fresh.read (hf : Fresh h) (e : Escrow) : Fresh (.read e :: h) :=
  ⟨hf.idle, hf.claim, hf.undo, hf.moved, hf.emitted, hf.completion, hf.txId⟩

theorem Fresh.failed (hf : Fresh h) : Fresh (.failed :: h) :=
  hf.extends (Footprint.Extends.failed_next hf.idle)

/-- A fresh thread owes nothing. -/
theorem Fresh.settled (hf : Fresh h) : Settled req h where
  idle := hf.idle
  claim := fun src dst hh => by
    rw [Footprint.Holds, hf.claim] at hh
    cases hh.1
  completion := fun t ht => by
    rw [hf.completion] at ht
    cases ht
  txId := fun t ht => by
    rw [hf.txId] at ht
    cases ht

theorem Fresh.exits {α : Type} (hf : Fresh h) :
    Exits (fun h' (_ : Except Err α) => Settled req h') h :=
  fun _ _ hext => (hf.extends hext).settled

theorem Fresh.claimed (hf : Fresh h) (src dst : EscrowStatus) :
    Held src dst (.claimed src dst :: h) :=
  ⟨hf.idle, ⟨rfl, hf.undo⟩, fun _ => hf.emitted, hf.completion, hf.txId⟩

theorem Footprint.Extends.holds {src dst : EscrowStatus} {f g : Footprint} (hext : f.Extends g) :
    g.Holds src dst ↔ f.Holds src dst := by
  rw [Footprint.Holds, Footprint.Holds, hext.field Footprint.claim fun _ => rfl,
    hext.field Footprint.undo fun _ => rfl]

theorem Settled.extends (hs : Settled req h)
    (hext : (Footprint.of h).Extends (Footprint.of h')) : Settled req h' where
  idle := hext.idle hs.idle
  claim := fun src dst hh => by
    rw [hext.field Footprint.rows fun _ => rfl, hext.field Footprint.locked fun _ => rfl]
    exact (hs.claim src dst (hext.holds.mp hh)).imp id (And.imp id hext.sinceClaim)
  completion := fun t ht => by
    rw [hext.field Footprint.rows fun _ => rfl]
    rw [hext.field Footprint.completion fun _ => rfl] at ht
    exact (hs.completion t ht).imp id hext.sinceCompletion
  txId := fun t ht => by
    rw [hext.field Footprint.rows fun _ => rfl]
    rw [hext.field Footprint.txIdWritten fun _ => rfl] at ht
    exact (hs.txId t ht).imp id hext.sinceTxId

theorem Settled.exits {α : Type} (hs : Settled req h) :
    Exits (fun h' (_ : Except Err α) => Settled req h') h :=
  fun _ _ hext => hs.extends hext

theorem Held.extends {src dst : EscrowStatus} (hh : Held src dst h)
    (hext : (Footprint.of h).Extends (Footprint.of h')) : Held src dst h' where
  idle := hext.idle hh.idle
  holds := hext.holds.mpr hh.holds
  unsent := by
    rw [hext.field Footprint.moved fun _ => rfl, hext.field Footprint.emitted fun _ => rfl]
    exact hh.unsent
  completion := (hext.field Footprint.completion fun _ => rfl).trans hh.completion
  txId := (hext.field Footprint.txIdWritten fun _ => rfl).trans hh.txId

/-- A held claim owes its history row. -/
theorem Held.owes {src dst : EscrowStatus} (hh : Held src dst h)
    (hlock : dst = .fundsLocked → (Footprint.of h).locked ≠ none) : Owes req dst h where
  idle := hh.idle
  may := ⟨Or.inl ⟨src, hh.holds⟩, hlock⟩
  claim := fun src' dst' hh' => by
    have heq := hh.holds.1.symm.trans hh'.1
    cases heq
    exact Or.inl rfl
  completion := fun t ht => by
    rw [hh.completion] at ht
    cases ht
  txId := fun t ht => by
    rw [hh.txId] at ht
    cases ht

/-- What is settled owes at most a row it may write again. -/
theorem Settled.owes {t : EscrowStatus} (hs : Settled req h) (hmay : MayRecord req t h) :
    Owes req t h :=
  ⟨hs.idle, hmay, fun src dst hh => Or.inr (hs.claim src dst hh),
    fun t' ht => Or.inr (hs.completion t' ht), fun t' ht => Or.inr (hs.txId t' ht)⟩

theorem Owes.extends {t : EscrowStatus} (ho : Owes req t h)
    (hext : (Footprint.of h).Extends (Footprint.of h')) : Owes req t h' where
  idle := hext.idle ho.idle
  may := by
    refine ⟨ho.may.1.imp (fun ⟨src, hh⟩ => ⟨src, hext.holds.mpr hh⟩) fun hr => ?_, fun ht => ?_⟩
    · rwa [hext.field Footprint.snapshot fun _ => rfl,
        hext.field Footprint.completion fun _ => rfl]
    · rw [hext.field Footprint.locked fun _ => rfl]
      exact ho.may.2 ht
  claim := fun src dst hh => by
    rw [hext.field Footprint.rows fun _ => rfl, hext.field Footprint.locked fun _ => rfl]
    exact (ho.claim src dst (hext.holds.mp hh)).imp id (Or.imp id (And.imp id hext.sinceClaim))
  completion := fun t' ht => by
    rw [hext.field Footprint.rows fun _ => rfl]
    rw [hext.field Footprint.completion fun _ => rfl] at ht
    exact (ho.completion t' ht).imp id (Or.imp id hext.sinceCompletion)
  txId := fun t' ht => by
    rw [hext.field Footprint.rows fun _ => rfl]
    rw [hext.field Footprint.txIdWritten fun _ => rfl] at ht
    exact (ho.txId t' ht).imp id (Or.imp id hext.sinceTxId)

/-- With its row a footprint that owed it is settled. -/
theorem Owes.settled {t : EscrowStatus} (ho : Owes req t h)
    (hrow : t ∈ (Footprint.of h).rows) : Settled req h where
  idle := ho.idle
  claim := fun src dst hh => by
    rcases ho.claim src dst hh with rfl | hr
    · exact Or.inl ⟨hrow, ho.may.2⟩
    · exact hr
  completion := fun t' ht => by
    rcases ho.completion t' ht with rfl | hr
    · exact Or.inl hrow
    · exact hr
  txId := fun t' ht => by
    rcases ho.txId t' ht with rfl | hr
    · exact Or.inl hrow
    · exact hr

/-- Another row leaves what is owed. -/
theorem Owes.row {t t' : EscrowStatus} (ho : Owes req t h) : Owes req t (.rowFound t' :: h) where
  idle := ho.idle
  may := ho.may
  claim := fun src dst hh =>
    (ho.claim src dst hh).imp id (Or.imp (And.imp (List.mem_cons_of_mem _) id) id)
  completion := fun t' ht => (ho.completion t' ht).imp id (Or.imp (List.mem_cons_of_mem _) id)
  txId := fun t' ht => (ho.txId t' ht).imp id (Or.imp (List.mem_cons_of_mem _) id)

theorem Owes.found {t : EscrowStatus} (ho : Owes req t h) : Settled req (.rowFound t :: h) :=
  ho.row.settled List.mem_cons_self

theorem Owes.published {t : EscrowStatus} (ho : Owes req t h) :
    Settled req (.published t :: .rowWritten t :: h) :=
  ⟨⟨rfl, ho.idle.2⟩, ho.found.claim, ho.found.completion, ho.found.txId⟩

theorem Owes.unpublished {t : EscrowStatus} (ho : Owes req t h) :
    Settled req (.failed :: .rowWritten t :: h) :=
  ⟨⟨rfl, rfl⟩, fun src dst hh => (ho.found.claim src dst hh).imp id (And.imp id fun _ => rfl),
    fun _ _ => Or.inr rfl, fun _ _ => Or.inr rfl⟩

/-- A failure settles what is owed without a revert. -/
theorem Owes.failed {t : EscrowStatus} (ho : Owes req t h) (hrev : req.reverts t = false) :
    Settled req (.failed :: h) where
  idle := ⟨rfl, rfl⟩
  claim := fun src dst hh => by
    rcases ho.claim src dst hh with rfl | hr
    · exact Or.inr ⟨hrev, rfl⟩
    · exact hr.imp id (And.imp id fun _ => rfl)
  completion := fun _ _ => Or.inr rfl
  txId := fun _ _ => Or.inr rfl

/-- Emitting the row that is owed. -/
theorem emit_settled {t from' : EscrowStatus} {a : Actor} (ho : Owes req t h)
    (hrev : req.reverts t = false) :
    Disciplined cfg type req (emitEscrowTransition from' t a) (fun h' _ => Settled req h') h :=
  disciplined_emit ho.idle ho.may ho.found ho.published (fun _ => ho.failed hrev)
    (fun _ => ho.unpublished)

/-- Running an operation, and another one on what it settled. -/
theorem disciplined_settled {α β : Type} {p : Op α} {f : α → Op β}
    (hp : Disciplined cfg type req p (fun h' _ => Settled req h') h)
    (hk : ∀ a h', Settled req h' →
      Disciplined cfg type req (f a) (fun h' _ => Settled req h') h') :
    Disciplined cfg type req (p >>= f) (fun h' _ => Settled req h') h := by
  refine (guarded_bind _ _ _).mpr (hp.mono fun h' r hs => ?_)
  cases r with
  | ok a => exact hk a h' hs
  | error e => exact hs

/-- A neutral call leaves what is settled. -/
theorem await_settled {q : Call} (hq : q.neutral = true) (hs : Settled req h) :
    Disciplined cfg type req (await q) (fun h' _ => Settled req h') h :=
  (tame_of_makes (neutral_await hq) hs.idle).mono fun _ _ hext => hs.extends hext

/-! ## Under a claim that is taken back -/

/-- What a body under a claim leaves : settled, or held for the revert. -/
def UnderClaim (req : Request) (src dst : EscrowStatus) (h : List Obs) : Except Err Unit → Prop
  | .ok _ => Settled req h
  | .error _ => Held src dst h ∧
      ((Footprint.of h).moved = true → (Footprint.of h).stranded = true)

/-- The revert settles the claim. -/
theorem orRevert_settled {src dst : EscrowStatus} {body : Op Unit}
    (hrev : req.reverts dst = true)
    (hbody : Disciplined cfg type req body (UnderClaim req src dst) h) :
    Disciplined cfg type req (orRevert dst src body) (fun h' _ => Settled req h') h := by
  refine disciplined_orRevert hrev (hbody.mono fun h' r hr => ?_)
  cases r with
  | ok _ => exact hr
  | error e =>
    obtain ⟨hh, hm⟩ := hr
    have hundone : ∀ o, ((Footprint.of h').next o).undo ≠ none →
        (Footprint.of h').next o = { Footprint.of h' with
          undo := ((Footprint.of h').next o).undo } → Settled req (o :: h') := by
      intro o hu heq
      refine ⟨?_, fun src' dst' hh' => absurd hh'.2 hu, fun t ht => ?_, fun t ht => ?_⟩
      · rw [Footprint.of_cons, heq]
        exact hh.idle
      · rw [Footprint.of_cons, heq, hh.completion] at ht
        cases ht
      · rw [Footprint.of_cons, heq, hh.txId] at ht
        cases ht
    exact ⟨hh.idle, hh.holds, hm, hundone _ (by simp [Footprint.next]) rfl,
      hundone _ (by simp [Footprint.next]) rfl, hundone _ (by simp [Footprint.next]) rfl⟩

/-- A failure leaves the claim for the revert. -/
theorem Held.failed {src dst : EscrowStatus} {e : Err} (hh : Held src dst h) :
    UnderClaim req src dst (.failed :: h) (.error e) := by
  refine ⟨hh.extends (Footprint.Extends.failed_next hh.idle), fun hm => ?_⟩
  have hm : (Footprint.of h).moved = true := hm
  simp [Footprint.next, hm, hh.unsent hm]

/-- A failed publication leaves the claim for the revert. -/
theorem Held.unpublished {src dst t : EscrowStatus} {e : Err} (hh : Held src dst h) :
    UnderClaim req src dst (.failed :: .rowWritten t :: h) (.error e) := by
  refine ⟨⟨⟨rfl, rfl⟩, hh.holds, hh.unsent, hh.completion, hh.txId⟩, fun hm => ?_⟩
  have hm : (Footprint.of h).moved = true := hm
  simp [Footprint.next, hm, hh.unsent hm]

/-- Before the funds move every error leaves the claim for the revert. -/
theorem Held.exits {src dst : EscrowStatus} (hh : Held src dst h)
    (hm : (Footprint.of h).moved = false) : Exits (UnderClaim req src dst) h := by
  intro h' e hext
  refine ⟨hh.extends hext, fun hmoved => ?_⟩
  rw [hext.field Footprint.moved fun _ => rfl, hm] at hmoved
  cases hmoved

/-- Emitting the history row of a held claim, under a revert. -/
theorem emit_underClaim {src dst from' : EscrowStatus} {a : Actor} (hh : Held src dst h)
    (hlock : dst = .fundsLocked → (Footprint.of h).locked ≠ none) :
    Disciplined cfg type req (emitEscrowTransition from' dst a) (UnderClaim req src dst) h := by
  have ho : Owes req dst h := hh.owes hlock
  exact disciplined_emit hh.idle ho.may ho.found ho.published (fun _ => hh.failed)
    (fun _ => hh.unpublished)

/-! ## Direct operations -/

theorem neutral_findDispute (a : Actor) : Neutral (findDisputeByTradeAndArbiter a) :=
  Makes.bind (fun _ => makes_pure _) (neutral_await rfl)

theorem neutral_isSeller (id : ℕ) (a : Actor) : Neutral (isSellerOrAssignedArbiter id a) :=
  Makes.ite (makes_pure _) (Makes.bind (fun _ => makes_pure _) (neutral_findDispute a))

theorem neutral_authority (a : Actor) : Neutral (assertDisputedDispositionAuthority a) :=
  Makes.bind (fun _ => makes_orThrow _ _) (neutral_findDispute a)

theorem neutral_fundingNotUncertain (t : EscrowType) : Neutral (assertFundingNotUncertain t) :=
  Makes.when (Makes.bind (fun _ => makes_require _ _) (neutral_await rfl)) _

theorem neutral_capability (cfg : Settings) : Neutral (checkFundMovementCapability cfg) :=
  Makes.when (neutral_await rfl) _

theorem neutral_dualApproval (cfg : Settings) (s : EscrowStatus) :
    Neutral (assertDualApproval cfg s) :=
  Makes.when (neutral_await rfl) _

/-- Loading an escrow reads its row and is neutral otherwise. -/
theorem loadEscrow_disciplined {β : Type} {a : Actor} {f : Escrow × Trade → Op β}
    {Q : List Obs → Except Err β → Prop} (hf : Fresh h)
    (hexit : ∀ {h'}, Fresh h' → Exits Q h')
    (hk : ∀ e t h', Fresh h' → (Footprint.of h').lastRead = some e →
      Disciplined cfg type req (f (e, t)) Q h') :
    Disciplined cfg type req (loadEscrowWithAuthorization a >>= f) Q h := by
  refine (guarded_bind _ _ _).mpr (disciplined_findById hf.idle (hexit hf) fun e => ?_)
  have hf := hf.read e
  refine disciplined_await rfl hf.idle (hexit hf) fun t => ?_
  refine (guarded_ite _ _ _).mpr ⟨fun _ => ?_, fun _ => ?_⟩
  · refine disciplined_tame (neutral_authority a) hf.idle (hexit hf) fun _ h' hext => ?_
    exact hk e t h' (hf.extends hext) (hext.field Footprint.lastRead fun _ => rfl)
  · refine disciplined_tame (neutral_isSeller _ a) hf.idle (hexit hf) fun _ h' hext => ?_
    have hf' := hf.extends hext
    refine disciplined_require (hexit hf') fun _ => ?_
    exact hk e t h' hf' (hext.field Footprint.lastRead fun _ => rfl)

/-- Looking the provider up is a check of the program itself. -/
theorem neutral_provider (cfg : Settings) (t : EscrowType) :
    Neutral (getSettlementProvider cfg t) :=
  makes_require _ _

/-- A direct settlement leaves nothing owed. -/
theorem settleDirectly_settled {lookup : Op Unit} {t : EscrowType} {k : SettlementKind}
    {src : EscrowStatus} {a : Actor} (hf : Fresh h) (hrec : req.reconciles = false)
    (hlookup : Neutral lookup) :
    Disciplined cfg type req (settleDirectly lookup t k src a) (fun h' _ => Settled req h') h := by
  refine disciplined_claim hf.idle hf.claim hf.undo hf.exits fun _ => ?_
  have hh := hf.claimed src k.target
  have hm : (Footprint.of (.claimed src k.target :: h)).moved = false := hf.moved
  have he : (Footprint.of (.claimed src k.target :: h)).emitted = false := hf.emitted
  have hrev : req.reverts k.target = true := by simp [Request.reverts, k.terminal_target, hrec]
  refine orRevert_settled hrev ?_
  refine disciplined_tame hlookup hh.idle (hh.exits hm) fun _ h' hext => ?_
  replace hh := hh.extends hext
  replace hm := (hext.field Footprint.moved fun _ => rfl).trans hm
  replace he := (hext.field Footprint.emitted fun _ => rfl).trans he
  refine (guarded_bind _ _ _).mpr ⟨⟨(hh.idle.publish _).1, (hh.idle.publish _).2,
    ⟨src, hh.holds⟩, hm⟩, fun s r hr => ?_⟩
  have hexit : Exits (UnderClaim req src k.target) h' := hh.exits hm
  cases r with
  | error e => exact hexit _ e (extends_refusable rfl hh.idle e s)
  | ok txId =>
    -- from here on a failure is recorded as one after the move
    have hh' : Held src k.target (.moved k :: h') :=
      ⟨hh.idle, hh.holds, fun _ => he, hh.completion, hh.txId⟩
    refine disciplined_silent rfl ⟨(hh'.idle.publish _).1, (hh'.idle.publish _).2,
      ⟨src, hh'.holds⟩, Or.inl hrev⟩ (fun _ => hh'.failed) (fun hr => by cases hr) fun _ => ?_
    refine disciplined_silent rfl (guard_of_neutral rfl hh'.idle) (fun _ => hh'.failed)
      (fun hr => by cases hr) fun _ => ?_
    refine emit_underClaim hh' fun hk => ?_
    have := k.terminal_target
    rw [hk] at this
    cases this

/-- `releaseFunds` leaves nothing owed. -/
theorem releaseFunds_settled {a : Actor} (hf : Fresh h) (hrec : req.reconciles = false) :
    Disciplined cfg type req (releaseFunds cfg a) (fun h' _ => Settled req h') h := by
  refine loadEscrow_disciplined hf Fresh.exits fun e t h' hf _ => ?_
  refine disciplined_require hf.exits fun _ => ?_
  refine disciplined_await rfl hf.idle hf.exits fun _ => ?_
  refine disciplined_tame (neutral_capability cfg) hf.idle hf.exits fun _ h₁ hext => ?_
  replace hf := hf.extends hext
  refine disciplined_tame (neutral_dualApproval cfg _) hf.idle hf.exits fun _ h₂ hext => ?_
  exact settleDirectly_settled (hf.extends hext) hrec (neutral_provider cfg _)

theorem refundFunds_settled {a : Actor} (hf : Fresh h) (hrec : req.reconciles = false) :
    Disciplined cfg type req (refundFunds cfg a) (fun h' _ => Settled req h') h := by
  refine loadEscrow_disciplined hf Fresh.exits fun e t h' hf _ => ?_
  refine disciplined_require hf.exits fun _ => ?_
  refine disciplined_tame (neutral_capability cfg) hf.idle hf.exits fun _ h₁ hext => ?_
  exact settleDirectly_settled (hf.extends hext) hrec (neutral_provider cfg _)

/-- `splitFunds` leaves nothing owed. -/
theorem splitFunds_settled {a : Actor} {bps : ℕ} (hf : Fresh h)
    (hrec : req.reconciles = false) :
    Disciplined cfg type req (splitFunds cfg bps a) (fun h' _ => Settled req h') h := by
  refine disciplined_require hf.exits fun _ => ?_
  refine loadEscrow_disciplined hf Fresh.exits fun e t h' hf _ => ?_
  refine disciplined_require hf.exits fun _ => ?_
  refine disciplined_tame (neutral_capability cfg) hf.idle hf.exits fun _ h₁ hext => ?_
  replace hf := hf.extends hext
  refine disciplined_await rfl hf.idle hf.exits fun _ => ?_
  refine disciplined_tame (neutral_provider cfg _) hf.idle hf.exits fun _ h₂ hext => ?_
  replace hf := hf.extends hext
  refine disciplined_require hf.exits fun _ => ?_
  exact settleDirectly_settled hf hrec (makes_pure _)

/-- The body of `lockFunds`, from the provider call on. -/
theorem providerLock_underClaim {t : EscrowType} {keys : ParticipantPubkeys} {hours : ℕ}
    {a : Actor} (hh : Held .created .fundsLocked h) (hm : (Footprint.of h).moved = false)
    (hkeys : ∀ k, keys.arbiterPubkey = some k → (Footprint.of h).loaded = some keys)
    (hread : ∃ e, (Footprint.of h).lastRead = some e ∧ e.type = t) :
    Disciplined cfg type req (do
      let result ← await (.providerLock t keys)
      let now ← await .clock
      await (.updateLockResult result (now + hours * 3600 * 1000))
      when result.vout.isSome (await .recordFundingEvidence)
      emitEscrowTransition .created .fundsLocked a) (UnderClaim req .created .fundsLocked) h := by
  refine (guarded_bind _ _ _).mpr ⟨⟨(hh.idle.publish _).1, (hh.idle.publish _).2,
    hh.holds, hkeys⟩, fun s r hr => ?_⟩
  have hexit : Exits (UnderClaim req .created .fundsLocked) h := hh.exits hm
  cases r with
  | error e => exact hexit _ e (extends_refusable rfl hh.idle e s)
  | ok result =>
    have hh' : Held .created .fundsLocked (.locked t keys result.address :: h) :=
      ⟨hh.idle, hh.holds, hh.unsent, hh.completion, hh.txId⟩
    have hexit' : Exits (UnderClaim req .created .fundsLocked)
        (.locked t keys result.address :: h) := hh'.exits hm
    refine disciplined_await rfl hh'.idle hexit' fun now => ?_
    refine disciplined_silent rfl ⟨(hh'.idle.publish _).1, (hh'.idle.publish _).2,
      hh'.holds, t, keys, rfl, hread⟩ (hexit'.failed hh'.idle)
      (fun _ => hexit'.refused hh'.idle) fun _ => ?_
    refine disciplined_tame (Makes.when (neutral_await rfl) _) hh'.idle hexit'
      fun _ h₁ hext => ?_
    refine emit_underClaim (hh'.extends hext) fun _ => ?_
    rw [hext.field Footprint.locked fun _ => rfl]
    exact Option.some_ne_none _

/-- `lockFunds` leaves nothing owed. -/
theorem lockFunds_settled {a : Actor} (hf : Fresh h) :
    Disciplined cfg type req (lockFunds cfg a) (fun h' _ => Settled req h') h := by
  refine disciplined_findById hf.idle hf.exits fun e => ?_
  replace hf := hf.read e
  refine disciplined_require hf.exits fun hv => ?_
  have hsrc : e.status = .created :=
    EscrowStatus.eq_created_of_valid (of_decide_eq_true hv)
  rw [hsrc]
  refine disciplined_await rfl hf.idle hf.exits fun t => ?_
  refine disciplined_require hf.exits fun _ => ?_
  refine disciplined_claim hf.idle hf.claim hf.undo hf.exits fun _ => ?_
  have hh := hf.claimed .created .fundsLocked
  refine orRevert_settled rfl ?_
  refine disciplined_require (hh.exits hf.moved) fun _ => ?_
  by_cases hn : e.type.nonCustodial = true
  · rw [if_pos hn]
    refine disciplined_loadPubkeys hh.idle (hh.exits hf.moved) fun keys => ?_
    exact providerLock_underClaim ⟨hh.idle, hh.holds, hh.unsent, hh.completion, hh.txId⟩ hf.moved
      (fun _ _ => rfl) ⟨e, rfl, rfl⟩
  · rw [if_neg hn]
    exact providerLock_underClaim hh hf.moved (fun _ hk => by cases hk) ⟨e, rfl, rfl⟩

/-- The second read of the row, and the emission, of a claim without a revert. -/
theorem reload_settled {src dst from' : EscrowStatus} {a : Actor} (hh : Held src dst h)
    (hrev : req.reverts dst = false) :
    Disciplined cfg type req (do
      let _ ← await .findById
      emitEscrowTransition from' dst a) (fun h' _ => Settled req h') h := by
  have hlock : dst = .fundsLocked → (Footprint.of h).locked ≠ none := by
    rintro rfl
    cases hrev
  have ho : Owes req dst h := hh.owes hlock
  refine (guarded_bind _ _ _).mpr ⟨⟨(hh.idle.publish _).1, (hh.idle.publish _).2, trivial⟩,
    fun s r _ => ?_⟩
  cases r with
  | error e => exact ho.failed hrev
  | ok e => exact emit_settled ⟨ho.idle, ho.may, ho.claim, ho.completion, ho.txId⟩ hrev

/-- `markPaymentSent` leaves nothing owed. -/
theorem markPaymentSent_settled {a : Actor} (hf : Fresh h) :
    Disciplined cfg type req (markPaymentSent a) (fun h' _ => Settled req h') h := by
  refine disciplined_findById hf.idle hf.exits fun e => ?_
  replace hf := hf.read e
  refine disciplined_require hf.exits fun hv => ?_
  refine disciplined_tame (neutral_fundingNotUncertain _) hf.idle hf.exits fun _ h₁ hext => ?_
  replace hf := hf.extends hext
  refine disciplined_await rfl hf.idle hf.exits fun t => ?_
  refine disciplined_require hf.exits fun _ => ?_
  refine (guarded_bind _ _ _).mpr ⟨⟨(hf.idle.publish _).1, (hf.idle.publish _).2,
    hf.claim, hf.undo, of_decide_eq_true hv⟩, fun s r _ => ?_⟩
  cases r with
  | error e => exact (hf.extends (extends_refusable rfl hf.idle e s)).settled
  | ok n =>
    cases n with
    | zero => exact hf.settled
    | succ n => exact reload_settled (hf.claimed e.status .paymentPending) rfl

/-- `openDispute` leaves nothing owed. -/
theorem openDispute_settled {a : Actor} (hf : Fresh h) :
    Disciplined cfg type req (openDispute a) (fun h' _ => Settled req h') h := by
  refine disciplined_findById hf.idle hf.exits fun e => ?_
  replace hf := hf.read e
  refine disciplined_require hf.exits fun _ => ?_
  refine disciplined_await rfl hf.idle hf.exits fun t => ?_
  refine disciplined_require hf.exits fun _ => ?_
  refine disciplined_claim hf.idle hf.claim hf.undo hf.exits fun _ => ?_
  exact reload_settled (hf.claimed e.status .disputed) rfl

/-- `sweepExpiredEscrows` expires the rails that collect signatures only. -/
theorem candidates_rail {now : ℕ} {s : World} {e : Escrow}
    (hr : Config.Answerable (escrowSystem cfg) (OnRail type)
      (.findFundsLockedExpiryCandidates now) s (.ok (some e))) :
    type.signatureCollection = true := by
  obtain ⟨hs, ⟨fault, _⟩, he⟩ := hr
  cases fault with
  | some f => cases he
  | none =>
    simp only [escrowSystem, Call.exec, Call.run, Except.ok.injEq, Option.ite_none_right_eq_some]
      at he
    exact hs ▸ he.1.2.1

/-- An expired escrow that is found is of the rail of the run. -/
theorem expired_rail {now : ℕ} {s : World} {e : Escrow}
    (hr : Config.Answerable (escrowSystem cfg) (OnRail type)
      (.findExpiredFundsLocked now) s (.ok (some e))) : e.type = type := by
  obtain ⟨hs, ⟨fault, _⟩, he⟩ := hr
  cases fault with
  | some f => cases he
  | none =>
    simp only [escrowSystem, Call.exec, Call.run, Except.ok.injEq, Option.ite_none_right_eq_some,
      Option.some.injEq] at he
    exact he.2 ▸ hs

/-- The expiry of one escrow leaves nothing owed. -/
theorem expireEscrow_settled {now : ℕ} {e : Escrow} (hf : Fresh h)
    (hrec : req.reverts .expired = false) :
    Disciplined cfg type req (expireEscrow now e) (fun h' _ => Settled req h') h := by
  refine (guarded_when _ _).mpr ⟨fun _ => ?_, fun _ => hf.settled⟩
  refine disciplined_await rfl hf.idle hf.exits fun _ => ?_
  refine disciplined_await rfl hf.idle hf.exits fun _ => ?_
  refine (guarded_bind _ _ _).mpr ⟨⟨(hf.idle.publish _).1, (hf.idle.publish _).2,
    hf.claim, hf.undo⟩, fun s r _ => ?_⟩
  cases r with
  | error e => exact hf.failed.settled
  | ok b =>
    cases b with
    | false => exact disciplined_unfailing_last rfl rfl hf.idle fun _ => hf.settled
    | true =>
      exact emit_settled ((hf.claimed .fundsLocked .expired).owes fun ht => by cases ht) hrec

/-- The sweep of expired escrows leaves nothing owed. -/
theorem sweepExpiredEscrows_settled (hf : Fresh h) (hrec : req.reconciles = false) :
    Disciplined cfg type req (sweepExpiredEscrows cfg) (fun h' _ => Settled req h') h := by
  refine disciplined_await rfl hf.idle hf.exits fun now => ?_
  refine disciplined_query rfl hf.idle hf.exits fun s x hx => ?_
  cases x with
  | none =>
    -- a rail without signature collection, or nothing due : only the refund can follow
    refine disciplined_await rfl hf.idle hf.exits fun expired => ?_
    refine (guarded_forSome _ _).mpr ⟨fun e _ => ?_, fun _ => hf.settled⟩
    refine (guarded_swallow _ _).mpr (disciplined_await rfl hf.idle hf.exits fun t => ?_)
    exact refundFunds_settled hf hrec
  | some e =>
    refine disciplined_settled ((guarded_swallow _ _).mpr (expireEscrow_settled hf rfl))
      fun _ h' hs => ?_
    refine disciplined_query rfl hs.idle hs.exits fun s' x' hx' => ?_
    refine (guarded_forSome _ _).mpr ⟨fun e' he' => ?_, fun _ => hs⟩
    obtain ⟨rfl, hsig⟩ := Option.filter_eq_some_iff.mp he'
    rw [expired_rail hx', candidates_rail hx] at hsig
    cases hsig

/-! ## Signature collection -/

theorem Fresh.stays {α : Type} (hf : Fresh h) :
    Exits (fun h' (_ : Except Err α) => Fresh h') h :=
  fun _ _ hext => hf.extends hext

theorem neutral_buildUnsigned (t : EscrowType) (k : SettlementKind) (keys : ParticipantPubkeys) :
    Neutral (buildUnsigned t k keys) := by
  refine Makes.bind (fun _ => ?_) (makes_require _ _)
  split
  · exact makes_throw _
  · exact neutral_await rfl

/-- From the keys on : the transaction is built and its row created. -/
theorem createPending_fresh {t : EscrowType} {k : SettlementKind} {signers : List ℕ} {a : Actor}
    {prov : Option Provenance} {e : Escrow} (hf : Fresh h)
    (hread : (Footprint.of h).lastRead = some e) (hv : ValidTransition e.status k.target)
    (hprov : prov = none ↔ e.status ≠ .disputed) :
    Disciplined cfg type req (do
      checkFundMovementCapability cfg
      let existing ← await .findPending
      require existing.isNone .alreadyPending
      let keys ← await .loadParticipantPubkeys
      buildUnsigned t k keys
      await (.createPending k signers a prov)) (fun h' _ => Fresh h') h := by
  refine disciplined_tame (neutral_capability cfg) hf.idle hf.stays fun _ h₁ hext₁ => ?_
  replace hf := hf.extends hext₁
  refine disciplined_await rfl hf.idle hf.stays fun _ => ?_
  refine disciplined_require hf.stays fun _ => ?_
  refine (tame_loadPubkeys (P := fun _ => True)).disciplined hf.idle trivial hf.stays
    fun keys h₂ hext₂ => ?_
  replace hf := hf.extends hext₂
  refine disciplined_tame (neutral_buildUnsigned t k keys) hf.idle hf.stays fun _ h₃ hext₃ => ?_
  replace hf := hf.extends hext₃
  have hread' : (Footprint.of h₃).lastRead = some e :=
    (((hext₁.trans hext₂).trans hext₃).field Footprint.lastRead fun _ => rfl).trans hread
  exact disciplined_silent_last rfl ⟨(hf.idle.publish _).1, (hf.idle.publish _).2,
    e, hread', hv, hprov⟩ (fun _ => hf.failed)
    (fun _ _ => hf.extends (Footprint.Extends.refused_next hf.idle)) (fun _ => hf)

/-- The start of a signature collection claims nothing. -/
theorem initiateSignatureCollectionCore_fresh {k : SettlementKind} {a : Actor} (hf : Fresh h) :
    Disciplined cfg type req (initiateSignatureCollectionCore cfg k a) (fun h' _ => Fresh h')
      h := by
  refine disciplined_findById hf.idle hf.stays fun e => ?_
  replace hf := hf.read e
  have hread : (Footprint.of (.read e :: h)).lastRead = some e := rfl
  refine disciplined_require hf.stays fun _ => ?_
  refine disciplined_require hf.stays fun hv => ?_
  replace hv := of_decide_eq_true hv
  refine disciplined_tame (Makes.when (neutral_fundingNotUncertain _) _) hf.idle hf.stays
    fun _ h₁ hext₁ => ?_
  replace hf := hf.extends hext₁
  replace hread := (hext₁.field Footprint.lastRead fun _ => rfl).trans hread
  refine disciplined_await rfl hf.idle hf.stays fun t => ?_
  by_cases hd : e.status = .disputed
  · rw [if_pos hd]
    refine (guarded_bind _ _ _).mpr ?_
    refine disciplined_tame (neutral_authority a) hf.idle (fun _ _ hext => hf.extends hext)
      fun d h₂ hext₂ => ?_
    refine createPending_fresh (hf.extends hext₂)
      ((hext₂.field Footprint.lastRead fun _ => rfl).trans hread) hv ?_
    exact iff_of_false (by simp) (not_not.mpr hd)
  · rw [if_neg hd]
    refine (guarded_bind _ _ _).mpr ?_
    refine disciplined_tame (neutral_isSeller _ a) hf.idle (fun _ _ hext => hf.extends hext)
      fun _ h₂ hext₂ => ?_
    replace hf := hf.extends hext₂
    refine disciplined_require (fun _ _ hext => hf.extends hext) fun _ => ?_
    exact createPending_fresh hf ((hext₂.field Footprint.lastRead fun _ => rfl).trans hread) hv
      (iff_of_true rfl hd)

theorem initiateRelease_fresh {a : Actor} (hf : Fresh h) :
    Disciplined cfg type req (initiateRelease cfg a) (fun h' _ => Fresh h') h := by
  refine disciplined_findById hf.idle hf.stays fun e => ?_
  replace hf := hf.read e
  refine disciplined_tame (neutral_dualApproval cfg _) hf.idle hf.stays fun _ h₁ hext => ?_
  replace hf := hf.extends hext
  refine disciplined_await rfl hf.idle hf.stays fun _ => ?_
  refine disciplined_await rfl hf.idle hf.stays fun _ => ?_
  exact initiateSignatureCollectionCore_fresh hf

theorem initiateRefund_fresh {a : Actor} (hf : Fresh h) :
    Disciplined cfg type req (initiateRefund cfg a) (fun h' _ => Fresh h') h := by
  refine disciplined_findById hf.idle hf.stays fun e => ?_
  replace hf := hf.read e
  refine disciplined_await rfl hf.idle hf.stays fun _ => ?_
  refine disciplined_await rfl hf.idle hf.stays fun _ => ?_
  exact initiateSignatureCollectionCore_fresh hf

theorem initiateSplit_fresh {a : Actor} {bps : ℕ} (hf : Fresh h) :
    Disciplined cfg type req (initiateSplit cfg bps a) (fun h' _ => Fresh h') h := by
  refine disciplined_require hf.stays fun _ => ?_
  refine disciplined_findById hf.idle hf.stays fun e => ?_
  replace hf := hf.read e
  refine disciplined_await rfl hf.idle hf.stays fun _ => ?_
  refine disciplined_await rfl hf.idle hf.stays fun _ => ?_
  exact initiateSignatureCollectionCore_fresh hf

/-- The body of `submitTransactionSignature` under its claim. -/
theorem finalize_underClaim {p : Pending} {src from' : EscrowStatus} {b : Bool}
    (hh : Held src p.kind.target h) (hm : (Footprint.of h).moved = false)
    (hrev : req.reverts p.kind.target = true) :
    Disciplined cfg type req (do
      await (.check .finalize)
      let txId ← await (.broadcast .live p.kind)
      await (.updateResult p.kind txId)
      await (.quiet .recordObligation)
      when b (await (.quiet .recordBroadcastEvidence))
      await (.quiet .recordCorrespondence)
      emitEscrowTransition from' p.kind.target p.triggeredBy
      await (.deletePending p.id)) (UnderClaim req src p.kind.target) h := by
  refine disciplined_await rfl hh.idle (hh.exits hm) fun _ => ?_
  have hbroadcast : Tame cfg type req (fun h => (Footprint.of h).Holds src p.kind.target)
      (await (.broadcast .live p.kind)) :=
    tame_broadcast fun h hidle hholds => ⟨(hidle.publish _).1, (hidle.publish _).2, src, hholds⟩
  refine hbroadcast.disciplined hh.idle hh.holds (hh.exits hm) fun txId h₁ hext => ?_
  replace hh := hh.extends hext
  refine disciplined_silent rfl ⟨(hh.idle.publish _).1, (hh.idle.publish _).2, ⟨src, hh.holds⟩,
    Or.inl hrev⟩ (fun _ => hh.failed) (fun hr => by cases hr) fun _ => ?_
  refine disciplined_unfailing rfl rfl hh.idle fun _ => ?_
  have hemit : Disciplined cfg type req (do
      await (.quiet .recordCorrespondence)
      emitEscrowTransition from' p.kind.target p.triggeredBy
      await (.deletePending p.id)) (UnderClaim req src p.kind.target) h₁ := by
    refine disciplined_unfailing rfl rfl hh.idle fun _ => (guarded_bind _ _ _).mpr ?_
    refine (emit_underClaim hh fun hk => ?_).mono fun h₂ r hr => ?_
    · have := p.kind.terminal_target
      rw [hk] at this
      cases this
    · cases r with
      | error e => exact hr
      | ok _ => exact disciplined_unfailing_last rfl rfl hr.idle fun _ => hr
  cases b with
  | false => exact hemit
  | true => exact disciplined_unfailing rfl rfl hh.idle fun _ => hemit

/-- `submitTransactionSignature` leaves nothing owed. -/
theorem submitTransactionSignature_settled {p : ℕ} (hf : Fresh h) (hrec : req.reconciles = false) :
    Disciplined cfg type req (submitTransactionSignature cfg p) (fun h' _ => Settled req h')
      h := by
  refine disciplined_findById hf.idle hf.exits fun e => ?_
  replace hf := hf.read e
  refine disciplined_await rfl hf.idle hf.exits fun found => ?_
  refine disciplined_orThrow hf.exits fun pending _ => ?_
  refine disciplined_require hf.exits fun _ => ?_
  refine disciplined_await rfl hf.idle hf.exits fun _ => ?_
  refine disciplined_await rfl hf.idle hf.exits fun signers => ?_
  refine (guarded_when _ _).mpr ⟨fun _ => ?_, fun _ => hf.settled⟩
  refine disciplined_require hf.exits fun _ => ?_
  refine disciplined_require hf.exits fun _ => ?_
  refine disciplined_await rfl hf.idle hf.exits fun _ => ?_
  refine disciplined_tame (Makes.when (neutral_await rfl) _) hf.idle hf.exits fun _ h₁ hext => ?_
  replace hf := hf.extends hext
  refine disciplined_claim hf.idle hf.claim hf.undo hf.exits fun _ => ?_
  have hrev : req.reverts pending.kind.target = true := by
    simp [Request.reverts, pending.kind.terminal_target, hrec]
  refine orRevert_settled hrev ?_
  exact finalize_underClaim (hf.claimed e.status pending.kind.target) hf.moved hrev

/-! ## Reconciliation -/

/-- The reconciliation of one pending row keeps what holds of its thread. -/
theorem reconcilePendingSettlement_tame {P : List Obs → Prop} {pass : Pass} {e : Escrow}
    {keys : ParticipantPubkeys} {p : Pending} {before : Op Unit}
    (hP : ∀ h h', P h → (Footprint.of h).Extends (Footprint.of h') → P h')
    (hguard : ∀ h, (Footprint.of h).Idle → P h → Guard req h (.broadcast pass p.kind))
    (hbefore : Neutral before) :
    Tame cfg type req P (reconcilePendingSettlement pass e keys p before) := by
  refine Tame.bind hP (tame_neutral (neutral_await rfl)) fun _ => ?_
  refine Tame.bind hP (tame_neutral (neutral_await rfl)) fun known => ?_
  split
  · exact tame_neutral (makes_pure _)
  · split
    · exact tame_neutral (makes_pure _)
    · split
      · exact tame_neutral (makes_throw _)
      · refine Tame.bind hP (tame_neutral (neutral_await rfl)) fun stillUnspent => ?_
        split
        · refine Tame.bind hP (tame_neutral hbefore) fun _ => ?_
          exact Tame.bind hP (tame_broadcast hguard) fun _ => tame_neutral (makes_pure _)
        · exact tame_neutral (makes_pure _)

/-- The effects of a completion settle what is owed. -/
theorem applyDownstreamCompletionEffects_settled {t : EscrowStatus} {a : Actor}
    {pending : Option Pending} (ho : Owes req t h) (hrev : req.reverts t = false) :
    Disciplined cfg type req (applyDownstreamCompletionEffects t a pending)
      (fun h' _ => Settled req h') h := by
  have heffects : Disciplined cfg type req (do
      let last ← await .lastEvent
      emitEscrowTransition ((last.map EscrowEvent.toStatus).getD t) t a
      await (.quiet .recordCorrespondence)
      forSome pending fun p => await (.deletePending p.id)) (fun h' _ => Settled req h') h := by
    refine disciplined_silent rfl (guard_of_neutral rfl ho.idle) (fun _ => ho.failed hrev)
      (fun hr => by cases hr) fun last => ?_
    refine disciplined_settled (emit_settled ho hrev) fun _ h₁ hs => ?_
    refine disciplined_unfailing rfl rfl hs.idle fun _ => ?_
    refine (guarded_forSome _ _).mpr ⟨fun p _ => ?_, fun _ => hs⟩
    exact disciplined_unfailing_last rfl rfl hs.idle fun _ => hs
  refine (guarded_bind _ _ _).mpr ((guarded_when _ _).mpr ⟨fun _ => ?_, fun _ => heffects⟩)
  refine disciplined_unfailing rfl rfl ho.idle fun _ => ?_
  exact disciplined_unfailing_last rfl rfl ho.idle fun _ => heffects

/-- The claim of a recovered settlement, which another operation may have taken. -/
theorem resumeUnclaimed_claim {src : EscrowStatus} {p : Pending} {txId : ℕ} (hf : Fresh h)
    (hrec : req.reconciles = true) :
    Disciplined cfg type req (do
      let claimed ← (do
          claimEscrowTransition src p.kind.target
          pure true : Op Bool).tryCatch fun e =>
        if e = .alreadyTransitioned then pure false else throw e
      when claimed do
        await (.updateResult p.kind txId)
        applyDownstreamCompletionEffects p.kind.target p.triggeredBy (some p))
      (fun h' _ => Settled req h') h := by
  refine (guarded_bind _ _ _).mpr ((guarded_tryCatch _ _ _).mpr ?_)
  refine disciplined_claim hf.idle hf.claim hf.undo (fun h' e hext => ?_) fun _ => ?_
  · refine (guarded_ite _ _ _).mpr ⟨fun _ => (hf.extends hext).settled,
      fun _ => (hf.extends hext).settled⟩
  · have hh := hf.claimed src p.kind.target
    have hrev : req.reverts p.kind.target = false := by
      cases p.kind <;> simp [Request.reverts, SettlementKind.target, hrec]
    have ho : Owes req p.kind.target (.claimed src p.kind.target :: h) := hh.owes fun hk => by
      have := p.kind.terminal_target
      rw [hk] at this
      cases this
    exact disciplined_silent rfl ⟨(hh.idle.publish _).1, (hh.idle.publish _).2,
      ⟨src, hh.holds⟩, Or.inr rfl⟩ (fun _ => ho.failed hrev) (fun hr => by cases hr)
      fun _ => applyDownstreamCompletionEffects_settled ho hrev

/-- A pending row that is resumed leaves nothing owed. -/
theorem resumeUnclaimed_settled {p : Pending} {signers : List ℕ} {e : Escrow} (hf : Fresh h)
    (hrec : req.reconciles = true) :
    Disciplined cfg type req (resumeUnclaimed cfg p signers e) (fun h' _ => Settled req h') h := by
  refine (guarded_when _ _).mpr ⟨fun _ => ?_, fun _ => hf.settled⟩
  refine disciplined_await rfl hf.idle hf.exits fun _ => ?_
  refine (tame_loadPubkeys (P := fun _ => True)).disciplined hf.idle trivial hf.exits
    fun keys h₁ hext => ?_
  replace hf := hf.extends hext
  have htame : Tame cfg type req (fun _ => True)
      (reconcilePendingSettlement .unclaimed e keys p do
        await (.authorizeDisposition p)
        authorizePendingExecution cfg) :=
    reconcilePendingSettlement_tame (fun _ _ _ _ => trivial)
      (fun h hidle _ => ⟨(hidle.publish _).1, (hidle.publish _).2, trivial⟩)
      (Makes.bind (fun _ => Makes.when (neutral_await rfl) _) (neutral_await rfl))
  refine htame.disciplined hf.idle trivial hf.exits fun result h₂ hext => ?_
  replace hf := hf.extends hext
  refine (guarded_forSome _ _).mpr ⟨fun txId _ => ?_, fun _ => hf.settled⟩
  exact resumeUnclaimed_claim hf hrec

/-- Settled, with a failure when the pass threw. -/
def PassEnds (req : Request) (h : List Obs) (r : Except Err Unit) : Prop :=
  Settled req h ∧ ∀ e, r = .error e → (Footprint.of h).failed = true

theorem reconcileUnclaimed_ends (hf : Fresh h) (hrec : req.reconciles = true) :
    Disciplined cfg type req (reconcileUnclaimedFullySignedPending cfg) (PassEnds req) h := by
  refine disciplined_silent rfl (guard_of_neutral rfl hf.idle)
    (fun _ => ⟨hf.failed.settled, fun _ _ => rfl⟩) (fun hr => by cases hr) fun candidates => ?_
  refine (guarded_forSome _ _).mpr ⟨fun c _ => (guarded_swallow _ _).mpr ?_,
    fun _ => ⟨hf.settled, fun _ hr => by cases hr⟩⟩
  exact (resumeUnclaimed_settled hf hrec).mono fun h' _ hs => ⟨hs, fun _ hr => by cases hr⟩

/-- A recovery pass never reverts a terminal status. -/
theorem reverts_of_reconciles {t : EscrowStatus} (hrec : req.reconciles = true)
    (ht : t.terminal = true) : req.reverts t = false := by
  cases t <;> simp_all [Request.reverts, EscrowStatus.terminal]

theorem MayRecord.of_snapshot {t : EscrowStatus} (hrec : req.reconciles = true)
    (ht : t.terminal = true) (hsnap : (Footprint.of h).snapshot = some t) :
    MayRecord req t h := by
  refine ⟨Or.inr ⟨hrec, Or.inl hsnap⟩, ?_⟩
  rintro rfl
  cases ht

/-- The recovery of one transaction id leaves nothing owed. -/
theorem reconcileTxReleaseId_settled {e : Escrow} (hs : Settled req h)
    (hrec : req.reconciles = true) (hsnap : (Footprint.of h).snapshot = some e.status) :
    Disciplined cfg type req (reconcileTxReleaseId e) (fun h' _ => Settled req h') h := by
  refine (guarded_when _ _).mpr ⟨fun _ => ?_, fun _ => hs⟩
  refine disciplined_await rfl hs.idle hs.exits fun found => ?_
  refine (guarded_forSome _ _).mpr ⟨fun p _ => ?_, fun _ => hs⟩
  refine disciplined_await rfl hs.idle hs.exits fun signers => ?_
  refine (guarded_when _ _).mpr ⟨fun hk => ?_, fun _ => hs⟩
  have htarget : p.kind.target = e.status :=
    of_decide_eq_true (Bool.and_eq_true_iff.mp hk).1
  rw [← htarget] at hsnap
  refine disciplined_await rfl hs.idle hs.exits fun _ => ?_
  refine (tame_loadPubkeys (P := fun _ => True)).disciplined hs.idle trivial hs.exits
    fun keys h₁ hext₁ => ?_
  replace hs := hs.extends hext₁
  replace hsnap := (hext₁.field Footprint.snapshot fun _ => rfl).trans hsnap
  have htame : Tame cfg type req (fun h => (Footprint.of h).snapshot = some p.kind.target)
      (reconcilePendingSettlement .missingTxId e keys p (pure ())) :=
    reconcilePendingSettlement_tame
      (fun h h' hsnap hext => (hext.field Footprint.snapshot fun _ => rfl).trans hsnap)
      (fun h hidle hsnap => ⟨(hidle.publish _).1, (hidle.publish _).2, hsnap⟩) (makes_pure _)
  refine htame.disciplined hs.idle hsnap hs.exits fun result h₂ hext₂ => ?_
  replace hs := hs.extends hext₂
  replace hsnap := (hext₂.field Footprint.snapshot fun _ => rfl).trans hsnap
  have ho : Owes req p.kind.target h₂ :=
    hs.owes (MayRecord.of_snapshot hrec p.kind.terminal_target hsnap)
  have hrev := reverts_of_reconciles hrec p.kind.terminal_target
  refine (guarded_forSome _ _).mpr ⟨fun txId _ => ?_, fun _ => hs⟩
  refine (guarded_bind _ _ _).mpr ⟨⟨(hs.idle.publish _).1, (hs.idle.publish _).2, hsnap⟩,
    fun s r _ => ?_⟩
  cases r with
  | error e => exact ho.failed hrev
  | ok b =>
    cases b with
    | false => exact applyDownstreamCompletionEffects_settled ho hrev
    | true =>
      refine applyDownstreamCompletionEffects_settled ⟨ho.idle, ho.may, ho.claim, ho.completion,
        fun t' ht => Or.inl (Option.some.inj ht).symm⟩ hrev

/-- The second pass ends settled. -/
theorem reconcileTxReleaseIds_ends (hs : Settled req h) (hrec : req.reconciles = true) :
    Disciplined cfg type req reconcileTxReleaseIds (PassEnds req) h := by
  refine (guarded_bind _ _ _).mpr ⟨⟨(hs.idle.publish _).1, (hs.idle.publish _).2, trivial⟩,
    fun s r _ => ?_⟩
  cases r with
  | error e => exact ⟨hs.extends (Footprint.Extends.failed_next hs.idle), fun _ _ => rfl⟩
  | ok candidates =>
    cases candidates with
    | none => exact ⟨hs, fun _ hr => by cases hr⟩
    | some e =>
      have hs' : Settled req (.snapshot e.status :: h) :=
        ⟨hs.idle, hs.claim, hs.completion, hs.txId⟩
      refine (guarded_swallow _ _).mpr ?_
      exact (reconcileTxReleaseId_settled hs' hrec rfl).mono
        fun h' _ hs => ⟨hs, fun _ hr => by cases hr⟩

theorem reconstructForCorrespondence_disciplined {t : EscrowStatus} {e : Escrow}
    {f : Unit → Op Unit} (ho : Owes req t h) (hreq : req = .reconcilePendingSettlements)
    (hrev : req.reverts t = false)
    (hk : ∀ h', (Footprint.of h).Extends (Footprint.of h') →
      Disciplined cfg type req (f ()) (fun h' _ => Settled req h') h') :
    Disciplined cfg type req (reconstructForCorrespondence e >>= f)
      (fun h' _ => Settled req h') h := by
  have hlast : ∀ h', (Footprint.of h).Extends (Footprint.of h') →
      Disciplined cfg type req (await (.quiet .recordCorrespondence) >>= f)
        (fun h' _ => Settled req h') h' := fun h' hext =>
    disciplined_unfailing rfl rfl (hext.idle ho.idle) fun _ => hk h' hext
  refine (guarded_bind _ _ _).mpr ?_
  refine disciplined_silent rfl (guard_of_neutral rfl ho.idle) (fun _ => ho.failed hrev)
    (fun hr => by cases hr) fun found => (guarded_bind _ _ _).mpr ?_
  refine (guarded_forSome _ _).mpr ⟨fun p _ => ?_, fun _ =>
    (guarded_bind _ _ _).mp (hlast h (Footprint.Extends.refl _))⟩
  refine disciplined_silent rfl (guard_of_neutral rfl ho.idle) (fun _ => ho.failed hrev)
    (fun hr => by cases hr) fun signers => ?_
  refine (guarded_when _ _).mpr ⟨fun _ => (guarded_swallow _ _).mpr ?_, fun _ =>
    (guarded_bind _ _ _).mp (hlast h (Footprint.Extends.refl _))⟩
  have htame : ∀ keys, Tame cfg type req (fun _ => True)
      (reconcilePendingSettlement .missingEffects e keys p (pure ())) := fun keys =>
    reconcilePendingSettlement_tame (fun _ _ _ _ => trivial)
      (fun h hidle _ => ⟨(hidle.publish _).1, (hidle.publish _).2, hreq⟩) (makes_pure _)
  have hbody : Tame cfg type req (fun _ => True) (do
      let _ ← await .findTrade
      let keys ← await .loadParticipantPubkeys
      let _ ← reconcilePendingSettlement .missingEffects e keys p (pure ())
      pure ()) :=
    Tame.bind (fun _ _ _ _ => trivial) (tame_neutral (neutral_await rfl)) fun _ =>
      Tame.bind (fun _ _ _ _ => trivial) tame_loadPubkeys fun keys =>
        Tame.bind (fun _ _ _ _ => trivial) (htame keys) fun _ => tame_neutral (makes_pure _)
  exact (hbody h ho.idle trivial).mono fun h' _ hext =>
    (guarded_bind _ _ _).mp (hlast h' hext)

/-- The completion of one escrow leaves nothing owed. -/
theorem reconcileMissingCompletionEffects_settled {e : Escrow} (ho : Owes req e.status h)
    (hreq : req = .reconcilePendingSettlements) (hrev : req.reverts e.status = false) :
    Disciplined cfg type req (reconcileMissingCompletionEffects e)
      (fun h' _ => Settled req h') h := by
  have hemit : ∀ {emitted : Bool} {h : List Obs}, Owes req e.status h →
      (emitted = true → Settled req h) → Disciplined cfg type req (when (!emitted) do
        let trade ← await .findTrade
        let pending ← await .findPending
        applyDownstreamCompletionEffects e.status
          ((pending.map Pending.triggeredBy).getD (.user trade.sellerId)) pending)
        (fun h' _ => Settled req h') h := by
    intro emitted h ho hs
    refine (guarded_when _ _).mpr ⟨fun _ => ?_, fun hn => hs (by simpa using hn)⟩
    refine disciplined_silent rfl (guard_of_neutral rfl ho.idle) (fun _ => ho.failed hrev)
      (fun hr => by cases hr) fun _ => ?_
    refine disciplined_silent rfl (guard_of_neutral rfl ho.idle) (fun _ => ho.failed hrev)
      (fun hr => by cases hr) fun _ => ?_
    exact applyDownstreamCompletionEffects_settled ho hrev
  have hrest : ∀ {emitted : Bool} {h : List Obs}, Owes req e.status h →
      (emitted = true → Settled req h) → Disciplined cfg type req (do
        when (decide (e.type = .multisig)) (reconstructForCorrespondence e)
        when (!emitted) do
          let trade ← await .findTrade
          let pending ← await .findPending
          applyDownstreamCompletionEffects e.status
            ((pending.map Pending.triggeredBy).getD (.user trade.sellerId)) pending)
        (fun h' _ => Settled req h') h := by
    intro emitted h ho hs
    cases hm : decide (e.type = .multisig) with
    | false => exact hemit ho hs
    | true =>
      exact reconstructForCorrespondence_disciplined ho hreq hrev fun h' hext =>
        hemit (ho.extends hext) fun hn => (hs hn).extends hext
  refine (guarded_bind _ _ _).mpr ⟨⟨(ho.idle.publish _).1, (ho.idle.publish _).2, trivial⟩,
    fun s r _ => ?_⟩
  cases r with
  | error e => exact ho.failed hrev
  | ok b =>
    cases b with
    | false => exact hrest ho fun hn => by cases hn
    | true => exact hrest ho.row fun _ => ho.found

theorem completion_terminal {s : World} {e : Escrow}
    (hr : Config.Answerable (escrowSystem cfg) (OnRail type)
      .findTerminalWithTxReleaseId s (.ok (some e))) : e.status.terminal = true := by
  obtain ⟨-, ⟨fault, _⟩, he⟩ := hr
  cases fault with
  | some f => cases he
  | none =>
    simp only [escrowSystem, Call.exec, Call.run, Except.ok.injEq, Option.ite_none_right_eq_some,
      Option.some.injEq] at he
    exact he.2 ▸ he.1.1

/-- A log with a completion snapshot keeps one. -/
theorem completion_ne_none {t : Option EscrowStatus} (hmem : .completionSnapshot t ∈ h) :
    (Footprint.of h).completion ≠ none := by
  induction h with
  | nil => cases hmem
  | cons o h ih =>
    rcases List.mem_cons.mp hmem with rfl | hmem'
    · exact Option.some_ne_none _
    · cases o <;> first | exact ih hmem' | exact Option.some_ne_none _

/-- The last loop of `reconcilePendingSettlements`. -/
theorem reconcileCompletions_done (hs : Settled req h)
    (hreq : req = .reconcilePendingSettlements) :
    Disciplined cfg type req (do
      let candidates ← await .findTerminalWithTxReleaseId
      forSome candidates fun escrow => swallow (reconcileMissingCompletionEffects escrow))
      (fun h' _ => Done req h') h := by
  have hrec : req.reconciles = true := by rw [hreq]; rfl
  refine (guarded_bind _ _ _).mpr ⟨⟨(hs.idle.publish _).1, (hs.idle.publish _).2, trivial⟩,
    fun s r hr => ?_⟩
  cases r with
  | error e =>
    exact ⟨hs.extends (Footprint.Extends.failed_next hs.idle), fun _ => Or.inr rfl⟩
  | ok candidates =>
    cases candidates with
    | none =>
      exact ⟨⟨hs.idle, hs.claim, fun _ ht => (by cases ht), hs.txId⟩, fun _ => Or.inl
        (Option.some_ne_none _)⟩
    | some e =>
      have hterm := completion_terminal hr
      have ho : Owes req e.status (.completionSnapshot (some e.status) :: h) := by
        refine ⟨hs.idle, ⟨Or.inr ⟨hrec, Or.inr rfl⟩, fun ht => ?_⟩,
          fun src dst hh => Or.inr (hs.claim src dst hh), fun t ht => ?_,
          fun t ht => Or.inr (hs.txId t ht)⟩
        · rw [ht] at hterm
          cases hterm
        · exact Or.inl (Option.some.inj (Option.some.inj ht)).symm
      refine (guarded_swallow _ _).mpr ?_
      refine (reconcileMissingCompletionEffects_settled ho hreq
        (reverts_of_reconciles hrec hterm)).suffix.mono fun h' _ hend => ?_
      exact ⟨hend.2, fun _ => Or.inl
        (completion_ne_none (hend.1.subset List.mem_cons_self))⟩

/-- The reconciliation leaves nothing owed. -/
theorem reconcilePendingSettlements_done (hf : Fresh h)
    (hreq : req = .reconcilePendingSettlements) :
    Disciplined cfg type req (reconcilePendingSettlements cfg) (fun h' _ => Done req h') h := by
  have hrec : req.reconciles = true := by rw [hreq]; rfl
  refine (guarded_bind _ _ _).mpr ((reconcileUnclaimed_ends hf hrec).mono fun h₁ r hr => ?_)
  cases r with
  | error e => exact ⟨hr.1, fun _ => Or.inr (hr.2 e rfl)⟩
  | ok _ =>
    refine (guarded_bind _ _ _).mpr ((reconcileTxReleaseIds_ends hr.1 hrec).mono
      fun h₂ r hr => ?_)
    cases r with
    | error e => exact ⟨hr.1, fun _ => Or.inr (hr.2 e rfl)⟩
    | ok _ => exact reconcileCompletions_done hr.1 hreq

/-! ## Keys -/

/-- The derivation of the deposit address and the commitment of the arbiter key. -/
theorem deriveAddress_settled {e : Escrow} {b k : SubmittedKey} (hf : Fresh h)
    (hread : (Footprint.of h).lastRead = some e) (hkeys : (Footprint.of h).keysRead = some (b, k)) :
    Disciplined cfg type req (do
      let deposit ← await (.getDepositAddress e.type b k)
      await (.updateMultisigAddr deposit.address)
      forSome deposit.arbiterPubkey fun a => await (.createArbiterKey a))
      (fun h' _ => Settled req h') h := by
  refine (guarded_bind _ _ _).mpr ⟨⟨(hf.idle.publish _).1, (hf.idle.publish _).2, hkeys, e,
    hread, rfl⟩, fun s r _ => ?_⟩
  cases r with
  | error e => exact hf.failed.settled
  | ok deposit =>
    have hf' : Fresh (.derived e.type b k deposit :: h) :=
      ⟨hf.idle, hf.claim, hf.undo, hf.moved, hf.emitted, hf.completion, hf.txId⟩
    refine (guarded_bind _ _ _).mpr ⟨⟨(hf'.idle.publish _).1, (hf'.idle.publish _).2, e.type, b,
      k, deposit, rfl, rfl, ⟨e, hread, rfl⟩, hkeys⟩, fun s r _ => ?_⟩
    cases r with
    | error e => exact hf'.failed.settled
    | ok _ =>
      obtain ⟨addr, _ | a⟩ := deposit
      · exact Fresh.settled ⟨⟨hf.idle.1, rfl⟩, hf.claim, hf.undo, hf.moved, hf.emitted,
          hf.completion, hf.txId⟩
      · have hend : ∀ o, o = .arbiterWritten a ∨ o = .failed ∨ o = .refused → Settled req
            (o :: .addressWritten addr :: .derived e.type b k ⟨addr, some a⟩ :: h) := by
          rintro o (rfl | rfl | rfl) <;> refine Fresh.settled ⟨⟨?_, rfl⟩, hf.claim, hf.undo,
            hf.moved, hf.emitted, hf.completion, hf.txId⟩
          exacts [hf.idle.1, rfl, hf.idle.1]
        refine ⟨⟨fun t ht => ?_, fun k hk => ?_, rfl⟩, fun s r _ => ?_⟩
        · exact absurd (hf.idle.1.symm.trans ht) (by simp)
        · cases hk
          rfl
        · cases r with
          | ok _ => exact hend _ (Or.inl rfl)
          | error e =>
            change Settled req ((Call.createArbiterKey a).thrown e s ++ _)
            rcases thrown_of_refusable (q := .createArbiterKey a) rfl e s with ht | ht
            · rw [ht]
              exact hend _ (Or.inr (Or.inl rfl))
            · rw [ht]
              exact hend _ (Or.inr (Or.inr rfl))

/-- `submitParticipantKey` leaves nothing owed. -/
theorem submitParticipantKey_settled {p : ℕ} {hex : Hex} {profile : Option CapabilityProfile}
    (hf : Fresh h) :
    Disciplined cfg type req (submitParticipantKey cfg p hex profile)
      (fun h' _ => Settled req h') h := by
  refine disciplined_findById hf.idle hf.exits fun e => ?_
  replace hf := hf.read e
  refine disciplined_require hf.exits fun _ => ?_
  refine disciplined_await rfl hf.idle hf.exits fun t => ?_
  refine disciplined_orThrow hf.exits fun role _ => ?_
  refine disciplined_orThrow hf.exits fun key _ => ?_
  refine disciplined_require hf.exits fun _ => ?_
  refine disciplined_await rfl hf.idle hf.exits fun _ => ?_
  refine (guarded_bind _ _ _).mpr ⟨⟨(hf.idle.publish _).1, (hf.idle.publish _).2, trivial⟩,
    fun s r _ => ?_⟩
  cases r with
  | error e => exact hf.failed.settled
  | ok keys =>
    obtain ⟨_ | b, _ | k, arbiter⟩ := keys
    · exact hf.settled
    · exact hf.settled
    · exact hf.settled
    · have hf' : Fresh (.keysRead b.pubkey k.pubkey :: .read e :: h) :=
        ⟨hf.idle, hf.claim, hf.undo, hf.moved, hf.emitted, hf.completion, hf.txId⟩
      refine (guarded_when _ _).mpr ⟨fun _ => ?_, fun _ => hf'.settled⟩
      refine disciplined_require hf'.exits fun _ => ?_
      exact deriveAddress_settled hf' rfl rfl

/-! ## Disputes -/

/-- `raiseDispute` leaves nothing owed. -/
theorem raiseDispute_settled {p : ℕ} (hf : Fresh h) :
    Disciplined cfg type req (raiseDispute p) (fun h' _ => Settled req h') h := by
  refine disciplined_await rfl hf.idle hf.exits fun t => ?_
  refine disciplined_require hf.exits fun _ => ?_
  refine disciplined_settled (openDispute_settled hf) fun _ h₁ hs => ?_
  refine disciplined_await rfl hs.idle hs.exits fun _ => ?_
  refine disciplined_await rfl hs.idle hs.exits fun _ => ?_
  exact await_settled rfl hs

theorem initiateRuling_fresh {ruling : SettlementKind} {bps arbiter : ℕ} (hf : Fresh h) :
    Disciplined cfg type req (initiateRuling cfg ruling bps arbiter) (fun h' _ => Fresh h') h := by
  cases ruling with
  | release => exact initiateRelease_fresh hf
  | refund => exact initiateRefund_fresh hf
  | split => exact initiateSplit_fresh hf

/-- `executeRuling` leaves nothing owed. -/
theorem executeRuling_settled {ruling : SettlementKind} {bps arbiter : ℕ} (hf : Fresh h)
    (hrec : req.reconciles = false) :
    Disciplined cfg type req (executeRuling cfg ruling bps arbiter)
      (fun h' _ => Settled req h') h := by
  cases ruling with
  | release => exact releaseFunds_settled hf hrec
  | refund => exact refundFunds_settled hf hrec
  | split => exact splitFunds_settled hf hrec

/-- A settled operation that takes its ruling back, or announces it. -/
theorem orRevertRuling_settled {p : Op Unit} {claimed : Dispute} {status : DisputeStatus}
    (hp : Disciplined cfg type req p (fun h' _ => Settled req h') h) :
    Disciplined cfg type req (do
      p.tryCatch fun e => do
        await (.revertRuling claimed status)
        throw e
      await .emitDisputeEvent) (fun h' _ => Settled req h') h := by
  refine disciplined_settled ((guarded_tryCatch _ _ _).mpr (hp.mono fun h' r hs => ?_))
    fun _ h' hs => ?_
  · cases r with
    | ok _ => exact hs
    | error e => exact disciplined_await rfl hs.idle hs.exits fun _ => hs
  · exact await_settled rfl hs

/-- `applyRuling` leaves nothing owed. -/
theorem applyRuling_settled {status : DisputeStatus} {ruling : SettlementKind}
    {bps arbiter sig : ℕ} (hf : Fresh h) (hrec : req.reconciles = false) :
    Disciplined cfg type req (applyRuling cfg status ruling bps arbiter sig)
      (fun h' _ => Settled req h') h := by
  refine disciplined_await rfl hf.idle hf.exits fun claimed => orRevertRuling_settled ?_
  refine disciplined_findById hf.idle hf.exits fun e => ?_
  replace hf := hf.read e
  refine (guarded_ite _ _ _).mpr ⟨fun _ => ?_, fun _ => executeRuling_settled hf hrec⟩
  refine disciplined_settled ((initiateRuling_fresh hf).mono fun _ _ hf => hf.settled)
    fun _ _ hs => hs

theorem applyRulingCoreAuthoritative_settled {status : DisputeStatus} {ruling : SettlementKind}
    {bps arbiter sig : ℕ} (hf : Fresh h) :
    Disciplined cfg type req (applyRulingCoreAuthoritative cfg status ruling bps arbiter sig)
      (fun h' _ => Settled req h') h := by
  refine disciplined_await rfl hf.idle hf.exits fun claimed => orRevertRuling_settled ?_
  refine disciplined_await rfl hf.idle hf.exits fun _ => ?_
  refine disciplined_require hf.exits fun _ => ?_
  refine disciplined_settled ((initiateRuling_fresh hf).mono fun _ _ hf => hf.settled)
    fun _ h' hs => (guarded_tryCatch _ _ _).mpr ?_
  have hcatch : ∀ {e : Err} {h'' : List Obs}, Settled req h'' → Disciplined cfg type req (do
      await .deletePendingOfEscrow
      throw e) (fun h' (_ : Except Err Unit) => Settled req h') h'' := fun hs =>
    disciplined_await rfl hs.idle hs.exits fun _ => hs
  exact disciplined_silent_last rfl (guard_of_neutral rfl hs.idle)
    (fun _ => hcatch (hs.extends (Footprint.Extends.failed_next hs.idle)))
    (fun _ _ => hcatch (hs.extends (Footprint.Extends.refused_next hs.idle))) (fun _ => hs)

/-- `resolveDispute` leaves nothing owed. -/
theorem resolveDispute_settled {arbiter bps sig : ℕ} {ruling : SettlementKind} (hf : Fresh h)
    (hrec : req.reconciles = false) :
    Disciplined cfg type req (resolveDispute cfg arbiter ruling bps sig)
      (fun h' _ => Settled req h') h := by
  refine disciplined_await rfl hf.idle hf.exits fun found => ?_
  refine disciplined_orThrow hf.exits fun d _ => ?_
  refine disciplined_require hf.exits fun _ => ?_
  refine disciplined_require hf.exits fun _ => ?_
  refine disciplined_await rfl hf.idle hf.exits fun _ => ?_
  refine disciplined_findById hf.idle hf.exits fun e => ?_
  replace hf := hf.read e
  refine disciplined_settled ((guarded_ite _ _ _).mpr
    ⟨fun _ => applyRulingCoreAuthoritative_settled hf, fun _ => applyRuling_settled hf hrec⟩)
    fun _ h' hs => ?_
  exact await_settled rfl hs

/-- `appeal` leaves nothing owed. -/
theorem appeal_settled {p : ℕ} (hf : Fresh h) :
    Disciplined cfg type req (appeal p) (fun h' _ => Settled req h') h := by
  refine disciplined_await rfl hf.idle hf.exits fun found => ?_
  refine disciplined_orThrow hf.exits fun d _ => ?_
  refine disciplined_require hf.exits fun _ => ?_
  refine disciplined_await rfl hf.idle hf.exits fun t => ?_
  refine disciplined_require hf.exits fun _ => ?_
  refine (tame_loadPubkeys (P := fun _ => True)).disciplined hf.idle trivial hf.exits
    fun keys h₁ hext => ?_
  replace hf := hf.extends hext
  refine disciplined_require hf.exits fun _ => ?_
  refine disciplined_await rfl hf.idle hf.exits fun _ => ?_
  refine disciplined_await rfl hf.idle hf.exits fun _ => ?_
  exact await_settled rfl hf.settled

/-! ## All requests -/

theorem fresh_nil : Fresh [] :=
  ⟨⟨rfl, rfl⟩, rfl, rfl, rfl, rfl, rfl, rfl⟩

/-- The passes of `Done` concern one request only. -/
theorem Settled.done (hs : Settled req h) (hreq : req ≠ .reconcilePendingSettlements) :
    Done req h :=
  ⟨hs, fun heq => absurd heq hreq⟩

/-- Every operation makes its calls under `Guard` and ends in `Done`. -/
theorem prog_disciplined (req : Request) :
    Disciplined cfg type req (req.prog cfg) (fun h _ => Done req h) [] := by
  have hdone : ∀ {p : Op Unit}, req ≠ .reconcilePendingSettlements →
      Disciplined cfg type req p (fun h _ => Settled req h) [] →
      Disciplined cfg type req p (fun h _ => Done req h) [] := fun hreq hp =>
    hp.mono fun _ _ hs => hs.done hreq
  have hignore : ∀ {p : Op Pending}, Disciplined cfg type req p (fun h _ => Fresh h) [] →
      Disciplined cfg type req (ignoreResult p) (fun h _ => Settled req h) [] := fun hp =>
    disciplined_settled (hp.mono fun _ _ hf => hf.settled) fun _ _ hs => hs
  cases req with
  | lockFunds a => exact hdone (by simp) (lockFunds_settled fresh_nil)
  | markPaymentSent a => exact hdone (by simp) (markPaymentSent_settled fresh_nil)
  | openDispute a => exact hdone (by simp) (openDispute_settled fresh_nil)
  | releaseFunds a => exact hdone (by simp) (releaseFunds_settled fresh_nil rfl)
  | refundFunds a => exact hdone (by simp) (refundFunds_settled fresh_nil rfl)
  | splitFunds bps a => exact hdone (by simp) (splitFunds_settled fresh_nil rfl)
  | sweepExpiredEscrows => exact hdone (by simp) (sweepExpiredEscrows_settled fresh_nil rfl)
  | initiateRelease a => exact hdone (by simp) (hignore (initiateRelease_fresh fresh_nil))
  | initiateRefund a => exact hdone (by simp) (hignore (initiateRefund_fresh fresh_nil))
  | initiateSplit bps a => exact hdone (by simp) (hignore (initiateSplit_fresh fresh_nil))
  | submitTransactionSignature p =>
    exact hdone (by simp) (submitTransactionSignature_settled fresh_nil rfl)
  | reconcileUnclaimedFullySignedPending =>
    exact hdone (by simp) ((reconcileUnclaimed_ends fresh_nil rfl).mono fun _ _ hs => hs.1)
  | reconcileTxReleaseIds =>
    exact hdone (by simp) ((reconcileTxReleaseIds_ends fresh_nil.settled rfl).mono
      fun _ _ hs => hs.1)
  | reconcilePendingSettlements => exact reconcilePendingSettlements_done fresh_nil rfl
  | submitParticipantKey p hex profile =>
    exact hdone (by simp) (submitParticipantKey_settled fresh_nil)
  | raiseDispute p => exact hdone (by simp) (raiseDispute_settled fresh_nil)
  | resolveDispute a ruling bps sig =>
    exact hdone (by simp) (resolveDispute_settled fresh_nil rfl)
  | appeal p => exact hdone (by simp) (appeal_settled fresh_nil)

/-- The rail of an escrow is kept by every call. -/
theorem onRail_exec (q : Call) (env : Env) (s : World) (hs : OnRail type s) :
    OnRail type (q.exec cfg env s).2 := by
  obtain ⟨fault, _⟩ := env
  cases fault with
  | some f => exact hs
  | none =>
    cases q <;> simp only [Call.exec, Call.run] <;> (repeat' split) <;> exact hs

end Sails
