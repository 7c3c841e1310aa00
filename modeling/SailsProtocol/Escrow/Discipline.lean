import SailsProtocol.Escrow.Requests

/-!
# What every operation does, in its own log

`Footprint` is what the observations of one operation say about it : the status it
claimed and whether it tried to take the claim back, whether its provider call
succeeded, the history rows it wrote or found, what a recovery pass read, and whether a
call failed since each of these. `Guard` says at which footprint an operation may make a
call, and `Done` what its footprint is when it returns or throws.
-/

namespace Sails

open Async Async.Prog

/-! ## Footprints -/

/-- How a revert ended. -/
inductive Undo
  | done
  | lost
  | failed
  deriving DecidableEq

/-- What the own log of an operation says about it. -/
structure Footprint where
  lastRead : Option Escrow := none
  loaded : Option ParticipantPubkeys := none
  claim : Option (EscrowStatus × EscrowStatus) := none
  undo : Option Undo := none
  locked : Option (EscrowType × ParticipantPubkeys × Address) := none
  moved : Bool := false
  /-- The statuses whose history row the operation wrote or found. -/
  rows : List EscrowStatus := []
  /-- A row was found, or written and published. -/
  emitted : Bool := false
  /-- The row written last, until its event is published. -/
  unpublished : Option EscrowStatus := none
  snapshot : Option EscrowStatus := none
  completion : Option (Option EscrowStatus) := none
  txIdWritten : Option EscrowStatus := none
  keysRead : Option (SubmittedKey × SubmittedKey) := none
  derived : Option (EscrowType × SubmittedKey × SubmittedKey × DepositAddress) := none
  /-- The arbiter key to commit, once the address is written. -/
  uncommitted : Option Bytes := none
  /-- A call failed after the funds moved and before the event was out. -/
  stranded : Bool := false
  /-- A call failed, at any time and since the claim, the completion snapshot and the
  written transaction id. -/
  failed : Bool := false
  failedSinceClaim : Bool := false
  failedSinceCompletion : Bool := false
  failedSinceTxId : Bool := false

namespace Footprint

/-- One more observation. -/
def next (f : Footprint) : Obs → Footprint
  | .failed => { f with
      unpublished := none, uncommitted := none,
      stranded := f.stranded || (f.moved && !f.emitted), failed := true,
      failedSinceClaim := true, failedSinceCompletion := true, failedSinceTxId := true }
  | .refused => { f with uncommitted := none }
  | .read e => { f with lastRead := some e }
  | .claimed src dst => { f with claim := some (src, dst), failedSinceClaim := false }
  | .reverted _ _ => { f with undo := some .done }
  | .revertLost _ _ => { f with undo := some .lost }
  | .revertFailed _ _ => { f with undo := some .failed }
  | .locked type keys a => { f with locked := some (type, keys, a) }
  | .moved _ => { f with moved := true }
  | .handedOver _ _ _ => f
  | .rowWritten t => { f with rows := t :: f.rows, unpublished := some t }
  | .rowFound t => { f with rows := t :: f.rows, emitted := true }
  | .published _ => { f with unpublished := none, emitted := true }
  | .snapshot t => { f with snapshot := some t }
  | .completionSnapshot t => { f with completion := some t, failedSinceCompletion := false }
  | .txIdWritten t => { f with txIdWritten := some t, failedSinceTxId := false }
  | .keysRead b s => { f with keysRead := some (b, s) }
  | .pubkeysLoaded k => { f with loaded := some k }
  | .derived type b s d => { f with derived := some (type, b, s, d) }
  | .addressWritten _ => { f with
      uncommitted := f.derived.bind fun d => d.2.2.2.arbiterPubkey }
  | .arbiterWritten _ => { f with uncommitted := none }

/-- The footprint of a log, newest observation first. -/
def of (h : List Obs) : Footprint :=
  h.foldr (fun o f => f.next o) {}

@[simp] theorem of_nil : of [] = {} :=
  rfl

@[simp] theorem of_cons (o : Obs) (h : List Obs) : of (o :: h) = (of h).next o :=
  rfl

/-- Nothing is left to publish or to commit. -/
def Idle (f : Footprint) : Prop :=
  f.unpublished = none ∧ f.uncommitted = none

/-- The operation holds the claim `src → dst`. -/
def Holds (f : Footprint) (src dst : EscrowStatus) : Prop :=
  f.claim = some (src, dst) ∧ f.undo = none

/-- The footprint without the failure flags and the keys loaded. -/
def core (f : Footprint) : Footprint :=
  { f with
    loaded := none, stranded := false, failed := false, failedSinceClaim := false,
    failedSinceCompletion := false, failedSinceTxId := false }

/-- `g` differs from `f` at most in the keys loaded and in failure flags that were raised. -/
structure Extends (f g : Footprint) : Prop where
  core : g.core = f.core
  stranded : f.stranded = true → g.stranded = true
  failed : f.failed = true → g.failed = true
  sinceClaim : f.failedSinceClaim = true → g.failedSinceClaim = true
  sinceCompletion : f.failedSinceCompletion = true → g.failedSinceCompletion = true
  sinceTxId : f.failedSinceTxId = true → g.failedSinceTxId = true

theorem Extends.refl (f : Footprint) : f.Extends f :=
  ⟨rfl, id, id, id, id, id⟩

theorem Extends.trans {f g k : Footprint} (hfg : f.Extends g) (hgk : g.Extends k) :
    f.Extends k :=
  ⟨hgk.core.trans hfg.core, fun h => hgk.stranded (hfg.stranded h),
    fun h => hgk.failed (hfg.failed h), fun h => hgk.sinceClaim (hfg.sinceClaim h),
    fun h => hgk.sinceCompletion (hfg.sinceCompletion h),
    fun h => hgk.sinceTxId (hfg.sinceTxId h)⟩

/-- A field of the core is kept. -/
theorem Extends.field {f g : Footprint} (hfg : f.Extends g) {γ : Type} (π : Footprint → γ)
    (hπ : ∀ k : Footprint, π k.core = π k) : π g = π f := by
  rw [← hπ g, hfg.core, hπ f]

theorem Extends.idle {f g : Footprint} (hfg : f.Extends g) (hidle : f.Idle) : g.Idle :=
  ⟨(hfg.field unpublished fun _ => rfl).trans hidle.1,
    (hfg.field uncommitted fun _ => rfl).trans hidle.2⟩

theorem Extends.failed_next {f : Footprint} (hidle : f.Idle) : f.Extends (f.next .failed) := by
  refine ⟨?_, fun hs => ?_, fun _ => rfl, fun _ => rfl, fun _ => rfl, fun _ => rfl⟩
  · simp [Footprint.next, Footprint.core, hidle.1, hidle.2]
  · simp [Footprint.next, hs]

theorem Extends.refused_next {f : Footprint} (hidle : f.Idle) :
    f.Extends (f.next .refused) := by
  refine ⟨?_, id, id, id, id, id⟩
  simp [Footprint.next, Footprint.core, hidle.2]

end Footprint

/-! ## The discipline -/

/-- The recovery passes. -/
def Request.reconciles : Request → Bool
  | .reconcileUnclaimedFullySignedPending | .reconcileTxReleaseIds
  | .reconcilePendingSettlements => true
  | _ => false

/-- A claim of `dst` is taken back when the operation of `req` throws under it. -/
def Request.reverts (req : Request) (dst : EscrowStatus) : Bool :=
  dst = .fundsLocked || (dst.terminal && !req.reconciles)

/-- The conditions under which an operation makes a call. -/
def Guard (req : Request) (h : List Obs) (q : Call) : Prop :=
  let f := Footprint.of h
  (∀ t, f.unpublished = some t → q = .publish t) ∧
  (∀ k, f.uncommitted = some k → q = .createArbiterKey k) ∧
  match q with
  | .claimTransition src dst => f.claim = none ∧ f.undo = none ∧ ValidTransition src dst
  | .claimPaymentPending src =>
    f.claim = none ∧ f.undo = none ∧ ValidTransition src .paymentPending
  | .commitTimelockExpiry => f.claim = none ∧ f.undo = none
  | .revertStatus dst src => f.Holds src dst ∧ req.reverts dst = true ∧
      (f.moved = true → f.stranded = true)
  | .providerLock _ keys => f.Holds .created .fundsLocked ∧
      ∀ k, keys.arbiterPubkey = some k → f.loaded = some keys
  | .updateLockResult r _ => f.Holds .created .fundsLocked ∧
      ∃ type keys, f.locked = some (type, keys, r.address) ∧
        (∃ e, f.lastRead = some e ∧ e.type = type)
  | .providerMove _ kind => (∃ src, f.Holds src kind.target) ∧ f.moved = false
  | .updateResult kind _ => (∃ src, f.Holds src kind.target) ∧
      (req.reverts kind.target = true ∨ f.failedSinceClaim = false)
  | .broadcast .live kind => ∃ src, f.Holds src kind.target
  | .broadcast .missingTxId kind => f.snapshot = some kind.target
  | .broadcast .missingEffects _ => req = .reconcilePendingSettlements
  | .recordEscrowEvent e => ((∃ src, f.Holds src e.toStatus) ∨
      (req.reconciles = true ∧
        (f.snapshot = some e.toStatus ∨ f.completion = some (some e.toStatus)))) ∧
      (e.toStatus = .fundsLocked → f.locked ≠ none)
  | .publish t => f.unpublished = some t
  | .writeMissingTxReleaseId t _ => f.snapshot = some t
  | .createPending kind _ _ prov => ∃ e, f.lastRead = some e ∧
      ValidTransition e.status kind.target ∧ (prov = none ↔ e.status ≠ .disputed)
  | .getDepositAddress type b s => f.keysRead = some (b, s) ∧
      ∃ e, f.lastRead = some e ∧ e.type = type
  | .updateMultisigAddr a => ∃ type b s d, f.derived = some (type, b, s, d) ∧ a = d.address ∧
      (∃ e, f.lastRead = some e ∧ e.type = type) ∧ f.keysRead = some (b, s)
  | .createArbiterKey k => f.uncommitted = some k
  | _ => True

/-- The calls without an observation of their own, allowed whenever nothing is left to
publish or to commit. -/
def Call.neutral : Call → Bool
  | .findTrade | .findPending | .findSigners _ | .isFundingUncertain | .findDispute
  | .lastEvent | .findUnclaimedPending | .findFundsLockedExpiryCandidates _
  | .findExpiredFundsLocked _ | .clock | .recordFundingEvidence | .emitDisputeEvent
  | .deletePending _ | .deletePendingOfEscrow | .upsertSignature _ _ | .authorizeDisposition _
  | .upsertKey _ _ | .createDispute | .assignArbiter | .claimRuling _ _ _ | .revertRuling _ _
  | .claimAppeal _ | .transactionExists | .outpointUnspent | .check _ | .quiet _ => true
  | _ => false

/-- The calls without an observation of their own. -/
def Call.silent : Call → Bool
  | .updateResult _ _ | .updateLockResult _ _ | .createPending _ _ _ _ => true
  | q => q.neutral

/-- What an operation has begun is settled : nothing is left to publish or to commit, and
what it claimed or read for recovery has its history row. -/
structure Settled (req : Request) (h : List Obs) : Prop where
  idle : (Footprint.of h).Idle
  /-- A claim ends with its history row, with a revert, or with a failure under an
  operation that does not revert. -/
  claim : ∀ src dst, (Footprint.of h).Holds src dst →
    (dst ∈ (Footprint.of h).rows ∧ (dst = .fundsLocked → (Footprint.of h).locked ≠ none)) ∨
      (req.reverts dst = false ∧ (Footprint.of h).failedSinceClaim = true)
  completion : ∀ t, (Footprint.of h).completion = some (some t) → t ∈ (Footprint.of h).rows ∨
    (Footprint.of h).failedSinceCompletion = true
  txId : ∀ t, (Footprint.of h).txIdWritten = some t → t ∈ (Footprint.of h).rows ∨
    (Footprint.of h).failedSinceTxId = true

/-- The footprint of an operation that returned or threw. -/
structure Done (req : Request) (h : List Obs) : Prop extends Settled req h where
  passes : req = .reconcilePendingSettlements → (Footprint.of h).completion ≠ none ∨
    (Footprint.of h).failed = true

/-! ## Rules for the calls -/

section Rules

variable {cfg : Settings} {type : EscrowType} {req : Request} {α : Type} {h : List Obs}

/-- The rail of an escrow never changes. -/
def OnRail (type : EscrowType) (s : World) : Prop :=
  s.escrow.type = type

/-- The discipline of one operation on an escrow of this rail, with the postcondition `Q`. -/
abbrev Disciplined (cfg : Settings) (type : EscrowType) (req : Request) (p : Op α)
    (Q : List Obs → Except Err α → Prop) (h : List Obs) : Prop :=
  p.Guarded (Config.Answerable (escrowSystem cfg) (OnRail type)) Call.observe (Guard req) Q h

/-- A neutral call meets its guard in an idle thread. -/
theorem guard_of_neutral {q : Call} (hq : q.neutral = true) (hidle : (Footprint.of h).Idle) :
    Guard req h q := by
  refine ⟨fun t ht => ?_, fun k hk => ?_, ?_⟩
  · rw [hidle.1] at ht
    cases ht
  · rw [hidle.2] at hk
    cases hk
  · cases q <;> cases hq <;> trivial

theorem Call.silent_of_neutral {q : Call} (hq : q.neutral = true) : q.silent = true := by
  cases q <;> cases hq <;> rfl

theorem answered_of_silent {q : Call} (hq : q.silent = true) (a : q.Ans) (s : World) :
    q.answered a s = [] := by
  cases q <;> cases hq <;> rfl

theorem thrown_of_silent {q : Call} (hq : q.silent = true) (e : Err) (s : World) :
    q.thrown e s = [.failed] ∨ q.refusable = true ∧ q.thrown e s = [.refused] := by
  cases q <;> cases hq <;> first
    | exact Or.inl rfl
    | (cases e <;> first | exact Or.inl rfl | exact Or.inr ⟨rfl, rfl⟩)

/-- An error at a log whose footprint extends that of `h` satisfies the postcondition. -/
def Exits (Q : List Obs → Except Err α → Prop) (h : List Obs) : Prop :=
  ∀ h' e, (Footprint.of h).Extends (Footprint.of h') → Q h' (.error e)

/-- An error of a call without an observation of its own extends the footprint. -/
theorem extends_thrown {q : Call} (hq : q.silent = true) (hidle : (Footprint.of h).Idle)
    (e : Err) (s : World) : (Footprint.of h).Extends (Footprint.of (q.thrown e s ++ h)) := by
  rcases thrown_of_silent hq e s with ht | ⟨_, ht⟩
  · rw [ht]
    exact Footprint.Extends.failed_next hidle
  · rw [ht]
    exact Footprint.Extends.refused_next hidle

theorem thrown_of_refusable {q : Call} (hq : q.refusable = true) (e : Err) (s : World) :
    q.thrown e s = [.failed] ∨ q.thrown e s = [.refused] := by
  cases q <;> cases hq <;> cases e <;> first | exact Or.inl rfl | exact Or.inr rfl

/-- So does an error of a call that has errors of its own. -/
theorem extends_refusable {q : Call} (hq : q.refusable = true) (hidle : (Footprint.of h).Idle)
    (e : Err) (s : World) :
    (Footprint.of h).Extends (Footprint.of (q.observe s (.error e) ++ h)) := by
  rw [Call.observe]
  rcases thrown_of_refusable hq e s with ht | ht
  · rw [ht]
    exact Footprint.Extends.failed_next hidle
  · rw [ht]
    exact Footprint.Extends.refused_next hidle

variable {β : Type} {Q : List Obs → Except Err β → Prop}

theorem Exits.failed (hexit : Exits Q h) (hidle : (Footprint.of h).Idle) (e : Err) :
    Q (.failed :: h) (.error e) :=
  hexit _ e (Footprint.Extends.failed_next hidle)

theorem Exits.refused (hexit : Exits Q h) (hidle : (Footprint.of h).Idle) (e : Err) :
    Q (.refused :: h) (.error e) :=
  hexit _ e (Footprint.Extends.refused_next hidle)

theorem Exits.throw (hexit : Exits Q h) (e : Err) : Q h (.error e) :=
  hexit h e (Footprint.Extends.refl _)

/-- Awaiting a call without an observation of its own, as the last step. -/
theorem disciplined_silent_last {q : Call} {Q : List Obs → Except Err q.Ans → Prop}
    (hq : q.silent = true) (hguard : Guard req h q) (hfail : ∀ e, Q (.failed :: h) (.error e))
    (hrefuse : q.refusable = true → ∀ e, Q (.refused :: h) (.error e))
    (hok : ∀ a, Q h (.ok a)) : Disciplined cfg type req (await q) Q h := by
  refine ⟨hguard, fun s r hr => ?_⟩
  cases r with
  | ok a =>
    have hlog : Call.observe q s (.ok a) ++ h = h := by
      simp [Call.observe, answered_of_silent hq]
    rw [hlog]
    exact hok a
  | error e =>
    rcases thrown_of_silent hq e s with ht | ⟨hr, ht⟩
    · simpa [Call.observe, ht] using hfail e
    · simpa [Call.observe, ht] using hrefuse hr e

/-- Awaiting a call without an observation of its own. -/
theorem disciplined_silent {q : Call} {f : q.Ans → Op β} (hq : q.silent = true)
    (hguard : Guard req h q) (hfail : ∀ e, Q (.failed :: h) (.error e))
    (hrefuse : q.refusable = true → ∀ e, Q (.refused :: h) (.error e))
    (hk : ∀ a, Disciplined cfg type req (f a) Q h) : Disciplined cfg type req (await q >>= f) Q h :=
  (guarded_bind _ _ _).mpr (disciplined_silent_last hq hguard hfail hrefuse hk)

/-- The calls that never answer with an error. -/
def Call.unfailing : Call → Bool
  | .quiet _ | .deletePending _ | .clock => true
  | _ => false

theorem not_answerable_unfailing {q : Call} (hq : q.unfailing = true) {s : World} {e : Err} :
    ¬ Config.Answerable (escrowSystem cfg) (OnRail type) q s (.error e) := by
  rintro ⟨-, ⟨fault, _⟩, he⟩
  cases q <;> cases hq <;> cases fault <;> cases he

/-- Awaiting a neutral call that never fails, as the last step. -/
theorem disciplined_unfailing_last {q : Call} {Q : List Obs → Except Err q.Ans → Prop}
    (hq : q.neutral = true) (hu : q.unfailing = true) (hidle : (Footprint.of h).Idle)
    (hok : ∀ a, Q h (.ok a)) : Disciplined cfg type req (await q) Q h := by
  refine ⟨guard_of_neutral hq hidle, fun s r hr => ?_⟩
  cases r with
  | ok a =>
    have hlog : Call.observe q s (.ok a) ++ h = h := by
      simp [Call.observe, answered_of_silent (Call.silent_of_neutral hq)]
    rw [hlog]
    exact hok a
  | error e => exact absurd hr (not_answerable_unfailing hu)

/-- Awaiting a neutral call that never fails. -/
theorem disciplined_unfailing {q : Call} {f : q.Ans → Op β} (hq : q.neutral = true)
    (hu : q.unfailing = true) (hidle : (Footprint.of h).Idle)
    (hk : ∀ a, Disciplined cfg type req (f a) Q h) :
    Disciplined cfg type req (await q >>= f) Q h :=
  (guarded_bind _ _ _).mpr (disciplined_unfailing_last hq hu hidle hk)

/-- Awaiting a neutral call, with what is known of its answer. -/
theorem disciplined_query {q : Call} {f : q.Ans → Op β} (hq : q.neutral = true)
    (hidle : (Footprint.of h).Idle) (hexit : Exits Q h)
    (hk : ∀ s a, Config.Answerable (escrowSystem cfg) (OnRail type) q s (.ok a) →
      Disciplined cfg type req (f a) Q h) :
    Disciplined cfg type req (await q >>= f) Q h := by
  refine (guarded_bind _ _ _).mpr ⟨guard_of_neutral hq hidle, fun s r hr => ?_⟩
  cases r with
  | ok a =>
    have hlog : Call.observe q s (.ok a) ++ h = h := by
      simp [Call.observe, answered_of_silent (Call.silent_of_neutral hq)]
    rw [hlog]
    exact hk s a hr
  | error e => exact hexit _ e (extends_thrown (Call.silent_of_neutral hq) hidle e s)

/-- Awaiting a neutral call. -/
theorem disciplined_await {q : Call} {f : q.Ans → Op β} (hq : q.neutral = true)
    (hidle : (Footprint.of h).Idle) (hexit : Exits Q h)
    (hk : ∀ a, Disciplined cfg type req (f a) Q h) : Disciplined cfg type req (await q >>= f) Q h :=
  disciplined_silent (Call.silent_of_neutral hq) (guard_of_neutral hq hidle)
    (hexit.failed hidle) (fun _ => hexit.refused hidle) hk

/-- Reading the escrow row. -/
theorem disciplined_findById {f : Escrow → Op β} (hidle : (Footprint.of h).Idle)
    (hexit : Exits Q h) (hk : ∀ e, Disciplined cfg type req (f e) Q (.read e :: h)) :
    Disciplined cfg type req (await .findById >>= f) Q h := by
  refine (guarded_bind _ _ _).mpr ⟨⟨fun t ht => ?_, fun k hk => ?_, trivial⟩, fun s r hr => ?_⟩
  · rw [hidle.1] at ht
    cases ht
  · rw [hidle.2] at hk
    cases hk
  · cases r with
    | ok e => exact hk e
    | error e => exact hexit.failed hidle e

/-- Loading the public keys. -/
theorem disciplined_loadPubkeys {f : ParticipantPubkeys → Op β} (hidle : (Footprint.of h).Idle)
    (hexit : Exits Q h) (hk : ∀ k, Disciplined cfg type req (f k) Q (.pubkeysLoaded k :: h)) :
    Disciplined cfg type req (await .loadParticipantPubkeys >>= f) Q h := by
  refine (guarded_bind _ _ _).mpr ⟨⟨fun t ht => ?_, fun k hk => ?_, trivial⟩, fun s r hr => ?_⟩
  · rw [hidle.1] at ht
    cases ht
  · rw [hidle.2] at hk
    cases hk
  · cases r with
    | ok k => exact hk k
    | error e => exact hexit.failed hidle e

/-- A check of the program itself. -/
theorem disciplined_require {b : Bool} {e : Err} {f : Unit → Op β} (hexit : Exits Q h)
    (hk : b = true → Disciplined cfg type req (f ()) Q h) : Disciplined cfg type req (require b e >>= f) Q h := by
  cases b with
  | false => exact hexit.throw e
  | true => exact hk rfl

theorem disciplined_orThrow {x : Option α} {e : Err} {f : α → Op β} (hexit : Exits Q h)
    (hk : ∀ a, x = some a → Disciplined cfg type req (f a) Q h) :
    Disciplined cfg type req (orThrow x e >>= f) Q h := by
  cases x with
  | none => exact hexit.throw e
  | some a => exact hk a rfl

/-- A program of neutral calls. -/
abbrev Neutral (p : Op α) : Prop :=
  p.Makes fun q => q.neutral = true

theorem neutral_await {q : Call} (hq : q.neutral = true) : Neutral (await q) :=
  ⟨hq, fun _ => trivial⟩

/-- A program of neutral calls extends the footprint. -/
theorem tame_of_makes : ∀ {p : Op α}, Neutral p →
    ∀ {h : List Obs}, (Footprint.of h).Idle →
      Disciplined cfg type req p (fun h' _ => (Footprint.of h).Extends (Footprint.of h')) h
  | .ret _, _, _, _ => Footprint.Extends.refl _
  | .call q k, hp, h, hidle => by
    refine ⟨guard_of_neutral hp.1 hidle, fun s r hr => ?_⟩
    have hext : (Footprint.of h).Extends (Footprint.of (Call.observe q s r ++ h)) := by
      cases r with
      | ok a =>
        have hlog : Call.observe q s (.ok a) ++ h = h := by
          simp [Call.observe, answered_of_silent (Call.silent_of_neutral hp.1)]
        rw [hlog]
        exact Footprint.Extends.refl _
      | error e => exact extends_thrown (Call.silent_of_neutral hp.1) hidle e s
    exact (tame_of_makes (hp.2 r) (hext.idle hidle)).mono fun h' _ hh => hext.trans hh

theorem Footprint.Idle.publish (hidle : (Footprint.of h).Idle) (q : Call) :
    (∀ t, (Footprint.of h).unpublished = some t → q = .publish t) ∧
      ∀ k, (Footprint.of h).uncommitted = some k → q = .createArbiterKey k := by
  refine ⟨fun t ht => ?_, fun k hk => ?_⟩
  · rw [hidle.1] at ht
    cases ht
  · rw [hidle.2] at hk
    cases hk

/-- The program extends the footprint of every log that satisfies `P`. -/
def Tame (cfg : Settings) (type : EscrowType) (req : Request) (P : List Obs → Prop) (p : Op α) :
    Prop :=
  ∀ h, (Footprint.of h).Idle → P h →
    Disciplined cfg type req p (fun h' _ => (Footprint.of h).Extends (Footprint.of h')) h

/-- Running a tame program. -/
theorem Tame.disciplined {P : List Obs → Prop} {p : Op α} {f : α → Op β}
    (hp : Tame cfg type req P p) (hidle : (Footprint.of h).Idle) (hP : P h) (hexit : Exits Q h)
    (hk : ∀ a h', (Footprint.of h).Extends (Footprint.of h') →
      Disciplined cfg type req (f a) Q h') :
    Disciplined cfg type req (p >>= f) Q h := by
  refine (guarded_bind _ _ _).mpr ((hp h hidle hP).mono fun h' r hext => ?_)
  cases r with
  | ok a => exact hk a h' hext
  | error e => exact hexit h' e hext

theorem Tame.bind {P : List Obs → Prop} {p : Op α} {f : α → Op β}
    (hP : ∀ h h', P h → (Footprint.of h).Extends (Footprint.of h') → P h')
    (hp : Tame cfg type req P p) (hf : ∀ a, Tame cfg type req P (f a)) :
    Tame cfg type req P (p >>= f) := by
  intro h hidle hh
  refine hp.disciplined hidle hh (fun _ _ hext => hext) fun a h' hext => ?_
  exact (hf a h' (hext.idle hidle) (hP _ _ hh hext)).mono fun _ _ hext' => hext.trans hext'

theorem tame_loadPubkeys {P : List Obs → Prop} :
    Tame cfg type req P (await .loadParticipantPubkeys) := by
  refine fun h hidle _ => ⟨⟨(hidle.publish _).1, (hidle.publish _).2, trivial⟩, fun s r _ => ?_⟩
  cases r with
  | ok k => exact ⟨rfl, id, id, id, id, id⟩
  | error e => exact Footprint.Extends.failed_next hidle

/-- Handing a transaction over, where the guard allows it. -/
theorem tame_broadcast {P : List Obs → Prop} {pass : Pass} {k : SettlementKind}
    (hguard : ∀ h, (Footprint.of h).Idle → P h → Guard req h (.broadcast pass k)) :
    Tame cfg type req P (await (.broadcast pass k)) := by
  refine fun h hidle hP => ⟨hguard h hidle hP, fun s r _ => ?_⟩
  cases r with
  | ok k => exact Footprint.Extends.refl _
  | error e => exact Footprint.Extends.failed_next hidle

theorem tame_neutral {P : List Obs → Prop} {p : Op α} (hp : Neutral p) :
    Tame cfg type req P p :=
  fun _ hidle _ => tame_of_makes hp hidle

/-- Running a program of neutral calls. -/
theorem disciplined_tame {p : Op α} {f : α → Op β} (hp : Neutral p)
    (hidle : (Footprint.of h).Idle) (hexit : Exits Q h)
    (hk : ∀ a h', (Footprint.of h).Extends (Footprint.of h') →
      Disciplined cfg type req (f a) Q h') : Disciplined cfg type req (p >>= f) Q h :=
  (tame_neutral (P := fun _ => True) hp).disciplined hidle trivial hexit hk

/-- Claiming a transition. -/
theorem disciplined_claim {src dst : EscrowStatus} {f : Unit → Op β}
    (hidle : (Footprint.of h).Idle) (hclaim : (Footprint.of h).claim = none)
    (hundo : (Footprint.of h).undo = none) (hexit : Exits Q h)
    (hk : ValidTransition src dst → Disciplined cfg type req (f ()) Q (.claimed src dst :: h)) :
    Disciplined cfg type req (claimEscrowTransition src dst >>= f) Q h := by
  refine (guarded_bind _ _ _).mpr ?_
  refine disciplined_await rfl hidle hexit fun _ => ?_
  refine disciplined_require hexit fun hv => ?_
  have hv : ValidTransition src dst := of_decide_eq_true hv
  refine (guarded_bind _ _ _).mpr ⟨⟨(hidle.publish _).1, (hidle.publish _).2,
    hclaim, hundo, hv⟩, fun s r hr => ?_⟩
  cases r with
  | error e => exact hexit.failed hidle e
  | ok n =>
    cases n with
    | zero => exact disciplined_await rfl hidle hexit fun _ => hexit.throw _
    | succ n => exact hk hv

/-- Running under a claim that is taken back on an error. -/
theorem disciplined_orRevert {src dst : EscrowStatus} {body : Op Unit}
    {Q : List Obs → Except Err Unit → Prop} (hrev : req.reverts dst = true)
    (hbody : Disciplined cfg type req body (fun h' r => match r with
      | .ok _ => Q h' (.ok ())
      | .error e => (Footprint.of h').Idle ∧ (Footprint.of h').Holds src dst ∧
          ((Footprint.of h').moved = true → (Footprint.of h').stranded = true) ∧
          Q (.reverted dst src :: h') (.error e) ∧ Q (.revertLost dst src :: h') (.error e) ∧
          Q (.revertFailed dst src :: h') (.error e)) h) :
    Disciplined cfg type req (orRevert dst src body) Q h := by
  refine (guarded_tryCatch _ _ _).mpr (hbody.mono fun h' r hr => ?_)
  cases r with
  | ok a => exact hr
  | error e =>
    obtain ⟨hidle, hholds, hmoved, hdone, hlost, hfailed⟩ := hr
    refine (guarded_bind _ _ _).mpr ((guarded_swallow _ _).mpr ((guarded_bind _ _ _).mpr ?_))
    refine ⟨⟨(hidle.publish _).1, (hidle.publish _).2, hholds, hrev, hmoved⟩, fun s r hr => ?_⟩
    cases r with
    | error e' => exact hfailed
    | ok n =>
      cases n with
      | zero => exact hlost
      | succ n => exact hdone

/-- The history row of `dst` may be written at the log `h`. -/
def MayRecord (req : Request) (dst : EscrowStatus) (h : List Obs) : Prop :=
  ((∃ src, (Footprint.of h).Holds src dst) ∨ (req.reconciles = true ∧
    ((Footprint.of h).snapshot = some dst ∨ (Footprint.of h).completion = some (some dst)))) ∧
    (dst = .fundsLocked → (Footprint.of h).locked ≠ none)

/-- Emitting a transition : the row is found, or written and published, or a call failed. -/
theorem disciplined_emit {src dst : EscrowStatus} {by' : Actor}
    {Q : List Obs → Except Err Unit → Prop} (hidle : (Footprint.of h).Idle)
    (hrec : MayRecord req dst h) (hfound : Q (.rowFound dst :: h) (.ok ()))
    (hpub : Q (.published dst :: .rowWritten dst :: h) (.ok ()))
    (hfail : ∀ e, Q (.failed :: h) (.error e))
    (hunpub : ∀ e, Q (.failed :: .rowWritten dst :: h) (.error e)) :
    Disciplined cfg type req (emitEscrowTransition src dst by') Q h := by
  refine (guarded_bind _ _ _).mpr ?_
  refine ⟨⟨(hidle.publish _).1, (hidle.publish _).2, hrec⟩, fun s r hr => ?_⟩
  cases r with
  | error e => exact hfail e
  | ok b =>
    cases b with
    | false => exact hfound
    | true =>
      refine ⟨⟨fun t ht => ?_, fun k hk => ?_, rfl⟩, fun s r hr => ?_⟩
      · have ht : some dst = some t := ht
        cases ht
        rfl
      · have hk : (Footprint.of h).uncommitted = some k := hk
        rw [hidle.2] at hk
        cases hk
      · cases r with
        | error e => exact hunpub e
        | ok _ => exact hpub

end Rules

end Sails
