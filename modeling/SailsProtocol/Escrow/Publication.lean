import SailsProtocol.Escrow.Completion

/-!
# Published settlements are final

An operation publishes the event of a claim last : after it nothing can fail that would
take the claim back. `Irrevocable` says so of every call, `irrevocable_prog` of every
operation. In runs without a recovery pass an event of a terminal status is published
only by the operation that holds the claim, so the escrow stays in that status
(`FinalInv.status`).
-/

namespace Sails

open Async Async.Prog Async.Config

variable {cfg : Settings} {α β : Type} {h : List Obs}

/-! ## No revert after an event -/

/-- A status whose claim some operation takes back. -/
def EscrowStatus.revertible (t : EscrowStatus) : Bool :=
  decide (t = .fundsLocked) || t.terminal

/-- No event of a claim that could be taken back is out. -/
def Clean (h : List Obs) : Prop :=
  ∀ t : EscrowStatus, t.revertible = true → .published t ∉ h

theorem clean_nil : Clean [] :=
  fun _ _ => List.not_mem_nil

/-- A claim is taken back only before an event is out. -/
def Irrevocable (h : List Obs) (q : Call) : Prop :=
  q.isRevert = true → Clean h

/-- The call takes nothing back and publishes no event of a claim that could be. -/
def Call.Mute (q : Call) : Prop :=
  q.isRevert = false ∧ ∀ t, q = .publish t → t.revertible = false

/-- The calls of an operation are irrevocable. -/
abbrev Keeps (cfg : Settings) (p : Op α) (Q : List Obs → Except Err α → Prop)
    (h : List Obs) : Prop :=
  p.Guarded (Answerable (escrowSystem cfg) fun _ => True) Call.observe Irrevocable Q h

/-- A call that publishes no status that can be taken back keeps a thread clean. -/
theorem Clean.observe (hc : Clean h) {q : Call} (hq : ∀ t, q = .publish t → t.revertible = false)
    (s : World) (r : Except Err q.Ans) : Clean (q.observe s r ++ h) := by
  intro t ht hmem
  rcases List.mem_append.mp hmem with hmem | hmem
  · have hof : q = .publish t := of_mem_observe hmem
    rw [hq t hof] at ht
    cases ht
  · exact hc t ht hmem

/-- A mute program keeps a thread clean. -/
theorem keeps_of_mute {p : Op α} (hp : p.Makes Call.Mute) (hc : Clean h) :
    Keeps cfg p (fun h' _ => Clean h') h := by
  induction p generalizing h with
  | ret r => exact hc
  | call q k ih =>
    refine ⟨fun hq => ?_, fun s r _ => ih r (hp.2 r) (hc.observe hp.1.2 s r)⟩
    rw [hp.1.1] at hq
    cases hq

/-- A program without a revert takes nothing back. -/
theorem keeps_of_noRevert {p : Op α} (hp : p.Makes fun q => q.isRevert = false) :
    Keeps cfg p (fun _ _ => True) h := by
  induction p generalizing h with
  | ret r => trivial
  | call q k ih =>
    refine ⟨fun hq => ?_, fun s r _ => ih r (hp.2 r)⟩
    rw [hp.1] at hq
    cases hq

/-- A mute operation, and another one after it. -/
theorem keeps_bind {p : Op α} {f : α → Op β} {Q : List Obs → Except Err β → Prop}
    (hQ : ∀ h' e, Clean h' → Q h' (.error e)) (hp : p.Makes Call.Mute) (hc : Clean h)
    (hf : ∀ a h', Clean h' → Keeps cfg (f a) Q h') : Keeps cfg (p >>= f) Q h := by
  refine (guarded_bind f p h).mpr ((keeps_of_mute hp hc).mono fun h' r hc' => ?_)
  cases r with
  | ok a => exact hf a h' hc'
  | error e => exact hQ h' e hc'

/-- An error leaves no event out. -/
def Uncommitted (h : List Obs) (r : Except Err α) : Prop :=
  ∀ e, r = .error e → Clean h

theorem uncommitted_error (h' : List Obs) (e : Err) (hc : Clean h') :
    Uncommitted h' (.error e : Except Err α) :=
  fun _ _ => hc

/-- `emitEscrowTransition` publishes last. -/
theorem keeps_emit {src dst : EscrowStatus} {a : Actor} (hc : Clean h) :
    Keeps cfg (emitEscrowTransition src dst a) Uncommitted h := by
  refine keeps_bind uncommitted_error (makes_perform ⟨rfl, nofun⟩) hc fun b h' hc' => ?_
  cases b with
  | false => exact fun _ he => by cases he
  | true =>
    refine ⟨(fun hq => by cases hq), fun s r _ e he => ?_⟩
    subst he
    exact fun t ht hmem => hc' t ht (by simpa [Call.observe, Call.thrown, Call.refusable] using hmem)

/-- A claim whose body fails without an event is taken back. -/
theorem keeps_orRevert {src dst : EscrowStatus} {body : Op Unit}
    (hbody : Keeps cfg body Uncommitted h) :
    Keeps cfg (orRevert dst src body) (fun _ _ => True) h := by
  refine (guarded_tryCatch _ _ _).mpr (hbody.mono fun h' r hr => ?_)
  cases r with
  | ok _ => trivial
  | error e =>
    have hc : Clean h' := hr e rfl
    refine Calls.then ((guarded_swallow _ _).mpr ?_) fun _ _ => trivial
    exact Calls.then (calls_perform fun _ => hc) fun _ _ => trivial

/-! ## The operations -/

/-- The operations that take a claim back when they fail. -/
def Request.reverting : Request → Bool
  | .lockFunds _ | .releaseFunds _ | .refundFunds _ | .splitFunds _ _ | .sweepExpiredEscrows
  | .submitTransactionSignature _ | .resolveDispute _ _ _ _ => true
  | _ => false

theorem noRevert_initiateRuling (ruling : SettlementKind) (bps arbiterId : ℕ) :
    (initiateRuling cfg ruling bps arbiterId).Makes fun q => q.isRevert = false := by
  cases ruling
  all_goals
    repeat' first
      | exact makes_pure _
      | exact makes_throw _
      | exact makes_require _ _
      | exact makes_orThrow _ _
      | exact makes_perform rfl
      | refine Makes.bind (fun _ => ?_) ?_
      | refine Makes.when ?_ _
      | refine Makes.ite ?_ ?_
      | split

theorem noRevert_rulingCore (status : DisputeStatus) (ruling : SettlementKind)
    (bps arbiterId sig : ℕ) :
    (applyRulingCoreAuthoritative cfg status ruling bps arbiterId sig).Makes
      fun q => q.isRevert = false := by
  repeat' first
    | exact noRevert_initiateRuling _ _ _
    | exact makes_throw _
    | exact makes_require _ _
    | exact makes_perform rfl
    | refine Makes.bind (fun _ => ?_) ?_
    | refine Makes.tryCatch (fun _ => ?_) ?_

/-- A request that does not revert makes no revert. -/
theorem noRevert_prog (req : Request) (hreq : req.reverting = false) :
    (req.prog cfg).Makes fun q => q.isRevert = false := by
  cases req <;> cases hreq
  all_goals
    repeat' first
      | exact makes_pure _
      | exact makes_throw _
      | exact makes_require _ _
      | exact makes_orThrow _ _
      | exact makes_perform rfl
      | refine Makes.bind (fun _ => ?_) ?_
      | refine Makes.when ?_ _
      | refine makes_forSome fun _ => ?_
      | refine Makes.swallow ?_
      | refine Makes.tryCatch (fun _ => ?_) ?_
      | refine Makes.ite ?_ ?_
      | split

theorem mute_loadEscrow (a : Actor) : (loadEscrowWithAuthorization a).Makes Call.Mute := by
  repeat' first
    | exact makes_pure _
    | exact makes_require _ _
    | exact makes_orThrow _ _
    | exact makes_perform ⟨rfl, nofun⟩
    | refine Makes.bind (fun _ => ?_) ?_
    | refine Makes.ite ?_ ?_

theorem mute_claim (src dst : EscrowStatus) : (claimEscrowTransition src dst).Makes Call.Mute := by
  repeat' first
    | exact makes_pure _
    | exact makes_throw _
    | exact makes_require _ _
    | exact makes_perform ⟨rfl, nofun⟩
    | refine Makes.bind (fun _ => ?_) ?_
    | refine Makes.ite ?_ ?_

/-- A direct settlement publishes what it does not take back. -/
theorem keeps_settleDirectly {lookup : Op Unit} {type : EscrowType} {kind : SettlementKind}
    {src : EscrowStatus} {a : Actor} (hlookup : lookup.Makes Call.Mute) (hc : Clean h) :
    Keeps cfg (settleDirectly lookup type kind src a) (fun _ _ => True) h := by
  refine keeps_bind (fun _ _ _ => trivial) (mute_claim _ _) hc fun _ h hc => ?_
  refine keeps_orRevert ?_
  refine keeps_bind uncommitted_error hlookup hc fun _ h hc => ?_
  refine keeps_bind uncommitted_error (makes_perform ⟨rfl, nofun⟩) hc fun _ h hc => ?_
  refine keeps_bind uncommitted_error (makes_perform ⟨rfl, nofun⟩) hc fun _ h hc => ?_
  refine keeps_bind uncommitted_error (makes_perform ⟨rfl, nofun⟩) hc fun _ h hc => ?_
  exact keeps_emit hc

/-- Any error fits where nothing is asked of the result. -/
theorem fits_any (h' : List Obs) (_ : Err) (_ : Clean h') : True :=
  trivial

/-- `releaseFunds` publishes what it does not take back. -/
theorem keeps_releaseFunds (a : Actor) (hc : Clean h) :
    Keeps cfg (releaseFunds cfg a) (fun _ _ => True) h := by
  refine keeps_bind fits_any (mute_loadEscrow a) hc fun _ h hc => ?_
  refine keeps_bind fits_any (makes_require _ _) hc fun _ h hc => ?_
  refine keeps_bind fits_any (makes_perform ⟨rfl, nofun⟩) hc fun _ h hc => ?_
  refine keeps_bind fits_any (Makes.when (makes_perform ⟨rfl, nofun⟩) _) hc fun _ h hc => ?_
  refine keeps_bind fits_any (Makes.when (makes_perform ⟨rfl, nofun⟩) _) hc fun _ h hc => ?_
  exact keeps_settleDirectly (makes_require _ _) hc

theorem keeps_refundFunds (a : Actor) (hc : Clean h) :
    Keeps cfg (refundFunds cfg a) (fun _ _ => True) h := by
  refine keeps_bind fits_any (mute_loadEscrow a) hc fun _ h hc => ?_
  refine keeps_bind fits_any (makes_require _ _) hc fun _ h hc => ?_
  refine keeps_bind fits_any (Makes.when (makes_perform ⟨rfl, nofun⟩) _) hc fun _ h hc => ?_
  exact keeps_settleDirectly (makes_require _ _) hc

/-- `splitFunds` publishes what it does not take back. -/
theorem keeps_splitFunds (bps : ℕ) (a : Actor) (hc : Clean h) :
    Keeps cfg (splitFunds cfg bps a) (fun _ _ => True) h := by
  refine keeps_bind fits_any (makes_require _ _) hc fun _ h hc => ?_
  refine keeps_bind fits_any (mute_loadEscrow a) hc fun _ h hc => ?_
  refine keeps_bind fits_any (makes_require _ _) hc fun _ h hc => ?_
  refine keeps_bind fits_any (Makes.when (makes_perform ⟨rfl, nofun⟩) _) hc fun _ h hc => ?_
  refine keeps_bind fits_any (makes_perform ⟨rfl, nofun⟩) hc fun _ h hc => ?_
  refine keeps_bind fits_any (makes_require _ _) hc fun _ h hc => ?_
  refine keeps_bind fits_any (makes_require _ _) hc fun _ h hc => ?_
  exact keeps_settleDirectly (makes_pure _) hc

/-- `lockFunds` publishes what it does not take back. -/
theorem keeps_lockFunds (a : Actor) (hc : Clean h) :
    Keeps cfg (lockFunds cfg a) (fun _ _ => True) h := by
  refine keeps_bind fits_any (makes_perform ⟨rfl, nofun⟩) hc fun escrow h hc => ?_
  refine keeps_bind fits_any (makes_require _ _) hc fun _ h hc => ?_
  refine keeps_bind fits_any (makes_perform ⟨rfl, nofun⟩) hc fun _ h hc => ?_
  refine keeps_bind fits_any (makes_require _ _) hc fun _ h hc => ?_
  refine keeps_bind fits_any (mute_claim _ _) hc fun _ h hc => ?_
  refine keeps_orRevert ?_
  refine keeps_bind uncommitted_error (makes_require _ _) hc fun _ h hc => ?_
  have hlock : ∀ (keys : ParticipantPubkeys) (h : List Obs), Clean h → Keeps cfg (do
      let result ← await (.providerLock escrow.type keys)
      let now ← await .clock
      await (.updateLockResult result (now + escrow.timelockHours * 3600 * 1000))
      when result.vout.isSome (await .recordFundingEvidence)
      emitEscrowTransition .created .fundsLocked a) Uncommitted h := by
    intro keys h hc
    refine keeps_bind uncommitted_error (makes_perform ⟨rfl, nofun⟩) hc fun _ h hc => ?_
    refine keeps_bind uncommitted_error (makes_perform ⟨rfl, nofun⟩) hc fun _ h hc => ?_
    refine keeps_bind uncommitted_error (makes_perform ⟨rfl, nofun⟩) hc fun _ h hc => ?_
    refine keeps_bind uncommitted_error (Makes.when (makes_perform ⟨rfl, nofun⟩) _) hc
      fun _ h hc => ?_
    exact keeps_emit hc
  split
  · exact keeps_bind uncommitted_error (makes_perform ⟨rfl, nofun⟩) hc fun keys h hc => hlock keys h hc
  · exact keeps_bind uncommitted_error (makes_pure _) hc fun keys h hc => hlock keys h hc

/-- The sweep publishes what it does not take back. -/
theorem keeps_sweepExpiredEscrows (hc : Clean h) :
    Keeps cfg (sweepExpiredEscrows cfg) (fun _ _ => True) h := by
  refine keeps_bind fits_any (makes_perform ⟨rfl, nofun⟩) hc fun now h hc => ?_
  refine keeps_bind fits_any (makes_perform ⟨rfl, nofun⟩) hc fun candidates h hc => ?_
  have hexpire : ∀ escrow, (swallow (expireEscrow now escrow)).Makes Call.Mute := by
    intro escrow
    repeat' first
      | exact makes_pure _
      | exact makes_perform ⟨rfl, fun t ht => by cases ht <;> rfl⟩
      | refine Makes.swallow ?_
      | refine Makes.bind (fun _ => ?_) ?_
      | refine Makes.when ?_ _
      | refine Makes.ite ?_ ?_
  refine keeps_bind fits_any (makes_forSome hexpire) hc fun _ h hc => ?_
  refine keeps_bind fits_any (makes_perform ⟨rfl, nofun⟩) hc fun expired h hc => ?_
  refine (guarded_forSome _ _).mpr ⟨fun _ _ => (guarded_swallow _ _).mpr ?_, fun _ => trivial⟩
  exact keeps_bind fits_any (makes_perform ⟨rfl, nofun⟩) hc fun _ h hc => keeps_refundFunds _ hc

/-- A submitted signature publishes what it does not take back. -/
theorem keeps_submitTransactionSignature (participantId : ℕ) (hc : Clean h) :
    Keeps cfg (submitTransactionSignature cfg participantId) (fun _ _ => True) h := by
  refine keeps_bind fits_any (makes_perform ⟨rfl, nofun⟩) hc fun escrow h hc => ?_
  refine keeps_bind fits_any (makes_perform ⟨rfl, nofun⟩) hc fun _ h hc => ?_
  refine keeps_bind fits_any (makes_orThrow _ _) hc fun pending h hc => ?_
  refine keeps_bind fits_any (makes_require _ _) hc fun _ h hc => ?_
  refine keeps_bind fits_any (makes_perform ⟨rfl, nofun⟩) hc fun _ h hc => ?_
  refine keeps_bind fits_any (makes_perform ⟨rfl, nofun⟩) hc fun _ h hc => ?_
  refine (guarded_when _ _).mpr ⟨fun _ => ?_, fun _ => trivial⟩
  refine keeps_bind fits_any (makes_require _ _) hc fun _ h hc => ?_
  refine keeps_bind fits_any (makes_require _ _) hc fun _ h hc => ?_
  refine keeps_bind fits_any (makes_perform ⟨rfl, nofun⟩) hc fun _ h hc => ?_
  refine keeps_bind fits_any (Makes.when (makes_perform ⟨rfl, nofun⟩) _) hc fun _ h hc => ?_
  refine keeps_bind fits_any (mute_claim _ _) hc fun _ h hc => ?_
  refine keeps_orRevert ?_
  refine keeps_bind uncommitted_error (makes_perform ⟨rfl, nofun⟩) hc fun _ h hc => ?_
  refine keeps_bind uncommitted_error (makes_perform ⟨rfl, nofun⟩) hc fun _ h hc => ?_
  refine keeps_bind uncommitted_error (makes_perform ⟨rfl, nofun⟩) hc fun _ h hc => ?_
  refine keeps_bind uncommitted_error (makes_perform ⟨rfl, nofun⟩) hc fun _ h hc => ?_
  refine keeps_bind uncommitted_error (Makes.when (makes_perform ⟨rfl, nofun⟩) _) hc
    fun _ h hc => ?_
  refine keeps_bind uncommitted_error (makes_perform ⟨rfl, nofun⟩) hc fun _ h hc => ?_
  -- the pending row is deleted after the event, and a failure there is swallowed
  refine (guarded_bind _ _ _).mpr ((keeps_emit hc).mono fun h' r hr => ?_)
  cases r with
  | error e => exact fun _ _ => hr e rfl
  | ok _ =>
    refine ⟨(fun hq => by cases hq), fun s r ⟨_, env, hr⟩ e he => ?_⟩
    subst he
    obtain ⟨fault, _⟩ := env
    cases fault <;> cases hr

/-- `resolveDispute` publishes what it does not take back. -/
theorem keeps_resolveDispute (arbiterId : ℕ) (ruling : SettlementKind) (bps sig : ℕ)
    (hc : Clean h) : Keeps cfg (resolveDispute cfg arbiterId ruling bps sig) (fun _ _ => True) h := by
  refine keeps_bind fits_any (makes_perform ⟨rfl, nofun⟩) hc fun _ h hc => ?_
  refine keeps_bind fits_any (makes_orThrow _ _) hc fun dispute h hc => ?_
  refine keeps_bind fits_any (makes_require _ _) hc fun _ h hc => ?_
  refine keeps_bind fits_any (makes_require _ _) hc fun _ h hc => ?_
  refine keeps_bind fits_any (makes_perform ⟨rfl, nofun⟩) hc fun _ h hc => ?_
  refine keeps_bind fits_any (makes_perform ⟨rfl, nofun⟩) hc fun escrow h hc => ?_
  have hcheck : ∀ h, Keeps cfg (await (.check .arbitrationBookkeeping)) (fun _ _ => True) h :=
    fun h => calls_perform fun hq => by cases hq
  split
  · refine Calls.then (keeps_of_noRevert (noRevert_rulingCore ..)) fun _ => hcheck
  · refine Calls.then ?_ fun _ => hcheck
    refine keeps_bind fits_any (makes_perform ⟨rfl, nofun⟩) hc fun _ h hc => ?_
    refine Calls.then (Calls.tryCatch ?_ fun _ _ => ?_) fun _ _ => calls_perform fun hq => by cases hq
    · refine keeps_bind fits_any (makes_perform ⟨rfl, nofun⟩) hc fun _ h hc => ?_
      split
      · exact keeps_of_noRevert
          (Makes.bind (fun _ => makes_pure _) (noRevert_initiateRuling ruling bps arbiterId))
      · cases ruling with
        | release => exact keeps_releaseFunds _ hc
        | refund => exact keeps_refundFunds _ hc
        | split => exact keeps_splitFunds _ _ hc
    · exact keeps_of_noRevert (Makes.bind (fun _ => makes_throw _) (makes_perform rfl))

/-- Every operation takes a claim back only before an event is out. -/
theorem irrevocable_prog (req : Request) : Keeps cfg (req.prog cfg) (fun _ _ => True) [] := by
  cases hreq : req.reverting with
  | false => exact keeps_of_noRevert (noRevert_prog req hreq)
  | true =>
    cases req <;> first
      | exact keeps_lockFunds _ clean_nil
      | exact keeps_releaseFunds _ clean_nil
      | exact keeps_refundFunds _ clean_nil
      | exact keeps_splitFunds _ _ clean_nil
      | exact keeps_sweepExpiredEscrows clean_nil
      | exact keeps_submitTransactionSignature _ clean_nil
      | exact keeps_resolveDispute _ _ _ _ clean_nil
      | cases hreq

/-! ## Published settlements -/

/-- What the runs without a recovery pass keep : an event about to be published is that of
a held claim, and the claim of a published settlement is still held. -/
structure FinalInv (cfg : Settings) (c : EscrowConfig) : Prop where
  conforms : Conforms (escrowSystem cfg) (fun _ => True) (fun _ => Irrevocable)
    (fun _ _ _ => True) c
  requests : ∀ t ∈ c.threads, t.req.reconciles = false
  unpublished : ∀ i t, (Footprint.of (c.own i)).unpublished = some t →
    ∃ src, (Footprint.of (c.own i)).Holds src t
  published : ∀ t ∈ c.store.published, t.terminal = true →
    ∃ i src, (Footprint.of (c.own i)).Holds src t ∧ .published t ∈ c.own i

section Steps

variable {w : World} {c : EscrowConfig} {i : ℕ} {env : Env} {req : Request} {q : Call}
variable {k : Except Err q.Ans → Op Unit}

/-- A published settlement is the status of the escrow. -/
theorem FinalInv.status (hI : FinalInv cfg c) (hs : Sound cfg w c) {t : EscrowStatus}
    (hpub : t ∈ c.store.published) (hterm : t.terminal = true) : c.store.escrow.status = t := by
  obtain ⟨i, src, hh, -⟩ := hI.published t hpub hterm
  exact (hs.terminal_inForce (hs.inForce_of_holds hh) hterm).1

theorem finalInv_init (hw : w.published = []) : FinalInv cfg (Config.init w) where
  conforms := conforms_init trivial
  requests := fun _ ht => by simp [Config.init] at ht
  unpublished := fun _ _ hu => by cases hu
  published := fun t ht => by simp [Config.init, hw] at ht

/-- A new request keeps the invariant. -/
theorem FinalInv.spawn (hI : FinalInv cfg c) (hreq : req.reconciles = false) :
    FinalInv cfg (c.spawn (escrowSystem cfg) req) where
  conforms := hI.conforms.spawn irrevocable_prog req
  requests := fun t ht => by
    rcases List.mem_append.mp ht with ht | ht
    · exact hI.requests t ht
    · rw [List.mem_singleton.mp ht]
      exact hreq
  unpublished := hI.unpublished
  published := hI.published

/-- A crash keeps the invariant. -/
theorem FinalInv.kill {t : Thread Call.Ans Err Unit Request} (hI : FinalInv cfg c)
    (ht : c.threads[i]? = some t) : FinalInv cfg (c.kill i t) where
  conforms := hI.conforms.kill ht
  requests := fun t' ht' => by
    rcases List.mem_or_eq_of_mem_set ht' with h | rfl
    · exact hI.requests t' h
    · exact hI.requests t (List.mem_of_getElem? ht)
  unpublished := hI.unpublished
  published := hI.published

/-- An operation that published a settlement keeps its claim. -/
theorem FinalInv.holds_answer (hI : FinalInv cfg c) (hg : Guard req (c.own i) q)
    (ht : c.threads[i]? = some ⟨req, .call q k, true⟩) {src t : EscrowStatus}
    (hterm : t.terminal = true) (hh : (Footprint.of (c.own i)).Holds src t)
    (hpub : .published t ∈ c.own i) (s : World) (r : Except Err q.Ans) :
    (Footprint.of (q.observe s r ++ c.own i)).Holds src t := by
  have hrevert : ∀ dst src, q ≠ .revertStatus dst src := by
    rintro dst src rfl
    exact hI.conforms.guard ht rfl t (by simp [EscrowStatus.revertible, hterm]) hpub
  have hclaim : q.claim? = none := by
    cases hq : q.claim? with
    | none => rfl
    | some p =>
      have hnone := (hg.claim hq).1
      rw [hh.1] at hnone
      cases hnone
  exact ⟨(claim_append hclaim).trans hh.1, (undo_append hrevert).trans hh.2⟩

/-- A call keeps the invariant. -/
theorem FinalInv.answer (hI : FinalInv cfg c) (hg : Guard req (c.own i) q)
    (ht : c.threads[i]? = some ⟨req, .call q k, true⟩) :
    FinalInv cfg (c.answer (escrowSystem cfg) i env req q k) where
  conforms := hI.conforms.answer (fun _ _ _ _ => trivial) ht
  requests := fun t' ht' => by
    have hreq : req.reconciles = false := hI.requests _ (List.mem_of_getElem? ht)
    rcases List.mem_or_eq_of_mem_set ht' with h | rfl
    · exact hI.requests t' h
    · exact hreq
  unpublished := fun j t hu => by
    by_cases hij : j = i
    · subst hij
      rw [own_answer_self] at hu ⊢
      -- the row just written is the one of the claim
      obtain ⟨e, rfl, hfault, rfl, -⟩ := row_of_unpublished hg hu
      rcases hg.2.2.1 with ⟨src, hh⟩ | ⟨hrec, -⟩
      · exact ⟨src, (claim_append rfl).trans hh.1,
          (undo_append (q := .recordEscrowEvent e) fun _ _ h => by cases h).trans hh.2⟩
      · rw [hI.requests _ (List.mem_of_getElem? ht)] at hrec
        cases hrec
    · rw [own_answer_of_ne hij] at hu ⊢
      exact hI.unpublished j t hu
  published := fun t hpub hterm => by
    have hold : t ∈ c.store.published → ∃ j src,
        (Footprint.of ((c.answer (escrowSystem cfg) i env req q k).own j)).Holds src t ∧
          .published t ∈ (c.answer (escrowSystem cfg) i env req q k).own j := by
      intro hpub
      obtain ⟨j, src, hh, hmem⟩ := hI.published t hpub hterm
      refine ⟨j, src, ?_⟩
      by_cases hij : j = i
      · subst hij
        rw [own_answer_self]
        exact ⟨hI.holds_answer hg ht hterm hh hmem _ _, List.mem_append_right _ hmem⟩
      · rw [own_answer_of_ne hij]
        exact ⟨hh, hmem⟩
    rcases published_exec cfg q env c.store with heq | ⟨t', rfl, heq⟩
    · exact hold (heq ▸ hpub)
    · have hpub : t ∈ t' :: c.store.published := heq ▸ hpub
      rcases List.mem_cons.mp hpub with rfl | hpub
      · obtain ⟨src, hh⟩ := hI.unpublished i t hg.2.2
        refine ⟨i, src, ?_⟩
        have hfault : env.fault = none := by
          cases hf : env.fault with
          | none => rfl
          | some f =>
            rw [Call.exec, hf] at heq
            exact absurd (congrArg List.length heq) (by simp)
        rw [own_answer_self]
        refine ⟨⟨(claim_append rfl).trans hh.1,
          (undo_append (q := .publish t) fun _ _ h => by cases h).trans hh.2⟩, ?_⟩
        refine List.mem_append_left _ ?_
        simp [escrowSystem, Call.exec, hfault, Call.run, Call.observe, Call.answered]
      · exact hold hpub

end Steps

end Sails
