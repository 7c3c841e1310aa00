import SailsProtocol.Async.Steps
import SailsProtocol.Fees.Account

/-!
# Recognising a fee

The obligation becomes `COLLECTED` in one place, the transaction of `recognizeConfirmation`,
which inserts the `CONFIRMED` row and moves the status or does neither.
`collected_once` : in every run the `CONFIRMED` rows are as many as the moves from
`IN_PROGRESS` to `COLLECTED`, and the status only moves along `VALID_COLLECTION_TRANSITIONS`.
-/

namespace Sails.Fees

open Async Settlement

variable {P : Platform}

/-! ## The calls of each request -/

/-- The transaction whose broadcast a request records. -/
def FeeReq.broadcastTxid : FeeReq → Option ℕ
  | .recordBroadcastAndAdvance e => some e.txid
  | .completionEffects _ feeOutput => feeOutput.map BroadcastEvidenceInput.txid
  | _ => none

/-- The request reverses entries. -/
def FeeReq.reverses : FeeReq → Bool
  | .reverseEntry _ => true
  | .reverseGeneration _ => true
  | _ => false

/-- What a request may ask for. -/
def FeeReq.May (req : FeeReq) : Call → Prop
  | .createObligation row =>
    row.collectionStatus = none ∨ row.collectionStatus = some .PENDING_COLLECTION
  | .claimCollectionStatusTransition f t =>
    t ∈ validCollectionTransitions f ∧ t ≠ .COLLECTED ∧ t ≠ .PENDING_COLLECTION ∧
      (f = .PENDING_COLLECTION → t = .IN_PROGRESS → req.broadcastTxid ≠ none)
  | .recordEvidence input => input.kind ≠ .CONFIRMED ∧
      (input.kind = .BROADCAST → req.broadcastTxid = some input.txid)
  | .commitConfirmed input _ f t =>
    input.kind = .CONFIRMED ∧ f = .IN_PROGRESS ∧ t = .COLLECTED ∧
      ∃ txid height, req = .recognizeConfirmation txid height
  | .latestEvidence kind => kind = .CONFIRMED → req = .allocate
  | .commitAllocation _ => req = .allocate
  | .findAllocations _ => req.reverses = true
  | .findEntry _ => req.reverses = true
  | .commitReversal entry => entry.kind = .REVERSAL ∧ req.reverses = true
  | _ => True

theorem transition_makes {N : Call → Prop} {f t : FeeCollectionStatus}
    (h : N (.claimCollectionStatusTransition f t)) : (transitionCollectionStatus f t).Makes N :=
  Prog.Makes.bind (fun _ => Prog.Makes.bind (fun _ => Prog.makes_require _ _)
    (Prog.makes_perform h)) (Prog.makes_require _ _)

/-- The calls of `recordObligationForEscrowSettlement`. -/
theorem recordObligation_makes (req : FeeReq) (a : SettlementArgs) :
    (recordObligationForEscrowSettlement P a).Makes req.May := by
  refine Prog.makes_forSome fun id => Prog.Makes.swallow ?_
  refine Prog.Makes.bind (fun existing => ?_) (Prog.makes_perform trivial)
  refine Prog.Makes.ite (Prog.makes_pure ()) (Prog.Makes.ite ?_ ?_)
  · exact Prog.makes_perform (Or.inl rfl)
  · cases a.escrow.snapshotProtocolFeeRate with
    | none => exact Prog.makes_pure ()
    | some rate =>
      refine Prog.Makes.bind (fun _ => ?_) (Prog.Makes.when (Prog.makes_perform trivial) _)
      refine Prog.Makes.bind (fun _ => ?_) (Prog.makes_perform (Or.inr rfl))
      exact Prog.Makes.when (transition_makes ⟨by decide, by decide, by decide, nofun⟩) _

theorem recordBroadcast_makes {req : FeeReq} {e : BroadcastEvidenceInput}
    (hreq : req.broadcastTxid = some e.txid) : (recordBroadcastAndAdvance e).Makes req.May := by
  refine Prog.Makes.bind (fun _ => transition_makes ⟨by decide, by decide, by decide, ?_⟩)
    (Prog.makes_perform ⟨nofun, fun _ => hreq⟩)
  exact fun _ _ hnone => by simp [hreq] at hnone

/-- The calls of `recognizeConfirmation`. -/
theorem recognizeConfirmation_makes (txid height : ℕ) :
    (recognizeConfirmation txid height).Makes (FeeReq.recognizeConfirmation txid height).May := by
  refine Prog.Makes.bind (fun found => ?_) (Prog.makes_perform trivial)
  refine Prog.Makes.bind (fun obligation => ?_) (Prog.makes_orThrow _ _)
  refine Prog.Makes.bind (fun _ => ?_) (Prog.makes_require _ _)
  refine Prog.Makes.bind (fun evidence => ?_) (Prog.makes_perform nofun)
  refine Prog.Makes.bind (fun lastBroadcast => ?_) (Prog.makes_orThrow _ _)
  refine Prog.Makes.bind (fun livePolicy => ?_) (Prog.makes_perform trivial)
  refine Prog.Makes.bind (fun recordedAt => ?_) (Prog.makes_perform trivial)
  refine Prog.Makes.bind (fun _ => ?_) (Prog.makes_require _ _)
  refine Prog.Makes.bind (fun _ => Prog.makes_require _ _) (Prog.makes_perform ?_)
  exact ⟨rfl, rfl, rfl, txid, height, rfl⟩

theorem recordReorg_makes (req : FeeReq) (txid : ℕ) :
    (recordReorgAndRevert txid).Makes req.May := by
  refine Prog.Makes.bind (fun found => ?_) (Prog.makes_perform trivial)
  refine Prog.Makes.bind (fun obligation => ?_) (Prog.makes_orThrow _ _)
  refine Prog.Makes.bind (fun _ => ?_) (Prog.makes_perform ?_)
  · exact Prog.Makes.when (transition_makes ⟨by decide, by decide, by decide, nofun⟩) _
  · exact ⟨nofun, nofun⟩

/-- The calls of `applyDownstreamCompletionEffects`. -/
theorem completionEffects_makes (a : SettlementArgs)
    (feeOutput : Option BroadcastEvidenceInput) :
    (applyDownstreamCompletionEffects P a feeOutput).Makes
      (FeeReq.completionEffects a feeOutput).May := by
  refine Prog.Makes.bind (fun _ => Prog.Makes.when (Prog.Makes.swallow ?_) _)
    (recordObligation_makes _ a)
  refine Prog.Makes.bind (fun found => ?_) (Prog.makes_perform trivial)
  refine Prog.Makes.bind (fun _ => ?_) (Prog.makes_orThrow _ _)
  cases feeOutput with
  | none => exact Prog.makes_throw _
  | some e => exact recordBroadcast_makes rfl

/-- The calls of `allocate`. -/
theorem allocate_makes : (allocate P).Makes FeeReq.allocate.May := by
  refine Prog.Makes.bind (fun found => ?_) (Prog.makes_perform trivial)
  refine Prog.Makes.bind (fun obligation => ?_) (Prog.makes_orThrow _ _)
  refine Prog.Makes.bind (fun _ => ?_) (Prog.makes_require _ _)
  refine Prog.Makes.bind (fun computedFee => ?_) (Prog.makes_orThrow _ _)
  refine Prog.Makes.bind (fun asset => ?_) (Prog.makes_orThrow _ _)
  refine Prog.Makes.bind (fun _ => ?_) (Prog.makes_perform trivial)
  refine Prog.Makes.bind (fun evidence => ?_) (Prog.makes_perform fun _ => rfl)
  refine Prog.Makes.bind (fun confirmation => ?_) (Prog.makes_orThrow _ _)
  refine Prog.Makes.bind (fun policyId => ?_) (Prog.makes_orThrow _ _)
  refine Prog.Makes.bind (fun recipients => ?_) (Prog.makes_perform trivial)
  refine Prog.Makes.bind (fun _ => ?_) (Prog.makes_require _ _)
  refine Prog.Makes.bind (fun entries => ?_) (Prog.makes_ret _)
  exact Prog.makes_perform rfl

theorem reverseEntry_makes {req : FeeReq} (hreq : req.reverses = true) (id : ℕ) :
    (reverseEntry id).Makes req.May := by
  refine Prog.Makes.bind (fun found => ?_) (Prog.makes_perform hreq)
  refine Prog.Makes.bind (fun original => ?_) (Prog.makes_orThrow _ _)
  refine Prog.Makes.bind (fun _ => ?_) (Prog.makes_require _ _)
  exact Prog.makes_perform ⟨rfl, hreq⟩

/-- A request makes the calls it may make. -/
theorem prog_makes (req : FeeReq) : (req.prog P).Makes req.May := by
  cases req with
  | recordObligation a => exact recordObligation_makes _ a
  | completionEffects a feeOutput => exact completionEffects_makes a feeOutput
  | recordBroadcastAndAdvance e => exact recordBroadcast_makes rfl
  | recognizeConfirmation txid height => exact recognizeConfirmation_makes txid height
  | recordReplacement oldTxid => exact Prog.makes_perform ⟨nofun, nofun⟩
  | recordDropped txid => exact Prog.makes_perform ⟨nofun, nofun⟩
  | recordReorgAndRevert txid => exact recordReorg_makes _ txid
  | allocate => exact allocate_makes
  | reverseEntry id => exact reverseEntry_makes rfl id
  | reverseGeneration id =>
    exact Prog.Makes.bind (fun entries => Prog.makes_forEach (fun _ => reverseEntry_makes rfl _) _)
      (Prog.makes_perform rfl)

/-! ## Moves of the status -/

/-- A change of the status : the row is created, or a transition of the graph. -/
def ValidMove (m : Option FeeCollectionStatus × Option FeeCollectionStatus) : Prop :=
  m = (none, some .PENDING_COLLECTION) ∨
    ∃ f t, m = (some f, some t) ∧ t ∈ validCollectionTransitions f

/-- The number of `CONFIRMED` rows. -/
def FeeStore.confirmedRows (s : FeeStore) : ℕ := s.evidence.countP (·.kind = .CONFIRMED)

theorem FeeStore.confirmedRows_record (s : FeeStore) (input : EvidenceInput) (recordedAt : ℕ) :
    (s.record input recordedAt).confirmedRows =
      s.confirmedRows + if input.kind = .CONFIRMED then 1 else 0 := by
  rw [confirmedRows, record, List.countP_append, List.countP_singleton, ← confirmedRows]
  by_cases h : input.kind = .CONFIRMED <;> simp [h]

/-- What a step does to the status and to the confirmed rows. -/
inductive CollectionStep (s s' : FeeStore) : Prop
  | same (hstatus : s'.status = s.status) (hrows : s'.confirmedRows = s.confirmedRows)
  | created (hnone : s.status = none) (hstatus : s'.status = some .PENDING_COLLECTION)
      (hrows : s'.confirmedRows = s.confirmedRows)
  | moved {f t : FeeCollectionStatus} (hf : s.status = some f) (ht : s'.status = some t)
      (hvalid : t ∈ validCollectionTransitions f) (hne : t ≠ .COLLECTED)
      (hrows : s'.confirmedRows = s.confirmedRows)
  | collected (hf : s.status = some .IN_PROGRESS) (ht : s'.status = some .COLLECTED)
      (hrows : s'.confirmedRows = s.confirmedRows + 1)

/-- A call takes one step of the collection. -/
theorem Effect.collectionStep {q : Call} {env : FeeEnv} {s s' : FeeStore} {req : FeeReq}
    (h : Effect q env s s') (hmay : req.May q) : CollectionStep s s' := by
  cases h with
  | create hnone =>
    rcases hmay with hrow | hrow
    · exact .same (by rw [FeeStore.status_create, hrow, FeeStore.status_of_none hnone]) rfl
    · exact .created (FeeStore.status_of_none hnone) (by rw [FeeStore.status_create, hrow]) rfl
  | claim hs => exact .moved hs (FeeStore.status_setStatus hs _) hmay.1 hmay.2.1 rfl
  | @record input env s =>
    exact .same rfl (by rw [FeeStore.confirmedRows_record, if_neg hmay.1]; rfl)
  | @confirm input recordedAt f t env s hs =>
    obtain ⟨hkind, rfl, rfl, -⟩ := hmay
    refine .collected hs (FeeStore.status_setStatus hs _) ?_
    rw [← if_pos (c := input.kind = .CONFIRMED) (t := 1) (e := 0) hkind,
      ← FeeStore.confirmedRows_record s input recordedAt]
    rfl
  | allocate hinsert => exact .same rfl rfl
  | reverse hinsert => exact .same rfl rfl

/-- The fee is collected by a recognized confirmation only. -/
theorem Effect.recognition {q : Call} {env : FeeEnv} {s s' : FeeStore} {req : FeeReq}
    (h : Effect q env s s') (hmay : req.May q) (hbefore : s.status ≠ some .COLLECTED)
    (hafter : s'.status = some .COLLECTED) :
    ∃ txid height, req = .recognizeConfirmation txid height := by
  cases h with
  | create hnone =>
    rw [FeeStore.status_create] at hafter
    rcases hmay with hrow | hrow <;> rw [hrow] at hafter <;> cases hafter
  | claim hs =>
    rw [FeeStore.status_setStatus hs] at hafter
    exact absurd (Option.some.inj hafter) hmay.2.1
  | record => exact absurd hafter hbefore
  | confirm hs => exact hmay.2.2.2
  | allocate hinsert => exact absurd hafter hbefore
  | reverse hinsert => exact absurd hafter hbefore

namespace CollectionStep

variable {s s' : FeeStore}

theorem validMove (h : CollectionStep s s') (hne : s'.status ≠ s.status) :
    ValidMove (s.status, s'.status) := by
  cases h with
  | same hstatus hrows => exact absurd hstatus hne
  | created hnone hstatus hrows => exact Or.inl (by rw [hnone, hstatus])
  | moved hf ht hvalid _ hrows => exact Or.inr ⟨_, _, by rw [hf, ht], hvalid⟩
  | collected hf ht hrows => exact Or.inr ⟨_, _, by rw [hf, ht], by decide⟩

/-- A confirmation is written with the move to collected, and never else. -/
theorem rows (h : CollectionStep s s') : s'.confirmedRows = s.confirmedRows +
    if (s.status, s'.status) = (some .IN_PROGRESS, some .COLLECTED) then 1 else 0 := by
  cases h with
  | same hstatus hrows =>
    have hne : (s.status, s'.status) ≠ (some .IN_PROGRESS, some .COLLECTED) := by
      rintro heq
      obtain ⟨h1, h2⟩ := Prod.mk.inj heq
      rw [hstatus, h1] at h2
      cases h2
    rw [hrows, if_neg hne]
    rfl
  | created hnone hstatus hrows => rw [hrows, hnone, if_neg nofun]; rfl
  | moved hf ht hvalid hne hrows =>
    rw [hrows, hf, ht, if_neg]
    · rfl
    · rintro heq
      exact hne (Option.some.inj (Prod.mk.inj heq).2)
  | collected hf ht hrows => rw [hrows, hf, ht, if_pos rfl]

end CollectionStep

/-! ## Runs -/

/-- The system of an account, with nothing observed. -/
abbrev accounts (P : Platform) : System Answer FeeError Unit FeeStore FeeEnv FeeReq Empty :=
  feeSystem P fun _ _ _ => []

/-- The rows and the requests about them. -/
abbrev Account := Config Answer FeeError Unit FeeStore FeeReq Empty

/-- Every thread makes only the calls of its request. -/
abbrev Disciplined (P : Platform) : Account → Prop :=
  Config.Conforms (accounts P) (fun _ => True) (fun req _ q => req.May q) fun _ _ _ => True

theorem disciplined_init (s : FeeStore) : Disciplined P (.init s) :=
  Config.conforms_init trivial

theorem Disciplined.step {c : Account} (h : Disciplined P c) (a : Action FeeEnv FeeReq) :
    Disciplined P (c.step (accounts P) a) :=
  Config.Conforms.step (fun req => (prog_makes req).calls fun _ _ h => h)
    (fun _ _ _ _ => trivial) h a

/-- What a step can do to the account, and whose request does it. -/
theorem Disciplined.effect {c : Account} (h : Disciplined P c) (a : Action FeeEnv FeeReq) :
    (c.step (accounts P) a).store = c.store ∨
      ∃ i env req q, a = .run i env ∧ c.reqOf i = some req ∧ req.May q ∧
        Effect q env c.store (c.step (accounts P) a).store := by
  rcases Config.step_cases (S := accounts P) (c := c) a with heq | ⟨req, -, heq⟩ |
    ⟨i, env, req, q, k, rfl, ht, heq⟩ | ⟨i, t, -, ht, heq⟩
  · exact Or.inl (by rw [heq])
  · exact Or.inl (by rw [heq]; rfl)
  · rw [heq]
    refine (exec_effect P q env c.store).imp (fun hs => hs) fun hs => ?_
    exact ⟨i, env, req, q, rfl, Config.reqOf_of_thread ht, h.guard ht, hs⟩
  · exact Or.inl (by rw [heq]; rfl)

theorem Disciplined.collectionStep {c : Account} (h : Disciplined P c)
    (a : Action FeeEnv FeeReq) : CollectionStep c.store (c.step (accounts P) a).store := by
  rcases h.effect a with heq | ⟨i, env, req, q, -, -, hmay, heffect⟩
  · rw [heq]
    exact .same rfl rfl
  · exact heffect.collectionStep hmay

/-- The step makes the obligation `COLLECTED` only as a call of `recognizeConfirmation`. -/
def ByRecognition (P : Platform) (c : Account) (a : Action FeeEnv FeeReq) : Prop :=
  c.store.status ≠ some .COLLECTED → (c.step (accounts P) a).store.status = some .COLLECTED →
    ∃ i env txid height, a = .run i env ∧ c.reqOf i = some (.recognizeConfirmation txid height)

/-- A disciplined step collects by recognition only. -/
theorem Disciplined.byRecognition {c : Account} (h : Disciplined P c)
    (a : Action FeeEnv FeeReq) : ByRecognition P c a := by
  intro hbefore hafter
  rcases h.effect a with heq | ⟨i, env, req, q, rfl, hreq, hmay, heffect⟩
  · rw [heq] at hafter
    exact absurd hafter hbefore
  obtain ⟨txid, height, rfl⟩ := heffect.recognition hmay hbefore hafter
  exact ⟨i, env, txid, height, rfl, hreq⟩

/-- The changes of the status in a run from an empty account. -/
def moves (P : Platform) (as : List (Action FeeEnv FeeReq)) :
    List (Option FeeCollectionStatus × Option FeeCollectionStatus) :=
  Steps.changes (Config.step (accounts P)) (fun c : Account => c.store.status)
    (.init .empty) as

/-- A fee is recognised as collected once : whatever runs, fails or crashes, the `CONFIRMED`
rows are as many as the moves from `IN_PROGRESS` to `COLLECTED`, every move is one of the
graph, and only `recognizeConfirmation` makes the obligation `COLLECTED`. -/
theorem collected_once (P : Platform) (as : List (Action FeeEnv FeeReq)) :
    (Config.exec (accounts P) (.init .empty) as).store.confirmedRows =
        (moves P as).countP (· = (some .IN_PROGRESS, some .COLLECTED)) ∧
      (∀ m ∈ moves P as, ValidMove m) ∧
      Steps.Along (Config.step (accounts P)) (ByRecognition P) (.init .empty) as := by
  have hinit : Disciplined P (.init .empty) := disciplined_init _
  have hstep : ∀ (c : Account) (a : Action FeeEnv FeeReq), Disciplined P c →
      Disciplined P (c.step (accounts P) a) := fun _ a h => h.step a
  refine ⟨?_, ?_, ?_⟩
  · have hcount : (Steps.run (Config.step (accounts P)) (.init .empty) as).store.confirmedRows =
        FeeStore.empty.confirmedRows +
          (moves P as).countP (· = (some .IN_PROGRESS, some .COLLECTED)) :=
      Steps.count_changes (f := fun c : Account => c.store.status)
        (g := fun c => c.store.confirmedRows) (m := (some .IN_PROGRESS, some .COLLECTED))
        nofun hinit hstep fun c a h => (h.collectionStep a).rows
    have hempty : FeeStore.empty.confirmedRows = 0 := rfl
    refine hcount.trans ?_
    rw [hempty, Nat.zero_add]
  · exact Steps.changes_forall hinit hstep fun c a h hne => (h.collectionStep a).validMove hne
  · exact Steps.along_of_invariant hinit hstep fun c a h => h.byRecognition a

end Sails.Fees
