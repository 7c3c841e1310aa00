import SailsProtocol.Fees.Collection

/-!
# Evidence of a broadcast

`recordBroadcastAndAdvance` inserts its row first and moves the status afterwards, and it
does not look for a row that is already there. It runs in the completion of a settlement
and again whenever the reconciliation repeats that completion.

`broadcast_once` : as long as a transaction is not recorded again, one row of it is
recorded. `broadcast_repeated` : a repeated completion records a second one.
-/

namespace Sails.Fees

open Async Settlement

variable {P : Platform}

/-- A broadcast row was asked for, and the obligation moved on. -/
inductive Progress where
  | tried (txid : ℕ)
  | advanced
  deriving DecidableEq, Repr

/-- What is observed of a call. -/
def progress : (q : Call) → FeeStore → Except FeeError (Answer q) → List Progress
  | .recordEvidence input, _, _ => if input.kind = .BROADCAST then [.tried input.txid] else []
  | .claimCollectionStatusTransition .PENDING_COLLECTION .IN_PROGRESS, _, .ok true => [.advanced]
  | _, _, _ => []

/-- The requests about the fee, as a broadcast sees them. -/
abbrev broadcasts (P : Platform) :
    System Answer FeeError Unit FeeStore FeeEnv FeeReq Progress :=
  feeSystem P progress

/-- The rows and the requests about them. -/
abbrev Broadcasting := Config Answer FeeError Unit FeeStore FeeReq Progress

/-- The number of `BROADCAST` rows of a transaction. -/
def FeeStore.broadcastRows (s : FeeStore) (txid : ℕ) : ℕ :=
  s.evidence.countP fun e => e.kind = .BROADCAST ∧ e.txid = txid

/-- A run of `recordBroadcastAndAdvance` has finished without failure. -/
def Finished (c : Broadcasting) (i : ℕ) : Prop :=
  Progress.advanced ∈ c.own i ∨
    ∃ e live, c.threads[i]? = some ⟨.recordBroadcastAndAdvance e, .ret (.ok ()), live⟩

/-- One row of the transaction, and an obligation that has moved on once a run finished. -/
structure BroadcastOnce (txid : ℕ) (c : Broadcasting) : Prop where
  rows : c.store.broadcastRows txid ≤ 1
  left : ∀ i, Finished c i →
    c.store.status ≠ none ∧ c.store.status ≠ some .PENDING_COLLECTION

/-- A run for the transaction starts only when every earlier one has ended and has left no
row. -/
def NotRepeated (txid : ℕ) (c : Broadcasting) : Action FeeEnv FeeReq → Prop
  | .start req => req.broadcastTxid = some txid →
      c.store.broadcastRows txid = 0 ∧
        ∀ t ∈ c.threads, t.req.broadcastTxid = some txid → t.idle = true
  | _ => True

instance (txid : ℕ) (c : Broadcasting) : (a : Action FeeEnv FeeReq) →
    Decidable (NotRepeated txid c a)
  | .start req => inferInstanceAs (Decidable (req.broadcastTxid = some txid → _ ∧ _))
  | .run _ _ => inferInstanceAs (Decidable True)
  | .crash _ => inferInstanceAs (Decidable True)

/-! ## Guards -/

/-- A broadcast is asked for once. -/
def BroadcastGuard (req : FeeReq) (log : List Progress) (q : Call) : Prop :=
  req.May q ∧ ∀ input, q = .recordEvidence input → input.kind = .BROADCAST →
    ∀ txid, Progress.tried txid ∉ log

/-- A finished run has moved the obligation. -/
def BroadcastResult (req : FeeReq) (log : List Progress) (r : Except FeeError Unit) : Prop :=
  ∀ e, req = .recordBroadcastAndAdvance e → r = .ok () → Progress.advanced ∈ log

section Guards

variable {can : ∀ q : Call, FeeStore → Except FeeError (Answer q) → Prop} {req : FeeReq}
  {log : List Progress}

/-- A request that records no broadcast is not observed. -/
theorem progress_nil (hnone : req.broadcastTxid = none) {q : Call} (hmay : req.May q)
    (s : FeeStore) (r : Except FeeError (Answer q)) : progress q s r = [] := by
  cases q with
  | recordEvidence input =>
    have hkind : input.kind ≠ .BROADCAST := fun h => by simpa [hnone] using hmay.2 h
    simp [progress, hkind]
  | claimCollectionStatusTransition f t =>
    by_cases hadvance : f = .PENDING_COLLECTION ∧ t = .IN_PROGRESS
    · exact absurd hnone (hmay.2.2.2 hadvance.1 hadvance.2)
    · cases f <;> cases t <;> first | rfl | exact absurd ⟨rfl, rfl⟩ hadvance
  | _ => rfl

theorem broadcastGuard_of_none (hnone : req.broadcastTxid = none) {q : Call}
    (hmay : req.May q) : BroadcastGuard req log q := by
  refine ⟨hmay, ?_⟩
  rintro input rfl hkind
  simpa [hnone] using hmay.2 hkind

/-- A recorded broadcast is tried once. -/
theorem recordBroadcast_guarded {e : BroadcastEvidenceInput}
    (hreq : req.broadcastTxid = some e.txid) (hlog : ∀ txid, Progress.tried txid ∉ log) :
    (recordBroadcastAndAdvance e).Guarded can progress (BroadcastGuard req)
      (fun log' r => r = .ok () → Progress.advanced ∈ log') log := by
  have hmakes := recordBroadcast_makes hreq
  simp only [recordBroadcastAndAdvance, transitionCollectionStatus, await, Prog.guarded_bind,
    Prog.guarded_require]
  refine ⟨⟨hmakes.1, fun _ _ _ => hlog⟩, fun s r _ => ?_⟩
  cases r with
  | error e => exact fun h => by cases h
  | ok u =>
    refine ⟨fun _ => ⟨⟨?_, fun _ h => by cases h⟩, fun s' r' _ => ?_⟩, fun h => absurd h (by decide)⟩
    · exact (hmakes.2 (.ok ())).1
    · cases r' with
      | error e => exact fun h => by cases h
      | ok affected =>
        refine ⟨fun h _ => ?_, fun _ h => by cases h⟩
        cases h
        exact List.mem_cons_self

/-- The effects of a completion try the broadcast once. -/
theorem completion_guarded (a : SettlementArgs) (feeOutput : Option BroadcastEvidenceInput) :
    (applyDownstreamCompletionEffects P a feeOutput).Calls can progress
      (BroadcastGuard (.completionEffects a feeOutput)) [] := by
  -- recording the obligation leaves the log empty
  have hrecord : (recordObligationForEscrowSettlement P a).Guarded can progress
      (BroadcastGuard (.completionEffects a feeOutput)) (fun log' _ => log' = []) [] := by
    refine Prog.Makes.silent (N := fun q => (FeeReq.recordObligation a).May q ∧
      (FeeReq.completionEffects a feeOutput).May q) ?_ ?_ ?_
    · rintro q log ⟨hquiet, hmay⟩
      exact ⟨hmay, (broadcastGuard_of_none rfl hquiet).2⟩
    · exact fun q s r hq => progress_nil rfl hq.1 s r
    · exact (recordObligation_makes _ a).and (recordObligation_makes _ a)
  refine Prog.Calls.bind (hrecord.mono ?_)
  rintro log' r rfl u -
  refine (Prog.guarded_when _ _).mpr ⟨fun _ => (Prog.guarded_swallow _ _).mpr ?_, fun _ => trivial⟩
  refine Prog.Calls.perform_bind ⟨trivial, nofun⟩ fun s found _ => ?_
  refine Prog.Calls.orThrow_bind fun row _ => Prog.Calls.orThrow_bind ?_
  rintro e rfl
  exact (recordBroadcast_guarded rfl (by simp [progress])).mono fun _ _ _ => trivial

/-- Every call of a request meets its guard. -/
theorem broadcast_guards (req : FeeReq) :
    (req.prog P).Guarded can progress (BroadcastGuard req) (BroadcastResult req) [] := by
  by_cases hnone : req.broadcastTxid = none
  · have hcalls : (req.prog P).Calls can progress (BroadcastGuard req) [] := by
      refine (prog_makes req).calls (G := BroadcastGuard req) fun q log hq => ?_
      exact broadcastGuard_of_none hnone hq
    refine hcalls.mono ?_
    rintro log r - e rfl
    cases hnone
  · cases req with
    | recordBroadcastAndAdvance e =>
      exact (recordBroadcast_guarded rfl (by simp)).mono fun log r h _ _ => h
    | completionEffects a feeOutput =>
      exact (completion_guarded a feeOutput).mono fun _ _ _ => nofun
    | _ => exact absurd rfl hnone

end Guards

/-! ## The rows of a transaction -/

theorem FeeStore.broadcastRows_record (s : FeeStore) (input : EvidenceInput) (recordedAt txid : ℕ) :
    (s.record input recordedAt).broadcastRows txid = s.broadcastRows txid +
      if input.kind = .BROADCAST ∧ input.txid = txid then 1 else 0 := by
  rw [broadcastRows, record, List.countP_append, List.countP_singleton, ← broadcastRows]
  by_cases h : input.kind = .BROADCAST ∧ input.txid = txid <;> simp [h]

/-- Only an insert of the broadcast of the transaction adds a row of it. -/
theorem Effect.broadcastRows {q : Call} {env : FeeEnv} {s s' : FeeStore} {req : FeeReq}
    (h : Effect q env s s') (hmay : req.May q) (txid : ℕ) :
    s'.broadcastRows txid = s.broadcastRows txid ∨
      s'.broadcastRows txid = s.broadcastRows txid + 1 ∧
        ∃ input, q = .recordEvidence input ∧ input.kind = .BROADCAST ∧ input.txid = txid := by
  cases h with
  | @record input env s =>
    rw [FeeStore.broadcastRows_record]
    split_ifs with hrow
    · exact Or.inr ⟨rfl, input, rfl, hrow⟩
    · exact Or.inl rfl
  | @confirm input recordedAt f t env s hs =>
    refine Or.inl ((FeeStore.broadcastRows_record s input recordedAt txid).trans ?_)
    rw [hmay.1, if_neg nofun]
    rfl
  | _ => exact Or.inl rfl

/-- The obligation has been created and has left `PENDING_COLLECTION`. -/
def FeeStore.HasLeft (s : FeeStore) : Prop :=
  s.status ≠ none ∧ s.status ≠ some .PENDING_COLLECTION

/-- A status that has left the first one stays so. -/
theorem Effect.hasLeft {q : Call} {env : FeeEnv} {s s' : FeeStore} {req : FeeReq}
    (h : Effect q env s s') (hmay : req.May q) (hs : s.HasLeft) : s'.HasLeft := by
  cases h with
  | create hnone => exact absurd (FeeStore.status_of_none hnone) hs.1
  | claim hf =>
    rw [FeeStore.HasLeft, FeeStore.status_setStatus hf]
    exact ⟨nofun, fun h => hmay.2.2.1 (Option.some.inj h)⟩
  | record => exact hs
  | @confirm input recordedAt f t env s hf =>
    obtain ⟨-, -, rfl, -⟩ := hmay
    rw [FeeStore.HasLeft, FeeStore.status_setStatus (s := s.record input recordedAt) hf]
    exact ⟨nofun, nofun⟩
  | allocate hinsert => exact hs
  | reverse hinsert => exact hs

/-! ## Runs -/

/-- Thread `i` is still running for the transaction. -/
def Recording (c : Broadcasting) (txid i : ℕ) : Prop :=
  c.next i ≠ none ∧ ∃ req, c.reqOf i = some req ∧ req.broadcastTxid = some txid

/-- One run at a time can still record the transaction, and only while there is no row. -/
structure SingleRun (txid : ℕ) (c : Broadcasting) : Prop where
  rows : c.store.broadcastRows txid ≤ 1
  untried : ∀ i, Recording c txid i → (∀ x, Progress.tried x ∉ c.own i) →
    c.store.broadcastRows txid = 0
  alone : ∀ i j, Recording c txid i → Recording c txid j → i = j
  left : ∀ i, Progress.advanced ∈ c.own i → c.store.HasLeft

section Steps

variable {c : Broadcasting} {txid : ℕ}

/-- A new thread records when its request does. -/
theorem Recording.of_spawn {req : FeeReq} {i : ℕ}
    (h : Recording (c.spawn (broadcasts P) req) txid i) :
    i = c.threads.length ∧ req.broadcastTxid = some txid ∨ Recording c txid i := by
  obtain ⟨hnext, req', hreq, htxid⟩ := h
  by_cases hi : i = c.threads.length
  · subst hi
    rw [Config.reqOf_spawn_self] at hreq
    obtain rfl := Option.some.inj hreq
    exact Or.inl ⟨rfl, htxid⟩
  · rw [Config.next_spawn_of_ne hi] at hnext
    rw [Config.reqOf_spawn_of_ne hi] at hreq
    exact Or.inr ⟨hnext, req', hreq, htxid⟩

/-- What the condition on a start excludes. -/
theorem not_recording {i : ℕ}
    (h : ∀ t ∈ c.threads, t.req.broadcastTxid = some txid → t.idle = true) :
    ¬ Recording c txid i := by
  rintro ⟨hnext, req, hreq, htxid⟩
  obtain ⟨q, hq⟩ := Option.ne_none_iff_exists'.mp hnext
  obtain ⟨req', k, ht⟩ := Config.call_of_next hq
  rw [Config.reqOf_of_thread ht] at hreq
  obtain rfl := Option.some.inj hreq
  have := h _ (List.mem_of_getElem? ht) htxid
  cases this

/-- A request that the condition allows keeps the run single. -/
theorem SingleRun.spawn (h : SingleRun txid c) {req : FeeReq}
    (hreq : NotRepeated txid c (.start req)) : SingleRun txid (c.spawn (broadcasts P) req) := by
  by_cases htxid : req.broadcastTxid = some txid
  · obtain ⟨hrows, hidle⟩ := hreq htxid
    have hnew : ∀ i, Recording (c.spawn (broadcasts P) req) txid i → i = c.threads.length :=
      fun i hi => hi.of_spawn.elim And.left fun hold => absurd hold (not_recording hidle)
    exact ⟨h.rows, fun _ _ _ => hrows, fun i j hi hj => (hnew i hi).trans (hnew j hj).symm, h.left⟩
  · have hold : ∀ i, Recording (c.spawn (broadcasts P) req) txid i → Recording c txid i :=
      fun i hi => hi.of_spawn.resolve_left fun hnew => htxid hnew.2
    exact ⟨h.rows, fun i hi => h.untried i (hold i hi),
      fun i j hi hj => h.alone i j (hold i hi) (hold j hj), h.left⟩

/-- A crash keeps the run single. -/
theorem SingleRun.kill (h : SingleRun txid c) {i : ℕ} {t : Thread Answer FeeError Unit FeeReq}
    (ht : c.threads[i]? = some t) : SingleRun txid (c.kill i t) := by
  have hold : ∀ j, Recording (c.kill i t) txid j → Recording c txid j := by
    rintro j ⟨hnext, hreq⟩
    rw [Config.reqOf_kill ht] at hreq
    by_cases hj : j = i
    · subst hj
      exact absurd Config.next_kill_self hnext
    · rw [Config.next_kill_of_ne hj] at hnext
      exact ⟨hnext, hreq⟩
  exact ⟨h.rows, fun j hj => h.untried j (hold j hj),
    fun j j' hj hj' => h.alone j j' (hold j hj) (hold j' hj'), h.left⟩

/-- An answered claim of `IN_PROGRESS` has moved the obligation. -/
theorem hasLeft_of_advanced {q : Call} {env : FeeEnv} {s : FeeStore}
    (h : Progress.advanced ∈ progress q s (q.exec P env s).1) :
    (q.exec P env s).2.HasLeft := by
  cases q with
  | recordEvidence input =>
    rw [progress] at h
    split_ifs at h <;> simp at h
  | claimCollectionStatusTransition f t =>
    by_cases hadvance : f = .PENDING_COLLECTION ∧ t = .IN_PROGRESS
    · obtain ⟨rfl, rfl⟩ := hadvance
      rcases hr : ((Call.claimCollectionStatusTransition .PENDING_COLLECTION
        .IN_PROGRESS).exec P env s).1 with e | _ | _ <;> rw [hr] at h
      · cases h
      · cases h
      · obtain ⟨hs, hstore⟩ := claim_ok hr
        rw [hstore, FeeStore.HasLeft, FeeStore.status_setStatus hs]
        exact ⟨nofun, nofun⟩
    · cases f <;> cases t <;> first | cases h | exact absurd ⟨rfl, rfl⟩ hadvance
  | _ => cases h

/-- A call keeps the run single. -/
theorem SingleRun.answer (h : SingleRun txid c) {i : ℕ} {env : FeeEnv} {req : FeeReq} {q : Call}
    {k : Except FeeError (Answer q) → FeeOp Unit}
    (ht : c.threads[i]? = some ⟨req, .call q k, true⟩) (hguard : BroadcastGuard req (c.own i) q) :
    SingleRun txid (c.answer (broadcasts P) i env req q k) := by
  obtain ⟨hmay, htry⟩ := hguard
  have hnext : c.next i ≠ none := by
    rw [Config.next_of_call ht]
    exact nofun
  have hold : ∀ j, Recording (c.answer (broadcasts P) i env req q k) txid j →
      Recording c txid j := by
    rintro j ⟨hnext', hreq⟩
    rw [Config.reqOf_answer ht] at hreq
    by_cases hj : j = i
    · subst hj
      exact ⟨hnext, hreq⟩
    · rw [Config.next_answer_of_ne hj] at hnext'
      exact ⟨hnext', hreq⟩
  have halone : ∀ j j', Recording (c.answer (broadcasts P) i env req q k) txid j →
      Recording (c.answer (broadcasts P) i env req q k) txid j' → j = j' :=
    fun j j' hj hj' => h.alone j j' (hold j hj) (hold j' hj')
  have heffect := exec_effect P q env c.store
  have hleft : ∀ j, Progress.advanced ∈ (c.answer (broadcasts P) i env req q k).own j →
      (q.exec P env c.store).2.HasLeft := by
    intro j hj
    rcases Config.mem_own_of_answer hj with ⟨-, hobs⟩ | hmem
    · exact hasLeft_of_advanced hobs
    · have hbefore := h.left j hmem
      rcases heffect with heq | heff
      · rw [heq]
        exact hbefore
      · exact heff.hasLeft hmay hbefore
  have hrows : (q.exec P env c.store).2.broadcastRows txid = c.store.broadcastRows txid ∨
      (q.exec P env c.store).2.broadcastRows txid = c.store.broadcastRows txid + 1 ∧
        ∃ input, q = .recordEvidence input ∧ input.kind = .BROADCAST ∧ input.txid = txid := by
    rcases heffect with heq | heff
    · exact Or.inl (by rw [heq])
    · exact heff.broadcastRows hmay txid
  rcases hrows with hsame | ⟨hmore, input, rfl, hkind, rfl⟩
  · refine ⟨hsame.le.trans h.rows, fun j hj huntried => ?_, halone, hleft⟩
    exact hsame.trans (h.untried j (hold j hj) fun x hx => huntried x (Config.mem_own_answer hx))
  · -- the thread that records has not recorded before, so there was no row
    have hrec : Recording c input.txid i :=
      ⟨hnext, req, Config.reqOf_of_thread ht, hmay.2 hkind⟩
    have hzero := h.untried i hrec (htry input rfl hkind)
    refine ⟨(hmore.trans (by rw [hzero])).le, fun j hj huntried => ?_, halone, hleft⟩
    obtain rfl := h.alone j i (hold j hj) hrec
    have htried : Progress.tried input.txid ∈
        progress (.recordEvidence input) c.store ((Call.recordEvidence input).exec P env c.store).1 := by
      simp [progress, hkind]
    exact absurd (Config.mem_own.mpr (Config.mem_trace_of_observe htried)) (huntried input.txid)

end Steps

theorem singleRun_init (txid : ℕ) : SingleRun txid (.init .empty) where
  rows := Nat.zero_le 1
  untried := fun i hi => absurd rfl hi.1
  alone := fun i j hi => absurd rfl hi.1
  left := fun i hi => by simp [Config.own, Config.init] at hi

/-- A broadcast is recorded once : in every run in which a run for the transaction starts
only when every earlier one has ended and left no row, there is at most one `BROADCAST` row
of it, and the obligation has left `PENDING_COLLECTION` once a run has finished. -/
theorem broadcast_once (P : Platform) (txid : ℕ) (as : List (Action FeeEnv FeeReq))
    (h : Config.Along (broadcasts P) (NotRepeated txid) (.init .empty) as) :
    BroadcastOnce txid (Config.exec (broadcasts P) (.init .empty) as) := by
  have hrun := Config.run_invariant (S := broadcasts P) (R := fun _ => True)
    (G := BroadcastGuard) (Q := BroadcastResult) (I := SingleRun txid)
    (fun req => broadcast_guards req) (fun _ _ _ _ => trivial)
    (fun _ hI hA => hI.spawn hA) (fun _ hI _ ht hguard => hI.answer ht hguard)
    (fun _ hI _ ht => hI.kill ht) as (Config.conforms_init trivial) (singleRun_init txid) h
  obtain ⟨hconforms, hsingle⟩ := hrun
  refine ⟨hsingle.rows, ?_⟩
  rintro i (hadvanced | ⟨e, live, ht⟩)
  · exact hsingle.left i hadvanced
  · exact hsingle.left i (hconforms.result ht e rfl rfl)

/-- A settlement that collected a fee of a hundredth of one bitcoin. -/
def sampleSettlement : SettlementArgs where
  escrow := ⟨1, .BTC, some 7, some (1 / 100)⟩
  outcome := .RELEASE
  splitBuyerBps := none
  actualCollection := some ⟨1000000, false⟩

/-- The fee output of the sample. -/
def sampleOutput : BroadcastEvidenceInput := ⟨5, 1, [], 1000000⟩

/-- A policy with one recipient. -/
def samplePlatform : Platform := ⟨[], none, fun _ => [⟨1, 100⟩]⟩

/-- The completion of the settlement. -/
def sampleCompletion : List (Action FeeEnv FeeReq) :=
  .start (.completionEffects sampleSettlement (some sampleOutput)) ::
    List.replicate 5 (.run 0 { })

/-- The broadcast of the sample is recorded once. -/
theorem broadcast_once_sample :
    Config.Along (broadcasts samplePlatform) (NotRepeated 5) (.init .empty) sampleCompletion ∧
      BroadcastOnce 5 (Config.exec (broadcasts samplePlatform) (.init .empty) sampleCompletion) ∧
      (Config.exec (broadcasts samplePlatform) (.init .empty) sampleCompletion).store.status =
        some .IN_PROGRESS := by
  have halong : Config.Along (broadcasts samplePlatform) (NotRepeated 5) (.init .empty)
      sampleCompletion := by decide
  exact ⟨halong, broadcast_once samplePlatform 5 sampleCompletion halong, by decide⟩

/-- The completion stops after its row, and the reconciliation repeats it. -/
def repeatedCompletion : List (Action FeeEnv FeeReq) :=
  .start (.completionEffects sampleSettlement (some sampleOutput)) ::
    List.replicate 4 (.run 0 { }) ++ .crash 0 ::
    .start (.completionEffects sampleSettlement (some sampleOutput)) ::
    List.replicate 4 (.run 1 { })

/-- A repeated completion records the broadcast again. -/
theorem broadcast_repeated : ¬ ∀ (P : Platform) (txid : ℕ) (as : List (Action FeeEnv FeeReq)),
    (Config.exec (broadcasts P) (.init .empty) as).quiescent = true →
      BroadcastOnce txid (Config.exec (broadcasts P) (.init .empty) as) := by
  intro h
  have hrows := (h samplePlatform 5 repeatedCompletion (by decide)).rows
  exact absurd hrows (by decide)

end Sails.Fees
