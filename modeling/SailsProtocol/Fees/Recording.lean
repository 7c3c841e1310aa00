import SailsProtocol.Fees.Account

/-!
# Recording an obligation

`recordObligationForEscrowSettlement` creates the row and, for a waived fee, moves it to
`WAIVED` with a second statement. A later call returns as soon as it finds a row, so a
waived obligation whose creator stops between the two statements keeps
`PENDING_COLLECTION` for good.

`recording_converges` : where nothing separates the two statements, every call that runs to
its end leaves the one row of the settlement. `waived_left_pending` is a crash between them.
-/

namespace Sails.Fees

open Async Settlement

variable (P : Platform) (a : SettlementArgs) (policyId : ℕ) (rate : ℚ)

/-- The settlement owes a fee and waives it. -/
def SettlementArgs.waives : Bool := decide (a.outcome ≠ .FULL_REFUND) && a.waived P rate

/-- The row that is created. -/
def SettlementArgs.createdRow : ObligationRow :=
  if a.outcome = .FULL_REFUND then notApplicableRow policyId else a.owedRow policyId rate

/-- The row the settlement stands for : its determination and amounts, and `WAIVED` if the
fee is waived. -/
def SettlementArgs.settledRow : ObligationRow :=
  if a.waives P rate then { a.createdRow policyId rate with collectionStatus := some .WAIVED }
  else a.createdRow policyId rate

/-! ## What is observed -/

/-- What the recording of an obligation sees. -/
inductive Noted where
  | fault
  | existing
  | created
  | duplicate
  | waived
  | missed
  deriving DecidableEq, Repr

/-- What a call tells the recording. -/
def noted : (q : Call) → FeeStore → Except FeeError (Answer q) → List Noted
  | .findObligation, _, .ok (some _) => [.existing]
  | .createObligation _, _, .ok _ => [.created]
  | .createObligation _, _, .error .obligationExists => [.duplicate]
  | .claimCollectionStatusTransition _ _, _, .ok true => [.waived]
  | .claimCollectionStatusTransition _ _, _, .ok false => [.missed]
  | _, _, .error .fault => [.fault]
  | _, _, _ => []

/-- The requests about the fee, as a recording sees them. -/
abbrev recordings : System Answer FeeError Unit FeeStore FeeEnv FeeReq Noted :=
  feeSystem P noted

/-- The rows and the requests about them. -/
abbrev Recorder := Config Answer FeeError Unit FeeStore FeeReq Noted

/-- Call `i` has run to its end, and the database answered all its statements. -/
def Completed (c : Recorder) (i : ℕ) : Prop :=
  Noted.fault ∉ c.own i ∧ ∃ req live, c.threads[i]? = some ⟨req, .ret (.ok ()), live⟩

/-- Once a call has run to its end the one row of the settlement is there, and when nothing
runs a waived fee is not pending. -/
structure Converged (c : Recorder) : Prop where
  settled : ∀ i, Completed c i → c.store.obligation = some (a.settledRow P policyId rate)
  notLeft : c.quiescent = true → a.waives P rate = true →
    c.store.status ≠ some .PENDING_COLLECTION

/-- The waived obligation has been created and not yet moved. -/
def Opened (c : Recorder) : Prop :=
  a.waives P rate = true ∧ c.store.status = some .PENDING_COLLECTION

instance (c : Recorder) : Decidable (Opened P a rate c) := inferInstanceAs (Decidable (_ ∧ _))

/-- A run of calls with these arguments. -/
def SameCall : Action FeeEnv FeeReq → Prop
  | .start req => req = .recordObligation a
  | _ => True

instance : (act : Action FeeEnv FeeReq) → Decidable (SameCall a act)
  | .start req => inferInstanceAs (Decidable (req = _))
  | .run _ _ => inferInstanceAs (Decidable True)
  | .crash _ => inferInstanceAs (Decidable True)

/-- What a statement may meet : while the row is open no other call finds it, the answer to
the creation of a waived obligation is not lost, and its move is answered. -/
def UndividedCall (c : Recorder) (env : FeeEnv) : Option Call → Prop
  | some .findObligation => Opened P a rate c → env.fate ≠ .answered
  | some (.createObligation _) =>
    (Opened P a rate c → env.fate ≠ .answered) ∧ (a.waives P rate = true → env.fate ≠ .lost)
  | some (.claimCollectionStatusTransition _ _) => env.fate = .answered
  | _ => True

instance (c : Recorder) (env : FeeEnv) : (q : Option Call) →
    Decidable (UndividedCall P a rate c env q)
  | some .findObligation => inferInstanceAs (Decidable (_ → _))
  | some (.createObligation _) => inferInstanceAs (Decidable (_ ∧ _))
  | some (.claimCollectionStatusTransition _ _) => inferInstanceAs (Decidable (_ = _))
  | none => inferInstanceAs (Decidable True)
  | some .findFeePolicyVersion => inferInstanceAs (Decidable True)
  | some (.recordEvidence _) => inferInstanceAs (Decidable True)
  | some (.latestEvidence _) => inferInstanceAs (Decidable True)
  | some .findLivePolicy => inferInstanceAs (Decidable True)
  | some .insertConfirmed => inferInstanceAs (Decidable True)
  | some (.commitConfirmed _ _ _ _) => inferInstanceAs (Decidable True)
  | some (.findRecipients _) => inferInstanceAs (Decidable True)
  | some (.commitAllocation _) => inferInstanceAs (Decidable True)
  | some (.findAllocations _) => inferInstanceAs (Decidable True)
  | some (.findEntry _) => inferInstanceAs (Decidable True)
  | some (.commitReversal _) => inferInstanceAs (Decidable True)

/-- Nothing separates the creation of a waived obligation from its move, and the call that
makes the move is not stopped before it. -/
def Undivided (c : Recorder) : Action FeeEnv FeeReq → Prop
  | .start req => SameCall a (.start req)
  | .run i env => UndividedCall P a rate c env (c.next i)
  | .crash i => c.next i ≠ some (.claimCollectionStatusTransition .PENDING_COLLECTION .WAIVED)

instance (c : Recorder) : (act : Action FeeEnv FeeReq) → Decidable (Undivided P a rate c act)
  | .start req => inferInstanceAs (Decidable (SameCall a (.start req)))
  | .run i env => inferInstanceAs (Decidable (UndividedCall P a rate c env (c.next i)))
  | .crash _ => inferInstanceAs (Decidable (_ ≠ _))

/-! ## Guards -/

/-- The creation comes first, then the move of a waived obligation, and nothing else. -/
def RecordGuard (log : List Noted) : Call → Prop
  | .findObligation => Noted.created ∉ log
  | .findFeePolicyVersion => Noted.created ∉ log
  | .createObligation row => log = [] ∧ row = a.createdRow policyId rate
  | .claimCollectionStatusTransition f t =>
    f = .PENDING_COLLECTION ∧ t = .WAIVED ∧ a.waives P rate = true ∧ Noted.created ∈ log ∧
      Noted.waived ∉ log
  | _ => False

/-- What a call that ends has found or done. -/
def RecordResult (log : List Noted) (_ : Except FeeError Unit) : Prop :=
  Noted.fault ∈ log ∨ Noted.existing ∈ log ∨ Noted.duplicate ∈ log ∨
    Noted.created ∈ log ∧ (a.waives P rate = true → Noted.waived ∈ log ∨ Noted.missed ∈ log)

section Guards

variable {P a policyId rate}

/-- The errors a statement of these calls can be answered with. -/
theorem exec_error {q : Call} {env : FeeEnv} {s : FeeStore} {e : FeeError} {log : List Noted}
    (hguard : RecordGuard P a policyId rate log q) (h : (q.exec P env s).1 = .error e) :
    e = .fault ∨ e = .obligationExists ∧ ∃ row, q = .createObligation row := by
  rcases env.fate.settle_answer .fault (q.run P env s) s with heq | herr
  · rw [Call.exec, heq] at h
    cases q with
    | createObligation row =>
      rw [Call.run] at h
      split_ifs at h
      cases h
      exact Or.inr ⟨rfl, row, rfl⟩
    | claimCollectionStatusTransition f t =>
      rw [Call.run] at h
      split_ifs at h
    | findObligation => cases h
    | findFeePolicyVersion => cases h
    | _ => exact hguard.elim
  · rw [Call.exec, herr] at h
    cases h
    exact Or.inl rfl

/-- The answers of the model. -/
abbrev recordCan (P : Platform) := Config.Answerable (recordings P) fun _ => True

/-- The waiver follows the row it waives. -/
theorem move_guarded {log : List Noted} (hwaives : a.waives P rate = true)
    (hcreated : Noted.created ∈ log) (hwaived : Noted.waived ∉ log) :
    (transitionCollectionStatus .PENDING_COLLECTION .WAIVED).Guarded (recordCan P) noted
      (RecordGuard P a policyId rate) (RecordResult P a rate) log := by
  simp only [transitionCollectionStatus, await, Prog.guarded_bind, Prog.guarded_require]
  refine ⟨fun _ => ⟨⟨rfl, rfl, hwaives, hcreated, hwaived⟩, fun s r hr => ?_⟩,
    fun h => absurd h (by decide)⟩
  cases r with
  | error e =>
    obtain ⟨-, env, henv⟩ := hr
    have hguard : RecordGuard P a policyId rate log
      (.claimCollectionStatusTransition .PENDING_COLLECTION .WAIVED) :=
      ⟨rfl, rfl, hwaives, hcreated, hwaived⟩
    rcases exec_error hguard henv with rfl | ⟨-, row, hq⟩
    · exact Or.inl List.mem_cons_self
    · cases hq
  | ok affected =>
    refine ⟨fun h => ?_, fun h => ?_⟩ <;> cases h
    · exact Or.inr (Or.inr (Or.inr
        ⟨List.mem_cons_of_mem _ hcreated, fun _ => Or.inl List.mem_cons_self⟩))
    · exact Or.inr (Or.inr (Or.inr
        ⟨List.mem_cons_of_mem _ hcreated, fun _ => Or.inr List.mem_cons_self⟩))

/-- The row that is created is the one of the settlement. -/
theorem create_guarded {row : ObligationRow} (hrow : row = a.createdRow policyId rate) :
    (await (.createObligation row)).Guarded (recordCan P) noted (RecordGuard P a policyId rate)
      (fun log' r => match r with
        | .ok _ => log' = [.created]
        | .error e => RecordResult P a rate log' (.error e)) [] := by
  refine ⟨⟨rfl, hrow⟩, fun s r hr => ?_⟩
  cases r with
  | error e =>
    obtain ⟨-, env, henv⟩ := hr
    have hguard : RecordGuard P a policyId rate [] (.createObligation row) := ⟨rfl, hrow⟩
    rcases exec_error hguard henv with rfl | ⟨rfl, -⟩
    · exact Or.inl List.mem_cons_self
    · exact Or.inr (Or.inr (Or.inl List.mem_cons_self))
  | ok u => rfl

theorem recordResult_created {log : List Noted} {r : Except FeeError Unit}
    (hcreated : Noted.created ∈ log) (hwaives : a.waives P rate = false) :
    RecordResult P a rate log r :=
  Or.inr (Or.inr (Or.inr ⟨hcreated, fun h => by rw [hwaives] at h; cases h⟩))

/-- The path of a settlement with a fee. -/
theorem owed_guarded (howed : a.outcome ≠ .FULL_REFUND) :
    (await (.createObligation (a.owedRow policyId rate)) >>= fun _ =>
      Prog.when (a.waived P rate)
        (transitionCollectionStatus .PENDING_COLLECTION .WAIVED)).Guarded (recordCan P) noted
      (RecordGuard P a policyId rate) (RecordResult P a rate) [] := by
  have hrow : a.owedRow policyId rate = a.createdRow policyId rate :=
    (if_neg howed).symm
  have hwaives : a.waives P rate = a.waived P rate := by simp [SettlementArgs.waives, howed]
  refine (Prog.guarded_bind _ _ _).mpr ((create_guarded hrow).mono fun log' r hr => ?_)
  cases r with
  | error e => exact hr
  | ok u =>
    subst hr
    refine (Prog.guarded_when _ _).mpr ⟨fun h => ?_, fun h => ?_⟩
    · exact move_guarded (hwaives.trans h) List.mem_cons_self (by simp)
    · exact recordResult_created List.mem_cons_self (hwaives.trans h)

/-- `createForSettlement` meets its guards. -/
theorem createForSettlement_guarded (hrate : a.escrow.snapshotProtocolFeeRate = some rate) :
    (createForSettlement P a policyId).Guarded (recordCan P) noted
      (RecordGuard P a policyId rate) (RecordResult P a rate) [] := by
  rw [createForSettlement, hrate]
  refine (Prog.guarded_bind _ _ _).mpr ⟨List.not_mem_nil, fun s r hr => ?_⟩
  cases r with
  | error e =>
    obtain ⟨-, env, henv⟩ := hr
    have hguard : RecordGuard P a policyId rate [] .findObligation := List.not_mem_nil
    rcases exec_error hguard henv with rfl | ⟨-, row, hq⟩
    · exact Or.inl List.mem_cons_self
    · cases hq
  | ok existing =>
    cases existing with
    | some row => exact Or.inr (Or.inl List.mem_cons_self)
    | none =>
      refine (Prog.guarded_ite _ _ _).mpr ⟨nofun, fun _ => ?_⟩
      refine (Prog.guarded_ite _ _ _).mpr ⟨fun hrefund => ?_, fun howed => ?_⟩
      · have hrow : SettlementArgs.notApplicableRow policyId = a.createdRow policyId rate :=
          (if_pos hrefund).symm
        have hwaives : a.waives P rate = false := by simp [SettlementArgs.waives, hrefund]
        refine (create_guarded hrow).mono fun log' r hr => ?_
        cases r with
        | error e => exact hr
        | ok u =>
          subst hr
          exact recordResult_created List.mem_cons_self hwaives
      · refine (Prog.guarded_bind _ _ _).mpr ((Prog.guarded_when _ _).mpr ⟨fun _ => ?_, fun _ => ?_⟩)
        · refine ⟨List.not_mem_nil, fun s' r' hr' => ?_⟩
          cases r' with
          | error e =>
            obtain ⟨-, env, henv⟩ := hr'
            have hguard : RecordGuard P a policyId rate [] .findFeePolicyVersion :=
              List.not_mem_nil
            rcases exec_error hguard henv with rfl | ⟨-, row, hq⟩
            · exact Or.inl List.mem_cons_self
            · cases hq
          | ok u => exact owed_guarded howed
        · exact owed_guarded howed

theorem record_guarded (hpolicy : a.escrow.feePolicyVersionId = some policyId)
    (hrate : a.escrow.snapshotProtocolFeeRate = some rate) :
    (recordObligationForEscrowSettlement P a).Guarded (recordCan P) noted
      (RecordGuard P a policyId rate) (RecordResult P a rate) [] := by
  rw [recordObligationForEscrowSettlement, hpolicy]
  exact (Prog.guarded_swallow _ _).mpr
    ((createForSettlement_guarded hrate).mono fun _ _ h => h)

end Guards

/-! ## Runs -/

/-- The guards, for the calls with these arguments. -/
def CallGuard (req : FeeReq) (log : List Noted) (q : Call) : Prop :=
  req = .recordObligation a → RecordGuard P a policyId rate log q

/-- What the recording of the settlement has done. -/
def CallResult (req : FeeReq) (log : List Noted) (r : Except FeeError Unit) : Prop :=
  req = .recordObligation a → RecordResult P a rate log r

/-- Every thread is guarded at what it has seen. -/
abbrev Orderly : Recorder → Prop :=
  Config.Conforms (recordings P) (fun _ => True) (CallGuard P a policyId rate) (CallResult P a rate)

/-- How far the recording has come : no row, a waived row that call `i` is about to move, or
the row of the settlement. -/
inductive Phase (c : Recorder) : Prop
  | unrecorded (hnone : c.store.obligation = none)
      (hlog : ∀ j, ∀ o ∈ c.own j, o = Noted.fault)
  | opened (i : ℕ) (hwaives : a.waives P rate = true)
      (hrow : c.store.obligation = some (a.createdRow policyId rate))
      (hlive : ∃ t, c.threads[i]? = some t ∧ t.live = true)
      (hi : ∀ o ∈ c.own i, o = Noted.created) (hmem : Noted.created ∈ c.own i)
      (hlog : ∀ j, j ≠ i → ∀ o ∈ c.own j, o = Noted.fault)
  | settled (hrow : c.store.obligation = some (a.settledRow P policyId rate))
      (hmissed : ∀ j, Noted.missed ∉ c.own j)
      (hwaived : a.waives P rate = true → ∀ j, Noted.created ∈ c.own j → Noted.waived ∈ c.own j)

/-- Every call has these arguments, and the recording is in one of its phases. -/
structure Recorded (c : Recorder) : Prop where
  same : ∀ {i req}, c.reqOf i = some req → req = .recordObligation a
  phase : Phase P a policyId rate c

section Runs

variable {P a policyId rate} {c : Recorder}

/-- Every request meets its guards. -/
theorem orderly_guards (hpolicy : a.escrow.feePolicyVersionId = some policyId)
    (hrate : a.escrow.snapshotProtocolFeeRate = some rate) (req : FeeReq) :
    (req.prog P).Guarded (recordCan P) noted (CallGuard P a policyId rate req)
      (CallResult P a rate req) [] := by
  by_cases hreq : req = .recordObligation a
  · subst hreq
    have hguarded := record_guarded (P := P) hpolicy hrate
    rw [show CallGuard P a policyId rate (.recordObligation a) = RecordGuard P a policyId rate from
        funext fun _ => funext fun _ => propext (forall_prop_of_true rfl),
      show CallResult P a rate (.recordObligation a) = RecordResult P a rate from
        funext fun _ => funext fun _ => propext (forall_prop_of_true rfl)]
    exact hguarded
  · exact Prog.guarded_of_forall (fun _ _ h => absurd h hreq) (fun _ _ h => absurd h hreq) _ _

/-- The call that opened the row is about to move it. -/
theorem next_of_opened (hc : Orderly P a policyId rate c) {i : ℕ}
    {t : Thread Answer FeeError Unit FeeReq} (ht : c.threads[i]? = some t)
    (hreq : t.req = .recordObligation a) (hlive : t.live = true)
    (hwaives : a.waives P rate = true) (hi : ∀ o ∈ c.own i, o = Noted.created)
    (hmem : Noted.created ∈ c.own i) :
    c.next i = some (.claimCollectionStatusTransition .PENDING_COLLECTION .WAIVED) := by
  obtain ⟨req, prog, live⟩ := t
  obtain rfl : live = true := hlive
  cases prog with
  | ret r =>
    rcases hc.result ht hreq with h | h | h | ⟨-, h⟩
    · cases hi _ h
    · cases hi _ h
    · cases hi _ h
    · rcases h hwaives with h | h <;> cases hi _ h
  | call q k =>
    have hguard := hc.guard ht hreq
    rw [Config.next_of_call ht]
    cases q with
    | findObligation => exact absurd hmem hguard
    | findFeePolicyVersion => exact absurd hmem hguard
    | createObligation row =>
      rw [hguard.1] at hmem
      cases hmem
    | claimCollectionStatusTransition f t =>
      obtain ⟨rfl, rfl, -⟩ := hguard
      rfl
    | _ => exact hguard.elim

theorem status_createdRow (hwaives : a.waives P rate = true) :
    (a.createdRow policyId rate).collectionStatus = some .PENDING_COLLECTION := by
  have howed : a.outcome ≠ .FULL_REFUND := by
    intro h
    simp [SettlementArgs.waives, h] at hwaives
  rw [SettlementArgs.createdRow, if_neg howed]
  rfl

theorem opened_of_row (hwaives : a.waives P rate = true)
    (hrow : c.store.obligation = some (a.createdRow policyId rate)) : Opened P a rate c :=
  ⟨hwaives, by rw [FeeStore.status, hrow, Option.bind_some, status_createdRow hwaives]⟩

/-- One more recording keeps the invariant. -/
theorem Recorded.spawn (h : Recorded P a policyId rate c) :
    Recorded P a policyId rate (c.spawn (recordings P) (.recordObligation a)) := by
  refine ⟨fun {i req} hreq => ?_, ?_⟩
  · by_cases hi : i = c.threads.length
    · rw [hi, Config.reqOf_spawn_self] at hreq
      exact (Option.some.inj hreq).symm
    · rw [Config.reqOf_spawn_of_ne hi] at hreq
      exact h.same hreq
  · cases h.phase with
    | unrecorded hnone hlog => exact .unrecorded hnone hlog
    | opened i hwaives hrow hlive hi hmem hlog =>
      obtain ⟨t, ht, hlive⟩ := hlive
      have hlt : i < c.threads.length := (List.getElem?_eq_some_iff.mp ht).1
      refine .opened i hwaives hrow ⟨t, ?_, hlive⟩ hi hmem hlog
      rw [Config.spawn, List.getElem?_append_left hlt, ht]
    | settled hrow hmissed hwaived => exact .settled hrow hmissed hwaived

/-- A crash that the condition allows keeps the invariant. -/
theorem Recorded.kill (hc : Orderly P a policyId rate c) (h : Recorded P a policyId rate c)
    {j : ℕ} {u : Thread Answer FeeError Unit FeeReq} (hu : c.threads[j]? = some u)
    (hcrash : Undivided P a rate c (.crash j)) : Recorded P a policyId rate (c.kill j u) := by
  refine ⟨fun {i req} hreq => h.same ((Config.reqOf_kill hu i).symm.trans hreq), ?_⟩
  cases h.phase with
  | unrecorded hnone hlog => exact .unrecorded hnone hlog
  | opened i hwaives hrow hlive hi hmem hlog =>
    obtain ⟨t, ht, hlive⟩ := hlive
    have hreq := h.same (Config.reqOf_of_thread ht)
    have hnext := next_of_opened hc ht hreq hlive hwaives hi hmem
    have hne : j ≠ i := by
      rintro rfl
      exact hcrash hnext
    refine .opened i hwaives hrow ⟨t, ?_, hlive⟩ hi hmem hlog
    rw [Config.kill, List.getElem?_set_ne hne, ht]
  | settled hrow hmissed hwaived => exact .settled hrow hmissed hwaived

section Answers

variable {j : ℕ} {env : FeeEnv} {req : FeeReq}

/-- A statement that writes nothing and finds at most a row that is not open. -/
theorem Phase.unchanged (h : Phase P a policyId rate c) {q : Call}
    {k : Except FeeError (Answer q) → FeeOp Unit}
    (hstore : (q.exec P env c.store).2 = c.store) (hcreated : Noted.created ∉ c.own j)
    (hobs : ∀ o ∈ noted q c.store (q.exec P env c.store).1, o = .fault ∨
      c.store.obligation ≠ none ∧ ¬ Opened P a rate c ∧ (o = .existing ∨ o = .duplicate)) :
    Phase P a policyId rate (c.answer (recordings P) j env req q k) := by
  cases h with
  | unrecorded hnone hlog =>
    refine .unrecorded ((congrArg FeeStore.obligation hstore).trans hnone) fun j' o ho => ?_
    rcases Config.mem_own_of_answer ho with ⟨-, ho⟩ | ho
    · exact (hobs o ho).resolve_right fun hrow => hrow.1 hnone
    · exact hlog j' o ho
  | opened i hwaives hrow hlive hi hmem hlog =>
    obtain ⟨t, ht, hlive⟩ := hlive
    have hne : j ≠ i := by
      rintro rfl
      exact hcreated hmem
    have hold : ∀ o, o ∈ (c.answer (recordings P) j env req q k).own i ↔ o ∈ c.own i := by
      intro o
      rw [Config.own_answer_of_ne (Ne.symm hne)]
    refine .opened i hwaives ((congrArg FeeStore.obligation hstore).trans hrow) ⟨t, ?_, hlive⟩
      (fun o ho => hi o ((hold o).mp ho)) ((hold _).mpr hmem) fun j' hj' o ho => ?_
    · rw [Config.answer, List.getElem?_set_ne hne, ht]
    · rcases Config.mem_own_of_answer ho with ⟨-, ho⟩ | ho
      · exact (hobs o ho).resolve_right fun h => h.2.1 (opened_of_row hwaives hrow)
      · exact hlog j' hj' o ho
  | settled hrow hmissed hwaived =>
    have hnew : ∀ o ∈ noted q c.store (q.exec P env c.store).1,
        o ≠ .missed ∧ o ≠ .created := by
      intro o ho
      rcases hobs o ho with rfl | ⟨-, -, rfl | rfl⟩ <;> exact ⟨(fun h => by cases h), fun h => by cases h⟩
    refine .settled ((congrArg FeeStore.obligation hstore).trans hrow) (fun j' ho => ?_)
      fun hw j' ho => ?_
    · rcases Config.mem_own_of_answer ho with ⟨-, ho⟩ | ho
      · exact (hnew _ ho).1 rfl
      · exact hmissed j' ho
    · rcases Config.mem_own_of_answer ho with ⟨-, ho⟩ | ho
      · exact absurd rfl (hnew _ ho).2
      · exact Config.mem_own_answer (hwaived hw j' ho)

/-- A look for the row keeps the phase. -/
theorem Phase.find (h : Phase P a policyId rate c)
    {k : Except FeeError (Answer .findObligation) → FeeOp Unit}
    (hcreated : Noted.created ∉ c.own j) (hopen : Opened P a rate c → env.fate ≠ .answered) :
    Phase P a policyId rate (c.answer (recordings P) j env req .findObligation k) := by
  have hstore : (Call.findObligation.exec P env c.store).2 = c.store := by
    rcases env.fate.settle_store .fault (Call.findObligation.run P env c.store) c.store with h | h
    · exact h
    · exact h
  refine h.unchanged hstore hcreated fun o ho => ?_
  rw [Call.exec] at ho
  cases hfate : env.fate with
  | answered =>
    rw [hfate] at ho
    cases hrow : c.store.obligation with
    | none =>
      rw [show (Fate.answered.settle FeeError.fault (Call.findObligation.run P env c.store)
        c.store).1 = .ok none from congrArg Except.ok hrow] at ho
      cases ho
    | some row =>
      rw [show (Fate.answered.settle FeeError.fault (Call.findObligation.run P env c.store)
        c.store).1 = .ok (some row) from congrArg Except.ok hrow] at ho
      obtain rfl := List.mem_singleton.mp ho
      exact Or.inr ⟨(fun h => by cases h), fun hopened => hopen hopened hfate, Or.inl rfl⟩
  | failed =>
    rw [hfate] at ho
    exact Or.inl (List.mem_singleton.mp ho)
  | lost =>
    rw [hfate] at ho
    exact Or.inl (List.mem_singleton.mp ho)

/-- A look for the policy keeps the phase. -/
theorem Phase.findPolicy (h : Phase P a policyId rate c)
    {k : Except FeeError (Answer .findFeePolicyVersion) → FeeOp Unit}
    (hcreated : Noted.created ∉ c.own j) :
    Phase P a policyId rate (c.answer (recordings P) j env req .findFeePolicyVersion k) := by
  refine h.unchanged ?_ hcreated fun o ho => ?_
  · rcases env.fate.settle_store .fault (Call.findFeePolicyVersion.run P env c.store) c.store
      with h | h
    · exact h
    · exact h
  · rw [Call.exec] at ho
    cases hfate : env.fate <;> rw [hfate] at ho
    · cases ho
    · exact Or.inl (List.mem_singleton.mp ho)
    · exact Or.inl (List.mem_singleton.mp ho)

/-- The creation of the row moves the phase on. -/
theorem Phase.create (h : Phase P a policyId rate c)
    {k : Except FeeError (Answer (.createObligation (a.createdRow policyId rate))) → FeeOp Unit}
    (hlt : j < c.threads.length) (hown : c.own j = [])
    (hopen : Opened P a rate c → env.fate ≠ .answered)
    (hlost : a.waives P rate = true → env.fate ≠ .lost) :
    Phase P a policyId rate (c.answer (recordings P) j env req
      (.createObligation (a.createdRow policyId rate)) k) := by
  cases hrow : c.store.obligation with
  | some row =>
    -- there is a row : nothing is written, and an answer is the constraint
    have hrun : (Call.createObligation (a.createdRow policyId rate)).run P env c.store =
        (.error .obligationExists, c.store) := by
      rw [Call.run, hrow]
      rfl
    refine h.unchanged ?_ (by rw [hown]; exact List.not_mem_nil) fun o ho => ?_
    · rcases env.fate.settle_store .fault
        ((Call.createObligation (a.createdRow policyId rate)).run P env c.store) c.store with h | h
      · exact h
      · rw [Call.exec, h, hrun]
    · rw [Call.exec, hrun] at ho
      cases hfate : env.fate <;> rw [hfate] at ho <;> obtain rfl := List.mem_singleton.mp ho
      · refine Or.inr ⟨?_, fun hopened => hopen hopened hfate, Or.inr rfl⟩
        rw [hrow]
        exact fun h => by cases h
      · exact Or.inl rfl
      · exact Or.inl rfl
  | none =>
    have hrun : (Call.createObligation (a.createdRow policyId rate)).run P env c.store =
        (.ok (), { c.store with obligation := some (a.createdRow policyId rate) }) := by
      rw [Call.run, hrow]
      rfl
    have hfaults : ∀ j' o, o ∈ c.own j' → o = Noted.fault := by
      intro j' o ho
      cases h with
      | unrecorded hnone hlog => exact hlog j' o ho
      | opened i hwaives hrow' => rw [hrow] at hrow'; cases hrow'
      | settled hrow' => rw [hrow] at hrow'; cases hrow'
    cases hfate : env.fate with
    | failed =>
      have hexec : (Call.createObligation (a.createdRow policyId rate)).exec P env c.store =
          (.error .fault, c.store) := by
        rw [Call.exec, hfate]
        rfl
      refine h.unchanged (by rw [hexec]) (by rw [hown]; exact List.not_mem_nil) fun o ho => ?_
      rw [hexec] at ho
      exact Or.inl (List.mem_singleton.mp ho)
    | answered =>
      have hexec : (Call.createObligation (a.createdRow policyId rate)).exec P env c.store =
          (.ok (), { c.store with obligation := some (a.createdRow policyId rate) }) := by
        rw [Call.exec, hfate, hrun]
        rfl
      have hobligation := congrArg (fun r => r.2.obligation) hexec
      have hself : (c.answer (recordings P) j env req
          (.createObligation (a.createdRow policyId rate)) k).own j = [.created] := by
        rw [Config.own_answer_self, hown, List.append_nil]
        exact congrArg (fun r => noted (.createObligation (a.createdRow policyId rate)) c.store r)
          (congrArg Prod.fst hexec)
      by_cases hwaives : a.waives P rate = true
      · refine .opened j hwaives hobligation ⟨_, List.getElem?_set_self hlt, rfl⟩ ?_ ?_ ?_
        · intro o ho
          rw [hself] at ho
          exact List.mem_singleton.mp ho
        · rw [hself]
          exact List.mem_singleton_self _
        · intro j' hj' o ho
          rw [Config.own_answer_of_ne hj'] at ho
          exact hfaults j' o ho
      · refine .settled ?_ (fun j' ho => ?_) fun hw => absurd hw hwaives
        · rw [SettlementArgs.settledRow, if_neg hwaives]
          exact hobligation
        · by_cases hj' : j' = j
          · rw [hj', hself] at ho
            exact absurd ho (by simp)
          · rw [Config.own_answer_of_ne hj'] at ho
            exact absurd (hfaults j' _ ho) fun h => by cases h
    | lost =>
      have hwaives : ¬ a.waives P rate = true := fun hw => hlost hw hfate
      have hexec : (Call.createObligation (a.createdRow policyId rate)).exec P env c.store =
          (.error .fault, { c.store with obligation := some (a.createdRow policyId rate) }) := by
        rw [Call.exec, hfate, hrun]
        rfl
      have hobligation := congrArg (fun r => r.2.obligation) hexec
      refine .settled ?_ (fun j' ho => ?_) fun hw => absurd hw hwaives
      · rw [SettlementArgs.settledRow, if_neg hwaives]
        exact hobligation
      · rcases Config.mem_own_of_answer ho with ⟨-, ho⟩ | ho
        · rw [show ((recordings P).exec (.createObligation (a.createdRow policyId rate)) env
            c.store).1 = .error .fault from congrArg Prod.fst hexec] at ho
          exact absurd (List.mem_singleton.mp ho) fun h => by cases h
        · exact absurd (hfaults j' _ ho) fun h => by cases h

/-- The waiver moves the phase on. -/
theorem Phase.move (h : Phase P a policyId rate c)
    {k : Except FeeError (Answer (.claimCollectionStatusTransition .PENDING_COLLECTION .WAIVED)) →
      FeeOp Unit}
    (hwaives : a.waives P rate = true) (hcreated : Noted.created ∈ c.own j)
    (hwaived : Noted.waived ∉ c.own j) (hfate : env.fate = .answered) :
    Phase P a policyId rate (c.answer (recordings P) j env req
      (.claimCollectionStatusTransition .PENDING_COLLECTION .WAIVED) k) := by
  cases h with
  | unrecorded hnone hlog => exact absurd (hlog j _ hcreated) fun h => by cases h
  | settled hrow hmissed hdone => exact absurd (hdone hwaives j hcreated) hwaived
  | opened i _ hrow hlive hi hmem hlog =>
    have hji : j = i := by
      by_contra hne
      exact absurd (hlog j hne _ hcreated) fun h => by cases h
    subst hji
    have hstatus := (opened_of_row (c := c) hwaives hrow).2
    have hexec : (Call.claimCollectionStatusTransition .PENDING_COLLECTION .WAIVED).exec P env
        c.store = (.ok true, c.store.setStatus .WAIVED) := by
      rw [Call.exec, hfate, Call.run, if_pos hstatus]
      rfl
    have hobs : (recordings P).observe
        (.claimCollectionStatusTransition .PENDING_COLLECTION .WAIVED) c.store
        ((recordings P).exec (.claimCollectionStatusTransition .PENDING_COLLECTION .WAIVED) env
          c.store).1 = [.waived] :=
      congrArg (fun r => noted (.claimCollectionStatusTransition .PENDING_COLLECTION .WAIVED)
        c.store r) (congrArg Prod.fst hexec)
    refine .settled ?_ (fun j' ho => ?_) fun _ j' ho => ?_
    · refine (congrArg (fun r => r.2.obligation) hexec).trans ?_
      rw [FeeStore.setStatus, hrow, SettlementArgs.settledRow, if_pos hwaives]
      rfl
    · rcases Config.mem_own_of_answer ho with ⟨-, ho⟩ | ho
      · rw [hobs] at ho
        exact absurd (List.mem_singleton.mp ho) fun h => by cases h
      · by_cases hj' : j' = j
        · rw [hj'] at ho
          exact absurd (hi _ ho) fun h => by cases h
        · exact absurd (hlog j' hj' _ ho) fun h => by cases h
    · by_cases hj' : j' = j
      · subst hj'
        refine Config.mem_own.mpr (Config.mem_trace_of_observe ?_)
        rw [hobs]
        exact List.mem_singleton_self _
      · rw [Config.own_answer_of_ne hj'] at ho
        exact absurd (hlog j' hj' _ ho) fun h => by cases h

/-- A call that the condition allows keeps the invariant. -/
theorem Recorded.answer (h : Recorded P a policyId rate c) {q : Call}
    {k : Except FeeError (Answer q) → FeeOp Unit}
    (ht : c.threads[j]? = some ⟨req, .call q k, true⟩)
    (hguard : CallGuard P a policyId rate req (c.own j) q)
    (hrun : Undivided P a rate c (.run j env)) :
    Recorded P a policyId rate (c.answer (recordings P) j env req q k) := by
  have hreq := h.same (Config.reqOf_of_thread ht)
  refine ⟨fun {i req'} hi => h.same ((Config.reqOf_answer ht i).symm.trans hi), ?_⟩
  have hguard' := hguard hreq
  rw [Undivided, Config.next_of_call ht] at hrun
  cases q with
  | findObligation => exact h.phase.find hguard' hrun
  | findFeePolicyVersion => exact h.phase.findPolicy hguard'
  | createObligation row =>
    obtain ⟨hown, rfl⟩ := hguard'
    exact h.phase.create (List.getElem?_eq_some_iff.mp ht).1 hown hrun.1 hrun.2
  | claimCollectionStatusTransition f t =>
    obtain ⟨rfl, rfl, hwaives, hcreated, hwaived⟩ := hguard'
    exact h.phase.move hwaives hcreated hwaived hrun
  | _ => exact hguard'.elim

end Answers

theorem recorded_init : Recorded P a policyId rate (.init .empty) :=
  ⟨fun h => by simp [Config.reqOf, Config.init] at h,
    .unrecorded rfl fun j o ho => by simp [Config.own, Config.init] at ho⟩

/-- With the invariant the recordings have converged. -/
theorem Recorded.converged (hc : Orderly P a policyId rate c)
    (h : Recorded P a policyId rate c) : Converged P a policyId rate c := by
  refine ⟨?_, fun hquiet hwaives => ?_⟩
  · rintro i ⟨hfault, req, live, ht⟩
    have hresult := hc.result ht (h.same (Config.reqOf_of_thread ht))
    cases h.phase with
    | unrecorded hnone hlog =>
      rcases hresult with ho | ho | ho | ⟨ho, -⟩
      · exact absurd ho hfault
      all_goals exact absurd (hlog i _ ho) fun h => by cases h
    | opened i' hwaives hrow hlive hi hmem hlog =>
      obtain ⟨t, ht', hlive⟩ := hlive
      have hnext := next_of_opened hc ht' (h.same (Config.reqOf_of_thread ht')) hlive hwaives hi
        hmem
      by_cases hii : i = i'
      · subst hii
        rw [Config.next, ht] at hnext
        cases hnext
      · rcases hresult with ho | ho | ho | ⟨ho, -⟩
        · exact absurd ho hfault
        all_goals exact absurd (hlog i hii _ ho) fun h => by cases h
    | settled hrow _ _ => exact hrow
  · cases h.phase with
    | unrecorded hnone hlog =>
      rw [FeeStore.status_of_none hnone]
      exact fun h => by cases h
    | opened i _ hrow hlive hi hmem hlog =>
      obtain ⟨t, ht, hlive⟩ := hlive
      have hnext := next_of_opened hc ht (h.same (Config.reqOf_of_thread ht)) hlive hwaives hi hmem
      rw [Config.next_of_quiescent hquiet] at hnext
      cases hnext
    | settled hrow _ _ =>
      rw [FeeStore.status, hrow, SettlementArgs.settledRow, if_pos hwaives]
      exact fun h => by cases h

end Runs

/-- Recording converges : in every run of calls with the same arguments in which nothing
separates the creation of a waived obligation from its move, a call that has run to its end
has left the one row of the settlement, and no waived fee is left pending. -/
theorem recording_converges (P : Platform) (a : SettlementArgs) (policyId : ℕ) (rate : ℚ)
    (hpolicy : a.escrow.feePolicyVersionId = some policyId)
    (hrate : a.escrow.snapshotProtocolFeeRate = some rate) (as : List (Action FeeEnv FeeReq))
    (h : Config.Along (recordings P) (Undivided P a rate) (.init .empty) as) :
    Converged P a policyId rate (Config.exec (recordings P) (.init .empty) as) := by
  have hrun := Config.run_invariant (S := recordings P) (R := fun _ => True)
    (G := CallGuard P a policyId rate) (Q := CallResult P a rate)
    (I := Recorded P a policyId rate) (orderly_guards hpolicy hrate) (fun _ _ _ _ => trivial)
    (fun {c req} _ hI hA => by
      obtain rfl : req = .recordObligation a := hA
      exact hI.spawn)
    (fun _ hI hA ht hguard => hI.answer ht hguard hA)
    (fun hc hI hA ht => hI.kill hc ht hA) as (Config.conforms_init trivial) recorded_init h
  exact hrun.2.converged hrun.1

/-- A settlement under policy 7 that waives its fee. -/
def waivedSettlement : SettlementArgs where
  escrow := ⟨1, .BTC, some 7, some (1 / 100)⟩
  outcome := .RELEASE
  splitBuyerBps := none
  actualCollection := some ⟨0, true⟩

/-- A platform without a policy. -/
def recordingPlatform : Platform := ⟨[], none, fun _ => []⟩

/-- Two calls, one after the other. -/
def twoRecordings : List (Action FeeEnv FeeReq) :=
  [.start (.recordObligation waivedSettlement), .run 0 { }, .run 0 { }, .run 0 { },
    .start (.recordObligation waivedSettlement), .run 1 { }]

/-- Two recordings of the sample converge. -/
theorem recording_converges_sample :
    Config.Along (recordings recordingPlatform)
      (Undivided recordingPlatform waivedSettlement (1 / 100)) (.init .empty) twoRecordings ∧
    Converged recordingPlatform waivedSettlement 7 (1 / 100)
      (Config.exec (recordings recordingPlatform) (.init .empty) twoRecordings) ∧
    (Config.exec (recordings recordingPlatform) (.init .empty) twoRecordings).store.status =
      some .WAIVED := by
  have halong : Config.Along (recordings recordingPlatform)
      (Undivided recordingPlatform waivedSettlement (1 / 100)) (.init .empty) twoRecordings := by
    decide +kernel
  exact ⟨halong, recording_converges recordingPlatform waivedSettlement 7 (1 / 100) rfl rfl
    twoRecordings halong, by decide⟩

/-- The first call stops between its two statements, and the second finds the row. -/
def stoppedRecording : List (Action FeeEnv FeeReq) :=
  [.start (.recordObligation waivedSettlement), .run 0 { }, .run 0 { }, .crash 0,
    .start (.recordObligation waivedSettlement), .run 1 { }]

/-- A waived fee is left pending, whatever is called later. -/
theorem waived_left_pending : ¬ ∀ (P : Platform) (a : SettlementArgs) (policyId : ℕ) (rate : ℚ),
    a.escrow.feePolicyVersionId = some policyId → a.escrow.snapshotProtocolFeeRate = some rate →
    ∀ as : List (Action FeeEnv FeeReq), (∀ act ∈ as, SameCall a act) →
      Converged P a policyId rate (Config.exec (recordings P) (.init .empty) as) := by
  intro h
  have hleft := (h recordingPlatform waivedSettlement 7 (1 / 100) rfl rfl stoppedRecording
    (by decide +kernel)).notLeft (by decide +kernel) (by decide +kernel)
  exact hleft (by decide)

end Sails.Fees
