import SailsProtocol.Arbitration.Disputes

/-!
# Stored rulings and their signatures

A stored ruling can be verified if its signature is one of the arbiter's over the
decision rebuilt from the row (`DisputeRow.verifiable`). `resolveDispute` verifies a
decision built from the row it read, with the arbiter's own text of the time. The
claim then stores it without another look at the appeal round, and stores the time as
a date. So the ruling stays verifiable in every run in which a claim that takes effect
finds the round its call read, and a text of the time that is the one its date is
written with (`stored_rulings_verify`).

Without the first condition a decision of round 0 ends up on a dispute at round 2, and
without the second the text that was signed is lost (`stored_rulings_unverifiable`).
-/

namespace Sails.Arbitration

open Async Text

section Rulings

variable (P : Platform)

/-- The decision rebuilt from the columns of a row. -/
def DisputeRow.storedDecision (d : DisputeRow) : Option (AuthorityDecisionPayload × JsString) := do
  let arbiterId ← d.arbiterId
  let ruling ← d.ruling
  let signature ← d.authoritySignature
  let issuedAt ← d.authorityIssuedAt
  some (⟨d.id, d.escrowId, d.appealRound, arbiterId, ruling, d.authorityBuyerBps,
    issuedAt.toISOString⟩, signature)

/-- The stored signature verifies, with the registered key of the arbiter, over the
decision rebuilt from the row. -/
def DisputeRow.verifiable (d : DisputeRow) : Bool :=
  match d.storedDecision with
  | some (payload, signature) =>
    (P.publicKey payload.authorityId).any fun key =>
      verifyAuthorityDecisionSignature P.sha256 P.verify payload signature key == some true
  | none => false

/-- Every resolved dispute has a ruling that verifies. -/
def RulingsVerify (s : Store) : Prop :=
  ∀ d ∈ s.disputes, d.status = .resolved → d.verifiable P = true

instance (s : Store) : Decidable (RulingsVerify P s) :=
  inferInstanceAs (Decidable (∀ d ∈ s.disputes, d.status = .resolved → d.verifiable P = true))

/-- Storing the ruling on `d` keeps what was signed : the round is the one the call read,
and the date is written with the text that was signed. -/
def keepsDecision (dispute : DisputeRow) (payload : AuthorityDecisionPayload) (d : DisputeRow) :
    Bool :=
  d.appealRound == dispute.appealRound &&
    (P.parseDate payload.issuedAt).all fun date => date.toISOString == payload.issuedAt

/-- The claim of a ruling in the store `s` keeps what was signed, if it takes effect. -/
def Call.keeps (s : Store) : Call → Bool
  | .claimRuling dispute payload _ =>
    s.disputes.all fun d => !d.claimable dispute.id payload.authorityId ||
      keepsDecision P dispute payload d
  | .commitRuling dispute payload _ =>
    s.rulingRecords.contains (dispute.escrowId, dispute.appealRound) ||
      s.disputes.all fun d => !d.claimable dispute.id payload.authorityId ||
        keepsDecision P dispute payload d
  | _ => true

/-- The condition on a step : a claim that takes effect keeps what was signed. -/
def KeepsDecision (c : DisputeConfig) : Action QueryEnv Request → Prop
  | .run i _ => (c.next i).all (Call.keeps P c.store) = true
  | _ => True

instance (c : DisputeConfig) : ∀ a, Decidable (KeepsDecision P c a)
  | .start _ => inferInstanceAs (Decidable True)
  | .run _ _ => inferInstanceAs (Decidable (_ = true))
  | .crash _ => inferInstanceAs (Decidable True)

/-! ## What the calls of an operation rest on -/

/-- The decision a claim stores was built from a row and verified. -/
structure Verified (dispute : DisputeRow) (payload : AuthorityDecisionPayload)
    (signature : JsString) : Prop where
  disputeId : payload.disputeId = dispute.id
  escrowId : payload.escrowId = dispute.escrowId
  appealRound : payload.appealRound = dispute.appealRound
  signed : ∃ key, P.publicKey payload.authorityId = some key ∧
    verifyAuthorityDecisionSignature P.sha256 P.verify payload signature key = some true

/-- A claim stores a verified decision on a dispute the call has read, a ruling is taken
back to a status that is not resolved, an arbiter is assigned once, by the call that
created the dispute, and an operation is authorized under the dispute it records. -/
def Guard (log : List Seen) : Call → Prop
  | .claimRuling dispute payload signature =>
    Verified P dispute payload signature ∧ .read dispute ∈ log
  | .commitRuling dispute payload signature =>
    Verified P dispute payload signature ∧ .read dispute ∈ log
  | .revertRuling dispute _ _ _ => dispute.status ≠ .resolved
  | .updateArbiter id _ => .created id ∈ log ∧ .assigning id ∉ log
  | .authorize pending disputeId => pending.dispute = some disputeId
  | _ => True

/-- Every call of the program meets its guard. -/
abbrev Guards {α : Type} (p : DisputeOp α) (log : List Seen) : Prop :=
  p.Calls (Config.Answerable (disputeSystem P) fun _ => True) (disputeSystem P).observe (Guard P)
    log

end Rulings

section Programs

variable {P : Platform} {log : List Seen}

/-- Every call of `raiseDispute` meets its guard. -/
theorem raiseDispute_guards (tradeId escrowId : JsString) :
    Guards P (raiseDispute tradeId escrowId) [] := by
  unfold raiseDispute
  refine Prog.Calls.perform_bind trivial fun _ _ _ => ?_
  refine Prog.Calls.perform_bind trivial fun _ _ _ => ?_
  refine Prog.Calls.perform_bind trivial fun _ dispute _ => ?_
  refine Prog.Calls.perform_bind trivial fun _ _ _ => ?_
  have hlog : ∀ o : Seen, o ∈ [.created dispute.id] ↔ o = .created dispute.id :=
    fun o => List.mem_singleton
  refine Prog.Calls.perform_bind ⟨(hlog _).mpr rfl, fun h => ?_⟩ fun _ _ _ => ?_
  · cases (hlog _).mp h
  · exact Prog.Calls.perform_bind trivial fun _ _ _ => trivial

theorem submitEvidence_guards (disputeId : JsString) :
    Guards P (submitEvidence disputeId) log :=
  Prog.Calls.perform_bind trivial fun _ _ _ =>
    Prog.Calls.perform_bind trivial fun _ _ _ =>
      Prog.Calls.require_bind fun _ =>
        Prog.Calls.perform_bind trivial fun _ _ _ =>
          Prog.Calls.perform_bind trivial fun _ _ _ => trivial

/-- `applyRuling` writes a decision that was verified. -/
theorem applyRuling_guards {dispute : DisputeRow} {payload : AuthorityDecisionPayload}
    {signature : JsString} (hopen : dispute.status ≠ .resolved)
    (hv : Verified P dispute payload signature) (hread : .read dispute ∈ log) :
    Guards P (applyRuling dispute payload signature) log := by
  refine Prog.Calls.perform_bind ⟨hv, hread⟩ fun _ updated _ => ?_
  refine Prog.Calls.then (Prog.Calls.tryCatch (Prog.calls_perform trivial) fun e log => ?_)
    fun _ _ => Prog.calls_perform trivial
  exact Prog.Calls.perform_bind hopen fun _ _ _ => trivial

/-- The authoritative path writes a decision that was verified. -/
theorem applyRulingCoreAuthoritative_guards {dispute : DisputeRow}
    {payload : AuthorityDecisionPayload} {signature : JsString}
    (hopen : dispute.status ≠ .resolved) (hv : Verified P dispute payload signature) (hread : .read dispute ∈ log) :
    Guards P (applyRulingCoreAuthoritative dispute payload signature) log := by
  refine Prog.Calls.perform_bind ⟨hv, hread⟩ fun _ committed _ => ?_
  refine Prog.Calls.require_bind fun _ => ?_
  refine Prog.Calls.then (Prog.Calls.tryCatch (Prog.calls_perform trivial) fun e log => ?_)
    fun _ _ => Prog.calls_perform trivial
  exact Prog.Calls.perform_bind hopen fun _ _ _ =>
    Prog.Calls.perform_bind trivial fun _ _ _ => trivial

/-- The answer to a query for a key is the registered key. -/
theorem publicKey_of_answerable {userId key : JsString} {s : Store}
    (h : Config.Answerable (disputeSystem P) (fun _ => True) (.findPublicKey userId) s (.ok key)) :
    P.publicKey userId = some key := by
  obtain ⟨-, env, henv⟩ := h
  change (env.fate.settle DisputeError.fault ((Call.findPublicKey userId).run P env s) s).1 =
    .ok key at henv
  rcases env.fate.settle_answer DisputeError.fault ((Call.findPublicKey userId).run P env s) s
    with heq | heq
  · rw [heq] at henv
    simp only [Call.run] at henv
    split at henv
    · next k hk => rw [hk, Except.ok.inj henv]
    · cases henv
  · rw [heq] at henv
    cases henv

/-- Every call of `resolveDispute` meets its guard. -/
theorem resolveDispute_guards (disputeId arbiterId : JsString) (ruling : SettlementKind)
    (splitBuyerBps : Option ℤ) (signature issuedAt : JsString) :
    Guards P (resolveDispute P disputeId arbiterId ruling splitBuyerBps signature issuedAt)
      log := by
  unfold resolveDispute
  refine Prog.Calls.perform_bind trivial fun _ dispute _ => ?_
  have hread : Seen.read dispute ∈ [Seen.read dispute] ++ log := List.mem_cons_self
  refine Prog.Calls.require_bind fun hstatus => ?_
  have hopen : dispute.status ≠ .resolved := bne_iff_ne.mp hstatus
  refine Prog.Calls.require_bind fun _ => ?_
  refine Prog.Calls.require_bind fun _ => ?_
  refine Prog.Calls.perform_bind trivial fun _ key hkey => ?_
  refine Prog.Calls.orThrow_bind fun valid hvalid => ?_
  refine Prog.Calls.require_bind fun hb => ?_
  have hv : Verified P dispute (rulingPayload dispute arbiterId ruling splitBuyerBps issuedAt)
      signature := by
    refine ⟨rfl, rfl, rfl, key, publicKey_of_answerable hkey, ?_⟩
    rw [hvalid, hb]
  refine Prog.Calls.perform_bind trivial fun _ multisig _ => ?_
  split
  · refine Prog.Calls.perform_bind trivial fun _ _ _ => ?_
    refine Prog.Calls.then (applyRulingCoreAuthoritative_guards hopen hv hread) fun _ _ => ?_
    exact Prog.Calls.perform_bind trivial fun _ _ _ => trivial
  · refine Prog.Calls.then (applyRuling_guards hopen hv hread) fun _ _ => ?_
    exact Prog.Calls.perform_bind trivial fun _ _ _ => trivial

/-- Every call of `appeal` meets its guard. -/
theorem appeal_guards (disputeId : JsString) : Guards P (appeal disputeId) log :=
  Prog.Calls.perform_bind trivial fun _ _ _ =>
    Prog.Calls.require_bind fun _ =>
      Prog.Calls.perform_bind trivial fun _ _ _ =>
        Prog.Calls.perform_bind trivial fun _ _ _ =>
          Prog.Calls.perform_bind trivial fun _ _ _ =>
            Prog.Calls.perform_bind trivial fun _ _ _ =>
              Prog.Calls.perform_bind trivial fun _ _ _ =>
                Prog.Calls.perform_bind trivial fun _ _ _ => trivial

theorem authorize_guards (pending : DisputedPendingFacts) :
    Guards P (authorizeDisputedPendingExecution pending) log := by
  unfold authorizeDisputedPendingExecution
  split
  · exact Prog.Calls.perform_bind trivial fun _ _ _ => Prog.Calls.require_bind fun _ => trivial
  · next hid => exact Prog.Calls.perform_bind hid fun _ _ _ => trivial

/-- Every call of a request meets its guard. -/
theorem prog_guards (req : Request) : Guards P ((disputeSystem P).prog req) [] := by
  cases req with
  | raiseDispute tradeId escrowId => exact raiseDispute_guards tradeId escrowId
  | submitEvidence disputeId => exact submitEvidence_guards disputeId
  | resolveDispute disputeId arbiterId ruling splitBuyerBps signature issuedAt =>
    exact resolveDispute_guards disputeId arbiterId ruling splitBuyerBps signature issuedAt
  | appeal disputeId => exact appeal_guards disputeId
  | authorizeDisputedPendingExecution pending => exact authorize_guards pending

end Programs

/-! ## Runs -/

/-- What every run keeps. A row that was read is still there, under the same key. A
dispute is created by one call, which is the only one to assign its first arbiter, and
there is no ruling without an arbiter. -/
structure Recorded (c : DisputeConfig) : Prop where
  keyed : c.store.Keyed
  reads : ∀ {i d}, (i, Seen.read d) ∈ c.trace → ∃ d' ∈ c.store.disputes, d.Later d'
  created : ∀ {i id}, (i, Seen.created id) ∈ c.trace → ∃ d ∈ c.store.disputes, d.id = id
  creator : ∀ {i j id}, (i, Seen.created id) ∈ c.trace → (j, Seen.created id) ∈ c.trace → i = j
  assigner : ∀ {i id}, (i, Seen.assigning id) ∈ c.trace → (i, Seen.created id) ∈ c.trace
  assigned : ∀ d ∈ c.store.disputes, d.arbiterId ≠ none → ∃ i, (i, Seen.assigning d.id) ∈ c.trace
  ruler : ∀ d ∈ c.store.disputes, d.status = .resolved → d.arbiterId ≠ none

section Runs

variable {P : Platform} {c : DisputeConfig} {i : ℕ} {env : QueryEnv} {req : Request} {q : Call}
variable {k : Except DisputeError (Answer q) → DisputeOp Outcome} {s : Store}

/-- Before the first dispute everything is recorded. -/
theorem recorded_init : Recorded (Config.init Store.empty) where
  keyed := List.nodup_nil
  reads := fun h => absurd h List.not_mem_nil
  created := fun h => absurd h List.not_mem_nil
  creator := fun h => absurd h List.not_mem_nil
  assigner := fun h => absurd h List.not_mem_nil
  assigned := fun _ h => absurd h List.not_mem_nil
  ruler := fun _ h => absurd h List.not_mem_nil

theorem Store.mem_of_dispute {id : JsString} {d : DisputeRow} (h : s.dispute id = some d) :
    d ∈ s.disputes ∧ d.id = id :=
  ⟨List.mem_of_find?_eq_some h, by simpa using List.find?_some h⟩

/-- An answer without a fault is the answer of the run. -/
theorem run_of_exec_ok {a : Answer q} (h : (q.exec P env s).1 = .ok a) :
    (q.run P env s).1 = .ok a ∧ (q.exec P env s).2 = (q.run P env s).2 := by
  rcases env.fate.settle_answer DisputeError.fault (q.run P env s) s with heq | heq
  · rw [Call.exec, heq] at h ⊢
    exact ⟨h, rfl⟩
  · rw [Call.exec, heq] at h
    cases h

/-- A row that is read is there. -/
theorem read_of_observe {d : DisputeRow}
    (h : Seen.read d ∈ q.observe s (q.exec P env s).1) : d ∈ s.disputes := by
  cases q with
  | findDispute id =>
    generalize hr : ((Call.findDispute id).exec P env s).1 = r at h
    cases r with
    | error e => cases h
    | ok d' =>
      obtain rfl : d = d' := by simpa [Call.observe] using h
      have hrun := (run_of_exec_ok hr).1
      simp only [Call.run] at hrun
      split at hrun
      · next d'' hd'' =>
        rw [← Except.ok.inj hrun]
        exact (Store.mem_of_dispute hd'').1
      · cases hrun
  | createDispute _ _ =>
    generalize ((Call.createDispute _ _).exec P env s).1 = r at h
    cases r <;> simp [Call.observe] at h
  | updateArbiter _ _ => simp [Call.observe] at h
  | _ => cases h

/-- A dispute that is created has a new id. -/
theorem created_of_observe {id : JsString}
    (h : Seen.created id ∈ q.observe s (q.exec P env s).1) :
    (∀ d ∈ s.disputes, d.id ≠ id) ∧ ∃ d ∈ (q.exec P env s).2.disputes, d.id = id := by
  cases q with
  | createDispute tradeId escrowId =>
    generalize hr : ((Call.createDispute tradeId escrowId).exec P env s).1 = r at h
    cases r with
    | error e => cases h
    | ok d =>
      obtain rfl : id = d.id := by simpa [Call.observe] using h
      obtain ⟨hrun, hstore⟩ := run_of_exec_ok hr
      rw [hstore]
      simp only [Call.run] at hrun ⊢
      split at hrun
      · cases hrun
      · next hfresh =>
        rw [if_neg hfresh]
        obtain rfl := Except.ok.inj hrun
        refine ⟨fun d hd heq => hfresh ?_, _, List.mem_cons_self, rfl⟩
        exact List.any_eq_true.mpr ⟨d, hd, by simp [heq]⟩
  | findDispute _ =>
    generalize ((Call.findDispute _).exec P env s).1 = r at h
    cases r <;> simp [Call.observe] at h
  | updateArbiter _ _ => simp [Call.observe] at h
  | _ => cases h

/-- An arbiter is written by `updateArbiter` only. -/
theorem assigning_of_observe {id : JsString} {r : Except DisputeError (Answer q)}
    (h : Seen.assigning id ∈ q.observe s r) : ∃ arbiterId, q = .updateArbiter id arbiterId := by
  cases q with
  | updateArbiter id' arbiterId =>
    obtain rfl : id = id' := by simpa [Call.observe] using h
    exact ⟨arbiterId, rfl⟩
  | findDispute _ => cases r <;> simp [Call.observe] at h
  | createDispute _ _ => cases r <;> simp [Call.observe] at h
  | _ => cases h

/-- A row that a call gave an arbiter has one already, or the call is the one that
assigns the first. -/
theorem RowStep.arbiter {d d' : DisputeRow} (h : RowStep P s q d d')
    (hruler : d.status = .resolved → d.arbiterId ≠ none) (hd' : d'.arbiterId ≠ none) :
    d.arbiterId ≠ none ∨ ∃ arbiterId, q = .updateArbiter d.id arbiterId := by
  cases h with
  | assigned arbiterId => exact Or.inr ⟨arbiterId, rfl⟩
  | appealed _ hstatus _ => exact Or.inl (hruler hstatus)
  | _ => exact Or.inl hd'

/-- A row a call leaves resolved has an arbiter. -/
theorem RowStep.ruler {d d' : DisputeRow} (h : RowStep P s q d d')
    (hruler : d.status = .resolved → d.arbiterId ≠ none) (hd' : d'.status = .resolved) :
    d'.arbiterId ≠ none := by
  cases h with
  | assigned arbiterId => exact nofun
  | evidence => cases hd'
  | ruled _ hclaim =>
    simp only [DisputeRow.claimable, Bool.and_eq_true, beq_iff_eq] at hclaim
    simp [DisputeRow.ruled, hclaim.2]
  | committed _ hclaim _ =>
    simp only [DisputeRow.claimable, Bool.and_eq_true, beq_iff_eq] at hclaim
    simp [DisputeRow.ruled, hclaim.2]
  | reverted hgen =>
    simp only [DisputeRow.isGeneration, Bool.and_eq_true, beq_iff_eq] at hgen
    exact hruler hgen.1.1.1.1.2
  | appealed _ _ _ => cases hd'

/-- A call keeps the record. -/
theorem Recorded.answer (hI : Recorded c) (hG : Guard P (c.own i) q) :
    Recorded (c.answer (disputeSystem P) i env req q k) where
  keyed := hI.keyed.exec
  reads := by
    intro j d h
    rcases Config.mem_trace_answer h with ⟨-, ho⟩ | h
    · exact later_kept q env (read_of_observe ho)
    · obtain ⟨d', hd', hle⟩ := hI.reads h
      obtain ⟨d'', hd'', hle'⟩ := later_kept q env hd'
      exact ⟨d'', hd'', hle.trans hle'⟩
  created := by
    intro j id h
    rcases Config.mem_trace_answer h with ⟨-, ho⟩ | h
    · exact (created_of_observe ho).2
    · obtain ⟨d, hd, hid⟩ := hI.created h
      obtain ⟨d', hd', hle⟩ := later_kept q env hd
      exact ⟨d', hd', hle.id.trans hid⟩
  creator := by
    intro j j' id h h'
    rcases Config.mem_trace_answer h with ⟨hj, ho⟩ | hold <;>
      rcases Config.mem_trace_answer h' with ⟨hj', ho'⟩ | hold'
    · exact hj.trans hj'.symm
    · obtain ⟨d, hd, hid⟩ := hI.created hold'
      exact absurd hid ((created_of_observe ho).1 d hd)
    · obtain ⟨d, hd, hid⟩ := hI.created hold
      exact absurd hid ((created_of_observe ho').1 d hd)
    · exact hI.creator hold hold'
  assigner := by
    intro j id h
    refine Config.mem_trace_of_mem ?_
    rcases Config.mem_trace_answer h with ⟨rfl, ho⟩ | h
    · obtain ⟨arbiterId, rfl⟩ := assigning_of_observe ho
      exact Config.mem_own.mp hG.1
    · exact hI.assigner h
  assigned := by
    intro d' hd' harb
    rcases row_of_exec hd' with hold | ⟨_, _, _, -, rfl⟩ | ⟨d, hd, hr⟩
    · obtain ⟨j, hj⟩ := hI.assigned d' hold harb
      exact ⟨j, Config.mem_trace_of_mem hj⟩
    · exact absurd rfl harb
    · rw [hr.later.id]
      rcases hr.arbiter (hI.ruler d hd) harb with hsome | ⟨arbiterId, rfl⟩
      · obtain ⟨j, hj⟩ := hI.assigned d hd hsome
        exact ⟨j, Config.mem_trace_of_mem hj⟩
      · exact ⟨i, Config.mem_trace_of_observe (List.mem_singleton_self _)⟩
  ruler := by
    intro d' hd' hstatus
    rcases row_of_exec hd' with hold | ⟨_, _, _, -, rfl⟩ | ⟨d, hd, hr⟩
    · exact hI.ruler d' hold hstatus
    · cases hstatus
    · exact hr.ruler (hI.ruler d hd) hstatus

/-- What is stored for a verified decision on a row that still has its key and round. -/
theorem verifiable_ruled {d dispute : DisputeRow} {payload : AuthorityDecisionPayload}
    {signature : JsString} {issuedAt : Date} (hv : Verified P dispute payload signature)
    (hlater : dispute.Later d) (hdate : P.parseDate payload.issuedAt = some issuedAt)
    (hclaim : d.claimable dispute.id payload.authorityId = true)
    (hkeep : keepsDecision P dispute payload d = true) :
    (d.ruled payload signature issuedAt).verifiable P = true := by
  simp only [DisputeRow.claimable, Bool.and_eq_true, beq_iff_eq] at hclaim
  simp only [keepsDecision, hdate, Option.all_some, Bool.and_eq_true, beq_iff_eq] at hkeep
  have hdecision : (d.ruled payload signature issuedAt).storedDecision = some (payload, signature) := by
    simp only [DisputeRow.storedDecision, DisputeRow.ruled, hclaim.2, Option.bind_eq_bind,
      Option.bind_some, hlater.id, hlater.escrowId, hkeep.1, hkeep.2, ← hv.disputeId,
      ← hv.escrowId, ← hv.appealRound]
  obtain ⟨key, hkey, hsigned⟩ := hv.signed
  simp [DisputeRow.verifiable, hdecision, hkey, hsigned]

/-- A ruling that is stored on a row of a recorded run verifies. -/
theorem Recorded.ruled (hI : Recorded c) {d dispute : DisputeRow}
    {payload : AuthorityDecisionPayload} {signature : JsString} {issuedAt : Date}
    (hv : Verified P dispute payload signature) (hread : Seen.read dispute ∈ c.own i)
    (hd : d ∈ c.store.disputes) (hdate : P.parseDate payload.issuedAt = some issuedAt)
    (hclaim : d.claimable dispute.id payload.authorityId = true)
    (hkeep : (c.store.disputes.all fun d => !d.claimable dispute.id payload.authorityId ||
      keepsDecision P dispute payload d) = true) :
    (d.ruled payload signature issuedAt).verifiable P = true := by
  obtain ⟨d₁, hd₁, hle⟩ := hI.reads (Config.mem_own.mp hread)
  have hid : d.id = dispute.id := by
    simp only [DisputeRow.claimable, Bool.and_eq_true, beq_iff_eq] at hclaim
    exact hclaim.1.1
  obtain rfl : d = d₁ := hI.keyed.inj hd hd₁ (hid.trans hle.id.symm)
  have hkept := List.all_eq_true.mp hkeep d hd
  rw [hclaim] at hkept
  exact verifiable_ruled hv hle hdate hclaim hkept

/-- One call keeps the stored rulings verifiable. -/
theorem rulingsVerify_answer (hI : Recorded c) (hV : RulingsVerify P c.store)
    (hG : Guard P (c.own i) q) (hkeep : q.keeps P c.store = true) :
    RulingsVerify P (q.exec P env c.store).2 := by
  intro d' hd' hstatus
  rcases row_of_exec hd' with hold | ⟨_, _, _, -, rfl⟩ | ⟨d, hd, hr⟩
  · exact hV d' hold hstatus
  · cases hstatus
  · cases hr with
    | assigned arbiterId =>
      -- The first arbiter is assigned before there can be a ruling.
      obtain ⟨j, hj⟩ := hI.assigned d hd (hI.ruler d hd hstatus)
      obtain rfl := hI.creator (hI.assigner hj) (Config.mem_own.mp hG.1)
      exact absurd (Config.mem_own.mpr hj) hG.2
    | evidence => cases hstatus
    | ruled hdate hclaim => exact hI.ruled hG.1 hG.2 hd hdate hclaim hkeep
    | committed hdate hclaim hrecord =>
      have hnot : c.store.rulingRecords.contains (_, _) = false :=
        Bool.eq_false_iff.mpr fun h => hrecord (List.contains_iff_mem.mp h)
      simp only [Call.keeps, hnot, Bool.false_or] at hkeep
      exact hI.ruled hG.1 hG.2 hd hdate hclaim hkeep
    | reverted hgen => exact absurd hstatus hG
    | appealed _ _ _ => cases hstatus

theorem Recorded.of_same {c c' : DisputeConfig} (hI : Recorded c) (hstore : c'.store = c.store)
    (htrace : c'.trace = c.trace) : Recorded c' := by
  obtain ⟨h1, h2, h3, h4, h5, h6, h7⟩ := hI
  rw [← hstore] at h1 h2 h3 h6 h7
  rw [← htrace] at h2 h3 h4 h5 h6
  exact ⟨h1, h2, h3, h4, h5, h6, h7⟩

/-- Every reached configuration is recorded, and its threads are guarded. -/
theorem recorded_run (P : Platform) (as : List (Action QueryEnv Request)) :
    Config.Conforms (disputeSystem P) (fun _ => True) (fun _ => Guard P) (fun _ _ _ => True)
      ((Config.init Store.empty).exec (disputeSystem P) as) ∧
    Recorded ((Config.init Store.empty).exec (disputeSystem P) as) :=
  Config.run_invariant (A := fun _ _ => True) prog_guards (fun _ _ _ _ => trivial)
    (fun _ hI _ => hI.of_same rfl rfl) (fun _ hI _ _ hG => hI.answer hG)
    (fun _ hI _ _ => hI.of_same rfl rfl) as (Config.conforms_init trivial) recorded_init
    (Config.along_true as)

/-- In every run whose claims keep what was signed, every resolved dispute has a stored
ruling that verifies over the decision rebuilt from its own row. -/
theorem stored_rulings_verify (P : Platform) (as : List (Action QueryEnv Request))
    (h : Config.Along (disputeSystem P) (KeepsDecision P) (Config.init Store.empty) as) :
    RulingsVerify P ((Config.init Store.empty).exec (disputeSystem P) as).store := by
  refine (Config.run_invariant (I := fun c => Recorded c ∧ RulingsVerify P c.store)
    (R := fun _ => True) (G := fun _ => Guard P) (Q := fun _ _ _ => True) prog_guards
    (fun _ _ _ _ => trivial) ?_ ?_ ?_ as (Config.conforms_init trivial)
    ⟨recorded_init, fun _ h => absurd h List.not_mem_nil⟩ h).2.2
  · intro c req _ hI _
    exact ⟨hI.1.of_same rfl rfl, hI.2⟩
  · intro c i env req q k _ hI hA ht hG
    have hkeep : q.keeps P c.store = true := by
      simpa [KeepsDecision, Config.next_of_call ht] using hA
    exact ⟨hI.1.answer hG, rulingsVerify_answer hI.1 hI.2 hG hkeep⟩
  · intro c i t _ hI _ _
    exact ⟨hI.1.of_same rfl rfl, hI.2⟩

end Runs

/-! ## Concrete runs -/

/-- A platform without a hash, on which the signature of a text is the text followed by
the signer's key, and everybody's key is the own id. -/
def plainPlatform : Platform where
  sha256 := id
  verify digest signature key := signature == digest.map (·.toUInt16) ++ key
  parseDate s := (newDate s).bind fun t => if h : Clipped t then some ⟨t, h⟩ else none
  publicKey := some
  multisig _ := false

/-- The signature of a decision on `plainPlatform`. -/
def plainSignature (p : AuthorityDecisionPayload) : JsString :=
  ((hashAuthorityDecision id p).getD []).map (·.toUInt16) ++ p.authorityId

/-- A decision of the sample. -/
def plainDecision (round : ℕ) (arbiter : JsString) (ruling : SettlementKind) (issuedAt : JsString) :
    AuthorityDecisionPayload :=
  ⟨js "D", js "E", round, arbiter, ruling, none, issuedAt⟩

/-- A time in the canonical form. -/
def midnight : JsString := js "2026-01-01T00:00:00.000Z"

/-- The same instant as the midnight a day later, in another text. -/
def hour24 : JsString := js "2026-01-01T24:00:00.000Z"

/-- Raise dispute `D`, and let `A` arbitrate it. -/
def raised : List (Action QueryEnv Request) :=
  .start (.raiseDispute (js "T") (js "E")) ::
    List.replicate 6 (.run 0 { newId := js "D", arbiterId := js "A" })

/-- Start a ruling of the given round. -/
def rulingOf (round : ℕ) (arbiter : JsString) (ruling : SettlementKind) (issuedAt : JsString) :
    Action QueryEnv Request :=
  .start (.resolveDispute (js "D") arbiter ruling none
    (plainSignature (plainDecision round arbiter ruling issuedAt)) issuedAt)

/-- Let thread `i` make its next `n` calls. -/
def calls (n i : ℕ) (arbiter : JsString) : List (Action QueryEnv Request) :=
  List.replicate n (.run i { arbiterId := arbiter })

/-- A ruling issued at midnight is stored and verifies. -/
theorem stored_rulings_verify_midnight :
    Config.Along (disputeSystem plainPlatform) (KeepsDecision plainPlatform)
      (Config.init Store.empty) (raised ++ rulingOf 0 (js "A") .release midnight :: calls 7 1 []) ∧
    ((((Config.init Store.empty).exec (disputeSystem plainPlatform)
      (raised ++ rulingOf 0 (js "A") .release midnight :: calls 7 1 [])).store.dispute
        (js "D")).any fun d => d.status == .resolved) = true ∧
    RulingsVerify plainPlatform ((Config.init Store.empty).exec (disputeSystem plainPlatform)
      (raised ++ rulingOf 0 (js "A") .release midnight :: calls 7 1 [])).store :=
  ⟨by decide, by decide, stored_rulings_verify _ _ (by decide)⟩

/-- `A` rules twice at round 0, and one of the two calls waits before its claim. The ruling
is appealed, `B` rules at round 1, that ruling is appealed too, and `A` is drawn for
round 2. Then the waiting call claims. -/
def staleRuling : List (Action QueryEnv Request) :=
  raised ++ rulingOf 0 (js "A") .release midnight :: calls 3 1 [] ++
    rulingOf 0 (js "A") .release midnight :: calls 7 2 [] ++
    .start (.appeal (js "D")) :: calls 7 3 (js "B") ++
    rulingOf 1 (js "B") .refund midnight :: calls 7 4 [] ++
    .start (.appeal (js "D")) :: calls 7 5 (js "A") ++ calls 1 1 []

/-- The signature of round 0 is stored at round 2, where it does not verify. And where the
text of the time is not the one its date is written with, even an undisturbed ruling
does not verify. -/
theorem stored_rulings_unverifiable :
    (¬ RulingsVerify plainPlatform ((Config.init Store.empty).exec (disputeSystem plainPlatform)
      staleRuling).store) ∧
    ((((Config.init Store.empty).exec (disputeSystem plainPlatform) staleRuling).store.dispute
      (js "D")).any fun d => d.appealRound == 2 && d.authoritySignature ==
        some (plainSignature (plainDecision 0 (js "A") .release midnight))) = true ∧
    ¬ RulingsVerify plainPlatform ((Config.init Store.empty).exec (disputeSystem plainPlatform)
      (raised ++ rulingOf 0 (js "A") .release hour24 :: calls 7 1 [])).store := by
  refine ⟨?_, ?_, ?_⟩
  · decide +kernel
  · decide +kernel
  · decide

end Sails.Arbitration
