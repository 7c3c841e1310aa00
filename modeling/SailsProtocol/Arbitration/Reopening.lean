import SailsProtocol.Arbitration.Case
import SailsProtocol.Async.Steps

/-!
# How a decided dispute is opened again

A resolved dispute is meant to be opened again by an appeal, or by the revert of the very
call that ruled on it, and an appealed one to be decided by the arbiter the appeal drew.
The claims of rulings, proposals and appeals and the revert of a ruling look at the row
when they write it, so they keep to this. The writes of submitted evidence, of a contested
proposal and of an expired one go by the id of the dispute alone.

`Watched` adds two facts to a run : which thread made the dispute resolved last, and which
arbiter the last appeal drew. In every run in which the writes by id do not meet a resolved
or appealed dispute, every step keeps to the rule (`decided_reopened_by_appeal_or_revert`).
Without the condition, evidence read before a ruling is written after it
(`evidence_reopens_ruling`).
-/

namespace Sails.Case.Reopening

open Async

/-! ## What is watched -/

/-- A call read the dispute at a round, ruled at a round with the round its revert will look
for, or went to take its ruling back. -/
inductive Seen
  | read (round : ℕ)
  | ruled (revertRound round : ℕ)
  | reverting
  deriving DecidableEq

/-- What a call tells about the ruling. -/
def observe : (q : Call) → Store → Except CaseError (Answer q) → List Seen
  | .findDispute, _, .ok d => [.read d.appealRound]
  | .claimRuling _ _ _, _, .ok d => [.ruled d.appealRound d.appealRound]
  | .commitRuling _ _ _ appealRound, s, .ok true => [.ruled appealRound s.dispute.appealRound]
  | .revertRuling _ _ _ _ _, _, _ => [.reverting]
  | _, _, _ => []

/-- A run, the thread that made the dispute resolved last, and the arbiter of the last
appeal. -/
structure Watched where
  config : CaseConfig Seen
  ruler : Option ℕ
  appointee : Option ℕ

/-- A dispute before any request, with nobody's ruling in force. -/
def Watched.init (s : Store) : Watched := ⟨Config.init s, none, s.dispute.arbiterId⟩

/-- The row of the dispute. -/
def Watched.row (w : Watched) : DisputeRow := w.config.store.dispute

/-- The thread that takes a step. -/
def actor : Action CaseEnv Request → Option ℕ
  | .run i _ => some i
  | _ => none

section Statement

variable (P : Platform)

/-- A step, and whose ruling and which arbiter it leaves in force. -/
def Watched.step (w : Watched) (a : Action CaseEnv Request) : Watched :=
  let config := w.config.step (caseSystem P observe) a
  { config := config
    ruler := if w.row.status ≠ .resolved ∧ config.store.dispute.status = .resolved then actor a
      else w.ruler
    appointee := if config.store.dispute.appealRound = w.row.appealRound then w.appointee
      else config.store.dispute.arbiterId }

/-- Thread `i` serves the request `req`. -/
def Watched.Serves (w : Watched) (i : ℕ) (req : Request) : Prop :=
  ∃ t, w.config.threads[i]? = some t ∧ t.req = req

/-- A step that leaves RESOLVED is taken inside an appeal, or in the revert of the ruling
that made the dispute resolved. A step that leaves APPEALED is taken inside a ruling of the
arbiter the appeal drew. -/
structure Proper (w : Watched) (a : Action CaseEnv Request) : Prop where
  resolved : w.row.status = .resolved → (w.step P a).row.status ≠ .resolved →
    ∃ i, actor a = some i ∧
      ((∃ requestedBy, w.Serves i (.appeal requestedBy)) ∨
        (∃ arbiterId ruling bps signature,
          w.Serves i (.resolveDispute arbiterId ruling bps signature)) ∧
        (∃ status arbiterId ruling signature appealRound,
          w.config.next i = some (.revertRuling status arbiterId ruling signature appealRound)) ∧
        w.ruler = some i)
  appealed : w.row.status = .appealed → (w.step P a).row.status ≠ .appealed →
    ∃ i arbiterId ruling bps signature, actor a = some i ∧
      w.Serves i (.resolveDispute arbiterId ruling bps signature) ∧ w.appointee = some arbiterId

/-- The calls that write the status of the dispute by its id. -/
def byId : Call → Bool
  | .appendEvidence _ _ | .contest | .expire => true
  | _ => false

/-- The row carries a ruling, or one that was appealed. -/
def decided (d : DisputeRow) : Bool := d.status == .resolved || d.status == .appealed

/-- A write by id that takes effect meets a dispute that is neither resolved nor appealed. -/
def MeetsUndecided (w : Watched) : Action CaseEnv Request → Prop
  | .run i env =>
    ((w.config.next i).any byId = true → env.fate = .failed ∨ decided w.row = false)
  | _ => True

instance (w : Watched) : ∀ a, Decidable (MeetsUndecided w a)
  | .start _ => inferInstanceAs (Decidable True)
  | .run _ env => inferInstanceAs (Decidable (_ → env.fate = .failed ∨ decided w.row = false))
  | .crash _ => inferInstanceAs (Decidable True)

/-! ## Guards -/

/-- An appeal is claimed by `appeal`, and a ruling by `resolveDispute` for its own arbiter.
A ruling of MULTISIG was read at the round it records, and a ruling is taken back once, by
the call that made it. -/
def Guard (req : Request) (log : List Seen) : Call → Prop
  | .claimAppeal _ _ => ∃ requestedBy, req = .appeal requestedBy
  | .claimRuling arbiterId _ _ =>
    ∃ ruling bps signature, req = .resolveDispute arbiterId ruling bps signature
  | .commitRuling arbiterId _ _ appealRound =>
    (∃ ruling bps signature, req = .resolveDispute arbiterId ruling bps signature) ∧
      .read appealRound ∈ log
  | .revertRuling status arbiterId _ _ appealRound =>
    (∃ ruling bps signature, req = .resolveDispute arbiterId ruling bps signature) ∧
      status ≠ .resolved ∧ (∃ round, .ruled appealRound round ∈ log) ∧ .reverting ∉ log
  | _ => True

/-- Every call of the program meets its guard. -/
abbrev Guards {α : Type} (req : Request) (p : CaseOp α) (log : List Seen) : Prop :=
  p.Calls (Config.Answerable (caseSystem P observe) fun _ => True) observe (Guard req)
    log

end Statement

section Programs

variable {P : Platform} {log : List Seen} {req : Request}

/-- A request that is not about the ruling makes none of its calls. -/
theorem guards_of_topic (hreq : req.topic ≠ .ruling) : Guards P req (req.prog P) log := by
  refine Prog.Makes.calls (fun q _ hq => ?_) (prog_makes P req)
  cases q with
  | claimAppeal _ _ =>
    rcases hq with hq | hq
    · cases hq
    · cases req with
      | appeal requestedBy => exact ⟨requestedBy, rfl⟩
      | _ => cases hq
  | claimRuling _ _ _ => exact absurd (hq.resolve_left nofun).symm hreq
  | commitRuling _ _ _ _ => exact absurd (hq.resolve_left nofun).symm hreq
  | revertRuling _ _ _ _ _ => exact absurd (hq.resolve_left nofun).symm hreq
  | _ => trivial

/-- What is between a ruling and its revert is not watched. -/
theorem silent_of_settling {p : CaseOp Unit} (hp : p.Makes fun q => q.settling = true) :
    p.Guarded (Config.Answerable (caseSystem P observe) fun _ => True) observe (Guard req)
      (fun log' _ => log' = log) log := by
  refine Prog.Makes.silent (fun q _ hq => ?_) (fun q s r hq => ?_) hp
  · cases q <;> trivial
  · cases q <;> first | rfl | cases hq

/-- The handler of the work on a ruling starts at the log the work started with. -/
theorem revertible_guards {work : CaseOp Unit} {handler : CaseError → CaseOp Unit}
    (hwork : work.Makes fun q => q.settling = true)
    (hhandler : ∀ e, Guards P req (handler e) log) : Guards P req (work.tryCatch handler) log := by
  refine (Prog.guarded_tryCatch _ _ _).mpr ((silent_of_settling hwork).mono fun log' r hlog => ?_)
  subst hlog
  cases r with
  | ok _ => trivial
  | error e => exact hhandler e

variable {dispute : DisputeRow} {arbiterId signature : ℕ} {ruling : SettlementKind}

/-- The request a ruling of this arbiter serves. -/
abbrev ResolvedBy (req : Request) (arbiterId : ℕ) : Prop :=
  ∃ ruling bps signature, req = .resolveDispute arbiterId ruling bps signature

/-- `applyRuling` claims, commits and reverts as its request may. -/
theorem applyRuling_guards (hreq : ResolvedBy req arbiterId) (hopen : dispute.status ≠ .resolved)
    (hlog : Seen.reverting ∉ log) :
    Guards P req (applyRuling P dispute arbiterId ruling signature) log := by
  refine Prog.Calls.perform_bind hreq fun _ updated _ => ?_
  refine Prog.Calls.then ?_ fun _ _ => Prog.calls_perform trivial
  refine revertible_guards (settle_makes P ruling arbiterId) fun e => ?_
  refine Prog.Calls.perform_bind ⟨hreq, hopen, ⟨_, List.mem_cons_self⟩, fun h => ?_⟩
    fun _ _ _ => trivial
  rcases List.mem_cons.mp h with h | h
  · cases h
  · exact hlog h

/-- The authoritative path claims, commits and reverts as its request may. -/
theorem applyRulingCoreAuthoritative_guards (hreq : ResolvedBy req arbiterId)
    (hopen : dispute.status ≠ .resolved) (hread : Seen.read dispute.appealRound ∈ log)
    (hlog : Seen.reverting ∉ log) :
    Guards P req (applyRulingCoreAuthoritative dispute arbiterId ruling signature) log := by
  refine Prog.Calls.perform_bind ⟨hreq, hread⟩ fun s committed _ => ?_
  refine Prog.Calls.require_bind fun hcommitted => ?_
  obtain rfl : committed = true := hcommitted
  refine Prog.Calls.then ?_ fun _ _ =>
    Prog.Calls.perform_bind trivial fun _ _ _ => Prog.Calls.perform_bind trivial fun _ _ _ => trivial
  refine revertible_guards (dispatch_makes dispute arbiterId ruling) fun e => ?_
  refine Prog.Calls.perform_bind ⟨hreq, hopen, ⟨_, List.mem_cons_self⟩, fun h => ?_⟩
    fun _ _ _ => Prog.Calls.perform_bind trivial fun _ _ _ => trivial
  rcases List.mem_cons.mp h with h | h
  · cases h
  · exact hlog h

/-- Every call of `resolveDispute` meets its guard. -/
theorem resolveDispute_guards (splitBuyerBps : Option ℕ) (hreq : ResolvedBy req arbiterId) :
    Guards P req (resolveDispute P arbiterId ruling splitBuyerBps signature) [] := by
  unfold resolveDispute
  refine Prog.Calls.perform_bind trivial fun _ dispute _ => ?_
  have hread : Seen.read dispute.appealRound ∈ [Seen.read dispute.appealRound] :=
    List.mem_singleton_self _
  have hlog : Seen.reverting ∉ [Seen.read dispute.appealRound] :=
    fun h => by cases List.mem_singleton.mp h
  refine Prog.Calls.require_bind fun hstatus => ?_
  have hopen : dispute.status ≠ .resolved := bne_iff_ne.mp hstatus
  refine Prog.Calls.require_bind fun _ => ?_
  refine Prog.Calls.require_bind fun _ => ?_
  refine Prog.Calls.perform_bind trivial fun _ _ _ => ?_
  refine Prog.Calls.perform_bind trivial fun _ _ _ => ?_
  split
  · refine Prog.Calls.perform_bind trivial fun _ _ _ => ?_
    exact Prog.Calls.then (applyRulingCoreAuthoritative_guards hreq hopen hread hlog)
      fun _ _ => Prog.calls_perform trivial
  · exact Prog.Calls.then (applyRuling_guards hreq hopen hlog) fun _ _ => Prog.calls_perform trivial

theorem prog_guards (req : Request) : Guards P req (req.prog P) [] := by
  cases req with
  | resolveDispute arbiterId ruling splitBuyerBps signature =>
    exact resolveDispute_guards splitBuyerBps ⟨ruling, splitBuyerBps, signature, rfl⟩
  | _ => exact guards_of_topic nofun

end Programs

/-! ## What a call does to a decided dispute -/

section Rows

variable {P : Platform} {q : Call} {d d' : DisputeRow} {s : Store} {env : CaseEnv}

/-- The round of the dispute only grows. -/
theorem round_le_of_rowStep (h : RowStep q d d') : d.appealRound ≤ d'.appealRound := by
  cases h with
  | appealed _ _ _ => exact Nat.le_succ _
  | _ => exact Nat.le_refl _

/-- Only an appeal changes the arbiter, and it advances the round. -/
theorem arbiter_of_rowStep (h : RowStep q d d') (hround : d'.appealRound = d.appealRound) :
    d'.arbiterId = d.arbiterId := by
  cases h with
  | appealed _ _ _ => exact absurd hround (Nat.succ_ne_self _)
  | _ => rfl

/-- A call that meets the condition leaves the row, or takes a step on a row that is
undecided if the step goes by id. -/
theorem row_of_exec (hmeets : byId q = true → env.fate = .failed ∨ decided s.dispute = false) :
    (q.exec P env s).2.dispute = s.dispute ∨
      RowStep q s.dispute (q.exec P env s).2.dispute ∧
        (byId q = true → decided s.dispute = false) := by
  by_cases hq : byId q = true
  · rcases hmeets hq with hfate | hopen
    · left
      cases q with
      | appendEvidence _ _ => simp [Call.exec, hfate, Fate.settle]
      | contest => simp [Call.exec, hfate, Fate.settle]
      | expire => simp [Call.exec, hfate, Fate.settle]
      | _ => cases hq
    · exact (rowStep_exec q).imp_right fun h => ⟨h, fun _ => hopen⟩
  · exact (rowStep_exec q).imp_right fun h => ⟨h, fun h' => absurd h' hq⟩

/-- A step from RESOLVED is an appeal, or the revert of a ruling of the same round. -/
theorem step_from_resolved (h : RowStep q d d') (hid : byId q = true → decided d = false)
    (hd : d.status = .resolved) :
    (∃ appealRound newArbiterId, q = .claimAppeal appealRound newArbiterId) ∧
        d.appealRound < d'.appealRound ∨
      ∃ status arbiterId ruling signature,
        q = .revertRuling status arbiterId ruling signature d.appealRound := by
  have hdecided : decided d = true := by simp [decided, hd]
  cases h with
  | evidence _ _ => exact absurd hdecided (by simp [hid rfl])
  | contested => exact absurd hdecided (by simp [hid rfl])
  | expired => exact absurd hdecided (by simp [hid rfl])
  | proposed _ h => simp [DisputeRow.proposable, hd] at h
  | claimed _ _ h => simp [DisputeRow.claimable, hd] at h
  | committed _ _ _ h => simp [DisputeRow.claimable, hd] at h
  | reverted status h =>
    simp only [DisputeRow.isGeneration, Bool.and_eq_true, beq_iff_eq] at h
    exact Or.inr ⟨status, _, _, _, by rw [h.1.2]⟩
  | appealed newArbiterId _ _ => exact Or.inl ⟨⟨_, newArbiterId, rfl⟩, Nat.lt_succ_self _⟩

/-- A step from APPEALED is a ruling of the arbiter the row names. -/
theorem step_from_appealed (h : RowStep q d d') (hid : byId q = true → decided d = false)
    (hd : d.status = .appealed) : ∃ arbiterId ruling signature, d.arbiterId = some arbiterId ∧
      (q = .claimRuling arbiterId ruling signature ∨
        ∃ appealRound, q = .commitRuling arbiterId ruling signature appealRound) := by
  have hdecided : decided d = true := by simp [decided, hd]
  cases h with
  | evidence _ _ => exact absurd hdecided (by simp [hid rfl])
  | contested => exact absurd hdecided (by simp [hid rfl])
  | expired => exact absurd hdecided (by simp [hid rfl])
  | proposed _ h => simp [DisputeRow.proposable, hd] at h
  | claimed ruling signature h =>
    simp only [DisputeRow.claimable, Bool.and_eq_true, beq_iff_eq] at h
    exact ⟨_, ruling, signature, h.2, Or.inl rfl⟩
  | committed ruling signature appealRound h =>
    simp only [DisputeRow.claimable, Bool.and_eq_true, beq_iff_eq] at h
    exact ⟨_, ruling, signature, h.2, Or.inr ⟨appealRound, rfl⟩⟩
  | reverted _ h => simp [DisputeRow.isGeneration, hd] at h
  | appealed _ hstatus _ => exact absurd (hd.symm.trans hstatus) nofun

/-- The round that is read is the one of the row. -/
theorem read_of_observe {round : ℕ} (h : Seen.read round ∈ observe q s (q.exec P env s).1) :
    round = s.dispute.appealRound := by
  cases q with
  | findDispute =>
    generalize hr : (Call.findDispute.exec P env s).1 = r at h
    cases r with
    | error e => cases h
    | ok d =>
      obtain rfl : s.dispute = d := Except.ok.inj (run_of_exec_ok hr).1
      simpa [observe] using h
  | claimRuling _ _ _ =>
    generalize ((Call.claimRuling _ _ _).exec P env s).1 = r at h
    cases r <;> simp [observe] at h
  | commitRuling _ _ _ _ =>
    generalize ((Call.commitRuling _ _ _ _).exec P env s).1 = r at h
    rcases r with _ | _ | _ <;> simp [observe] at h
  | revertRuling _ _ _ _ _ => simp [observe] at h
  | _ => cases h

theorem status_ne_of_claimable {arbiterId : ℕ} (h : d.claimable arbiterId = true) :
    d.status ≠ .resolved := by
  simp only [DisputeRow.claimable, Bool.and_eq_true, bne_iff_ne] at h
  exact h.1

/-- A ruling that is seen made the dispute resolved, at the round the row was at. -/
theorem ruled_of_observe {revertRound round : ℕ}
    (h : Seen.ruled revertRound round ∈ observe q s (q.exec P env s).1) :
    round = s.dispute.appealRound ∧ s.dispute.status ≠ .resolved ∧
      (q.exec P env s).2.dispute.status = .resolved ∧
      (q.exec P env s).2.dispute.appealRound = s.dispute.appealRound ∧
      (revertRound = round ∨ ∃ arbiterId ruling signature,
        q = .commitRuling arbiterId ruling signature revertRound) := by
  cases q with
  | claimRuling arbiterId ruling signature =>
    generalize hr : ((Call.claimRuling arbiterId ruling signature).exec P env s).1 = r at h
    cases r with
    | error e => cases h
    | ok d =>
      obtain ⟨hclaim, rfl, hstore⟩ := claimRuling_ok hr
      obtain ⟨rfl, rfl⟩ : revertRound = s.dispute.appealRound ∧
        round = s.dispute.appealRound := by simpa [observe, DisputeRow.ruled] using h
      rw [hstore]
      exact ⟨rfl, status_ne_of_claimable hclaim, rfl, rfl, Or.inl rfl⟩
  | commitRuling arbiterId ruling signature appealRound =>
    generalize hr : ((Call.commitRuling arbiterId ruling signature appealRound).exec P env s).1 = r
      at h
    rcases r with e | _ | _
    · cases h
    · cases h
    · obtain ⟨hclaim, -, hstore⟩ := commitRuling_ok hr
      obtain ⟨rfl, rfl⟩ : revertRound = appealRound ∧ round = s.dispute.appealRound := by
        simpa [observe] using h
      rw [hstore]
      exact ⟨rfl, status_ne_of_claimable hclaim, rfl, rfl, Or.inr ⟨_, _, _, rfl⟩⟩
  | findDispute =>
    generalize (Call.findDispute.exec P env s).1 = r at h
    cases r <;> simp [observe] at h
  | revertRuling _ _ _ _ _ => simp [observe] at h
  | _ => cases h

end Rows

/-! ## Runs -/

/-- What every run keeps. A round that was read is not ahead of the row. A ruling that was
not taken back is of an earlier round, or it is the one in force and its thread is the
ruler. The arbiter of the row is the one the last appeal drew. -/
structure Tracked (w : Watched) : Prop where
  read : ∀ {i round}, (i, Seen.read round) ∈ w.config.trace → round ≤ w.row.appealRound
  ruled : ∀ {i revertRound round}, (i, Seen.ruled revertRound round) ∈ w.config.trace →
    revertRound ≤ round
  inForce : ∀ {i revertRound round}, (i, Seen.ruled revertRound round) ∈ w.config.trace →
    Seen.reverting ∉ w.config.own i → round < w.row.appealRound ∨
      round = w.row.appealRound ∧ w.row.status = .resolved ∧ w.ruler = some i
  appointee : w.row.arbiterId = w.appointee

theorem tracked_init (s : Store) : Tracked (Watched.init s) where
  read := fun h => absurd h List.not_mem_nil
  ruled := fun h => absurd h List.not_mem_nil
  inForce := fun h => absurd h List.not_mem_nil
  appointee := rfl

section Runs

variable {P : Platform} {w : Watched} {i : ℕ} {env : CaseEnv} {req : Request} {q : Call}
variable {k : Except CaseError (Answer q) → CaseOp Unit}

/-- A revert that finds its own generation is the ruler's. -/
theorem Tracked.ruler_of_revert (hT : Tracked w) {status : DisputeStatus} {arbiterId : ℕ}
    {ruling : SettlementKind} {signature : ℕ}
    (hG : Guard req (w.config.own i)
      (.revertRuling status arbiterId ruling signature w.row.appealRound)) :
    w.ruler = some i := by
  obtain ⟨-, -, ⟨round, hruled⟩, hreverting⟩ := hG
  have hmem := Config.mem_own.mp hruled
  rcases hT.inForce hmem hreverting with hlt | ⟨-, -, hruler⟩
  · exact absurd (hT.ruled hmem) (Nat.not_le.mpr hlt)
  · exact hruler

/-- What the condition says about the next call of a thread. -/
theorem meets_of_next (hA : MeetsUndecided w (.run i env)) (hq : w.config.next i = some q) :
    byId q = true → env.fate = .failed ∨ decided w.row = false := by
  intro hid
  refine hA ?_
  rw [hq]
  exact hid

/-- A step that answers a call, as the watch sees it. -/
structure Answered (P : Platform) (w : Watched) (i : ℕ) (env : CaseEnv) (req : Request) (q : Call)
    (k : Except CaseError (Answer q) → CaseOp Unit) : Prop where
  step : w.config.step (caseSystem P observe) (.run i env) =
    w.config.answer (caseSystem P observe) i env req q k
  guard : Guard req (w.config.own i) q
  meets : byId q = true → env.fate = .failed ∨ decided w.row = false

namespace Answered

theorem config_eq (h : Answered P w i env req q k) : (w.step P (.run i env)).config =
    w.config.answer (caseSystem P observe) i env req q k :=
  h.step

theorem row_eq (h : Answered P w i env req q k) :
    (w.step P (.run i env)).row = (q.exec P env w.config.store).2.dispute := by
  rw [Watched.row, h.config_eq]
  rfl

theorem round_le (h : Answered P w i env req q k) :
    w.row.appealRound ≤ (w.step P (.run i env)).row.appealRound := by
  rw [h.row_eq]
  rcases @rowStep_exec P w.config.store env q with h | h
  · rw [h]
    exact Nat.le_refl _
  · exact round_le_of_rowStep h

/-- A thread that rules on an open dispute is the ruler after it. -/
theorem ruler_of_ruled (hopen : w.row.status ≠ .resolved)
    (hres : (w.step P (.run i env)).row.status = .resolved) :
    (w.step P (.run i env)).ruler = some i :=
  if_pos ⟨hopen, hres⟩

/-- While the dispute is resolved, the ruler stays. -/
theorem ruler_of_resolved (hres : w.row.status = .resolved) (a : Action CaseEnv Request) :
    (w.step P a).ruler = w.ruler :=
  if_neg fun h => h.1 hres

/-- A ruling that was not reverted is in force, or of an earlier round. -/
theorem inForce (h : Answered P w i env req q k) (hT : Tracked w) {j revertRound round : ℕ}
    (hmem : (j, Seen.ruled revertRound round) ∈ (w.step P (.run i env)).config.trace)
    (hown : Seen.reverting ∉ (w.step P (.run i env)).config.own j) :
    round < (w.step P (.run i env)).row.appealRound ∨
      round = (w.step P (.run i env)).row.appealRound ∧
        (w.step P (.run i env)).row.status = .resolved ∧
        (w.step P (.run i env)).ruler = some j := by
  have hle := h.round_le
  rw [h.config_eq] at hmem hown
  rcases Config.mem_trace_answer hmem with ⟨rfl, ho⟩ | hmem
  · obtain ⟨hround, hopen, hres, hsame, -⟩ := ruled_of_observe ho
    rw [← h.row_eq] at hres hsame
    exact Or.inr ⟨hround.trans hsame.symm, hres, ruler_of_ruled hopen hres⟩
  · have hown' : Seen.reverting ∉ w.config.own j := fun hj => hown <| by
      rw [Config.mem_own] at hj ⊢
      exact Config.mem_trace_of_mem hj
    rcases hT.inForce hmem hown' with hlt | ⟨heq, hres, hruler⟩
    · exact Or.inl (Nat.lt_of_lt_of_le hlt hle)
    · rcases row_of_exec (P := P) h.meets with hsame | ⟨hstep, hid⟩
      · rw [ruler_of_resolved hres, h.row_eq, hsame]
        exact Or.inr ⟨heq, hres, hruler⟩
      · rcases step_from_resolved hstep hid hres with ⟨-, hlt⟩ | ⟨status, a, kind, sig, rfl⟩
        · left
          rw [h.row_eq, heq]
          exact hlt
        · -- The revert is the ruler's, so it is thread `j` that goes to take its ruling back.
          obtain rfl : j = i := Option.some.inj (hruler.symm.trans (hT.ruler_of_revert h.guard))
          refine absurd ?_ hown
          rw [Config.mem_own]
          exact Config.mem_trace_of_observe List.mem_cons_self

/-- The arbiter of the row is the one that was appointed. -/
theorem appointee (h : Answered P w i env req q k) (hT : Tracked w) :
    (w.step P (.run i env)).row.arbiterId = (w.step P (.run i env)).appointee := by
  by_cases hround : (w.step P (.run i env)).row.appealRound = w.row.appealRound
  · have happointee : (w.step P (.run i env)).appointee = w.appointee := if_pos hround
    rw [happointee, ← hT.appointee]
    rw [h.row_eq] at hround ⊢
    rcases @rowStep_exec P w.config.store env q with h | h
    · rw [h]
      rfl
    · exact arbiter_of_rowStep h hround
  · exact (if_neg hround).symm

/-- A step keeps what is tracked. -/
theorem tracked (h : Answered P w i env req q k) (hT : Tracked w) :
    Tracked (w.step P (.run i env)) where
  read := by
    intro j round hmem
    rw [h.config_eq] at hmem
    rcases Config.mem_trace_answer hmem with ⟨-, ho⟩ | hmem
    · rw [read_of_observe ho]
      exact h.round_le
    · exact (hT.read hmem).trans h.round_le
  ruled := by
    intro j revertRound round hmem
    rw [h.config_eq] at hmem
    rcases Config.mem_trace_answer hmem with ⟨-, ho⟩ | hmem
    · obtain ⟨hround, -, -, -, rfl | ⟨_, _, _, rfl⟩⟩ := ruled_of_observe ho
      · exact Nat.le_refl _
      · rw [hround]
        exact hT.read (Config.mem_own.mp h.guard.2)
    · exact hT.ruled hmem
  inForce := h.inForce hT
  appointee := h.appointee hT

/-- A step reopens a decision by an appeal or a revert only. -/
theorem proper (h : Answered P w i env req q k) (hT : Tracked w)
    (ht : w.config.threads[i]? = some ⟨req, .call q k, true⟩) : Proper P w (.run i env) := by
  have hserves : w.Serves i req := ⟨_, ht, rfl⟩
  have hnext : w.config.next i = some q := Config.next_of_call ht
  refine ⟨fun hres hleft => ⟨i, rfl, ?_⟩, fun happ hleft => ?_⟩
  · rw [h.row_eq] at hleft
    rcases row_of_exec (P := P) h.meets with hsame | ⟨hstep, hid⟩
    · exact absurd (hsame ▸ hres) hleft
    · have hguard := h.guard
      rcases step_from_resolved hstep hid hres with ⟨⟨_, _, rfl⟩, -⟩ | ⟨_, _, _, _, rfl⟩
      · obtain ⟨requestedBy, rfl⟩ := hguard
        exact Or.inl ⟨requestedBy, hserves⟩
      · obtain ⟨ruling, bps, signature, rfl⟩ := hguard.1
        exact Or.inr ⟨⟨_, ruling, bps, signature, hserves⟩, ⟨_, _, _, _, _, hnext⟩,
          hT.ruler_of_revert hguard⟩
  · rw [h.row_eq] at hleft
    rcases row_of_exec (P := P) h.meets with hsame | ⟨hstep, hid⟩
    · exact absurd (hsame ▸ happ) hleft
    · have hguard := h.guard
      obtain ⟨arbiterId, ruling, signature, harbiter, hq⟩ := step_from_appealed hstep hid happ
      have hreq : ResolvedBy req arbiterId := by
        rcases hq with rfl | ⟨_, rfl⟩
        · exact hguard
        · exact hguard.1
      obtain ⟨ruling', bps, signature', rfl⟩ := hreq
      exact ⟨i, arbiterId, ruling', bps, signature', rfl, hserves,
        hT.appointee.symm.trans harbiter⟩

end Answered

/-- A step that leaves the store and the trace. -/
theorem Tracked.unchanged (hT : Tracked w) {a : Action CaseEnv Request}
    (hstore : (w.config.step (caseSystem P observe) a).store = w.config.store)
    (htrace : (w.config.step (caseSystem P observe) a).trace = w.config.trace) :
    Tracked (w.step P a) ∧ Proper P w a := by
  have hrow : (w.step P a).row = w.row := congrArg Store.dispute hstore
  have hruler : (w.step P a).ruler = w.ruler :=
    if_neg fun h => h.1 ((congrArg DisputeRow.status hrow).symm.trans h.2)
  have happointee : (w.step P a).appointee = w.appointee :=
    if_pos (congrArg DisputeRow.appealRound hrow)
  have htrace' : (w.step P a).config.trace = w.config.trace := htrace
  have hown : ∀ j, (w.step P a).config.own j = w.config.own j := fun j => by
    rw [Config.own, htrace', Config.own]
  refine ⟨⟨fun h => ?_, fun h => ?_, fun h hnot => ?_, ?_⟩, fun hres hleft => ?_,
    fun happ hleft => ?_⟩
  · rw [htrace'] at h
    rw [hrow]
    exact hT.read h
  · rw [htrace'] at h
    exact hT.ruled h
  · rw [htrace'] at h
    rw [hown] at hnot
    rw [hrow, hruler]
    exact hT.inForce h hnot
  · rw [hrow, happointee]
    exact hT.appointee
  · exact absurd (hrow ▸ hres) hleft
  · exact absurd (hrow ▸ happ) hleft

/-- One step of a watched run. -/
theorem Tracked.step (hT : Tracked w)
    (hc : Config.Conforms (caseSystem P observe) (fun _ => True) Guard (fun _ _ _ => True) w.config)
    {a : Action CaseEnv Request} (hA : MeetsUndecided w a) :
    Tracked (w.step P a) ∧ Proper P w a := by
  rcases Config.step_cases (S := caseSystem P observe) (c := w.config) a with h | ⟨req, rfl, h⟩ |
    ⟨i, env, req, q, k, rfl, ht, h⟩ | ⟨i, t, rfl, -, h⟩
  · exact hT.unchanged (by rw [h]) (by rw [h])
  · exact hT.unchanged rfl rfl
  · have hans : Answered P w i env req q k :=
      ⟨h, hc.guard ht, meets_of_next hA (Config.next_of_call ht)⟩
    exact ⟨hans.tracked hT, hans.proper hT ht⟩
  · exact hT.unchanged (by rw [h]; rfl) (by rw [h]; rfl)

end Runs

/-- In every run in which the writes by id meet an undecided dispute, every step that leaves
RESOLVED is an appeal or the revert of the ruling in force, and every step that leaves
APPEALED is a ruling of the arbiter the appeal drew. -/
theorem decided_reopened_by_appeal_or_revert (P : Platform) (s : Store)
    (as : List (Action CaseEnv Request))
    (h : Steps.Along (Watched.step P) MeetsUndecided (Watched.init s) as) :
    Steps.Along (Watched.step P) (Proper P) (Watched.init s) as := by
  refine h.imp (I := fun w => Config.Conforms (caseSystem P observe) (fun _ => True) Guard
    (fun _ _ _ => True) w.config ∧ Tracked w)
    ⟨Config.conforms_init trivial, tracked_init s⟩ (fun w a hI hA => ?_) fun w a hI hA => ?_
  · exact ⟨hI.1.step prog_guards (fun _ _ _ _ => trivial) a, (hI.2.step hI.1 hA).1⟩
  · exact (hI.2.step hI.1 hA).2

/-! ## Concrete runs -/

/-- A direct rail with buyer 1 and seller 2. -/
def samplePlatform : Platform where
  type := .mock
  trade := ⟨1, 2⟩
  committedArbiterId := none
  hashIdempotentPayload d := d.type.length
  autoResolutionWindow := 10

/-- A dispute that was just raised, for arbiter 7. -/
def sampleStore : Store :=
  ⟨⟨.opened, some 7, none, 0, none, [], none⟩, [], none, fun _ => none⟩

/-- A text note. -/
def sampleNote : EvidenceDescriptor := ⟨[], none, none, none, none⟩

/-- Let thread `i` make its next `n` calls. -/
def calls (n i : ℕ) (env : CaseEnv) : List (Action CaseEnv Request) := List.replicate n (.run i env)

/-- A ruling whose settlement fails is taken back, the next one is appealed, and the arbiter
the appeal draws rules. -/
def revertedThenAppealed : List (Action CaseEnv Request) :=
  .start (.resolveDispute 7 .release none 5) :: calls 5 0 {} ++ calls 1 0 { allow := false } ++
    calls 1 0 {} ++
  .start (.resolveDispute 7 .release none 5) :: calls 8 1 {} ++
  .start (.appeal 1) :: calls 7 2 { arbiterId := 8 } ++
  .start (.resolveDispute 8 .refund none 6) :: calls 8 3 {}

theorem reopened_sample :
    Steps.Along (Watched.step samplePlatform) MeetsUndecided (Watched.init sampleStore)
      revertedThenAppealed ∧
    Steps.Along (Watched.step samplePlatform) (Proper samplePlatform) (Watched.init sampleStore)
      revertedThenAppealed :=
  ⟨by decide, decided_reopened_by_appeal_or_revert _ _ _ (by decide)⟩

/-- A step of another request that moves a decided dispute does not keep to the rule. -/
theorem not_proper {P : Platform} {w : Watched} {a : Action CaseEnv Request} {i : ℕ}
    {req : Request} (ha : actor a = some i)
    (hreq : (w.config.threads[i]?).map Thread.req = some req)
    (htopic : req.topic ≠ .ruling ∧ req.topic ≠ .appeal) (hd : decided w.row = true)
    (hleft : (w.step P a).row.status ≠ w.row.status) : ¬ Proper P w a := by
  have hserves : ∀ {j req'}, actor a = some j → w.Serves j req' → req' = req := by
    rintro j req' hj ⟨t, ht, rfl⟩
    obtain rfl := Option.some.inj (ha.symm.trans hj)
    rw [ht] at hreq
    exact Option.some.inj hreq
  intro h
  simp only [decided, Bool.or_eq_true, beq_iff_eq] at hd
  rcases hd with hd | hd
  · obtain ⟨j, hj, ⟨_, hs⟩ | ⟨⟨_, _, _, _, hs⟩, -⟩⟩ := h.resolved hd (hd ▸ hleft)
    · exact htopic.2 (hserves hj hs ▸ rfl)
    · exact htopic.1 (hserves hj hs ▸ rfl)
  · obtain ⟨j, _, _, _, _, hj, hs, -⟩ := h.appealed hd (hd ▸ hleft)
    exact htopic.1 (hserves hj hs ▸ rfl)

/-- The buyer's submission reads an open dispute, the arbiter rules, and the submission is
about to be written. -/
def evidenceAfterRuling : List (Action CaseEnv Request) :=
  .start (.submitEvidence 1 sampleNote none) :: calls 3 0 {} ++
    .start (.resolveDispute 7 .release none 5) :: calls 8 1 {}

/-- A tick of the sweep finds an expired proposal, the arbiter rules, the ruling is appealed,
and the tick is about to write. -/
def expiryAfterAppeal : List (Action CaseEnv Request) :=
  .start .proposeAutoResolution :: calls 5 0 {} ++
    .start .sweepExpiredAutoResolutions :: calls 2 1 { now := 20 } ++
    .start (.resolveDispute 7 .release none 5) :: calls 8 2 {} ++
    .start (.appeal 1) :: calls 7 3 { arbiterId := 8 }

/-- Submitted evidence opens a resolved dispute again, and an expired proposal an appealed
one. -/
theorem evidence_reopens_ruling :
    (¬ Steps.Along (Watched.step samplePlatform) (Proper samplePlatform)
      (Watched.init sampleStore) (evidenceAfterRuling ++ [.run 0 {}])) ∧
    ¬ Steps.Along (Watched.step samplePlatform) (Proper samplePlatform)
      (Watched.init sampleStore) (expiryAfterAppeal ++ [.run 1 {}]) := by
  refine ⟨fun h => ?_, fun h => ?_⟩
  · refine @not_proper _ _ _ _ (.submitEvidence 1 sampleNote none) rfl ?_ ⟨nofun, nofun⟩ ?_ ?_
      (Steps.along_append.mp h).2.1
    · decide
    · decide
    · decide
  · refine @not_proper _ _ _ _ .sweepExpiredAutoResolutions rfl ?_ ⟨nofun, nofun⟩ ?_ ?_
      (Steps.along_append.mp h).2.1
    · decide
    · decide
    · decide

end Sails.Case.Reopening
