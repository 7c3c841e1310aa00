import SailsProtocol.Intent.Engine

/-!
# Intents whose window has closed

A transition that finds the window of an intent closed moves it to `EXPIRED` instead, through
the table that every transition goes through. `isExpired` holds in every status with a way
on, but the table leads to `EXPIRED` from the first four only, so an intent that is matched,
negotiated, committed or settling keeps its status for good (`committed_never_expires`).

No call that found the window closed moves the intent elsewhere (`NeverElsewhere`, in every
run). It leaves the intent expired when the status can expire and no call that looked before
moves the intent after it (`expired_intents`).
-/

namespace Sails.Intent

open Async

variable {sha256 : String → String}

/-! ## What a call sees -/

/-- What a query shows : the intent, the time, how many rows a claim moved, or a failure. -/
inductive Glance where
  | read (record : IntentRecord)
  | time (now : ℕ)
  | tried (fromStatus toStatus : IntentStatus) (count : ℕ)
  | failed
  deriving DecidableEq, Repr

/-- What a call shows when it is answered, and that it failed otherwise. -/
def Call.glance : (q : Call) → IntentStore → Except EngineError (Answer q) → List Glance
  | _, _, .error _ => [.failed]
  | .findById, _, .ok record => [.read record]
  | .clock, _, .ok now => [.time now]
  | .claimTransition src dst, _, .ok count => [.tried src dst count]
  | _, _, .ok _ => []

/-- The engine, with what its calls see of the window. -/
abbrev watched (sha256 : String → String) :
    System Answer EngineError Unit IntentStore QueryEnv Request Glance where
  exec := Call.exec
  observe := Call.glance
  prog := Request.prog sha256

/-- The intent and the calls on it, with what they see. -/
abbrev Watched := Config Answer EngineError Unit IntentStore Request Glance

/-- The call found the window closed on the intent it had read. -/
inductive Lapsed : List Glance → Prop where
  | closed {record : IntentRecord} {now : ℕ} {log : List Glance}
      (h : isExpired record.status record.expiresAt now = true) :
      Lapsed (.time now :: .read record :: log)
  | older {o : Glance} {log : List Glance} (h : Lapsed log) : Lapsed (o :: log)

/-- The request asks for `EXPIRED` itself. -/
def Request.expires : Request → Prop
  | .transition toStatus _ => toStatus = .EXPIRED
  | .cancel _ => False

/-- A read that a claim of `EXPIRED` may go by : one made after the window was found closed,
or the one it was found closed on, when `EXPIRED` was asked for. -/
inductive GoesBy (req : Request) (record : IntentRecord) : List Glance → Prop where
  | read {log : List Glance} (h : Lapsed log) : GoesBy req record (.read record :: log)
  | time {now : ℕ} {log : List Glance} (hreq : req.expires)
      (h : isExpired record.status record.expiresAt now = true) :
      GoesBy req record (.time now :: .read record :: log)
  | older {o : Glance} {log : List Glance} (h : GoesBy req record log) :
      GoesBy req record (o :: log)

/-! ## The properties -/

/-- A call that found the window closed moves the intent to `EXPIRED` or not at all. -/
def NeverElsewhere (c : Watched) : Prop :=
  ∀ i src dst, Lapsed (c.own i) → .tried src dst 1 ∈ c.own i → dst = .EXPIRED

/-- A call that found the window closed leaves the intent expired. -/
def LeavesExpired (c : Watched) : Prop :=
  ∀ i req r live, c.threads[i]? = some ⟨req, .ret r, live⟩ → Lapsed (c.own i) →
    c.store.record.status = .EXPIRED

/-- The status is `EXPIRED`, or the table leads there. -/
def CanExpire (status : IntentStatus) : Prop :=
  status = .EXPIRED ∨ status.canMoveTo .EXPIRED = true

/-- The step of a run in which every query is answered. A call that finds the window closed
finds it on an intent that can expire, and, if it asked for `EXPIRED`, in the status it read.
No claim of another status takes effect once a call has found the window closed. -/
structure StepsOrderly (c : Watched) (i : ℕ) (env : QueryEnv) : Prop where
  answered : env.fate = .answered
  found : c.next i = some .clock → ∀ record log, c.own i = .read record :: log →
    isExpired record.status record.expiresAt env.now = true →
      CanExpire c.store.record.status ∧ ∀ req, c.reqOf i = some req → req.expires →
        record.status = c.store.record.status ∨ c.store.record.status = .EXPIRED
  claims : ∀ src dst, c.next i = some (.claimTransition src dst) → dst ≠ .EXPIRED →
    (∃ j, Lapsed (c.own j)) → c.store.record.status ≠ src

/-- The condition on a step. -/
def Orderly (c : Watched) : Action QueryEnv Request → Prop
  | .run i env => StepsOrderly c i env
  | _ => True

/-! ## What the calls do -/

/-- A claim goes along the table. After the window was found closed it is one of `EXPIRED`, by
a read. The clock is looked at before any claim. -/
def Expires (req : Request) (log : List Glance) : Call → Prop
  | .claimTransition src dst => src.canMoveTo dst = true ∧
      (Lapsed log → dst = .EXPIRED ∧ ∃ record, GoesBy req record log ∧ record.status = src)
  | .clock => ∀ src dst n, .tried src dst n ∉ log
  | _ => True

/-- A call that found the window closed failed, tried to claim `EXPIRED`, or went by a read of
a status that does not lead there. -/
def Settled (req : Request) (log : List Glance) : Prop :=
  Lapsed log → .failed ∈ log ∨ (∃ src n, .tried src .EXPIRED n ∈ log) ∨
    ∃ record, GoesBy req record log ∧ record.status.canMoveTo .EXPIRED = false

section Guards

variable {can : ∀ q : Call, IntentStore → Except EngineError (Answer q) → Prop}
variable {req : Request} {log : List Glance}

theorem settled_failed (h : Glance.failed ∈ log) : Settled req log :=
  fun _ => Or.inl h

/-- Only a look at the clock closes the window. -/
theorem lapsed_of_cons {o : Glance} (ho : ∀ now, o ≠ .time now) (h : Lapsed (o :: log)) :
    Lapsed log := by
  cases h with
  | closed h => exact absurd rfl (ho _)
  | older h => exact h

/-- A query that is no claim, with what it may find. -/
theorem perform_settled {q : Call} {β : Type} {f : Answer q → Prog Answer EngineError β}
    {Q : List Glance → Except EngineError β → Prop} (hq : Expires req log q)
    (hfail : ∀ e, Q (.failed :: log) (.error e))
    (hok : ∀ s a, (f a).Guarded can Call.glance (Expires req) Q (q.glance s (.ok a) ++ log)) :
    ((Prog.perform q : Prog Answer EngineError (Answer q)) >>= f).Guarded can Call.glance
      (Expires req) Q log := by
  refine (Prog.guarded_bind _ _ _).mpr ⟨hq, fun s r _ => ?_⟩
  cases r with
  | error e =>
    have hlog : q.glance s (.error e) = [.failed] := by cases q <;> rfl
    rw [hlog]
    exact hfail e
  | ok a => exact hok s a

/-- Writing the event of a claim settles it. -/
theorem writeIntentEvent_settled {fromStatus : Option IntentStatus} {toStatus : IntentStatus}
    {triggeredBy : String} {src : IntentStatus} {n : ℕ}
    (h : Lapsed log → Glance.tried src .EXPIRED n ∈ log) :
    (writeIntentEvent sha256 fromStatus toStatus triggeredBy).Guarded can Call.glance
      (Expires req) (fun log' _ => Lapsed log' → .failed ∈ log' ∨ .tried src .EXPIRED n ∈ log')
      log := by
  refine perform_settled trivial (fun _ _ => Or.inl List.mem_cons_self) fun s last => ?_
  refine ⟨trivial, fun s r _ => ?_⟩
  cases r with
  | error e => exact fun _ => Or.inl List.mem_cons_self
  | ok _ => exact fun hl => Or.inr (h hl)

/-- The claim and what follows it. -/
theorem advance_settled {currentStatus toStatus : IntentStatus} {triggeredBy : String}
    (hgoes : Lapsed log → toStatus = .EXPIRED ∧
      ∃ record, GoesBy req record log ∧ record.status = currentStatus) :
    (advance sha256 currentStatus toStatus triggeredBy).Guarded can Call.glance (Expires req)
      (fun log' _ => Settled req log') log := by
  refine (Prog.guarded_bind _ _ _).mpr ((Prog.guarded_require _ _).mpr ⟨fun hmove => ?_,
    fun hno => ?_⟩)
  · refine perform_settled ⟨hmove, hgoes⟩ (fun _ => settled_failed List.mem_cons_self)
      fun s count => ?_
    have htried : Lapsed (.tried currentStatus toStatus count :: log) →
        Glance.tried currentStatus .EXPIRED count
          ∈ Glance.tried currentStatus toStatus count :: log := by
      intro hlapsed
      obtain ⟨rfl, -⟩ := hgoes (lapsed_of_cons (by nofun) hlapsed)
      exact List.mem_cons_self
    have hsettled : ∀ {log' : List Glance}, (Lapsed log' → .failed ∈ log' ∨
        .tried currentStatus .EXPIRED count ∈ log') → Settled req log' :=
      fun h hlapsed => (h hlapsed).imp_right fun hmem => Or.inl ⟨_, _, hmem⟩
    refine (Prog.guarded_bind _ _ _).mpr ((Prog.guarded_require _ _).mpr ⟨fun _ => ?_,
      fun _ => hsettled fun hl => Or.inr (htried hl)⟩)
    refine perform_settled trivial (fun _ => settled_failed List.mem_cons_self)
      fun s updated => ?_
    have hread : Lapsed (.read updated :: .tried currentStatus toStatus count :: log) →
        Glance.tried currentStatus .EXPIRED count
          ∈ .read updated :: Glance.tried currentStatus toStatus count :: log := fun hl =>
      List.mem_cons_of_mem _ (htried (lapsed_of_cons (by nofun) hl))
    refine (Prog.guarded_bind _ _ _).mpr ((writeIntentEvent_settled hread).mono
      fun log' r hlog' => ?_)
    cases r with
    | error e => exact hsettled hlog'
    | ok _ =>
      refine perform_settled trivial (fun _ => settled_failed List.mem_cons_self)
        fun s _ => hsettled hlog'
  · intro hlapsed
    obtain ⟨rfl, record, hread, rfl⟩ := hgoes hlapsed
    exact Or.inr (Or.inr ⟨record, hread, hno⟩)

/-- What an unclaimed log is like : no claim, and the window not found closed. -/
structure Looking (log : List Glance) : Prop where
  unclaimed : ∀ src dst n, .tried src dst n ∉ log
  unlapsed : ¬ Lapsed log

theorem expire_settled (hlapsed : Lapsed log) :
    (expire sha256).Guarded can Call.glance (Expires req) (fun log' _ => Settled req log') log := by
  refine perform_settled trivial (fun _ => settled_failed List.mem_cons_self) fun s record => ?_
  exact advance_settled fun _ => ⟨rfl, record, .read hlapsed, rfl⟩

theorem Looking.read {record : IntentRecord} (h : Looking log) : Looking (.read record :: log) := by
  refine ⟨fun src dst n hmem => ?_, fun hl => h.unlapsed (lapsed_of_cons (by nofun) hl)⟩
  rcases List.mem_cons.mp hmem with heq | hmem
  · cases heq
  · exact h.unclaimed src dst n hmem

theorem Looking.settled (h : Looking log) : Settled req log :=
  fun hlapsed => absurd hlapsed h.unlapsed

/-- A look at the clock that finds the window open. -/
theorem Looking.time {record : IntentRecord} {now : ℕ} (h : Looking (.read record :: log))
    (hopen : ¬ isExpired record.status record.expiresAt now = true) :
    Looking (.time now :: .read record :: log) := by
  refine ⟨fun src dst n hmem => ?_, fun hl => ?_⟩
  · rcases List.mem_cons.mp hmem with heq | hmem
    · cases heq
    · exact h.unclaimed src dst n hmem
  · cases hl with
    | closed hexpired => exact hopen hexpired
    | older hl => exact h.unlapsed hl

/-- A transition settles a window that it finds closed. -/
theorem transition_settled {toStatus : IntentStatus} {triggeredBy : String} (h : Looking log)
    (hreq : toStatus = .EXPIRED → req.expires) :
    (transition sha256 toStatus triggeredBy).Guarded can Call.glance (Expires req)
      (fun log' _ => Settled req log') log := by
  refine perform_settled trivial (fun _ => settled_failed List.mem_cons_self) fun s record => ?_
  refine perform_settled h.read.unclaimed (fun _ => settled_failed List.mem_cons_self)
    fun s now => ?_
  refine (Prog.guarded_ite _ _ _).mpr ⟨fun hexpired => ?_, fun hopen => ?_⟩
  · have hclosed : isExpired record.status record.expiresAt now = true := by
      simp only [Bool.and_eq_true] at hexpired
      exact hexpired.1
    refine (Prog.guarded_bind _ _ _).mpr ((expire_settled (.closed hclosed)).mono
      fun log' r hlog' => ?_)
    cases r with
    | error e => exact hlog'
    | ok _ => exact hlog'
  · refine advance_settled fun hlapsed => ?_
    cases hlapsed with
    | closed hclosed =>
      have hto : toStatus = .EXPIRED := by
        by_contra hne
        exact hopen (by simp [hclosed, hne])
      exact ⟨hto, record, .time (hreq hto) hclosed, rfl⟩
    | older hlapsed => exact absurd hlapsed h.read.unlapsed

/-- A cancellation settles a window that it finds closed. -/
theorem cancel_settled {cancelledBy : String} (h : Looking log) :
    (cancel sha256 cancelledBy).Guarded can Call.glance (Expires req)
      (fun log' _ => Settled req log') log := by
  refine perform_settled trivial (fun _ => settled_failed List.mem_cons_self) fun s record => ?_
  refine (Prog.guarded_bind _ _ _).mpr ((Prog.guarded_require _ _).mpr ⟨fun _ => ?_,
    fun _ => h.read.settled⟩)
  refine perform_settled h.read.unclaimed (fun _ => settled_failed List.mem_cons_self)
    fun s now => ?_
  refine (Prog.guarded_ite _ _ _).mpr ⟨fun hclosed => ?_, fun hopen => ?_⟩
  · refine (Prog.guarded_bind _ _ _).mpr ((expire_settled (.closed hclosed)).mono
      fun log' r hlog' => ?_)
    cases r with
    | error e => exact hlog'
    | ok _ => exact hlog'
  · refine (Prog.guarded_bind _ _ _).mpr ((transition_settled (h.read.time hopen)
      (by nofun)).mono
      fun log' r hlog' => ?_)
    cases r with
    | error e => exact hlog'
    | ok _ => exact hlog'

/-- Every call settles a window that it finds closed. -/
theorem prog_settled (req : Request) :
    (req.prog sha256).Guarded can Call.glance (Expires req) (fun log' _ => Settled req log')
      [] := by
  have hlooking : Looking [] := ⟨fun _ _ _ => nofun, nofun⟩
  cases req with
  | transition toStatus triggeredBy =>
    refine (Prog.guarded_bind _ _ _).mpr ((transition_settled hlooking id).mono
      fun log' r hlog' => ?_)
    cases r with
    | error e => exact hlog'
    | ok _ => exact hlog'
  | cancel cancelledBy => exact cancel_settled hlooking

end Guards

/-! ## Every run -/

section Runs

variable {c : Watched} {i : ℕ} {req : Request} {q : Call} {env : QueryEnv}

/-- Every call is guarded at what it has seen. -/
abbrev Reached (sha256 : String → String) (c : Watched) : Prop :=
  Config.Conforms (watched sha256) (fun _ => True) Expires (fun req log _ => Settled req log) c

/-- A query shows one thing at most. -/
theorem glance_cases (q : Call) (s : IntentStore) (r : Except EngineError (Answer q)) :
    q.glance s r = [] ∨ ∃ o, q.glance s r = [o] := by
  cases r with
  | error e => exact Or.inr ⟨.failed, by cases q <;> rfl⟩
  | ok a =>
    cases q with
    | findById => exact Or.inr ⟨_, rfl⟩
    | clock => exact Or.inr ⟨_, rfl⟩
    | claimTransition src dst => exact Or.inr ⟨_, rfl⟩
    | findLastEvent => exact Or.inl rfl
    | createEvent data => exact Or.inl rfl
    | emit toStatus => exact Or.inl rfl

/-- A claim is seen at a claim only. -/
theorem tried_mem_glance {s : IntentStore} {r : Except EngineError (Answer q)}
    {src dst : IntentStatus} {n : ℕ} (h : .tried src dst n ∈ q.glance s r) :
    q = .claimTransition src dst := by
  cases r with
  | error e => cases q <;> simp [Call.glance] at h
  | ok a =>
    cases q with
    | claimTransition src' dst' =>
      simp only [Call.glance, List.mem_singleton, Glance.tried.injEq] at h
      rw [h.1, h.2.1]
    | _ => simp [Call.glance] at h

/-- The time is seen at the clock only. -/
theorem time_mem_glance {s : IntentStore} {r : Except EngineError (Answer q)} {now : ℕ}
    (h : .time now ∈ q.glance s r) : q = .clock := by
  cases r with
  | error e => cases q <;> simp [Call.glance] at h
  | ok a => cases q <;> first | rfl | simp [Call.glance] at h

/-- The window is found closed by a look at the clock only. -/
theorem lapsed_of_append {s : IntentStore} {r : Except EngineError (Answer q)}
    {log : List Glance} (hq : q ≠ .clock) (h : Lapsed (q.glance s r ++ log)) : Lapsed log := by
  rcases glance_cases q s r with hnil | ⟨o, ho⟩
  · rwa [hnil] at h
  · rw [ho] at h
    refine lapsed_of_cons (fun now hnow => ?_) h
    have hmem : .time now ∈ q.glance s r := by
      rw [ho, hnow]
      exact List.mem_cons_self
    exact hq (time_mem_glance hmem)

/-- A call that found the window closed tried to claim `EXPIRED` only. -/
def ClaimsExpired (c : Watched) : Prop :=
  ∀ i src dst n, Lapsed (c.own i) → .tried src dst n ∈ c.own i → dst = .EXPIRED

/-- A call that found the window closed claims `EXPIRED` next. -/
theorem claimsExpired_answer {k : Except EngineError (Answer q) → Prog Answer EngineError Unit}
    (h : ClaimsExpired c) (hguard : Expires req (c.own i) q) :
    ClaimsExpired (c.answer (watched sha256) i env req q k) := by
  intro j src dst n hlapsed htried
  by_cases hj : j = i
  · subst hj
    rw [Config.own_answer_self] at hlapsed htried
    rcases List.mem_append.mp htried with hnew | hold
    · obtain rfl := tried_mem_glance hnew
      exact (hguard.2 (lapsed_of_append (by nofun) hlapsed)).1
    · by_cases hq : q = .clock
      · subst hq
        exact absurd hold (hguard src dst n)
      · exact h j src dst n (lapsed_of_append hq hlapsed) hold
  · rw [Config.own_answer_of_ne hj] at hlapsed htried
    exact h j src dst n hlapsed htried

/-- In every run a call that found the window closed moves the intent to `EXPIRED` only. -/
theorem neverElsewhere_exec (s : IntentStore) (as : List (Action QueryEnv Request)) :
    NeverElsewhere ((Config.init s).exec (watched sha256) as) := by
  have hrun := Config.run_invariant (I := ClaimsExpired) prog_settled (fun _ _ _ _ => trivial)
    (fun _ h _ => h) (fun _ h _ _ hguard => claimsExpired_answer h hguard) (fun _ h _ _ => h) as
    (Config.conforms_init (S := watched sha256) (R := fun _ => True) (s := s) trivial)
    (fun _ _ _ _ _ h => nomatch h) (Config.along_true as)
  exact fun i src dst => hrun.2 i src dst 1

/-! ## Orderly runs -/

theorem GoesBy.lapsed {record : IntentRecord} {log : List Glance} (h : GoesBy req record log) :
    Lapsed log := by
  induction h with
  | read h => exact h.older
  | time _ h => exact .closed h
  | older _ ih => exact ih.older

/-- An answered query answers. -/
theorem exec_answered (q : Call) (s : IntentStore) (henv : env.fate = .answered) :
    ∃ a, q.exec env s = (.ok a, (q.run env s).2) := by
  have hexec : q.exec env s = q.run env s := by
    rw [Call.exec, henv]
    rfl
  rw [hexec]
  cases q with
  | claimTransition src dst =>
    simp only [Call.run]
    split
    · exact ⟨_, rfl⟩
    · exact ⟨_, rfl⟩
  | _ => exact ⟨_, rfl⟩

/-- Only a claim from its status moves an intent. -/
theorem status_cases (q : Call) (s : IntentStore) (henv : env.fate = .answered) :
    (q.exec env s).2.record.status = s.record.status ∨ ∃ src dst, q = .claimTransition src dst ∧
      s.record.status = src ∧ (q.exec env s).2.record.status = dst := by
  obtain ⟨a, hexec⟩ := exec_answered q s henv
  rw [hexec]
  cases q with
  | claimTransition src dst =>
    by_cases hsrc : s.record.status = src
    · exact Or.inr ⟨src, dst, rfl, hsrc, by simp [Call.run, hsrc]⟩
    · exact Or.inl (by simp [Call.run, hsrc])
  | _ => exact Or.inl rfl

/-- How an answered look at the clock finds the window closed. -/
theorem lapsed_append_cases {s : IntentStore} {log : List Glance} (henv : env.fate = .answered)
    (h : Lapsed (q.glance s (q.exec env s).1 ++ log)) :
    Lapsed log ∨ q = .clock ∧ ∃ record rest, log = .read record :: rest ∧
      isExpired record.status record.expiresAt env.now = true := by
  by_cases hq : q = .clock
  · subst hq
    have hglance : Call.glance .clock s (Call.exec .clock env s).1 = [.time env.now] := by
      rw [Call.exec, henv]
      rfl
    rw [hglance] at h
    cases h with
    | closed h => exact Or.inr ⟨rfl, _, _, rfl, h⟩
    | older h => exact Or.inl h
  · exact Or.inl (lapsed_of_append hq h)

/-- How an answered query adds a read to go by. -/
theorem goesBy_append_cases {s : IntentStore} {log : List Glance} {record : IntentRecord}
    (henv : env.fate = .answered)
    (h : GoesBy req record (q.glance s (q.exec env s).1 ++ log)) :
    GoesBy req record log ∨ (q = .findById ∧ record = s.record ∧ Lapsed log) ∨
      q = .clock ∧ req.expires ∧ ∃ rest, log = .read record :: rest ∧
        isExpired record.status record.expiresAt env.now = true := by
  obtain ⟨a, hexec⟩ := exec_answered q s henv
  rw [hexec] at h
  cases q with
  | findById =>
    have ha : a = s.record := by
      rw [Call.exec, henv] at hexec
      exact (Except.ok.inj (Prod.mk.inj hexec).1).symm
    cases h with
    | read h => exact Or.inr (Or.inl ⟨rfl, ha, h⟩)
    | older h => exact Or.inl h
  | clock =>
    have ha : a = env.now := by
      rw [Call.exec, henv] at hexec
      exact (Except.ok.inj (Prod.mk.inj hexec).1).symm
    cases h with
    | time hreq h => exact Or.inr (Or.inr ⟨rfl, hreq, _, rfl, ha ▸ h⟩)
    | older h => exact Or.inl h
  | claimTransition src dst =>
    cases h with
    | older h => exact Or.inl h
  | findLastEvent => exact Or.inl h
  | createEvent data => exact Or.inl h
  | emit toStatus => exact Or.inl h

/-- What holds once a call found the window closed. -/
structure Expiring (c : Watched) : Prop where
  goesBy : ∀ {i : ℕ} {req : Request} {record : IntentRecord}, c.reqOf i = some req →
    GoesBy req record (c.own i) →
      record.status = c.store.record.status ∨ c.store.record.status = .EXPIRED
  tried : ∀ {i : ℕ} {src : IntentStatus} {n : ℕ}, Lapsed (c.own i) →
    .tried src .EXPIRED n ∈ c.own i → c.store.record.status = .EXPIRED
  can : ∀ {i : ℕ}, Lapsed (c.own i) → CanExpire c.store.record.status
  answered : ∀ {i : ℕ}, .failed ∉ c.own i

theorem expiring_init (s : IntentStore) : Expiring (Config.init s) :=
  ⟨fun _ => nofun, nofun, nofun, nofun⟩

/-- A new call keeps the invariant. -/
theorem Expiring.spawn (hc : Reached sha256 c) (h : Expiring c) (req : Request) :
    Expiring (c.spawn (watched sha256) req) := by
  refine ⟨fun {i req' record} hreq hgoes => ?_, h.tried, h.can, h.answered⟩
  by_cases hi : i = c.threads.length
  · subst hi
    rw [Config.own_spawn, hc.own_length le_rfl] at hgoes
    cases hgoes
  · rw [Config.reqOf_spawn_of_ne hi] at hreq
    exact h.goesBy hreq hgoes

theorem Expiring.kill {t : Thread Answer EngineError Unit Request} (h : Expiring c)
    (ht : c.threads[i]? = some t) : Expiring (c.kill i t) := by
  refine ⟨fun {j req' record} hreq hgoes => ?_, h.tried, h.can, h.answered⟩
  rw [Config.reqOf_kill ht] at hreq
  exact h.goesBy hreq hgoes

/-- How a query moves the status : not at all, or to `EXPIRED`, once a call found the window
closed. -/
theorem status_after {k : Except EngineError (Answer q) → Prog Answer EngineError Unit}
    (ht : c.threads[i]? = some ⟨req, .call q k, true⟩) (hguard : Expires req (c.own i) q)
    (hstep : StepsOrderly c i env) :
    ((∃ j, Lapsed (c.own j)) → (q.exec env c.store).2.record.status = c.store.record.status ∨
        (q.exec env c.store).2.record.status = .EXPIRED) ∧
      (c.store.record.status = .EXPIRED → (q.exec env c.store).2.record.status = .EXPIRED) := by
  rcases status_cases q c.store hstep.answered with hsame | ⟨src, dst, rfl, hsrc, hdst⟩
  · rw [hsame]
    exact ⟨fun _ => Or.inl rfl, id⟩
  · refine ⟨fun hlapsed => Or.inr ?_, fun hexpired => ?_⟩
    · rw [hdst]
      by_contra hne
      exact hstep.claims src dst (Config.next_of_call ht) hne hlapsed hsrc
    · have hmove := hguard.1
      rw [← hsrc, hexpired] at hmove
      cases dst <;> cases hmove

/-- An orderly step keeps the invariant. -/
theorem Expiring.answer {k : Except EngineError (Answer q) → Prog Answer EngineError Unit}
    (h : Expiring c) (ht : c.threads[i]? = some ⟨req, .call q k, true⟩)
    (hguard : Expires req (c.own i) q) (hstep : StepsOrderly c i env) :
    Expiring (c.answer (watched sha256) i env req q k) := by
  obtain ⟨hmoved, hstays⟩ := status_after ht hguard hstep
  have hnext := Config.next_of_call ht
  have hreqOf := Config.reqOf_of_thread ht
  have hstore : (c.answer (watched sha256) i env req q k).store = (q.exec env c.store).2 := rfl
  have hquery : q = .findById ∨ q = .clock →
      (q.exec env c.store).2.record.status = c.store.record.status := by
    intro hq
    obtain ⟨a, hexec⟩ := exec_answered q c.store hstep.answered
    rw [hexec]
    rcases hq with rfl | rfl <;> rfl
  have hgone : ∀ {record : IntentRecord}, (∃ j, Lapsed (c.own j)) →
      record.status = c.store.record.status ∨ c.store.record.status = .EXPIRED →
      record.status = (q.exec env c.store).2.record.status ∨
        (q.exec env c.store).2.record.status = .EXPIRED := by
    intro record hlapsed hor
    rcases hmoved hlapsed with heq | heq
    · rw [heq]
      exact hor
    · exact Or.inr heq
  refine ⟨fun {j req' record} hreq hgoes => ?_, fun {j src n} hlapsed htried => ?_,
    fun {j} hlapsed => ?_, fun {j} hfailed => ?_⟩
  · rw [Config.reqOf_answer ht] at hreq
    rw [hstore]
    by_cases hj : j = i
    · subst hj
      obtain rfl := Option.some.inj (hreqOf.symm.trans hreq)
      rw [Config.own_answer_self] at hgoes
      rcases goesBy_append_cases hstep.answered hgoes with hold | ⟨rfl, rfl, -⟩ |
        ⟨rfl, hexpires, rest, hlog, hclosed⟩
      · exact hgone ⟨j, hold.lapsed⟩ (h.goesBy hreq hold)
      · exact Or.inl (hquery (Or.inl rfl)).symm
      · rw [hquery (Or.inr rfl)]
        exact (hstep.found hnext record rest hlog hclosed).2 _ hreqOf hexpires
    · rw [Config.own_answer_of_ne hj] at hgoes
      exact hgone ⟨j, hgoes.lapsed⟩ (h.goesBy hreq hgoes)
  · rw [hstore]
    by_cases hj : j = i
    · subst hj
      rw [Config.own_answer_self] at hlapsed htried
      rcases List.mem_append.mp htried with hnew | hold
      · obtain rfl := tried_mem_glance hnew
        have hown := lapsed_of_append (by nofun) hlapsed
        obtain ⟨-, record, hgoes, hsrc⟩ := hguard.2 hown
        rcases h.goesBy hreqOf hgoes with heq | heq
        · obtain ⟨a, hexec⟩ := exec_answered (.claimTransition src .EXPIRED) c.store hstep.answered
          rw [hexec]
          simp [Call.run, ← heq, hsrc]
        · exact hstays heq
      · rcases lapsed_append_cases hstep.answered hlapsed with hown | ⟨rfl, -⟩
        · exact hstays (h.tried hown hold)
        · exact absurd hold (hguard src .EXPIRED n)
    · rw [Config.own_answer_of_ne hj] at hlapsed htried
      exact hstays (h.tried hlapsed htried)
  · rw [hstore]
    have hkept : ∀ {j : ℕ}, Lapsed (c.own j) → CanExpire (q.exec env c.store).2.record.status := by
      intro j hown
      rcases hmoved ⟨j, hown⟩ with heq | heq
      · rw [heq]
        exact h.can hown
      · exact Or.inl heq
    by_cases hj : j = i
    · subst hj
      rw [Config.own_answer_self] at hlapsed
      rcases lapsed_append_cases hstep.answered hlapsed with hown |
        ⟨rfl, record, rest, hlog, hclosed⟩
      · exact hkept hown
      · rw [hquery (Or.inr rfl)]
        exact (hstep.found hnext record rest hlog hclosed).1
    · rw [Config.own_answer_of_ne hj] at hlapsed
      exact hkept hlapsed
  · rcases Config.mem_own_of_answer hfailed with ⟨-, hnew⟩ | hold
    · obtain ⟨a, hexec⟩ := exec_answered q c.store hstep.answered
      have hglance : .failed ∈ q.glance c.store (q.exec env c.store).1 := hnew
      rw [hexec] at hglance
      cases q <;> simp [Call.glance] at hglance
    · exact h.answered hold

/-- With the invariant a call leaves the intent expired. -/
theorem leavesExpired_of (hc : Reached sha256 c) (h : Expiring c) : LeavesExpired c := by
  intro i req r live ht hlapsed
  rcases hc.result ht hlapsed with hfailed | ⟨src, n, htried⟩ | ⟨record, hgoes, hmove⟩
  · exact absurd hfailed h.answered
  · exact h.tried hlapsed htried
  · rcases h.goesBy (Config.reqOf_of_thread ht) hgoes with heq | hexpired
    · rcases h.can hlapsed with hexpired | hcan
      · exact hexpired
      · rw [← heq, hmove] at hcan
        cases hcan
    · exact hexpired

/-- In an orderly run a call leaves the intent expired. -/
theorem leavesExpired_exec {s : IntentStore} {as : List (Action QueryEnv Request)}
    (has : Config.Along (watched sha256) Orderly (Config.init s) as) :
    LeavesExpired ((Config.init s).exec (watched sha256) as) := by
  have hrun := Config.run_invariant (I := Expiring) prog_settled (fun _ _ _ _ => trivial)
    (fun hc h _ => h.spawn hc _) (fun _ h hstep ht hguard => h.answer ht hguard hstep)
    (fun _ h _ ht => h.kill ht) as
    (Config.conforms_init (S := watched sha256) (R := fun _ => True) (s := s) trivial)
    (expiring_init s) has
  exact leavesExpired_of hrun.1 hrun.2

end Runs

/-- No call that found the window closed moves the intent elsewhere, in any run. In an orderly
run it leaves the intent expired. -/
theorem expired_intents (sha256 : String → String) (s : IntentStore) :
    (∀ as, NeverElsewhere ((Config.init s).exec (watched sha256) as)) ∧
      ∀ as, Config.Along (watched sha256) Orderly (Config.init s) as →
        LeavesExpired ((Config.init s).exec (watched sha256) as) :=
  ⟨neverElsewhere_exec s, fun _ => leavesExpired_exec⟩

/-- An intent that is still discovered when its window closes at the time 10. -/
def coordinatedIntent : IntentStore := ⟨⟨"buyer", .COORDINATED, some 10⟩, []⟩

/-- A request for the next status at the time 20. -/
def lateDiscovering : List (Action QueryEnv Request) :=
  .start (.transition .DISCOVERING "buyer") :: List.replicate 8 (.run 0 ⟨.answered, 20, 0⟩)

/-- The call finds the window closed and leaves the intent expired. -/
theorem expired_intents_discovering :
    ((Config.init coordinatedIntent).exec (watched id) lateDiscovering).store.record.status =
      .EXPIRED := by
  have hcan : CanExpire .COORDINATED := Or.inr rfl
  have hexpired : CanExpire .EXPIRED := Or.inl rfl
  have horderly : Config.Along (watched id) Orderly (Config.init coordinatedIntent)
      lateDiscovering := by
    refine ⟨trivial, ?_, ?_, ?_, ?_, ?_, ?_, ?_, ?_, trivial⟩
    all_goals
      refine ⟨rfl, fun _ _ _ _ _ => ⟨?_, fun req hreq hexp => ?_⟩, fun src dst hnext hne _ => ?_⟩
      · first | exact hcan | exact hexpired
      · cases hreq
        cases hexp
      · -- the only claim of the run is the one of `EXPIRED`
        cases hnext <;> exact absurd rfl hne
  have hclosed : isExpired coordinatedIntent.record.status coordinatedIntent.record.expiresAt 20 =
    true := by decide
  have hlapsed : Lapsed (((Config.init coordinatedIntent).exec (watched id) lateDiscovering).own
      0) := .older (.older (.older (.closed hclosed)))
  exact (expired_intents id coordinatedIntent).2 lateDiscovering horderly 0
    (.transition .DISCOVERING "buyer") (.error .expired) true rfl hlapsed

/-- A committed intent whose window closed at the time 10. -/
def committedIntent : IntentStore := ⟨⟨"buyer", .COMMITTED, some 10⟩, []⟩

/-- A request for the next status at the time 20. -/
def lateSettling : List (Action QueryEnv Request) :=
  let env : QueryEnv := ⟨.answered, 20, 0⟩
  [.start (.transition .SETTLING "seller"), .run 0 env, .run 0 env, .run 0 env]

/-- The only call on a committed intent finds its window closed and leaves it committed. -/
theorem committed_never_expires : ¬ ∀ as,
    NeverElsewhere ((Config.init committedIntent).exec (watched id) as) ∧
      LeavesExpired ((Config.init committedIntent).exec (watched id) as) := by
  intro h
  have hclosed : isExpired committedIntent.record.status committedIntent.record.expiresAt 20 =
    true := by decide
  have hlapsed : Lapsed (((Config.init committedIntent).exec (watched id) lateSettling).own 0) :=
    .older (.closed hclosed)
  have hexpired := (h lateSettling).2 0 (.transition .SETTLING "seller")
    (.error (.invalidTransition .COMMITTED .EXPIRED)) true rfl hlapsed
  cases hexpired

end Sails.Intent
