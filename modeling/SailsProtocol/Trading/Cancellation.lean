import SailsProtocol.Async.Steps
import SailsProtocol.Escrow.Movement
import SailsProtocol.Escrow.Publication
import SailsProtocol.Trading.Trade

/-!
# Cancelled trades and their escrows

A trade and its escrow side by side. The escrow is the settlement module with all its
operations, the trade a row that `updateStatus` and the handlers of the escrow's events
write. `updateStatus` reads the row, checks it and writes it later, and a handler writes
whenever it runs. Nothing on either side looks at the status of the other.

`NothingStranded` says that a cancelled trade has no escrow that is locked, paid, disputed
or completed, and `StaysSettled` that the status written for a settled escrow stays.
`cancelled_trade_strands_nothing` proves both for the runs in which a trade is cancelled
only while its escrow is `CREATED`, a cancelled trade is not locked, and no status is
written after the one for the settlement.
-/

namespace Sails.Trading

open Async Async.Prog Async.Config

/-! ## The row of a trade -/

/-- The row of a trade. -/
structure TradeRecord where
  status : TradeStatus
  parties : Trade
  deriving DecidableEq, Repr

/-- The calls of the trade service. -/
inductive TradeCall where
  | findById
  /-- `tradeRepository.updateStatus`. -/
  | updateStatus (status : TradeStatus)
  /-- The `trade.update` of the handler of an event. -/
  | handlerUpdate (event : EscrowStatus) (status : TradeStatus)
  /-- Events, reputation and the intent, after the write. -/
  | effects
  deriving DecidableEq, Repr

/-- What a call returns. -/
abbrev TradeCall.Ans : TradeCall → Type
  | .findById => TradeRecord
  | _ => Unit

/-- What a call throws. -/
inductive TradeError where
  | fault | forbidden | validation
  deriving DecidableEq, Repr

/-- A call that is carried out. -/
def TradeCall.run : (q : TradeCall) → TradeRecord → Except TradeError q.Ans × TradeRecord
  | .findById, s => (.ok s, s)
  | .updateStatus status, s => (.ok (), { s with status := status })
  | .handlerUpdate _ status, s => (.ok (), { s with status := status })
  | .effects, s => (.ok (), s)

/-- A call under its fate. -/
def TradeCall.exec (q : TradeCall) (fate : Fate) (s : TradeRecord) :
    Except TradeError q.Ans × TradeRecord :=
  fate.settle .fault (q.run s) s

/-- A handler has written the status that goes with its event. -/
inductive TradeObs where
  | handled (event : EscrowStatus)
  deriving DecidableEq, Repr

/-- What is seen of a call. -/
def TradeCall.observe (q : TradeCall) (_ : TradeRecord) (r : Except TradeError q.Ans) :
    List TradeObs :=
  match q, r with
  | .handlerUpdate event _, .ok _ => [.handled event]
  | _, _ => []

/-- Await a call on the row. -/
def ask (q : TradeCall) : Prog TradeCall.Ans TradeError q.Ans :=
  perform q

/-- `updateStatus`. -/
def updateStatus (status : TradeStatus) (triggeredBy : ℕ) : Prog TradeCall.Ans TradeError Unit := do
  let trade ← ask .findById
  require (triggeredBy == trade.parties.buyerId || triggeredBy == trade.parties.sellerId)
    TradeError.forbidden
  require (decide (status ∈ manualTransitions trade.status)) TradeError.validation
  ask (.updateStatus status)
  ask .effects

/-- The handler of an event of the escrow. -/
def handle (event : EscrowStatus) : Prog TradeCall.Ans TradeError Unit :=
  match handlerStatus event with
  | some status => do
    ask (.handlerUpdate event status)
    ask .effects
  | none => pure ()

/-- What the trade service is asked to do. -/
inductive TradeRequest where
  | updateStatus (status : TradeStatus) (triggeredBy : ℕ)
  | handle (event : EscrowStatus)
  deriving DecidableEq, Repr

/-- The program of a request. -/
def TradeRequest.prog : TradeRequest → Prog TradeCall.Ans TradeError Unit
  | .updateStatus status triggeredBy => Trading.updateStatus status triggeredBy
  | .handle event => Trading.handle event

/-- The trade service. -/
def tradeSystem : System TradeCall.Ans TradeError Unit TradeRecord Fate TradeRequest TradeObs where
  exec := TradeCall.exec
  observe := TradeCall.observe
  prog := TradeRequest.prog

/-! ## Both sides -/

/-- An escrow and its trade. -/
structure Desk where
  escrow : EscrowConfig
  trade : Config TradeCall.Ans TradeError Unit TradeRecord TradeRequest TradeObs

/-- A step of the escrow's side or the trade's. -/
inductive DeskStep where
  | escrow (a : Step)
  | trade (a : Action Fate TradeRequest)

/-- Both sides before any request. -/
def Desk.init (w : World) (t : TradeRecord) : Desk := ⟨Config.init w, Config.init t⟩

/-- A step of one side. A handler starts for an event that was published, any number of
times. -/
def Desk.step (cfg : Settings) (d : Desk) : DeskStep → Desk
  | .escrow a => { d with escrow := d.escrow.step (escrowSystem cfg) a }
  | .trade (.start (.handle event)) =>
    if event ∈ d.escrow.store.published then
      { d with trade := d.trade.spawn tradeSystem (.handle event) }
    else d
  | .trade a => { d with trade := d.trade.step tradeSystem a }

/-! ## The properties -/

/-- A cancelled trade has no escrow with funds in it or paid out. -/
def Desk.NothingStranded (d : Desk) : Prop :=
  d.trade.store.status = .CANCELLED → d.escrow.store.escrow.status ∉
    [EscrowStatus.fundsLocked, .paymentPending, .disputed, .completed]

/-- Once the handler of a settlement has written its status, the escrow is settled so and
the trade has that status. -/
def Desk.StaysSettled (d : Desk) : Prop :=
  ∀ i event, (i, .handled event) ∈ d.trade.trace → event.terminal = true →
    d.escrow.store.escrow.status = event ∧ handlerStatus event = some d.trade.store.status

/-- The handler of a settlement has written its status. -/
def Desk.settled (d : Desk) : Bool :=
  d.trade.trace.any fun
    | (_, .handled event) => event.terminal

/-- The condition on a step : a trade is cancelled only while its escrow is `CREATED`, a
cancelled trade is not locked, and no other status is written after the one for the
settlement. The recovery passes are left out. -/
def Desk.inOrder (d : Desk) : DeskStep → Bool
  | .escrow (.start req) => !req.reconciles
  | .escrow (.run i _) =>
    match d.escrow.next i with
    | some (.claimTransition .created .fundsLocked) =>
      d.trade.store.status != .CANCELLED || d.escrow.store.escrow.status != .created
    | _ => true
  | .escrow (.crash _) => true
  | .trade (.run i _) =>
    match d.trade.next i with
    | some (.updateStatus .CANCELLED) => d.escrow.store.escrow.status == .created
    | some (.updateStatus _) => !d.settled
    | some (.handlerUpdate event _) => event.terminal || !d.settled
    | _ => true
  | .trade _ => true

/-! ## The calls of the trade side -/

/-- A party writes `ACTIVE` or `CANCELLED`, and a handler the status of its event. -/
def TradeGuard (req : TradeRequest) (_ : List TradeObs) : TradeCall → Prop
  | .updateStatus status => status = .ACTIVE ∨ status = .CANCELLED
  | .handlerUpdate event status => req = .handle event ∧ handlerStatus event = some status
  | _ => True

theorem manual_of_mem {src dst : TradeStatus} (h : dst ∈ manualTransitions src) :
    dst = .ACTIVE ∨ dst = .CANCELLED := by
  revert h
  cases src <;> cases dst <;> decide

/-- Every call of a request is one the guard allows. -/
theorem tradeGuard_prog (req : TradeRequest) :
    (req.prog).Guarded (Answerable tradeSystem fun _ => True) tradeSystem.observe
      (TradeGuard req) (fun _ _ => True) [] := by
  cases req with
  | updateStatus status triggeredBy =>
    refine Calls.perform_bind trivial fun _ trade _ => ?_
    refine Calls.require_bind fun _ => ?_
    refine Calls.require_bind fun hmanual => ?_
    refine Calls.then (calls_perform (manual_of_mem (of_decide_eq_true hmanual))) fun _ _ => ?_
    exact calls_perform trivial
  | handle event =>
    simp only [TradeRequest.prog, Trading.handle]
    split
    · next status hstatus =>
      exact Calls.then (calls_perform ⟨rfl, hstatus⟩) fun _ _ => calls_perform trivial
    · trivial

/-- A call leaves the row or writes its status, and only a handler is observed. -/
theorem tradeCall_cases (q : TradeCall) (fate : Fate) (s : TradeRecord) :
    ((q.exec fate s).2 = s ∧ q.observe s (q.exec fate s).1 = []) ∨
    (∃ status, q = .updateStatus status ∧ (q.exec fate s).2 = { s with status := status } ∧
      q.observe s (q.exec fate s).1 = []) ∨
    ∃ event status, q = .handlerUpdate event status ∧
      (q.exec fate s).2 = { s with status := status } ∧
      ∀ o ∈ q.observe s (q.exec fate s).1, o = .handled event := by
  cases q with
  | findById => exact Or.inl (by cases fate <;> exact ⟨rfl, rfl⟩)
  | effects => exact Or.inl (by cases fate <;> exact ⟨rfl, rfl⟩)
  | updateStatus status =>
    cases fate with
    | failed => exact Or.inl ⟨rfl, rfl⟩
    | answered => exact Or.inr (Or.inl ⟨status, rfl, rfl, rfl⟩)
    | lost => exact Or.inr (Or.inl ⟨status, rfl, rfl, rfl⟩)
  | handlerUpdate event status =>
    cases fate with
    | failed => exact Or.inl ⟨rfl, rfl⟩
    | answered =>
      exact Or.inr (Or.inr ⟨event, status, rfl, rfl, fun o ho => List.mem_singleton.mp ho⟩)
    | lost => exact Or.inr (Or.inr ⟨event, status, rfl, rfl, fun o ho => absurd ho List.not_mem_nil⟩)

/-! ## The claims of an escrow whose trade is cancelled -/

/-- Every claim in force refunds an escrow that was never locked. -/
def Unlocked (c : EscrowConfig) : Prop :=
  ∀ h ∈ ClaimStack.inForce (changes c.trace), h.src = .created ∧ h.dst = .refunded

variable {cfg : Settings} {w : World}

/-- An escrow that was not locked is created or refunded. -/
theorem Unlocked.status {c : EscrowConfig} (hu : Unlocked c) (hs : Sound cfg w c)
    (hw : w.escrow.status = .created) :
    c.store.escrow.status = .created ∨ c.store.escrow.status = .refunded := by
  by_cases hne : c.store.escrow.status = w.escrow.status
  · exact Or.inl (hne.trans hw)
  · obtain ⟨i, src, l, hl, -⟩ := hs.holder_of_ne hne
    have hmem : (⟨i, src, c.store.escrow.status⟩ : ClaimStack.Held EscrowStatus) ∈
        ClaimStack.inForce (changes c.trace) := by
      rw [hl]
      exact List.mem_cons_self
    exact Or.inr (hu _ hmem).2

/-- Nothing is claimed of an escrow that is `CREATED`. -/
theorem unlocked_of_created {c : EscrowConfig} (hs : Sound cfg w c)
    (hst : c.store.escrow.status = .created) : Unlocked c := by
  intro h hmem
  have hp := ClaimStack.path_inForce EscrowStatus.rank_lt_of_valid hs.ledger.lawful
  obtain ⟨hlt, hle⟩ := hp.rank_le EscrowStatus.rank_lt_of_valid hmem
  rw [← hs.ledger.status, hst] at hle
  exact absurd (Nat.lt_of_lt_of_le hlt hle) (Nat.not_lt_zero _)

/-- An answer leaves the escrow unlocked unless it locks it. -/
theorem Unlocked.answer {c : EscrowConfig} {i : ℕ} {env : Env} {req : Request} {q : Call}
    {k : Except Err q.Ans → Op Unit} (hu : Unlocked c) (hs : Sound cfg w c)
    (hw : w.escrow.status = .created) (hg : Guard req (c.own i) q)
    (hlock : q = .claimTransition .created .fundsLocked →
      c.store.escrow.status ≠ .created) :
    Unlocked (c.answer (escrowSystem cfg) i env req q k) := by
  rcases exec_status cfg q env c.store with ⟨-, hkeep⟩ | ⟨dst, hq, hos, -⟩ | ⟨src, rfl, hos, -⟩
  · intro h hmem
    have htrace : changes (c.answer (escrowSystem cfg) i env req q k).trace = changes c.trace :=
      changes_append hkeep
    rw [htrace] at hmem
    exact hu h hmem
  · have htrace : changes (c.answer (escrowSystem cfg) i env req q k).trace =
        .claim i c.store.escrow.status dst :: changes c.trace := by
      simp [Config.answer, escrowSystem, hos, changes, Obs.change?]
    have hvalid := (hg.claim hq).2.2
    have hclaim : c.store.escrow.status = .created ∧ dst = .refunded := by
      rcases hu.status hs hw with hst | hst
      · refine ⟨hst, ?_⟩
        rw [hst] at hvalid hq hlock
        have hdst : dst ≠ .fundsLocked := by
          rintro rfl
          refine hlock ?_ rfl
          cases q <;> cases hq
          rfl
        revert hvalid hdst
        cases dst <;> decide
      · rw [hst] at hvalid
        exact absurd hvalid (EscrowStatus.not_valid_of_terminal rfl dst)
    intro h hmem
    rw [htrace, ClaimStack.inForce] at hmem
    rcases List.mem_cons.mp hmem with rfl | hmem
    · exact hclaim
    · exact hu h hmem
  · have htrace : changes (c.answer (escrowSystem cfg) i env req _ k).trace =
        .revert i c.store.escrow.status src :: changes c.trace := by
      simp [Config.answer, escrowSystem, hos, changes, Obs.change?]
    intro h hmem
    rw [htrace, ClaimStack.inForce] at hmem
    exact hu h (List.mem_of_mem_tail hmem)

/-! ## What the runs keep -/

/-- What holds of both sides along a run. -/
structure DeskInv (cfg : Settings) (w : World) (d : Desk) : Prop where
  sound : Sound cfg w d.escrow
  final : FinalInv cfg d.escrow
  conforms : Conforms tradeSystem (fun _ => True) TradeGuard (fun _ _ _ => True) d.trade
  events : ∀ t ∈ d.trade.threads, ∀ event, t.req = .handle event →
    event ∈ d.escrow.store.published
  cancelled : d.trade.store.status = .CANCELLED →
    .refunded ∈ d.escrow.store.published ∨ Unlocked d.escrow
  handled : ∀ i event, (i, .handled event) ∈ d.trade.trace →
    event ∈ d.escrow.store.published ∧
      (event.terminal = true → handlerStatus event = some d.trade.store.status)

/-- It holds before any request. -/
theorem deskInv_init (hpub : w.published = []) (t : TradeRecord) :
    DeskInv cfg w (Desk.init w t) where
  sound := sound_init w
  final := finalInv_init hpub
  conforms := conforms_init trivial
  events := fun _ ht => absurd ht List.not_mem_nil
  cancelled := fun _ => Or.inr fun _ h => absurd h List.not_mem_nil
  handled := fun _ _ h => absurd h List.not_mem_nil

section Steps

variable {d : Desk}

/-- Events stay published. -/
theorem mem_published_exec {q : Call} {env : Env} {s : World} {event : EscrowStatus}
    (h : event ∈ s.published) : event ∈ (q.exec cfg env s).2.published := by
  rcases published_exec cfg q env s with heq | ⟨t, -, heq⟩
  · rwa [heq]
  · rw [heq]
    exact List.mem_cons_of_mem _ h

/-- A step of the escrow. -/
theorem DeskInv.escrow (hd : DeskInv cfg w d) (hw : w.escrow.status = .created) (a : Step)
    (h : d.inOrder (.escrow a) = true) : DeskInv cfg w (d.step cfg (.escrow a)) := by
  have hs := hd.sound
  rcases step_cases (S := escrowSystem cfg) (c := d.escrow) a with hstep | ⟨req, rfl, hstep⟩ |
    ⟨i, env, req, q, k, rfl, ht, hstep⟩ | ⟨i, t, rfl, ht, hstep⟩
  · simpa only [Desk.step, hstep] using hd
  · rw [Desk.step, hstep]
    have hreq : req.reconciles = false := by simpa [Desk.inOrder] using h
    exact ⟨hs.spawn req, hd.final.spawn hreq, hd.conforms, hd.events, hd.cancelled, hd.handled⟩
  · rw [Desk.step, hstep]
    have hg := hs.conforms.guard ht
    refine ⟨hs.answer ht, hd.final.answer hg ht, hd.conforms,
      fun t ht event hreq => mem_published_exec (hd.events t ht event hreq), fun hc => ?_,
      fun j event hmem => ?_⟩
    · rcases hd.cancelled hc with hpub | hu
      · exact Or.inl (mem_published_exec hpub)
      · refine Or.inr (hu.answer hs hw hg ?_)
        rintro rfl hst
        simp [Desk.inOrder, next_of_call ht, hst, show d.trade.store.status = .CANCELLED from hc]
          at h
    · obtain ⟨hpub, hstatus⟩ := hd.handled j event hmem
      exact ⟨mem_published_exec hpub, hstatus⟩
  · rw [Desk.step, hstep]
    exact ⟨⟨hs.conforms.kill ht, hs.ledger.lawful, hs.ledger.status⟩, hd.final.kill ht,
      hd.conforms, hd.events, hd.cancelled, hd.handled⟩

/-- A new request of the trade side. -/
theorem DeskInv.spawn (hd : DeskInv cfg w d) (req : TradeRequest)
    (h : ∀ event, req = .handle event → event ∈ d.escrow.store.published) :
    DeskInv cfg w { d with trade := d.trade.spawn tradeSystem req } := by
  refine ⟨hd.sound, hd.final, hd.conforms.spawn tradeGuard_prog req, fun t ht event hreq => ?_,
    hd.cancelled, hd.handled⟩
  rcases List.mem_append.mp ht with ht | ht
  · exact hd.events t ht event hreq
  · rw [List.mem_singleton.mp ht] at hreq
    exact h event hreq

theorem settled_of_handled {i : ℕ} {event : EscrowStatus}
    (h : (i, .handled event) ∈ d.trade.trace) (hterm : event.terminal = true) :
    d.settled = true :=
  List.any_eq_true.mpr ⟨_, h, hterm⟩

/-- What a write needs so that the row stays in order. -/
theorem DeskInv.write (hd : DeskInv cfg w d) {i : ℕ} {fate : Fate} {req : TradeRequest}
    {q : TradeCall} {k : Except TradeError q.Ans → Prog TradeCall.Ans TradeError Unit}
    (ht : d.trade.threads[i]? = some ⟨req, .call q k, true⟩)
    (hcancelled : (q.exec fate d.trade.store).2.status = .CANCELLED →
      .refunded ∈ d.escrow.store.published ∨ Unlocked d.escrow)
    (hold : ∀ j event, (j, .handled event) ∈ d.trade.trace → event.terminal = true →
      handlerStatus event = some (q.exec fate d.trade.store).2.status)
    (hnew : ∀ event, .handled event ∈ q.observe d.trade.store (q.exec fate d.trade.store).1 →
      event ∈ d.escrow.store.published ∧
        handlerStatus event = some (q.exec fate d.trade.store).2.status) :
    DeskInv cfg w { d with trade := d.trade.answer tradeSystem i fate req q k } where
  sound := hd.sound
  final := hd.final
  conforms := hd.conforms.answer (fun _ _ _ _ => trivial) ht
  events := fun t ht' event hreq => by
    rcases List.mem_or_eq_of_mem_set ht' with h | rfl
    · exact hd.events t h event hreq
    · exact hd.events _ (List.mem_of_getElem? ht) event hreq
  cancelled := hcancelled
  handled := fun j event hmem => by
    rcases mem_trace_answer hmem with ⟨-, ho⟩ | hmem
    · exact ⟨(hnew event ho).1, fun _ => (hnew event ho).2⟩
    · exact ⟨(hd.handled j event hmem).1, hold j event hmem⟩

/-- A call of the trade side. -/
theorem DeskInv.answer (hd : DeskInv cfg w d) {i : ℕ} {fate : Fate} {req : TradeRequest}
    {q : TradeCall} {k : Except TradeError q.Ans → Prog TradeCall.Ans TradeError Unit}
    (ht : d.trade.threads[i]? = some ⟨req, .call q k, true⟩)
    (h : d.inOrder (.trade (.run i fate)) = true) :
    DeskInv cfg w { d with trade := d.trade.answer tradeSystem i fate req q k } := by
  have hg := hd.conforms.guard ht
  have hnext : d.trade.next i = some q := next_of_call ht
  rcases tradeCall_cases q fate d.trade.store with ⟨heq, hos⟩ | ⟨status, rfl, heq, hos⟩ |
    ⟨event, status, rfl, heq, hos⟩
  · -- the row is left as it is
    refine hd.write ht (fun hc => hd.cancelled (heq ▸ hc)) (fun j event hmem hterm => ?_)
      fun event ho => ?_
    · rw [heq]
      exact (hd.handled j event hmem).2 hterm
    · rw [hos] at ho
      cases ho
  · have hnone : ∀ event, .handled event ∉ TradeCall.observe (.updateStatus status)
        d.trade.store (TradeCall.exec (.updateStatus status) fate d.trade.store).1 := by
      intro event ho
      rw [hos] at ho
      cases ho
    rcases hg with rfl | rfl
    · -- `ACTIVE` is written before any settlement
      have hset : d.settled = false := by simpa [Desk.inOrder, hnext] using h
      refine hd.write ht (fun hc => ?_) (fun j event hmem hterm => ?_)
        fun event ho => absurd ho (hnone event)
      · rw [heq] at hc
        cases hc
      · rw [settled_of_handled hmem hterm] at hset
        cases hset
    · -- and `CANCELLED` before the escrow is locked
      have hst : d.escrow.store.escrow.status = .created := by
        simpa [Desk.inOrder, hnext] using h
      refine hd.write ht (fun _ => Or.inr (unlocked_of_created hd.sound hst))
        (fun j event hmem hterm => ?_) fun event ho => absurd ho (hnone event)
      have hevent := hd.final.status hd.sound (hd.handled j event hmem).1 hterm
      rw [hst] at hevent
      rw [← hevent] at hterm
      cases hterm
  · obtain ⟨rfl, hstatus⟩ := hg
    have hpub := hd.events _ (List.mem_of_getElem? ht) event rfl
    refine hd.write ht (fun hc => Or.inl ?_) (fun j event' hmem hterm => ?_) fun event' ho => ?_
    · rw [heq] at hc
      obtain rfl : status = .CANCELLED := hc
      revert hstatus hpub
      cases event <;> simp [handlerStatus]
    · have horder : event.terminal = true := by
        simpa [Desk.inOrder, hnext, settled_of_handled hmem hterm] using h
      have hpub' := (hd.handled j event' hmem).1
      have : event' = event := (hd.final.status hd.sound hpub' hterm).symm.trans
        (hd.final.status hd.sound hpub horder)
      rw [this, hstatus, heq]
    · obtain rfl := TradeObs.handled.inj (hos _ ho)
      exact ⟨hpub, by rw [hstatus, heq]⟩

/-- A step in order keeps it. -/
theorem DeskInv.step (hd : DeskInv cfg w d) (hw : w.escrow.status = .created) (a : DeskStep)
    (h : d.inOrder a = true) : DeskInv cfg w (d.step cfg a) := by
  cases a with
  | escrow a => exact hd.escrow hw a h
  | trade a =>
    cases a with
    | start req =>
      cases req with
      | updateStatus status triggeredBy => exact hd.spawn _ nofun
      | handle event =>
        rw [Desk.step]
        split
        · next hpub => exact hd.spawn _ fun event' heq => by cases heq; exact hpub
        · exact hd
    | run i fate =>
      rcases step_cases (S := tradeSystem) (c := d.trade) (.run i fate) with hstep |
        ⟨req, hreq, -⟩ | ⟨j, fate', req, q, k, hrun, ht, hstep⟩ | ⟨j, t, hcrash, -⟩
      · simpa only [Desk.step, hstep] using hd
      · cases hreq
      · cases hrun
        simp only [Desk.step, hstep]
        exact hd.answer ht h
      · cases hcrash
    | crash i =>
      rcases step_cases (S := tradeSystem) (c := d.trade) (.crash i) with hstep |
        ⟨req, hreq, -⟩ | ⟨j, fate', req, q, k, hrun, -⟩ | ⟨j, t, hcrash, ht, hstep⟩
      · simpa only [Desk.step, hstep] using hd
      · cases hreq
      · cases hrun
      · cases hcrash
        simp only [Desk.step, hstep]
        refine ⟨hd.sound, hd.final, hd.conforms.kill ht, fun t' ht' event hreq => ?_,
          hd.cancelled, hd.handled⟩
        rcases List.mem_or_eq_of_mem_set ht' with h | rfl
        · exact hd.events t' h event hreq
        · exact hd.events t (List.mem_of_getElem? ht) event hreq

end Steps

/-- In every run whose steps are in order, a cancelled trade has no escrow that is locked,
paid, disputed or completed, and the status written for a settled escrow stays. -/
theorem cancelled_trade_strands_nothing (cfg : Settings) (w : World) (t : TradeRecord)
    (steps : List DeskStep) (hw : w.escrow.status = .created) (hpub : w.published = [])
    (h : Steps.Along (Desk.step cfg) (fun d a => d.inOrder a = true) (Desk.init w t) steps) :
    (Steps.run (Desk.step cfg) (Desk.init w t) steps).NothingStranded ∧
      (Steps.run (Desk.step cfg) (Desk.init w t) steps).StaysSettled := by
  have hd : DeskInv cfg w (Steps.run (Desk.step cfg) (Desk.init w t) steps) :=
    h.invariant (deskInv_init hpub t) fun d a hd ha => hd.step hw a ha
  refine ⟨fun hc => ?_, fun i event hmem hterm => ?_⟩
  · rcases hd.cancelled hc with hrefunded | hu
    · rw [hd.final.status hd.sound hrefunded rfl]
      decide
    · rcases hu.status hd.sound hw with hst | hst <;> rw [hst] <;> decide
  · obtain ⟨hevent, hstatus⟩ := hd.handled i event hmem
    exact ⟨hd.final.status hd.sound hevent hterm, hstatus hterm⟩

/-- The handler of an event, run to its end as operation `i` of the trade side. -/
def handling (i : ℕ) (event : EscrowStatus) : List DeskStep :=
  [.trade (.start (.handle event)), .trade (.run i .answered), .trade (.run i .answered)]

/-- A trade between participants 1 and 2 that has just been made. -/
def newTrade : TradeRecord := ⟨.PENDING, ⟨1, 2⟩⟩

/-- A trade that is paid and released, with the handlers of the lock and of the release. -/
def releasedDesk : List DeskStep :=
  paidTrade.map .escrow ++ handling 0 .fundsLocked ++
    (.start (.releaseFunds (.user 2)) :: calls 2 10).map .escrow ++ handling 1 .completed

theorem cancelled_trade_strands_nothing_released :
    (Steps.Along (Desk.step .plain) (fun d a => d.inOrder a = true)
      (Desk.init (.plain .mock .created) newTrade) releasedDesk ∧
    (Steps.run (Desk.step .plain) (Desk.init (.plain .mock .created) newTrade)
      releasedDesk).settled = true) ∧
    (Steps.run (Desk.step .plain) (Desk.init (.plain .mock .created) newTrade)
      releasedDesk).NothingStranded ∧
    (Steps.run (Desk.step .plain) (Desk.init (.plain .mock .created) newTrade)
      releasedDesk).StaysSettled :=
  ⟨by decide, cancelled_trade_strands_nothing .plain (.plain .mock .created) newTrade
    releasedDesk rfl rfl (by decide)⟩

/-- The buyer cancels a trade whose escrow is locked and paid. -/
def cancelledDesk : List DeskStep :=
  paidTrade.map .escrow ++ handling 0 .fundsLocked ++
    .trade (.start (.updateStatus .CANCELLED 1)) :: List.replicate 4 (.trade (.run 1 .answered))

/-- The handler of the lock runs after the one of the release. -/
def lateHandler : List DeskStep :=
  (plainRelease.map .escrow) ++ handling 0 .completed ++ handling 1 .fundsLocked

/-- A cancelled trade strands a paid escrow, and a late handler overwrites the status of a
settled trade. -/
theorem cancelled_trade_strands_escrow :
    ¬ (Steps.run (Desk.step .plain) (Desk.init (.plain .mock .created) newTrade)
      cancelledDesk).NothingStranded ∧
    ¬ (Steps.run (Desk.step .plain) (Desk.init (.plain .mock .created) newTrade)
      lateHandler).StaysSettled := by
  constructor
  · intro h
    exact absurd (h (by decide)) (by decide)
  · intro h
    exact absurd (h 0 .completed (by decide) rfl).2 (by decide)

end Sails.Trading
