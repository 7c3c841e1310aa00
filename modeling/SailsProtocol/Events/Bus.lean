import Mathlib.Data.Int.Notation
import Mathlib.Data.List.FinRange
import Mathlib.Logic.Function.Basic
import SailsProtocol.Async.Pool

/-!
# The event bus and its handlers

`n` server instances share one database and one Redis channel. `publish` of
`PostgresEventStore` stores the event, dispatches it to the handlers of its own instance,
and sends it over the channel. Every subscriber drops the messages of its own instance and
dispatches the others to its own handlers.

`handle` is the reaction `registerEventHandlers` registers for each event, with the helpers
of `handlers.ts`, `reputation.service.ts` and `vouch.service.ts` it calls. A handler run is
one thread of `eventSystem`, and `Run` names it : the instance and the event handled.
-/

namespace Sails.Events

open Async Async.Prog

/-! ## Rows -/

/-- `Trade`. A participant cannot trade against the own offer. -/
structure Trade where
  buyerId : ℕ
  sellerId : ℕ
  /-- In units of the last decimal of the column. -/
  amount : ℕ
  distinct : buyerId ≠ sellerId

/-- `TradeStatus`, as far as the handlers write it. -/
inductive TradeStatus
  | active
  | completed
  | disputed
  | cancelled
  deriving DecidableEq, Repr

/-- The counters of `User`. -/
structure User where
  totalTrades : ℕ
  totalVolumeBtc : ℕ
  cumulativeFeesObserved : ℕ
  disputeCount : ℕ
  reputationScore : ℤ
  deriving DecidableEq, Repr

/-- `Vouch`. -/
structure Vouch where
  id : ℕ
  voucherId : ℕ
  voucheeId : ℕ
  /-- `burnedAt` is set. -/
  burned : Bool
  deriving DecidableEq, Repr

/-- `ReputationOutcome`. -/
inductive Outcome
  | positive
  | negative
  | neutral
  deriving DecidableEq, Repr

/-- `POSITIVE_DELTA`, `NEGATIVE_DELTA` and 0. -/
def Outcome.delta : Outcome → ℤ
  | positive => 2
  | negative => -5
  | neutral => 0

/-- `VOUCH_BURN_PENALTY`. -/
def vouchBurnPenalty : ℤ := -5

/-- The ruling of a dispute the handlers ask for. -/
inductive Ruling
  | release
  | refund
  deriving DecidableEq, Repr

/-- The events the handlers react to or emit. -/
inductive Event
  | escrowLocked (tradeId : ℕ)
  | escrowReleased (tradeId escrowId : ℕ)
  | escrowDisputed (tradeId : ℕ)
  | escrowRefunded (tradeId : ℕ)
  | escrowSplit (tradeId : ℕ)
  | tradeCompleted (tradeId : ℕ)
  | tradeDisputed (tradeId : ℕ)
  | scoreUpdated (userId : ℕ)
  | vouchBurned (vouchId : ℕ)
  deriving DecidableEq, Repr

/-- A handler run : the instance, and the event by its position among the stored events. -/
structure Run (n : ℕ) where
  instanceId : Fin n
  record : ℕ
  deriving DecidableEq, Repr

/-- A Redis message on its way to one subscriber. -/
structure Message (n : ℕ) where
  subscriber : Fin n
  originInstanceId : Fin n
  record : ℕ
  deriving DecidableEq, Repr

/-- The database, the local dispatches due, and the messages on their way. -/
structure World (n : ℕ) where
  users : ℕ → User
  trades : ℕ → Option Trade
  tradeStatus : ℕ → TradeStatus
  vouches : List Vouch
  /-- `DurableEventRecord`, oldest first. -/
  log : List Event
  dispatches : List (Run n)
  messages : List (Message n)

/-- Change the row of one user. -/
def World.updateUser {n : ℕ} (s : World n) (id : ℕ) (f : User → User) : World n :=
  { s with users := Function.update s.users id (f (s.users id)) }

/-! ## Calls -/

/-- The errors a handler run ends with. -/
inductive Err
  | failed
  | notFound
  deriving DecidableEq, Repr

/-- What the handlers await. The calls that change a user carry the handler run they are
made in. -/
inductive Call (n : ℕ)
  -- the bus
  | emit (instanceId : Fin n) (event : Event)
  | takeDispatch (run : Run n)
  | takeMessage (run : Run n)
  -- trades, escrows and intents
  | updateTrade (tradeId : ℕ) (status : TradeStatus)
  | findTrade (tradeId : ℕ)
  | findFeeCharged (escrowId : ℕ)
  | transitionIntent (tradeId : ℕ)
  -- users
  | incrementTrades (run : Run n) (userId amount : ℕ)
  | incrementFees (run : Run n) (userId fee : ℕ)
  | incrementDisputes (run : Run n) (userId : ℕ)
  | incrementScore (run : Run n) (userId : ℕ) (outcome : Outcome)
  -- disputes and vouches
  | findResolved (tradeId : ℕ) (ruling : Ruling)
  | findActiveVouches (voucheeId : ℕ)
  | burnVouch (id : ℕ)
  | penalizeVoucher (vouch : Vouch)

/-- The type of the answer to a call. -/
@[reducible] def Call.Ans {n : ℕ} : Call n → Type
  | .takeDispatch _ => Option Event
  | .takeMessage _ => Option (Fin n × Event)
  | .updateTrade _ _ => Trade
  | .findTrade _ => Option Trade
  | .findFeeCharged _ => Option ℕ
  | .findResolved _ _ => Bool
  | .findActiveVouches _ => List Vouch
  | _ => Unit

/-- The answer of the environment to one call. -/
structure Env where
  fault : Bool := false
  /-- Whether a resolved dispute with the ruling asked for exists. -/
  resolved : Bool := false
  feeCharged : Option ℕ := none
  /-- Whether the Intent accepts the transition. -/
  transition : Bool := true

/-- The calls that can fail. A dispatch is no request. -/
def Call.fallible {n : ℕ} : Call n → Bool
  | .takeDispatch _ | .takeMessage _ => false
  | _ => true

variable {n : ℕ}

/-- The answer to a call without a fault, and the store after it. -/
def Call.run : (q : Call n) → Env → World n → Except Err q.Ans × World n
  | .emit m ev, _, s =>
    (.ok (), { s with
      log := s.log ++ [ev]
      dispatches := ⟨m, s.log.length⟩ :: s.dispatches
      messages := (List.finRange n).map (fun k => ⟨k, m, s.log.length⟩) ++ s.messages })
  | .takeDispatch r, _, s =>
    if r ∈ s.dispatches then
      (.ok s.log[r.record]?, { s with dispatches := s.dispatches.erase r })
    else (.ok none, s)
  | .takeMessage r, _, s =>
    match s.messages.find? fun m => m.subscriber = r.instanceId ∧ m.record = r.record with
    | some m => (.ok (s.log[r.record]?.map fun ev => (m.originInstanceId, ev)),
        { s with messages := s.messages.erase m })
    | none => (.ok none, s)
  | .updateTrade id status, _, s =>
    match s.trades id with
    | some t => (.ok t, { s with tradeStatus := Function.update s.tradeStatus id status })
    | none => (.error .notFound, s)
  | .findTrade id, _, s => (.ok (s.trades id), s)
  | .findFeeCharged _, env, s => (.ok env.feeCharged, s)
  | .transitionIntent _, env, s => if env.transition then (.ok (), s) else (.error .notFound, s)
  | .incrementTrades _ user amount, _, s => (.ok (), s.updateUser user fun u => { u with
      totalTrades := u.totalTrades + 1, totalVolumeBtc := u.totalVolumeBtc + amount })
  | .incrementFees _ user fee, _, s => (.ok (), s.updateUser user fun u => { u with
      cumulativeFeesObserved := u.cumulativeFeesObserved + fee })
  | .incrementDisputes _ user, _, s => (.ok (), s.updateUser user fun u => { u with
      disputeCount := u.disputeCount + 1 })
  | .incrementScore _ user outcome, _, s => (.ok (), s.updateUser user fun u => { u with
      reputationScore := u.reputationScore + outcome.delta })
  | .findResolved _ _, env, s => (.ok env.resolved, s)
  | .findActiveVouches vouchee, _, s =>
    (.ok (s.vouches.filter fun v => v.voucheeId = vouchee ∧ v.burned = false), s)
  | .burnVouch id, _, s => (.ok (), { s with
      vouches := s.vouches.map fun v => if v.id = id then { v with burned := true } else v })
  | .penalizeVoucher v, _, s => (.ok (), s.updateUser v.voucherId fun u => { u with
      reputationScore := u.reputationScore + vouchBurnPenalty })

/-- The answer to a call, and the store after it. -/
def Call.exec (q : Call n) (env : Env) (s : World n) : Except Err q.Ans × World n :=
  if env.fault && q.fallible then (.error .failed, s) else q.run env s

/-! ## Handlers -/

/-- A handler run. -/
abbrev Op (n : ℕ) := Prog (Call.Ans (n := n)) Err

/-- Await a call. -/
def await (q : Call n) : Op n q.Ans :=
  perform q

/-- `recordTradeCompletion`. -/
def recordTradeCompletion (run : Run n) (t : Trade) : Op n Unit := do
  await (.incrementTrades run t.buyerId t.amount)
  await (.incrementTrades run t.sellerId t.amount)

/-- `accrueFeeFloor`. -/
def accrueFeeFloor (run : Run n) (t : Trade) (feeCharged : Option ℕ) : Op n Unit :=
  forSome feeCharged fun fee => do
    await (.incrementFees run t.buyerId fee)
    await (.incrementFees run t.sellerId fee)

/-- `recordOutcome`. -/
def recordOutcome (run : Run n) (participantId : ℕ) (outcome : Outcome) : Op n Unit := do
  await (.incrementScore run participantId outcome)
  await (.emit run.instanceId (.scoreUpdated participantId))

/-- `penalizeForBurnedVouch`. -/
def penalizeForBurnedVouch (run : Run n) (v : Vouch) : Op n Unit := do
  await (.penalizeVoucher v)
  await (.emit run.instanceId (.scoreUpdated v.voucherId))

/-- `burnVouchesFor`. -/
def burnVouchesFor (run : Run n) (voucheeId : ℕ) : Op n Unit := do
  let vouches ← await (.findActiveVouches voucheeId)
  forEach vouches fun v => do
    await (.burnVouch v.id)
    penalizeForBurnedVouch run v
    await (.emit run.instanceId (.vouchBurned v.id))

/-- `applyReleaseOutcomes`. -/
def applyReleaseOutcomes (run : Run n) (tradeId : ℕ) (t : Trade) : Op n Unit := do
  let resolvedRelease ← await (.findResolved tradeId .release)
  if resolvedRelease = true then do
    recordOutcome run t.buyerId .positive
    recordOutcome run t.sellerId .negative
    burnVouchesFor run t.sellerId
  else do
    recordOutcome run t.buyerId .positive
    recordOutcome run t.sellerId .positive

/-- `applyRefundOutcomes`. -/
def applyRefundOutcomes (run : Run n) (tradeId : ℕ) (t : Trade) : Op n Unit := do
  let resolvedRefund ← await (.findResolved tradeId .refund)
  if resolvedRefund = true then do
    recordOutcome run t.sellerId .positive
    recordOutcome run t.buyerId .negative
    burnVouchesFor run t.buyerId
  else do
    recordOutcome run t.buyerId .neutral
    recordOutcome run t.sellerId .neutral

/-- The handlers of `registerEventHandlers`. -/
def handle (run : Run n) : Event → Op n Unit
  | .escrowLocked tradeId => do
    let _ ← await (.updateTrade tradeId .active)
    await (.transitionIntent tradeId)
  | .escrowReleased tradeId escrowId => do
    let trade ← await (.updateTrade tradeId .completed)
    recordTradeCompletion run trade
    let feeCharged ← await (.findFeeCharged escrowId)
    accrueFeeFloor run trade feeCharged
    await (.emit run.instanceId (.tradeCompleted tradeId))
    applyReleaseOutcomes run tradeId trade
    await (.transitionIntent tradeId)
  | .escrowDisputed tradeId => do
    let _ ← await (.updateTrade tradeId .disputed)
    await (.emit run.instanceId (.tradeDisputed tradeId))
  | .escrowRefunded tradeId => do
    let trade ← await (.updateTrade tradeId .cancelled)
    applyRefundOutcomes run tradeId trade
    await (.transitionIntent tradeId)
  | .escrowSplit tradeId => do
    let trade ← await (.updateTrade tradeId .completed)
    recordTradeCompletion run trade
    recordOutcome run trade.buyerId .neutral
    recordOutcome run trade.sellerId .neutral
    await (.emit run.instanceId (.tradeCompleted tradeId))
    await (.transitionIntent tradeId)
  | .tradeDisputed tradeId => do
    let found ← await (.findTrade tradeId)
    forSome found fun trade => do
      await (.incrementDisputes run trade.buyerId)
      await (.incrementDisputes run trade.sellerId)
  | .tradeCompleted _ | .scoreUpdated _ | .vouchBurned _ => pure ()

/-! ## The system -/

/-- What starts a thread : a module publishes an event, `publish` dispatches one on its own
instance, or a message of the channel arrives. -/
inductive Request (n : ℕ)
  | publish (instanceId : Fin n) (event : Event)
  | dispatch (run : Run n)
  | message (run : Run n)

/-- The program of a request. The last one is the `message` callback of
`enableCrossInstanceFanout`. -/
def Request.prog : Request n → Op n Unit
  | publish m ev => await (.emit m ev)
  | dispatch run => do
    let event ← await (.takeDispatch run)
    forSome event (handle run)
  | message run => do
    let message ← await (.takeMessage run)
    forSome message fun m => when (decide (m.1 ≠ run.instanceId)) (handle run m.2)

/-- A change of a user's counters. -/
inductive Effect
  | completion (amount : ℕ)
  | fee (amount : ℕ)
  | dispute
  | outcome (o : Outcome)
  deriving DecidableEq, Repr

/-- What is observed of a call. -/
inductive Obs (n : ℕ)
  | failed
  | received (run : Run n) (event : Event)
  | applied (run : Run n) (effect : Effect) (userId : ℕ)
  | burned (vouchId : ℕ)
  | penalised (vouch : Vouch)
  deriving DecidableEq

/-- The observations of an answer. -/
def Call.answered : (q : Call n) → q.Ans → List (Obs n)
  | .takeDispatch r, some ev => [.received r ev]
  | .takeMessage r, some (origin, ev) => if origin = r.instanceId then [] else [.received r ev]
  | .incrementTrades r user amount, _ => [.applied r (.completion amount) user]
  | .incrementFees r user fee, _ => [.applied r (.fee fee) user]
  | .incrementDisputes r user, _ => [.applied r .dispute user]
  | .incrementScore r user outcome, _ => [.applied r (.outcome outcome) user]
  | .burnVouch id, _ => [.burned id]
  | .penalizeVoucher v, _ => [.penalised v]
  | _, _ => []

/-- The observations of a call. -/
def Call.observe (q : Call n) (_ : World n) : Except Err q.Ans → List (Obs n)
  | .ok a => q.answered a
  | .error .failed => [.failed]
  | .error .notFound => []

/-- The event bus over `n` instances. -/
def eventSystem (n : ℕ) :
    System (Call.Ans (n := n)) Err Unit (World n) Env (Request n) (Obs n) where
  exec := Call.exec
  observe := Call.observe
  prog := Request.prog

end Sails.Events
