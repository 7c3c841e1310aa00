import SailsProtocol.Async.Pool
import SailsProtocol.Intent.Status

/-!
# The intent engine

`transition` moves an intent to another status. It claims the status with a
conditional update, and then, in queries of their own, reads the newest row of the
intent's audit trail and writes the next one, which carries the hash of the row it
read (`writeIntentEvent`). `cancel` is a transition the owner asks for. A transition
of an intent whose window has closed moves it to `EXPIRED` instead.

The store is one intent and its rows : no query of these calls touches another
intent. Rows are kept in the order in which they were written, newest first. A read
of the last row goes by `createdAt`, and among rows of equal time the database may
return any.
-/

namespace Sails.Intent

open Async

/-- A row of the audit trail. -/
structure IntentEvent where
  fromStatus : Option IntentStatus
  toStatus : IntentStatus
  triggeredBy : String
  prevHash : String
  entryHash : String
  createdAt : ℕ
  deriving DecidableEq, Repr

/-- The columns of an `Intent` row that the engine reads. -/
structure IntentRecord where
  participantId : String
  status : IntentStatus
  expiresAt : Option ℕ
  deriving DecidableEq, Repr

/-- An intent and its audit trail, newest row first. -/
structure IntentStore where
  record : IntentRecord
  events : List IntentEvent
  deriving DecidableEq, Repr

/-- What is written to the trail ; the database adds the time. -/
structure EventData where
  fromStatus : Option IntentStatus
  toStatus : IntentStatus
  triggeredBy : String
  prevHash : String
  entryHash : String
  deriving DecidableEq, Repr

/-- The row of an event that is written at the time. -/
def EventData.at (d : EventData) (createdAt : ℕ) : IntentEvent :=
  ⟨d.fromStatus, d.toStatus, d.triggeredBy, d.prevHash, d.entryHash, createdAt⟩

/-! ## Queries -/

/-- What the engine awaits. -/
inductive Call where
  | findById
  | clock
  | claimTransition (fromStatus toStatus : IntentStatus)
  | findLastEvent
  | createEvent (data : EventData)
  | emit (toStatus : IntentStatus)
  deriving DecidableEq

/-- What each call returns. -/
abbrev Answer : Call → Type
  | .findById => IntentRecord
  | .clock => ℕ
  | .claimTransition _ _ => ℕ
  | .findLastEvent => Option IntentEvent
  | .createEvent _ => Unit
  | .emit _ => Unit

/-- What the engine throws. -/
inductive EngineError where
  | fault
  | expired
  | invalidTransition (fromStatus toStatus : IntentStatus)
  | concurrentTransition (expected : IntentStatus)
  | notOwner
  deriving DecidableEq, Repr

/-- What the environment decides about a query : its fate, the time, and which row of
the latest time is returned. -/
structure QueryEnv where
  fate : Fate
  now : ℕ
  pick : ℕ
  deriving DecidableEq, Repr

/-- The rows with the latest `createdAt`. -/
def latestEvents (events : List IntentEvent) : List IntentEvent :=
  events.filter fun e => events.all fun e' => e'.createdAt ≤ e.createdAt

/-- `findFirst` ordered by `createdAt`, latest first. -/
def findLast (events : List IntentEvent) (pick : ℕ) : Option IntentEvent :=
  (latestEvents events)[pick % (latestEvents events).length]?

/-- What a call answers and does to the rows when it does not fail. -/
def Call.run : (q : Call) → QueryEnv → IntentStore →
    Except EngineError (Answer q) × IntentStore
  | .findById, _, s => (.ok s.record, s)
  | .clock, env, s => (.ok env.now, s)
  | .claimTransition src dst, _, s =>
    if s.record.status = src then (.ok 1, { s with record := { s.record with status := dst } })
    else (.ok 0, s)
  | .findLastEvent, env, s => (.ok (findLast s.events env.pick), s)
  | .createEvent data, env, s => (.ok (), { s with events := data.at env.now :: s.events })
  | .emit _, _, s => (.ok (), s)

/-- A call under the fate the environment gives it. -/
def Call.exec (q : Call) (env : QueryEnv) (s : IntentStore) :
    Except EngineError (Answer q) × IntentStore :=
  env.fate.settle .fault (q.run env s) s

/-- What a call is seen to do : it claimed a transition, it read the hash to chain to,
or it tried to write its row. -/
inductive Seen where
  | claimed (fromStatus toStatus : IntentStatus)
  | read (prevHash : String)
  | wrote
  deriving DecidableEq, Repr

/-- The hash before the first event. -/
def genesis : String := "genesis"

/-- The hash the next row chains to, when `last` is the last row. -/
def chainHash (last : Option IntentEvent) : String := (last.map (·.entryHash)).getD genesis

/-- What a call tells about the chain of events. -/
def Call.observe : (q : Call) → IntentStore → Except EngineError (Answer q) → List Seen
  | .claimTransition src dst, _, .ok 1 => [.claimed src dst]
  | .findLastEvent, _, .ok last => [.read (chainHash last)]
  | .createEvent _, _, _ => [.wrote]
  | _, _, _ => []

/-! ## Calls of the engine -/

section Engine

variable (sha256 : String → String)

/-- The hash of an event, `entryHash` of the ledger. -/
def entryHash (fromStatus : Option IntentStatus) (toStatus : IntentStatus) (triggeredBy : String)
    (prevHash : String) : String :=
  sha256 ((fromStatus.map (·.text)).getD "" ++ "|" ++ toStatus.text ++ "|" ++ triggeredBy ++ "|" ++
    prevHash)

/-- `writeIntentEvent`. -/
def writeIntentEvent (fromStatus : Option IntentStatus) (toStatus : IntentStatus)
    (triggeredBy : String) : Prog Answer EngineError Unit := do
  let last : Option IntentEvent ← Prog.perform Call.findLastEvent
  let prevHash := chainHash last
  Prog.perform (Call.createEvent ⟨fromStatus, toStatus, triggeredBy, prevHash,
    entryHash sha256 fromStatus toStatus triggeredBy prevHash⟩)

/-- The part of `transition` after the expiry check. -/
def advance (currentStatus toStatus : IntentStatus) (triggeredBy : String) :
    Prog Answer EngineError IntentRecord := do
  Prog.require (currentStatus.canMoveTo toStatus) (.invalidTransition currentStatus toStatus)
  let claimedCount : ℕ ← Prog.perform (Call.claimTransition currentStatus toStatus)
  Prog.require (claimedCount != 0) (.concurrentTransition currentStatus)
  let updated : IntentRecord ← Prog.perform Call.findById
  writeIntentEvent sha256 (some currentStatus) toStatus triggeredBy
  Prog.perform (Call.emit toStatus)
  pure updated

/-- `transition` to `EXPIRED`, which makes no expiry check of its own. -/
def expire : Prog Answer EngineError IntentRecord := do
  let record : IntentRecord ← Prog.perform Call.findById
  advance sha256 record.status .EXPIRED "system:expiry-check"

/-- `transition` of the engine. -/
def transition (toStatus : IntentStatus) (triggeredBy : String) :
    Prog Answer EngineError IntentRecord := do
  let record : IntentRecord ← Prog.perform Call.findById
  let now : ℕ ← Prog.perform Call.clock
  if isExpired record.status record.expiresAt now && toStatus != .EXPIRED then do
    let _ ← expire sha256
    throw .expired
  else
    advance sha256 record.status toStatus triggeredBy

/-- `cancel` of the engine. -/
def cancel (cancelledBy : String) : Prog Answer EngineError Unit := do
  let record : IntentRecord ← Prog.perform Call.findById
  Prog.require (record.participantId == cancelledBy) .notOwner
  let now : ℕ ← Prog.perform Call.clock
  if isExpired record.status record.expiresAt now then do
    let _ ← expire sha256
    pure ()
  else do
    let _ ← transition sha256 .CANCELLED cancelledBy
    pure ()

/-- What can be asked of the engine. -/
inductive Request where
  | transition (toStatus : IntentStatus) (triggeredBy : String)
  | cancel (cancelledBy : String)
  deriving DecidableEq, Repr

/-- The program that serves a request. -/
def Request.prog : Request → Prog Answer EngineError Unit
  | .transition toStatus triggeredBy => do
    let _ ← Intent.transition sha256 toStatus triggeredBy
    pure ()
  | .cancel cancelledBy => Intent.cancel sha256 cancelledBy

/-- Any number of calls of the engine on one intent. -/
def engine : System Answer EngineError Unit IntentStore QueryEnv Request Seen where
  exec := Call.exec
  observe := Call.observe
  prog := Request.prog sha256

end Engine

end Sails.Intent
