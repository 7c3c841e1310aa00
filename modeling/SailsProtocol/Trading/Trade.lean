import SailsProtocol.Escrow.Status
import SailsProtocol.Intent.Engine

/-!
# Trades and what happens to them

The status of a trade changes in two ways. A party may ask for `ACTIVE` or `CANCELLED`
(`manualTransitions`), and the handlers of the escrow's events write the status that
goes with the escrow's (`handlerStatus`). Some of them also move the intent of the trade
on (`handlerIntent`).

`walk` moves an intent through a list of statuses until one is refused. Each of its
steps is a transition of the intent engine run alone (`transition_alone`).
-/

namespace Sails.Trading

open Async

/-- `TradeStatus`. -/
inductive TradeStatus where
  | PENDING | ACTIVE | COMPLETED | DISPUTED | CANCELLED
  deriving DecidableEq, Repr

/-- `MANUAL_TRADE_TRANSITIONS`. -/
def manualTransitions : TradeStatus → List TradeStatus
  | .PENDING => [.ACTIVE, .CANCELLED]
  | .ACTIVE => [.CANCELLED]
  | _ => []

/-- The status the handler of an escrow event writes to the trade. -/
def handlerStatus : EscrowStatus → Option TradeStatus
  | .fundsLocked => some .ACTIVE
  | .completed => some .COMPLETED
  | .disputed => some .DISPUTED
  | .refunded => some .CANCELLED
  | .split => some .COMPLETED
  | _ => none

/-- The statuses the handler of an escrow event moves the intent to, in turn. -/
def handlerIntent : EscrowStatus → List Intent.IntentStatus
  | .fundsLocked => [.COMMITTED]
  | .completed => [.SETTLING, .FULFILLED]
  | .split => [.SETTLING, .FULFILLED]
  | .refunded => [.FAILED]
  | _ => []

/-! ## Moving an intent on -/

/-- Move an intent to each status in turn, until one is refused : where it ends, and
whether none was refused. -/
def walk : Intent.IntentStatus → List Intent.IntentStatus → Intent.IntentStatus × Bool
  | s, [] => (s, true)
  | s, t :: ts => if s.canMoveTo t then walk t ts else (s, false)

/-- An Intent that is over stays as it is. -/
theorem walk_terminal {s : Intent.IntentStatus} (h : s.terminal = true)
    (ts : List Intent.IntentStatus) : (walk s ts).1 = s := by
  cases ts with
  | nil => rfl
  | cons t ts =>
    have hmove : s.canMoveTo t = false := by
      revert h
      cases s <;> cases t <;> decide
    rw [walk, if_neg (by simp [hmove])]

/-- A transition run alone on an intent without a deadline is a walk of one step. -/
theorem transition_alone (sha256 : String → String) (dst : Intent.IntentStatus)
    (triggeredBy : String) (now pick : ℕ) (s : Intent.IntentStore)
    (hdeadline : s.record.expiresAt = none) :
    let out := (Intent.transition sha256 dst triggeredBy).runAlone
      (fun q => q.exec ⟨.answered, now, pick⟩) s
    (out.2.record.status, out.1.isOk) = walk s.record.status [dst] := by
  have hnot : Intent.isExpired s.record.status s.record.expiresAt now = false := by
    simp [Intent.isExpired, hdeadline]
  cases hmove : s.record.status.canMoveTo dst with
  | true =>
    simp [Intent.transition, Intent.advance, Intent.writeIntentEvent, Intent.Call.exec,
      Intent.Call.run, Fate.settle, hnot, hmove, walk, Except.isOk, Except.toBool]
  | false =>
    simp [Intent.transition, Intent.advance, Intent.Call.exec, Intent.Call.run, Fate.settle,
      hnot, hmove, walk, Except.isOk, Except.toBool]

end Sails.Trading
