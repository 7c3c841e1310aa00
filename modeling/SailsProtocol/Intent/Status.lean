import Mathlib.Tactic.DeriveFintype

/-!
# The states of an intent

`validTransitions` is the table every change of an intent's status is checked
against. It has no way back : every transition raises `rank`, so an intent leaves
each status at most once.
-/

namespace Sails.Intent

/-- `IntentStatus`. -/
inductive IntentStatus where
  | CREATED | VALIDATED | COORDINATED | DISCOVERING | MATCHED | NEGOTIATING | COMMITTED | SETTLING
  | FULFILLED | EXPIRED | CANCELLED | FAILED
  deriving DecidableEq, Repr

namespace IntentStatus

/-- `VALID_TRANSITIONS` of the state machine. -/
def validTransitions : IntentStatus → List IntentStatus
  | CREATED => [VALIDATED, CANCELLED, EXPIRED]
  | VALIDATED => [COORDINATED, CANCELLED, EXPIRED]
  | COORDINATED => [DISCOVERING, CANCELLED, EXPIRED]
  | DISCOVERING => [MATCHED, EXPIRED, CANCELLED]
  | MATCHED => [NEGOTIATING, CANCELLED]
  | NEGOTIATING => [COMMITTED, CANCELLED]
  | COMMITTED => [SETTLING, FAILED]
  | SETTLING => [FULFILLED, FAILED]
  | FULFILLED => []
  | EXPIRED => []
  | CANCELLED => []
  | FAILED => []

/-- `assertValidTransition` does not throw. -/
def canMoveTo (src dst : IntentStatus) : Bool := src.validTransitions.contains dst

/-- The statuses in which a window can be found closed. -/
def expirable (s : IntentStatus) : Bool :=
  [CREATED, VALIDATED, COORDINATED, DISCOVERING, MATCHED, NEGOTIATING, COMMITTED, SETTLING].contains
    s

/-- No transition leaves the status. -/
def terminal (s : IntentStatus) : Bool := s.validTransitions.isEmpty

/-- The text of a status in the database and in the hashed entries. -/
def text : IntentStatus → String
  | CREATED => "CREATED"
  | VALIDATED => "VALIDATED"
  | COORDINATED => "COORDINATED"
  | DISCOVERING => "DISCOVERING"
  | MATCHED => "MATCHED"
  | NEGOTIATING => "NEGOTIATING"
  | COMMITTED => "COMMITTED"
  | SETTLING => "SETTLING"
  | FULFILLED => "FULFILLED"
  | EXPIRED => "EXPIRED"
  | CANCELLED => "CANCELLED"
  | FAILED => "FAILED"

/-- How far along an intent is. -/
def rank : IntentStatus → ℕ
  | CREATED => 0
  | VALIDATED => 1
  | COORDINATED => 2
  | DISCOVERING => 3
  | MATCHED => 4
  | NEGOTIATING => 5
  | COMMITTED => 6
  | SETTLING => 7
  | FULFILLED | EXPIRED | CANCELLED | FAILED => 8

theorem rank_lt_of_canMoveTo {src dst : IntentStatus} (h : src.canMoveTo dst = true) :
    src.rank < dst.rank := by
  revert h
  cases src <;> cases dst <;> decide

end IntentStatus

/-- `isExpired`, at the time `now`. -/
def isExpired (status : IntentStatus) (expiresAt : Option ℕ) (now : ℕ) : Bool :=
  status.expirable && expiresAt.any fun t => t ≤ now

end Sails.Intent
