import Mathlib.Order.Basic

/-!
# Escrow statuses, rails and settlement kinds

The enumerations of the settlement module with the tables `escrow-lifecycle.ts` and
`escrow-providers.ts` keep over them. `validTransitions` is the table every status
change is checked against. It has no cycle : `EscrowStatus.rank` grows along every
transition (`rank_lt_of_valid`).
-/

namespace Sails

/-- `EscrowStatus` of the schema. -/
inductive EscrowStatus
  | created
  | fundsLocked
  | paymentPending
  | completed
  | disputed
  | refunded
  | split
  | expired
  deriving DecidableEq, Repr

/-- `VALID_TRANSITIONS`. -/
def validTransitions : EscrowStatus → List EscrowStatus
  | .created => [.fundsLocked, .refunded]
  | .fundsLocked => [.paymentPending, .disputed, .refunded, .expired]
  | .paymentPending => [.completed, .disputed]
  | .completed => []
  | .disputed => [.completed, .refunded, .split]
  | .refunded => []
  | .split => []
  | .expired => [.disputed, .refunded]

/-- `dst` is a transition the table allows from `src`. -/
def ValidTransition (src dst : EscrowStatus) : Prop :=
  dst ∈ validTransitions src

instance (src dst : EscrowStatus) : Decidable (ValidTransition src dst) :=
  inferInstanceAs (Decidable (dst ∈ validTransitions src))

namespace EscrowStatus

/-- The statuses no transition leaves. -/
def terminal : EscrowStatus → Bool
  | completed | refunded | split => true
  | _ => false

/-- How far along the lifecycle a status is. -/
def rank : EscrowStatus → ℕ
  | created => 0
  | fundsLocked => 1
  | paymentPending | expired => 2
  | disputed => 3
  | completed | refunded | split => 4

/-- Every transition moves along the lifecycle. -/
theorem rank_lt_of_valid (src dst : EscrowStatus) :
    ValidTransition src dst → src.rank < dst.rank := by
  cases src <;> cases dst <;> decide

/-- A terminal status has no transition out of it. -/
theorem not_valid_of_terminal {src : EscrowStatus} (h : src.terminal = true)
    (dst : EscrowStatus) : ¬ ValidTransition src dst := by
  revert h
  cases src <;> cases dst <;> decide

/-- `FUNDS_LOCKED` is entered from `CREATED` only. -/
theorem eq_created_of_valid {src : EscrowStatus} :
    ValidTransition src .fundsLocked → src = .created := by
  cases src <;> decide

end EscrowStatus

/-! ## Rails -/

/-- `EscrowType` of the schema. -/
inductive EscrowType
  | multisig
  | lightningHodl
  | liquidCovenant
  | wdkUsdtEvm
  | safeGuardEvm
  | mock
  deriving DecidableEq, Repr

namespace EscrowType

/-- The types with an entry in `NON_CUSTODIAL_PROVIDERS`. -/
def nonCustodial : EscrowType → Bool
  | multisig | lightningHodl | safeGuardEvm => true
  | _ => false

/-- The types with an entry in `SIGNATURE_COLLECTION_PROVIDERS`. -/
def signatureCollection : EscrowType → Bool
  | multisig | lightningHodl | safeGuardEvm => true
  | _ => false

/-- The types with an entry in `PROVIDERS`. -/
def registered : EscrowType → Bool
  | liquidCovenant => false
  | _ => true

/-- The registered providers whose `releaseFunds` and `refundFunds` move funds. The
client-held rails throw there. -/
def directlyCallable : EscrowType → Bool
  | wdkUsdtEvm | mock => true
  | _ => false

/-- The registered providers that have a `splitFunds`. -/
def hasSplitFunds : EscrowType → Bool
  | wdkUsdtEvm | mock => true
  | _ => false

/-- The signature collection providers that have a `finalizeSplit`. -/
def hasFinalizeSplit : EscrowType → Bool
  | multisig => true
  | _ => false

end EscrowType

/-! ## Settlement kinds -/

/-- The kind of a settlement : a column of the pending transaction row, and the three
ways a provider moves the locked funds. -/
inductive SettlementKind
  | release
  | refund
  | split
  deriving DecidableEq, Repr

/-- The terminal status a settlement of this kind claims. -/
def SettlementKind.target : SettlementKind → EscrowStatus
  | release => .completed
  | refund => .refunded
  | split => .split

theorem SettlementKind.terminal_target (k : SettlementKind) : k.target.terminal = true := by
  cases k <;> rfl

end Sails
