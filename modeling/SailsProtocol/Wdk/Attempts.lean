import SailsProtocol.Wdk.Facts
import Mathlib.Logic.Relation

/-!
# One transfer for each operation

`Sound` relates the rows of the attempts to the chain : an operation has one active attempt, an
attempt is left behind only when its transaction reverted, and every broadcast belongs to an
attempt that is marked and has no other broadcast. A call that is `Allowed` changes a store by
effects (`exec_effect`), and each effect keeps `Sound` and every fact that is known
(`Effect.sound`, `Effect.later`).

`transfers_once` is what follows for any number of callers : of each operation at most one
broadcast does not revert, every transfer follows the caller's own write of its mark, the
seller's leg waits for the buyer's, and the legs of a split that returned add up.
-/

namespace Sails.Wdk

open Async

variable {W : WdkConfig} {log : List Fact} {s s' : WdkStore} {id : ℕ} {a a' : Attempt}

/-! ## Stores -/

/-- The transaction was broadcast for the attempt. -/
def WdkStore.SentFor (s : WdkStore) (id txHash : ℕ) : Prop :=
  ∃ b, s.broadcasts[txHash]? = some b ∧ b.attemptId = id

/-- A fact is true in a store. -/
def Fact.Holds (W : WdkConfig) (s : WdkStore) : Fact → Prop
  | .attempt id row => ∃ a, s.attempts[id]? = some a ∧ a.toAttemptInput = row
  | .marked id => ∃ a, s.attempts[id]? = some a ∧ a.status ≠ .PREPARED
  | .sent id txHash => s.SentFor id txHash
  | .hash id txHash => ∃ a, s.attempts[id]? = some a ∧ a.txHash = some txHash
  | .receipt txHash status => status = !W.reverts txHash
  | .confirmed id => ∃ a, s.attempts[id]? = some a ∧ a.status = .CONFIRMED
  | _ => True

/-- The attempt may not have been submitted. -/
def AttemptStatus.unsent : AttemptStatus → Bool
  | .PREPARED | .SUBMISSION_UNKNOWN => true
  | _ => false

/-- The status of an attempt agrees with the chain. -/
structure Attempt.Sound (W : WdkConfig) (s : WdkStore) (id : ℕ) (a : Attempt) : Prop where
  possible : a.status ≠ .FAILED_BEFORE_SUBMISSION
  active : a.status ≠ .REVERTED → a.active = true
  unsent : a.status.unsent = true → a.txHash = none
  sent : a.status.unsent = false → ∃ txHash, a.txHash = some txHash ∧ s.SentFor id txHash ∧
    (a.status = .CONFIRMED → W.reverts txHash = false) ∧
    (a.status = .REVERTED → W.reverts txHash = true)

/-- The broadcast is the transfer of the attempt. -/
structure Attempt.Sends (W : WdkConfig) (a : Attempt) (b : Broadcast) : Prop where
  operationType : a.operationType = b.operationType
  destination : a.destination = b.recipient
  due : Due W a.toAttemptInput b.amount
  started : a.status ≠ .PREPARED

/-- What holds of the rows and the chain at any time. -/
structure Sound (W : WdkConfig) (s : WdkStore) : Prop where
  row : ∀ {id : ℕ} {a : Attempt}, s.attempts[id]? = some a → a.Sound W s id
  active : ∀ {i j : ℕ} {a b : Attempt}, s.attempts[i]? = some a → s.attempts[j]? = some b →
    a.active = true → b.active = true → a.operationType = b.operationType → i = j
  sender : ∀ {txHash : ℕ} {b : Broadcast}, s.broadcasts[txHash]? = some b →
    ∃ a, s.attempts[b.attemptId]? = some a ∧ a.Sends W b
  once : ∀ {txHash txHash' id : ℕ}, s.SentFor id txHash → s.SentFor id txHash' → txHash = txHash'
  nodup : s.submissions.Nodup
  submitted : ∀ {id : ℕ}, id ∈ s.submissions ↔
    ∃ a, s.attempts[id]? = some a ∧ a.status ≠ .PREPARED
  buyer : ∀ {txHash : ℕ} {b : Broadcast}, s.broadcasts[txHash]? = some b →
    b.operationType = .SPLIT_SELLER → ∃ txHash' b', s.broadcasts[txHash']? = some b' ∧
      b'.operationType = .SPLIT_BUYER ∧ b'.amount = W.total - b.amount ∧
      W.reverts txHash' = false

/-! ## Effects -/

section Lists

variable {α : Type} {l : List α} {i j : ℕ} {x y z : α}

theorem getElem?_append_of_some (h : l[i]? = some x) (l' : List α) : (l ++ l')[i]? = some x := by
  rw [List.getElem?_append_left (List.getElem?_eq_some_iff.mp h).1, h]

/-- An element of a list that got one more. -/
theorem getElem?_concat_cases (h : (l ++ [y])[i]? = some x) :
    l[i]? = some x ∨ i = l.length ∧ y = x := by
  rw [List.getElem?_append] at h
  split at h
  · exact Or.inl h
  · next hi =>
    obtain ⟨hzero, hy⟩ := List.getElem?_eq_some_iff.mp h
    have hlength : i - l.length < 1 := hzero
    refine Or.inr ⟨by omega, ?_⟩
    simpa using hy

/-- An element of a list in which one was replaced. -/
theorem getElem?_set_cases (h : (l.set i y)[j]? = some x) :
    i = j ∧ y = x ∨ i ≠ j ∧ l[j]? = some x := by
  rw [List.getElem?_set] at h
  split at h
  · next hij =>
    split at h
    · exact Or.inl ⟨hij, Option.some.inj h⟩
    · cases h
  · next hij => exact Or.inr ⟨hij, h⟩

theorem getElem?_set_of_some (h : l[i]? = some x) : (l.set i y)[i]? = some y :=
  List.getElem?_set_self (List.getElem?_eq_some_iff.mp h).1

end Lists

/-- The writes of a row. -/
inductive RowStep (log : List Fact) (id : ℕ) : Attempt → Attempt → Prop where
  | attempted {a : Attempt} (hstatus : a.status = .PREPARED) :
      RowStep log id a { a with status := .SUBMISSION_UNKNOWN }
  | submitted {a : Attempt} {txHash : ℕ} (hstatus : a.status = .SUBMISSION_UNKNOWN)
      (hsent : .sent id txHash ∈ log) :
      RowStep log id a { a with status := .SUBMITTED, txHash := some txHash }
  | confirmed {a : Attempt} {txHash : ℕ} (hstatus : a.status = .SUBMITTED)
      (hhash : .hash id txHash ∈ log) (hreceipt : .receipt txHash true ∈ log) :
      RowStep log id a { a with status := .CONFIRMED }
  | reverted {a : Attempt} {txHash : ℕ} (hstatus : a.status = .SUBMITTED)
      (hhash : .hash id txHash ∈ log) (hreceipt : .receipt txHash false ∈ log) :
      RowStep log id a { a with status := .REVERTED }
  | released {a : Attempt}
      (hstatus : a.status = .REVERTED ∨ a.status = .FAILED_BEFORE_SUBMISSION) :
      RowStep log id a { a with active := false }

/-- What a call can do to a store. -/
inductive Effect (W : WdkConfig) (log : List Fact) : WdkStore → WdkStore → Prop where
  | create {s : WdkStore} {input : AttemptInput} {now : ℕ}
      (hkey : keyTaken s.attempts input.operationType = false) :
      Effect W log s { s with attempts := s.attempts ++ [input.row now] }
  | write {s : WdkStore} {id : ℕ} {a a' : Attempt} (hrow : s.attempts[id]? = some a)
      (hstep : RowStep log id a a') :
      Effect W log s { s with
        attempts := s.attempts.set id a'
        submissions := if a.status = .PREPARED then s.submissions ++ [id] else s.submissions }
  | transfer {s : WdkStore} {b : Broadcast}
      (howned : Owned W log b.attemptId b.operationType b.recipient b.amount)
      (hfresh : ∀ b' ∈ s.broadcasts, b'.attemptId ≠ b.attemptId) :
      Effect W log s { s with broadcasts := s.broadcasts ++ [b] }
  | status {s : WdkStore} {status : EscrowStatus} : Effect W log s { s with status := status }

theorem modify_eq_set {α : Type} {l : List α} {i : ℕ} {x : α} (h : l[i]? = some x)
    (f : α → α) : l.modify i f = l.set i (f x) := by
  rw [List.modify_eq_set_getElem?, h]
  rfl

/-- A change of status is an effect. -/
theorem updateStatus_effect {status : AttemptStatus} {txHash : Option ℕ}
    {expected : List AttemptStatus} (hwrite : Transition log id status txHash expected) :
    Relation.ReflTransGen (Effect W log) s (s.updateStatus id status txHash expected).2 := by
  rw [WdkStore.updateStatus]
  cases hrow : s.attempts[id]? with
  | none => exact .refl
  | some a =>
    dsimp only
    split
    · next hexpected =>
      refine .single ?_
      rw [modify_eq_set hrow]
      cases hwrite with
      | attempted =>
        have hstatus : a.status = .PREPARED := by simpa using hexpected
        simpa [hstatus] using Effect.write hrow (.attempted hstatus)
      | submitted hsent =>
        have hstatus : a.status = .SUBMISSION_UNKNOWN := by simpa using hexpected
        simpa [hstatus] using Effect.write hrow (.submitted hstatus hsent)
      | confirmed hhash hreceipt =>
        have hstatus : a.status = .SUBMITTED := by simpa using hexpected
        simpa [hstatus] using Effect.write hrow (.confirmed hstatus hhash hreceipt)
      | reverted hhash hreceipt =>
        have hstatus : a.status = .SUBMITTED := by simpa using hexpected
        simpa [hstatus] using Effect.write hrow (.reverted hstatus hhash hreceipt)
    · exact .refl

/-- A replacement is a chain of effects. -/
theorem replaceActive_effect {expected : List AttemptStatus} {input : AttemptInput} {now : ℕ}
    (hexpected : expected = [.REVERTED] ∨ expected = [.FAILED_BEFORE_SUBMISSION]) :
    Relation.ReflTransGen (Effect W log) s (s.replaceActive id expected input now).2 := by
  rw [WdkStore.replaceActive]
  cases hrow : s.attempts[id]? with
  | none => exact .refl
  | some a =>
    dsimp only
    split
    · next hactive =>
      split
      · exact .refl
      · next hkey =>
        rw [Bool.not_eq_true] at hkey
        simp only [Bool.and_eq_true] at hactive
        have hstatus : a.status = .REVERTED ∨ a.status = .FAILED_BEFORE_SUBMISSION := by
          rcases hexpected with rfl | rfl
          · exact Or.inl (by simpa using hactive.2)
          · exact Or.inr (by simpa using hactive.2)
        have hne : a.status ≠ .PREPARED := by
          rcases hstatus with h | h <;> rw [h] <;> decide
        rw [modify_eq_set hrow] at hkey ⊢
        have hrelease := Effect.write (W := W) hrow (@RowStep.released log id a hstatus)
        rw [if_neg hne] at hrelease
        exact .tail (.single hrelease) (.create hkey)
    · exact .refl

/-- What an allowed call does to the store. -/
theorem exec_effect {q : Call} {env : WdkEnv} (hq : Allowed W log q)
    (hfresh : ∀ id rest, log = .marked id :: rest → ∀ b ∈ s.broadcasts, b.attemptId ≠ id) :
    Relation.ReflTransGen (Effect W log) s (q.exec W env s).2 := by
  rcases env.fate.settle_store .fault (q.run W env s) s with hstore | hstore <;>
    rw [Call.exec, hstore]
  cases q with
  | create input =>
    rw [Call.run, WdkStore.create]
    split
    · exact .refl
    · next hkey => exact .single (.create (Bool.not_eq_true _ ▸ hkey))
  | replaceActive id expected input => exact replaceActive_effect hq
  | updateStatus id status txHash expected => exact updateStatus_effect hq
  | transfer id operationType recipient baseUnits =>
    obtain ⟨rest, hmarked⟩ := hq.marked
    exact .single (.transfer (b := ⟨id, operationType, recipient, baseUnits⟩) hq
      (hfresh id rest hmarked))
  | claimTransition f t =>
    rw [Call.run, WdkStore.moveStatus]
    split
    · exact .single .status
    · exact .refl
  | revertStatus f t =>
    rw [Call.run, WdkStore.moveStatus]
    split
    · exact .single .status
    · exact .refl
  | _ => exact .refl

/-! ## What stays true -/

/-- What a row keeps. -/
structure Attempt.Later (a a' : Attempt) : Prop where
  input : a'.toAttemptInput = a.toAttemptInput
  started : a.status ≠ .PREPARED → a'.status ≠ .PREPARED
  hash : ∀ {txHash : ℕ}, a.txHash = some txHash → a'.txHash = some txHash
  confirmed : a.status = .CONFIRMED → a'.status = .CONFIRMED

theorem Attempt.Later.refl (a : Attempt) : a.Later a :=
  ⟨rfl, id, id, id⟩

/-- What a store keeps. -/
structure WdkStore.Later (s s' : WdkStore) : Prop where
  attempt : ∀ {id : ℕ} {a : Attempt}, s.attempts[id]? = some a →
    ∃ a', s'.attempts[id]? = some a' ∧ a.Later a'
  broadcast : ∀ {txHash : ℕ} {b : Broadcast}, s.broadcasts[txHash]? = some b →
    s'.broadcasts[txHash]? = some b

theorem WdkStore.Later.sentFor (h : s.Later s') {txHash : ℕ} (hs : s.SentFor id txHash) :
    s'.SentFor id txHash := by
  obtain ⟨b, hb, hid⟩ := hs
  exact ⟨b, h.broadcast hb, hid⟩

/-- Facts stay true. -/
theorem Fact.Holds.later {f : Fact} (hf : f.Holds W s) (h : s.Later s') : f.Holds W s' := by
  cases f with
  | attempt id row =>
    obtain ⟨a, hrow, hinput⟩ := hf
    obtain ⟨a', hrow', hlater⟩ := h.attempt hrow
    exact ⟨a', hrow', hlater.input.trans hinput⟩
  | marked id =>
    obtain ⟨a, hrow, hstatus⟩ := hf
    obtain ⟨a', hrow', hlater⟩ := h.attempt hrow
    exact ⟨a', hrow', hlater.started hstatus⟩
  | sent id txHash => exact h.sentFor hf
  | hash id txHash =>
    obtain ⟨a, hrow, hhash⟩ := hf
    obtain ⟨a', hrow', hlater⟩ := h.attempt hrow
    exact ⟨a', hrow', hlater.hash hhash⟩
  | confirmed id =>
    obtain ⟨a, hrow, hstatus⟩ := hf
    obtain ⟨a', hrow', hlater⟩ := h.attempt hrow
    exact ⟨a', hrow', hlater.confirmed hstatus⟩
  | _ => exact hf

/-- What an attempt sends it sends later too. -/
theorem Attempt.Sends.later {b : Broadcast} (h : a.Sends W b) (hlater : a.Later a') :
    a'.Sends W b := by
  have hinput := hlater.input
  refine ⟨?_, ?_, ?_, hlater.started h.started⟩
  · exact (congrArg AttemptInput.operationType hinput).trans h.operationType
  · exact (congrArg AttemptInput.destination hinput).trans h.destination
  · rw [hinput]
    exact h.due

theorem Attempt.Sound.later (h : a.Sound W s id) (hlater : s.Later s') : a.Sound W s' id := by
  refine ⟨h.possible, h.active, h.unsent, fun hsent => ?_⟩
  obtain ⟨txHash, hhash, hfor, hrest⟩ := h.sent hsent
  exact ⟨txHash, hhash, hlater.sentFor hfor, hrest⟩

/-- A step of a row leads to a later row. -/
theorem RowStep.later (h : RowStep log id a a') (hs : a.Sound W s id) : a.Later a' := by
  cases h with
  | attempted hstatus =>
    exact ⟨rfl, fun _ => nofun, fun h => h, fun h => by simp [hstatus] at h⟩
  | submitted hstatus hsent =>
    have hnone : a.txHash = none := hs.unsent (by rw [hstatus]; rfl)
    exact ⟨rfl, fun _ => nofun, fun h => by simp [hnone] at h, fun h => by simp [hstatus] at h⟩
  | confirmed hstatus => exact ⟨rfl, fun _ => nofun, fun h => h, fun _ => rfl⟩
  | reverted hstatus =>
    exact ⟨rfl, fun _ => nofun, fun h => h, fun h => by simp [hstatus] at h⟩
  | released hstatus => exact ⟨rfl, fun h => h, fun h => h, fun h => h⟩

/-- A row that is written stays in agreement with the chain. -/
theorem RowStep.sound (h : RowStep log id a a') (hrow : s.attempts[id]? = some a)
    (hs : a.Sound W s id) (hlog : ∀ f ∈ log, f.Holds W s) : a'.Sound W s id := by
  -- the hash a caller knows is the hash of the row
  have hknown : ∀ {txHash : ℕ}, .hash id txHash ∈ log → a.txHash = some txHash := by
    intro txHash hhash
    obtain ⟨b, hb, hhash⟩ := hlog _ hhash
    rw [hrow] at hb
    cases hb
    exact hhash
  cases h with
  | attempted hstatus =>
    exact ⟨nofun, fun _ => hs.active (by rw [hstatus]; decide),
      fun _ => hs.unsent (by rw [hstatus]; rfl), nofun⟩
  | submitted hstatus hsent =>
    exact ⟨nofun, fun _ => hs.active (by rw [hstatus]; decide), nofun,
      fun _ => ⟨_, rfl, hlog _ hsent, nofun, nofun⟩⟩
  | confirmed hstatus hhash hreceipt =>
    refine ⟨nofun, fun _ => hs.active (by rw [hstatus]; decide), nofun, fun _ => ?_⟩
    obtain ⟨txHash, hhash', hfor, -⟩ := hs.sent (by rw [hstatus]; rfl)
    obtain rfl := Option.some.inj ((hknown hhash).symm.trans hhash')
    have hmined : true = !W.reverts _ := hlog _ hreceipt
    exact ⟨_, hhash', hfor, fun _ => by simpa using hmined.symm, nofun⟩
  | reverted hstatus hhash hreceipt =>
    refine ⟨nofun, fun h => absurd rfl h, nofun, fun _ => ?_⟩
    obtain ⟨txHash, hhash', hfor, -⟩ := hs.sent (by rw [hstatus]; rfl)
    obtain rfl := Option.some.inj ((hknown hhash).symm.trans hhash')
    have hmined : false = !W.reverts _ := hlog _ hreceipt
    exact ⟨_, hhash', hfor, nofun, fun _ => by simpa using hmined.symm⟩
  | released hstatus =>
    have hreverted := hstatus.resolve_right hs.possible
    exact ⟨hs.possible, fun h => absurd hreverted h, hs.unsent, hs.sent⟩

theorem RowStep.active (h : RowStep log id a a') (ha : a'.active = true) : a.active = true := by
  cases h with
  | released hstatus => cases ha
  | _ => exact ha

theorem RowStep.started (h : RowStep log id a a') : a'.status ≠ .PREPARED := by
  cases h with
  | released hstatus => rcases hstatus with h | h <;> simp [h]
  | _ => exact nofun

/-- An effect leads to a later store. -/
theorem Effect.later (h : Effect W log s s') (hs : Sound W s) : s.Later s' := by
  cases h with
  | create hkey =>
    exact ⟨fun h => ⟨_, getElem?_append_of_some h _, .refl _⟩, fun h => h⟩
  | @write id a a' hrow hstep =>
    refine ⟨fun {j b} hb => ?_, fun h => h⟩
    by_cases hij : id = j
    · subst hij
      rw [hrow] at hb
      cases hb
      exact ⟨a', getElem?_set_of_some hrow, hstep.later (hs.row hrow)⟩
    · exact ⟨b, by rw [List.getElem?_set_ne hij, hb], .refl b⟩
  | transfer => exact ⟨fun h => ⟨_, h, .refl _⟩, fun h => getElem?_append_of_some h _⟩
  | status => exact ⟨fun h => ⟨_, h, .refl _⟩, fun h => h⟩

/-- A key that is not taken has no active attempt. -/
theorem keyTaken_false {attempts : List Attempt} {operationType : OperationType}
    (h : keyTaken attempts operationType = false) {a : Attempt} (ha : a ∈ attempts)
    (hactive : a.active = true) : a.operationType ≠ operationType := by
  intro hop
  have htaken : keyTaken attempts operationType = true :=
    List.any_eq_true.mpr ⟨a, ha, by simp [hactive, hop]⟩
  rw [h] at htaken
  cases htaken

/-- What is known of a settled leg is on the chain. -/
theorem Sound.settled (hs : Sound W s) (hlog : ∀ f ∈ log, f.Holds W s)
    {operationType : OperationType} {baseUnits : ℤ} {txHash : ℕ}
    (h : Settled W log operationType baseUnits txHash) :
    ∃ b a, s.broadcasts[txHash]? = some b ∧ s.attempts[b.attemptId]? = some a ∧
      b.operationType = operationType ∧ a.operationType = operationType ∧
      a.status = .CONFIRMED ∧ (operationType.isLeg = true → b.amount = baseUnits) ∧
      W.reverts txHash = false := by
  obtain ⟨id, row, hrow, rfl, hdue, hhash, hconfirmed⟩ := h
  obtain ⟨a, ha, rfl⟩ := hlog _ hrow
  obtain ⟨a₁, ha₁, hhash⟩ := hlog _ hhash
  obtain ⟨a₂, ha₂, hconfirmed⟩ := hlog _ hconfirmed
  rw [ha] at ha₁ ha₂
  cases ha₁
  cases ha₂
  obtain ⟨txHash', hhash', ⟨b, hb, hid⟩, hmined, -⟩ :=
    (hs.row ha).sent (by rw [hconfirmed]; rfl)
  obtain rfl := Option.some.inj (hhash.symm.trans hhash')
  obtain ⟨a₃, ha₃, hsends⟩ := hs.sender hb
  rw [hid, ha] at ha₃
  cases ha₃
  refine ⟨b, a, hb, by rw [hid, ha], hsends.operationType.symm, rfl, hconfirmed, fun hleg => ?_,
    hmined hconfirmed⟩
  exact fromBaseUnits_injective ((hsends.due.1 hleg).symm.trans (hdue.1 hleg))

/-- A new attempt keeps the store sound. -/
theorem Sound.create (hs : Sound W s) {input : AttemptInput} {now : ℕ}
    (hkey : keyTaken s.attempts input.operationType = false) :
    Sound W { s with attempts := s.attempts ++ [input.row now] } := by
  have heffect : Effect W [] s { s with attempts := s.attempts ++ [input.row now] } :=
    .create hkey
  have hlater := heffect.later hs
  refine ⟨fun {id a} ha => ?_, fun {i j a b} ha hb haa hba hop => ?_, fun {txHash b} hb => ?_,
    hs.once, hs.nodup, fun {id} => ?_, hs.buyer⟩
  · rcases getElem?_concat_cases ha with ha | ⟨-, rfl⟩
    · exact (hs.row ha).later hlater
    · exact ⟨nofun, fun _ => rfl, fun _ => rfl, nofun⟩
  · rcases getElem?_concat_cases ha with ha | ⟨rfl, rfl⟩ <;>
      rcases getElem?_concat_cases hb with hb | ⟨rfl, rfl⟩
    · exact hs.active ha hb haa hba hop
    · exact absurd hop (keyTaken_false hkey (List.mem_of_getElem? ha) haa)
    · exact absurd hop.symm (keyTaken_false hkey (List.mem_of_getElem? hb) hba)
    · rfl
  · obtain ⟨a, ha, hsends⟩ := hs.sender hb
    exact ⟨a, getElem?_append_of_some ha _, hsends⟩
  · refine hs.submitted.trans ⟨?_, ?_⟩
    · rintro ⟨a, ha, hstatus⟩
      exact ⟨a, getElem?_append_of_some ha _, hstatus⟩
    · rintro ⟨a, ha, hstatus⟩
      rcases getElem?_concat_cases ha with ha | ⟨-, rfl⟩
      · exact ⟨a, ha, hstatus⟩
      · exact absurd rfl hstatus

/-- A step of a row keeps the store sound. -/
theorem Sound.write (hs : Sound W s) (hrow : s.attempts[id]? = some a)
    (hstep : RowStep log id a a') (hlog : ∀ f ∈ log, f.Holds W s) :
    Sound W { s with
      attempts := s.attempts.set id a'
      submissions := if a.status = .PREPARED then s.submissions ++ [id] else s.submissions } := by
  have hlater := (Effect.write (W := W) hrow hstep).later hs
  have hinput := (hstep.later (hs.row hrow)).input
  -- an active row was active before, and is for the same operation
  have hbefore : ∀ {j : ℕ} {b : Attempt}, (s.attempts.set id a')[j]? = some b →
      b.active = true → ∃ b₀, s.attempts[j]? = some b₀ ∧ b₀.active = true ∧
        b₀.operationType = b.operationType := by
    intro j b hb hactive
    rcases getElem?_set_cases hb with ⟨rfl, rfl⟩ | ⟨-, hb⟩
    · exact ⟨a, hrow, hstep.active hactive, (congrArg AttemptInput.operationType hinput).symm⟩
    · exact ⟨b, hb, hactive, rfl⟩
  refine ⟨fun {j b} hb => ?_, fun {i j b b'} hb hb' hactive hactive' hop => ?_,
    fun {txHash b} hb => ?_, hs.once, ?_, fun {j} => ?_, hs.buyer⟩
  · rcases getElem?_set_cases hb with ⟨rfl, rfl⟩ | ⟨-, hb⟩
    · exact (hstep.sound hrow (hs.row hrow) hlog).later hlater
    · exact (hs.row hb).later hlater
  · obtain ⟨b₀, hb₀, hactive₀, hop₀⟩ := hbefore hb hactive
    obtain ⟨b₁, hb₁, hactive₁, hop₁⟩ := hbefore hb' hactive'
    exact hs.active hb₀ hb₁ hactive₀ hactive₁ (hop₀.trans (hop.trans hop₁.symm))
  · obtain ⟨b₀, hb₀, hsends⟩ := hs.sender hb
    obtain ⟨b₁, hb₁, hlater₁⟩ := hlater.attempt hb₀
    exact ⟨b₁, hb₁, hsends.later hlater₁⟩
  · dsimp only
    split
    · next hstatus =>
      refine List.nodup_append.mpr ⟨hs.nodup, List.nodup_singleton _, ?_⟩
      rintro i hi j hj rfl
      rw [List.mem_singleton.mp hj] at hi
      obtain ⟨b, hb, hstarted⟩ := hs.submitted.mp hi
      rw [hrow] at hb
      cases hb
      exact hstarted hstatus
    · exact hs.nodup
  · have hmem : j ∈ (if a.status = .PREPARED then s.submissions ++ [id] else s.submissions) ↔
        j ∈ s.submissions ∨ j = id := by
      by_cases hstatus : a.status = .PREPARED
      · simp [hstatus]
      · have hid : id ∈ s.submissions := hs.submitted.mpr ⟨a, hrow, hstatus⟩
        rw [if_neg hstatus]
        exact ⟨Or.inl, fun h => h.elim (fun h => h) fun h => h ▸ hid⟩
    refine hmem.trans ⟨?_, ?_⟩
    · rintro (hj | rfl)
      · obtain ⟨b₀, hb₀, hstarted⟩ := hs.submitted.mp hj
        obtain ⟨b₁, hb₁, hlater₁⟩ := hlater.attempt hb₀
        exact ⟨b₁, hb₁, hlater₁.started hstarted⟩
      · exact ⟨a', getElem?_set_of_some hrow, hstep.started⟩
    · rintro ⟨b, hb, hstarted⟩
      rcases getElem?_set_cases hb with ⟨rfl, -⟩ | ⟨-, hb⟩
      · exact Or.inr rfl
      · exact Or.inl (hs.submitted.mpr ⟨b, hb, hstarted⟩)

/-- A broadcast keeps the store sound. -/
theorem Sound.transfer (hs : Sound W s) {b : Broadcast}
    (howned : Owned W log b.attemptId b.operationType b.recipient b.amount)
    (hfresh : ∀ b' ∈ s.broadcasts, b'.attemptId ≠ b.attemptId)
    (hlog : ∀ f ∈ log, f.Holds W s) :
    Sound W { s with broadcasts := s.broadcasts ++ [b] } := by
  have hlater := (Effect.transfer howned hfresh).later hs
  refine ⟨fun {j b} hb => (hs.row hb).later hlater, hs.active, fun {txHash b'} hb' => ?_,
    fun {txHash txHash' id} h h' => ?_, hs.nodup, hs.submitted, fun {txHash b'} hb' hop => ?_⟩
  · rcases getElem?_concat_cases hb' with hb' | ⟨-, rfl⟩
    · exact hs.sender hb'
    · obtain ⟨row, hrow, hop, hdest, hdue⟩ := howned.attempt
      obtain ⟨rest, hmarked⟩ := howned.marked
      obtain ⟨a, ha, rfl⟩ := hlog _ hrow
      obtain ⟨a', ha', hstarted⟩ := hlog (.marked b.attemptId) (by simp [hmarked])
      rw [ha] at ha'
      cases ha'
      exact ⟨a, ha, hop, hdest, hdue, hstarted⟩
  · obtain ⟨c, hc, hid⟩ := h
    obtain ⟨c', hc', hid'⟩ := h'
    rcases getElem?_concat_cases hc with hc | ⟨rfl, rfl⟩ <;>
      rcases getElem?_concat_cases hc' with hc' | ⟨rfl, rfl⟩
    · exact hs.once ⟨c, hc, hid⟩ ⟨c', hc', hid'⟩
    · exact absurd (hid.trans hid'.symm) (hfresh c (List.mem_of_getElem? hc))
    · exact absurd (hid'.trans hid.symm) (hfresh c' (List.mem_of_getElem? hc'))
    · rfl
  · rcases getElem?_concat_cases hb' with hb' | ⟨-, rfl⟩
    · obtain ⟨txHash', b'', hb'', hrest⟩ := hs.buyer hb' hop
      exact ⟨txHash', b'', getElem?_append_of_some hb'' _, hrest⟩
    · obtain ⟨txHash', hsettled⟩ := howned.buyer hop
      obtain ⟨c, -, hc, -, hcop, -, -, hamount, hmined⟩ := hs.settled hlog hsettled
      exact ⟨txHash', c, getElem?_append_of_some hc _, hcop, hamount rfl, hmined⟩

/-- Effects keep the store sound. -/
theorem Effect.sound (h : Effect W log s s') (hs : Sound W s) (hlog : ∀ f ∈ log, f.Holds W s) :
    Sound W s' := by
  cases h with
  | create hkey => exact hs.create hkey
  | write hrow hstep => exact hs.write hrow hstep hlog
  | transfer howned hfresh => exact hs.transfer howned hfresh hlog
  | status =>
    exact ⟨fun ha => (hs.row ha).later ⟨fun h => ⟨_, h, .refl _⟩, fun h => h⟩, hs.active,
      hs.sender, hs.once, hs.nodup, hs.submitted, hs.buyer⟩

/-- The effects of a call, one after the other. -/
theorem sound_of_effects (h : Relation.ReflTransGen (Effect W log) s s') (hs : Sound W s)
    (hlog : ∀ f ∈ log, f.Holds W s) : Sound W s' ∧ ∀ f : Fact, f.Holds W s → f.Holds W s' := by
  induction h with
  | refl => exact ⟨hs, fun _ hf => hf⟩
  | tail _ heffect ih =>
    obtain ⟨hs₁, hkeep⟩ := ih
    have hlater := heffect.later hs₁
    exact ⟨heffect.sound hs₁ fun f hf => hkeep f (hlog f hf), fun f hf => (hkeep f hf).later hlater⟩

/-! ## Answers -/

theorem mem_of_latest {tie : ℕ → ℕ} {operationType : OperationType} {attempts : List Attempt}
    (h : latest tie operationType attempts = some (a, id)) :
    attempts[id]? = some a ∧ a.operationType = operationType := by
  have hmem := List.argmax_mem (Option.mem_def.mpr h)
  rw [List.mem_filter] at hmem
  have hget : attempts[id]? = some a := List.mem_zipIdx_iff_getElem?.mp hmem.1
  exact ⟨hget, by simpa using hmem.2⟩

/-- What is read off a row is true. -/
theorem rowFacts_hold {operationType : OperationType} (hrow : s.attempts[id]? = some a)
    (hop : a.operationType = operationType) : ∀ f ∈ rowFacts operationType a id, f.Holds W s := by
  intro f hf
  rcases List.mem_cons.mp hf with rfl | hf
  · exact ⟨a, hrow, by rw [← hop]⟩
  rcases List.mem_append.mp hf with hf | hf
  · obtain ⟨txHash, htx, rfl⟩ := List.mem_map.mp hf
    exact ⟨a, hrow, by simpa using htx⟩
  · split at hf
    · next hstatus =>
      rw [List.mem_singleton.mp hf]
      exact ⟨a, hrow, hstatus⟩
    · cases hf

/-- A write that took effect says what the row is now. -/
theorem written_hold {status : AttemptStatus} {txHash : Option ℕ} {expected : List AttemptStatus}
    (h : (s.updateStatus id status txHash expected).1 = .ok true) :
    ∀ f ∈ written id status txHash,
      f.Holds W (s.updateStatus id status txHash expected).2 := by
  rw [WdkStore.updateStatus] at h ⊢
  cases hrow : s.attempts[id]? with
  | none => simp [hrow] at h
  | some a =>
    simp only [hrow] at h ⊢
    split
    · have hnow : (s.attempts.modify id fun a =>
          { a with status := status, txHash := txHash.or a.txHash })[id]? =
            some { a with status := status, txHash := txHash.or a.txHash } := by
        rw [modify_eq_set hrow]
        exact getElem?_set_of_some hrow
      intro f hf
      cases status with
      | SUBMISSION_UNKNOWN =>
        rw [written, List.mem_singleton] at hf
        subst hf
        exact ⟨_, hnow, nofun⟩
      | SUBMITTED =>
        cases txHash with
        | none => cases hf
        | some hash =>
          rw [written, List.mem_singleton] at hf
          subst hf
          exact ⟨_, hnow, rfl⟩
      | CONFIRMED =>
        rw [written, List.mem_singleton] at hf
        subst hf
        exact ⟨_, hnow, rfl⟩
      | _ => cases txHash <;> cases hf
    · next hexpected => rw [if_neg hexpected] at h; cases h

/-- What is observed of a call is true after it. -/
theorem observe_holds {q : Call} {env : WdkEnv} {f : Fact}
    (hf : f ∈ observe q s (q.exec W env s).1) : f.Holds W (q.exec W env s).2 := by
  rcases env.fate.settle_answer .fault (q.run W env s) s with hsettle | hsettle
  · rw [Call.exec, hsettle] at hf ⊢
    cases q with
    | findLatest operationType =>
      dsimp only [Call.run] at hf ⊢
      cases hfound : latest env.tie operationType s.attempts with
      | none => simp [hfound, observe] at hf
      | some found =>
        obtain ⟨a, id⟩ := found
        rw [hfound] at hf
        obtain ⟨hrow, hop⟩ := mem_of_latest hfound
        exact rowFacts_hold hrow hop f hf
    | create input =>
      rw [Call.run, WdkStore.create] at hf ⊢
      split at hf
      · cases hf
      · next hkey =>
        rw [if_neg hkey]
        rw [observe, List.mem_singleton] at hf
        subst hf
        exact ⟨_, List.getElem?_concat_length, rfl⟩
    | replaceActive previousId expected input =>
      rw [Call.run, WdkStore.replaceActive] at hf ⊢
      cases hrow : s.attempts[previousId]? with
      | none =>
        simp only [hrow] at hf
        cases hf
      | some previous =>
        simp only [hrow] at hf ⊢
        split at hf
        · next hactive =>
          rw [if_pos hactive]
          split at hf
          · cases hf
          · next hkey =>
            rw [if_neg hkey]
            rw [observe, List.mem_singleton] at hf
            subst hf
            exact ⟨_, List.getElem?_concat_length, rfl⟩
        · cases hf
    | updateStatus id status txHash expected =>
      dsimp only [Call.run] at hf ⊢
      cases hanswer : (s.updateStatus id status txHash expected).1 with
      | error e => simp [hanswer, observe] at hf
      | ok claimed =>
        cases claimed with
        | false => simp [hanswer, observe] at hf
        | true =>
          rw [hanswer] at hf
          exact written_hold hanswer f hf
    | transfer id operationType recipient baseUnits =>
      rcases List.mem_cons.mp hf with rfl | hf
      · exact ⟨_, List.getElem?_concat_length, rfl⟩
      · rw [List.mem_singleton.mp hf]
        trivial
    | getTransactionReceipt txHash =>
      dsimp only [Call.run] at hf
      split at hf
      · rw [List.mem_singleton.mp hf]
        exact rfl
      · cases hf
    | claimTransition fromStatus toStatus =>
      dsimp only [Call.run] at hf
      cases hmoved : (s.moveStatus fromStatus toStatus).1 with
      | false => simp [hmoved, observe] at hf
      | true =>
        rw [hmoved] at hf
        rw [List.mem_singleton.mp hf]
        trivial
    | revertStatus claimedStatus fromStatus =>
      rw [List.mem_singleton.mp hf]
      trivial
    | _ => cases hf
  · -- a call that failed tells at most that it was made
    rw [Call.exec, hsettle] at hf
    cases q with
    | transfer id operationType recipient baseUnits =>
      rw [List.mem_singleton.mp hf]
      trivial
    | revertStatus claimedStatus fromStatus =>
      rw [List.mem_singleton.mp hf]
      trivial
    | _ => cases hf

/-- A transfer is the only call that broadcasts, and it is observed. -/
theorem broadcasts_exec (W : WdkConfig) (q : Call) (env : WdkEnv) (s : WdkStore) :
    (q.exec W env s).2.broadcasts = s.broadcasts ∨
      ∃ id operationType recipient baseUnits,
        q = .transfer id operationType recipient baseUnits ∧
        (q.exec W env s).2.broadcasts =
          s.broadcasts ++ [⟨id, operationType, recipient, baseUnits⟩] := by
  rcases env.fate.settle_store .fault (q.run W env s) s with hstore | hstore <;>
    rw [Call.exec, hstore]
  · exact Or.inl rfl
  cases q with
  | create input =>
    rw [Call.run, WdkStore.create]
    split <;> exact Or.inl rfl
  | replaceActive id expected input =>
    rw [Call.run, WdkStore.replaceActive]
    refine Or.inl ?_
    split
    · rfl
    · dsimp only
      split
      · split <;> rfl
      · rfl
  | updateStatus id status txHash expected =>
    rw [Call.run, WdkStore.updateStatus]
    refine Or.inl ?_
    split
    · rfl
    · split <;> rfl
  | transfer id operationType recipient baseUnits =>
    exact Or.inr ⟨id, operationType, recipient, baseUnits, rfl, rfl⟩
  | claimTransition f t =>
    rw [Call.run, WdkStore.moveStatus]
    split <;> exact Or.inl rfl
  | revertStatus f t =>
    rw [Call.run, WdkStore.moveStatus]
    split <;> exact Or.inl rfl
  | _ => exact Or.inl rfl

/-- A caller learns of a mark by making it : the attempt was `PREPARED`, and nothing was
broadcast. -/
theorem marked_observed {q : Call} {env : WdkEnv} (hq : Allowed W log q)
    (h : .marked id ∈ observe q s (q.exec W env s).1) :
    (∃ a, s.attempts[id]? = some a ∧ a.status = .PREPARED) ∧
      (q.exec W env s).2.broadcasts = s.broadcasts := by
  have hupdate : ∃ txHash expected, q = .updateStatus id .SUBMISSION_UNKNOWN txHash expected ∧
      (q.exec W env s).1 = (q.run W env s).1 ∧
      (s.updateStatus id .SUBMISSION_UNKNOWN txHash expected).1 = .ok true := by
    rcases env.fate.settle_answer .fault (q.run W env s) s with hsettle | hsettle
    · have hanswer : (q.exec W env s).1 = (q.run W env s).1 := by rw [Call.exec, hsettle]
      rw [hanswer] at h
      cases q with
      | findLatest operationType =>
        dsimp only [Call.run] at h
        cases hfound : latest env.tie operationType s.attempts with
        | none => simp [hfound, observe] at h
        | some found => simp [hfound, observe, rowFacts] at h
      | create input =>
        cases hanswer : (Call.run W (.create input) env s).1 <;> simp [hanswer, observe] at h
      | replaceActive previousId expected input =>
        cases hanswer : (Call.run W (.replaceActive previousId expected input) env s).1 <;>
          simp [hanswer, observe] at h
      | updateStatus id' status txHash expected =>
        dsimp only [Call.run] at h
        cases hwrote : (s.updateStatus id' status txHash expected).1 with
        | error e => simp [hwrote, observe] at h
        | ok claimed =>
          cases claimed with
          | false => simp [hwrote, observe] at h
          | true =>
            rw [hwrote] at h
            cases hq with
            | attempted =>
              cases List.mem_singleton.mp h
              exact ⟨none, [.PREPARED], rfl, hanswer, hwrote⟩
            | submitted => cases List.mem_singleton.mp h
            | confirmed => cases List.mem_singleton.mp h
            | reverted => cases h
      | transfer id' operationType recipient baseUnits => simp [Call.run, observe] at h
      | getTransactionReceipt txHash =>
        dsimp only [Call.run] at h
        split at h <;> simp [observe] at h
      | claimTransition f t =>
        dsimp only [Call.run] at h
        cases hmoved : (s.moveStatus f t).1 <;> simp [hmoved, observe] at h
      | revertStatus f t => simp [observe] at h
      | _ => cases h
    · have hanswer : (q.exec W env s).1 = .error .fault := by rw [Call.exec, hsettle]
      rw [hanswer] at h
      cases q with
      | transfer id' operationType recipient baseUnits => simp [observe] at h
      | revertStatus f t => simp [observe] at h
      | _ => cases h
  obtain ⟨txHash, expected, rfl, -, hwrote⟩ := hupdate
  refine ⟨?_, ?_⟩
  · cases hq
    rw [WdkStore.updateStatus] at hwrote
    cases hrow : s.attempts[id]? with
    | none => simp [hrow] at hwrote
    | some a =>
      simp only [hrow] at hwrote
      split at hwrote
      · next hexpected => exact ⟨a, rfl, by simpa using hexpected⟩
      · cases hwrote
  · rcases broadcasts_exec W (.updateStatus id .SUBMISSION_UNKNOWN txHash expected) env s with
      heq | ⟨_, _, _, _, hcall, -⟩
    · exact heq
    · cases hcall

/-! ## Runs -/

/-- The store is sound, what the callers know is true, an attempt is marked by one caller, and
a transfer that is about to be made has not been made. -/
structure Ledger (W : WdkConfig) (c : Wallet) : Prop where
  sound : Sound W c.store
  facts : ∀ {i : ℕ} {f : Fact}, f ∈ c.own i → f.Holds W c.store
  marker : ∀ {i j id : ℕ}, .marked id ∈ c.own i → .marked id ∈ c.own j → i = j
  fresh : ∀ {i id : ℕ} {rest : List Fact}, c.own i = .marked id :: rest →
    ∀ b ∈ c.store.broadcasts, b.attemptId ≠ id

/-- The escrow before any attempt. -/
def WdkStore.start (status : EscrowStatus) : WdkStore :=
  ⟨status, [], [], []⟩

theorem sound_start (status : EscrowStatus) : Sound W (.start status) :=
  ⟨fun h => by simp [WdkStore.start] at h, fun h => by simp [WdkStore.start] at h,
    fun h => by simp [WdkStore.start] at h, fun h => by simp [WdkStore.SentFor, WdkStore.start] at h,
    List.nodup_nil, by simp [WdkStore.start], fun h => by simp [WdkStore.start] at h⟩

theorem ledger_init (status : EscrowStatus) : Ledger W (.init (.start status)) :=
  ⟨sound_start status, nofun, nofun, nofun⟩

/-- An answer that is allowed keeps the ledger in order. -/
theorem Ledger.answer {c : Wallet} {i : ℕ} {env : WdkEnv} {req : WdkReq} {q : Call}
    {k : Except WdkError (Answer q) → WdkOp (List ℕ)} (hI : Ledger W c)
    (hq : Allowed W (c.own i) q) : Ledger W (c.answer (wdk W) i env req q k) := by
  obtain ⟨hsound, hkeep⟩ := sound_of_effects
    (@exec_effect W (c.own i) c.store q env hq fun id rest hlog => hI.fresh hlog) hI.sound
    fun f hf => hI.facts hf
  refine ⟨hsound, fun {j f} hf => ?_, fun {j j' id} hj hj' => ?_, fun {j id rest} hown b hb => ?_⟩
  · rcases Config.mem_own_of_answer hf with ⟨-, hf⟩ | hf
    · exact observe_holds hf
    · exact hkeep f (hI.facts hf)
  · -- a new mark is of an attempt nobody has marked
    have hnew : ∀ {n : ℕ}, .marked id ∈ observe q c.store (q.exec W env c.store).1 →
        .marked id ∉ c.own n := by
      intro n hobserved hold
      obtain ⟨⟨a, ha, hstatus⟩, -⟩ := marked_observed hq hobserved
      obtain ⟨a', ha', hstarted⟩ := hI.facts hold
      rw [ha] at ha'
      cases ha'
      exact hstarted hstatus
    rcases Config.mem_own_of_answer hj with ⟨rfl, h⟩ | h <;>
      rcases Config.mem_own_of_answer hj' with ⟨rfl, h'⟩ | h'
    · rfl
    · exact absurd h' (hnew h)
    · exact absurd h (hnew h')
    · exact hI.marker h h'
  · rcases broadcasts_exec W q env c.store with heq | ⟨id', op, recipient, amount, rfl, heq⟩
    · have hb' : b ∈ c.store.broadcasts := by
        rw [← heq]
        exact hb
      by_cases hji : j = i
      · subst hji
        rw [Config.own_answer_self] at hown
        rcases List.append_eq_cons_iff.mp hown with ⟨-, hown⟩ | ⟨rest', hobserved, -⟩
        · exact hI.fresh hown b hb'
        · -- the mark was made just now
          have hmem : Fact.marked id ∈ observe q c.store (q.exec W env c.store).1 := by
            have hcons : observe q c.store (q.exec W env c.store).1 = .marked id :: rest' := hobserved
            rw [hcons]
            exact List.mem_cons_self
          obtain ⟨⟨a, ha, hstatus⟩, -⟩ := marked_observed hq hmem
          rintro rfl
          obtain ⟨txHash, htx⟩ := List.getElem?_of_mem hb'
          obtain ⟨a', ha', hsends⟩ := hI.sound.sender htx
          rw [ha] at ha'
          cases ha'
          exact hsends.started hstatus
      · rw [Config.own_answer_of_ne hji] at hown
        exact hI.fresh hown b hb'
    · have hself : j ≠ i := by
        rintro rfl
        rw [Config.own_answer_self] at hown
        cases hanswer : (Call.exec W (.transfer id' op recipient amount) env c.store).1 with
        | error e => simp [hanswer, observe] at hown
        | ok txHash => simp [hanswer, observe] at hown
      rw [Config.own_answer_of_ne hself] at hown
      have hb' : b ∈ c.store.broadcasts ++ [⟨id', op, recipient, amount⟩] := by
        rw [← heq]
        exact hb
      rcases List.mem_append.mp hb' with hb' | hb'
      · exact hI.fresh hown b hb'
      · rw [List.mem_singleton.mp hb']
        rintro rfl
        obtain ⟨rest', hmarked⟩ := hq.marked
        exact hself (hI.marker (by rw [hown]; exact List.mem_cons_self)
          (by rw [hmarked]; exact List.mem_cons_self))

/-- What the transfers of an escrow come to. -/
structure TransfersOnce (W : WdkConfig) (c : Wallet) : Prop where
  /-- Of each operation at most one broadcast does not revert. -/
  delivered : ∀ {txHash txHash' : ℕ} {b b' : Broadcast}, c.store.broadcasts[txHash]? = some b →
    c.store.broadcasts[txHash']? = some b' → b.operationType = b'.operationType →
    W.reverts txHash = false → W.reverts txHash' = false → txHash = txHash'
  /-- A caller that is about to transfer has marked the attempt itself, and nobody else has. -/
  marked : ∀ {i id recipient : ℕ} {operationType : OperationType} {baseUnits : ℤ},
    c.next i = some (.transfer id operationType recipient baseUnits) →
    .marked id ∈ c.own i ∧ (∀ j, .marked id ∈ c.own j → j = i) ∧
      c.store.submissions.count id = 1 ∧ ∃ a, c.store.attempts[id]? = some a ∧
        a.operationType = operationType ∧ a.destination = recipient
  /-- The seller's leg is sent when the buyer's leg is confirmed. -/
  seller : ∀ {i id recipient : ℕ} {baseUnits : ℤ},
    c.next i = some (.transfer id .SPLIT_SELLER recipient baseUnits) →
    ∃ a ∈ c.store.attempts, a.operationType = .SPLIT_BUYER ∧ a.active = true ∧
      a.status = .CONFIRMED
  /-- The legs of a split that returned are confirmed and add up. -/
  split : ∀ {i buyerAddress sellerAddress : ℕ} {buyerBps : ℤ} {live : Bool} {txIds : List ℕ},
    c.threads[i]? = some ⟨.splitFunds buyerAddress sellerAddress buyerBps, .ret (.ok txIds), live⟩ →
    ∃ buyerTxId sellerTxId b b' a a', txIds = [buyerTxId, sellerTxId] ∧
      c.store.broadcasts[buyerTxId]? = some b ∧ c.store.broadcasts[sellerTxId]? = some b' ∧
      c.store.attempts[b.attemptId]? = some a ∧ c.store.attempts[b'.attemptId]? = some a' ∧
      b.operationType = .SPLIT_BUYER ∧ b'.operationType = .SPLIT_SELLER ∧
      a.status = .CONFIRMED ∧ a'.status = .CONFIRMED ∧ b.amount + b'.amount = W.total

/-- Two broadcasts of an operation that do not revert are one. -/
theorem Sound.delivered (hs : Sound W s) {txHash txHash' : ℕ} {b b' : Broadcast}
    (hb : s.broadcasts[txHash]? = some b) (hb' : s.broadcasts[txHash']? = some b')
    (hop : b.operationType = b'.operationType) (hmined : W.reverts txHash = false)
    (hmined' : W.reverts txHash' = false) : txHash = txHash' := by
  -- an attempt that was left behind has a transaction that reverted, and no other
  have hactive : ∀ {txHash : ℕ} {b : Broadcast} {a : Attempt}, s.broadcasts[txHash]? = some b →
      s.attempts[b.attemptId]? = some a → W.reverts txHash = false → a.active = true := by
    intro txHash b a hb ha hmined
    refine (hs.row ha).active fun hreverted => ?_
    obtain ⟨txHash', -, hfor, -, hreverts⟩ := (hs.row ha).sent (by rw [hreverted]; rfl)
    obtain rfl := hs.once ⟨b, hb, rfl⟩ hfor
    rw [hreverts hreverted] at hmined
    cases hmined
  obtain ⟨a, ha, hsends⟩ := hs.sender hb
  obtain ⟨a', ha', hsends'⟩ := hs.sender hb'
  have hsame : b.attemptId = b'.attemptId :=
    hs.active ha ha' (hactive hb ha hmined) (hactive hb' ha' hmined')
      (hsends.operationType.trans (hop.trans hsends'.operationType.symm))
  exact hs.once ⟨b, hb, rfl⟩ ⟨b', hb', hsame.symm⟩

/-- A ledger in order sends every transfer once. -/
theorem Ledger.transfersOnce {c : Wallet}
    (hc : Config.Conforms (wdk W) (fun _ => True) (fun _ => Allowed W) (SplitResult W) c)
    (hI : Ledger W c) : TransfersOnce W c := by
  have howned : ∀ {i id recipient : ℕ} {operationType : OperationType} {baseUnits : ℤ},
      c.next i = some (.transfer id operationType recipient baseUnits) →
      Owned W (c.own i) id operationType recipient baseUnits := by
    intro i id recipient operationType baseUnits hnext
    obtain ⟨req, k, ht⟩ := Config.call_of_next hnext
    exact hc.guard ht
  refine ⟨hI.sound.delivered, fun {i id recipient op baseUnits} hnext => ?_,
    fun {i id recipient baseUnits} hnext => ?_, fun {i b s bps live txIds} ht => ?_⟩
  · obtain ⟨rest, hlog⟩ := (howned hnext).marked
    have hmarked : Fact.marked id ∈ c.own i := by
      rw [hlog]
      exact List.mem_cons_self
    obtain ⟨row, hrow, hop, hdest, -⟩ := (howned hnext).attempt
    obtain ⟨a, ha, rfl⟩ := hI.facts hrow
    obtain ⟨a', ha', hstarted⟩ := hI.facts hmarked
    refine ⟨hmarked, fun j hj => hI.marker hj hmarked, ?_, a, ha, hop, hdest⟩
    exact List.count_eq_one_of_mem hI.sound.nodup (hI.sound.submitted.mpr ⟨a', ha', hstarted⟩)
  · obtain ⟨txHash, hsettled⟩ := (howned hnext).buyer rfl
    obtain ⟨b, a, -, ha, -, hop, hconfirmed, -⟩ := hI.sound.settled (fun f hf => hI.facts hf) hsettled
    refine ⟨a, List.mem_of_getElem? ha, hop, (hI.sound.row ha).active ?_, hconfirmed⟩
    rw [hconfirmed]
    decide
  · obtain ⟨buyerTxId, sellerTxId, rfl, hbuyer, hseller⟩ := hc.result ht b s bps txIds rfl rfl
    obtain ⟨b₁, a₁, hb₁, ha₁, hop₁, -, hstatus₁, hamount₁, -⟩ :=
      hI.sound.settled (fun f hf => hI.facts hf) hbuyer
    obtain ⟨b₂, a₂, hb₂, ha₂, hop₂, -, hstatus₂, hamount₂, -⟩ :=
      hI.sound.settled (fun f hf => hI.facts hf) hseller
    refine ⟨buyerTxId, sellerTxId, b₁, b₂, a₁, a₂, rfl, hb₁, hb₂, ha₁, ha₂, hop₁, hop₂, hstatus₁,
      hstatus₂, ?_⟩
    rw [hamount₁ rfl, hamount₂ rfl]
    omega

/-- Every reached configuration conforms and has its ledger in order. -/
theorem ledger_exec (W : WdkConfig) (status : EscrowStatus)
    (as : List (Action WdkEnv WdkReq)) :
    Config.Conforms (wdk W) (fun _ => True) (fun _ => Allowed W) (SplitResult W)
        (Config.exec (wdk W) (.init (.start status)) as) ∧
      Ledger W (Config.exec (wdk W) (.init (.start status)) as) := by
  refine Config.run_invariant (A := fun _ _ => True) (fun req => prog_allowed req)
    (fun _ _ _ _ => trivial) ?_ ?_ ?_ as (Config.conforms_init trivial) (ledger_init status)
    (Config.along_true as)
  · intro c req _ hI _
    exact ⟨hI.sound, hI.facts, hI.marker, hI.fresh⟩
  · intro c i env req q k _ hI _ _ hq
    exact hI.answer hq
  · intro c i t _ hI _ _
    exact ⟨hI.sound, hI.facts, hI.marker, hI.fresh⟩

/-- Whatever callers run, in any order, with any failures and crashes, transfers are made once :
at most one broadcast of each operation does not revert, every transfer follows its caller's own
mark, the seller's leg follows the confirmed buyer's leg, and the legs of a split add up. -/
theorem transfers_once (W : WdkConfig) (status : EscrowStatus)
    (as : List (Action WdkEnv WdkReq)) :
    TransfersOnce W (Config.exec (wdk W) (.init (.start status)) as) := by
  obtain ⟨hc, hI⟩ := ledger_exec W status as
  exact hI.transfersOnce hc

end Sails.Wdk
