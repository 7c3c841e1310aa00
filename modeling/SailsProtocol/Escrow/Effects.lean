import SailsProtocol.Async.ClaimStack
import SailsProtocol.Escrow.Conformance

/-!
# What one call does

Three facts about a single call that the properties of runs start from. `of_mem_observe`
says which call an observation comes from. `Footprint.of_append` says that a field of a
footprint changes only with the observations that write it. `exec_status` says what a call
does to the status : nothing, a claim, or a revert.
-/

namespace Sails

open Async Async.Config Async.ClaimStack

/-! ## Observations -/

/-- The claim a call attempts. -/
def Call.claim? : Call → Option (EscrowStatus × EscrowStatus)
  | .claimTransition src dst => some (src, dst)
  | .claimPaymentPending src => some (src, .paymentPending)
  | .commitTimelockExpiry => some (.fundsLocked, .expired)
  | _ => none

/-- The observation `o` can come from the call `q`, made in the store `s`. -/
def Obs.Of (q : Call) (s : World) (ok : Bool) : Obs → Prop
  | .failed | .refused => ok = false
  | .read _ => q = .findById
  | .claimed src dst => q.claim? = some (src, dst)
  | .reverted dst src | .revertLost dst src | .revertFailed dst src => q = .revertStatus dst src
  | .locked type keys _ => q = .providerLock type keys
  | .moved k => ok = true ∧ ∃ t, q = .providerMove t k
  | .handedOver pass k st => q = .broadcast pass k ∧ st = s.escrow.status
  | .rowWritten t => ∃ e, q = .recordEscrowEvent e ∧ e.toStatus = t
  | .rowFound t => (∃ e, q = .recordEscrowEvent e ∧ e.toStatus = t) ∨ q = .alreadyEmitted t
  | .published t => q = .publish t
  | .snapshot _ => q = .findTerminalWithoutTxReleaseId
  | .completionSnapshot _ => q = .findTerminalWithTxReleaseId
  | .txIdWritten t => ∃ n, q = .writeMissingTxReleaseId t n
  | .keysRead _ _ => q = .findParticipantKeys
  | .pubkeysLoaded _ => q = .loadParticipantPubkeys
  | .derived type b s _ => q = .getDepositAddress type b s
  | .addressWritten a => q = .updateMultisigAddr a
  | .arbiterWritten k => q = .createArbiterKey k

/-- Where an observation comes from. -/
theorem of_mem_observe {q : Call} {s : World} {r : Except Err q.Ans} {o : Obs}
    (ho : o ∈ q.observe s r) : o.Of q s r.isOk := by
  cases r with
  | ok a =>
    revert ho
    cases q <;> simp only [Call.observe, Call.answered] <;> (repeat' split) <;>
      first
        | exact fun ho => absurd ho List.not_mem_nil
        | (intro ho; cases List.mem_singleton.mp ho; simp [Obs.Of, Call.claim?, Except.isOk,
            Except.toBool])
  | error e =>
    simp only [Call.observe, Call.thrown] at ho
    split at ho
    · cases List.mem_singleton.mp ho
      rfl
    · rcases List.mem_pair.mp ho with rfl | rfl
      · rfl
      · exact ⟨rfl, rfl⟩
    · split at ho <;> cases List.mem_singleton.mp ho <;> rfl

/-- A field that no new observation writes is kept. -/
theorem Footprint.of_append {γ : Type} (π : Footprint → γ) {os h : List Obs}
    (hπ : ∀ o ∈ os, ∀ f : Footprint, π (f.next o) = π f) :
    π (Footprint.of (os ++ h)) = π (Footprint.of h) := by
  induction os with
  | nil => rfl
  | cons o os ih =>
    rw [List.cons_append, Footprint.of_cons, hπ o List.mem_cons_self]
    exact ih fun o' ho' => hπ o' (List.mem_cons_of_mem _ ho')

/-- A flag that only a failure raises stays down without one. -/
theorem Footprint.flag_append (π : Footprint → Bool)
    (hπ : ∀ (f : Footprint) (o : Obs), o ≠ .failed → π f = false → π (f.next o) = false)
    {os h : List Obs} (hos : .failed ∉ os) (hold : π (Footprint.of h) = false) :
    π (Footprint.of (os ++ h)) = false := by
  induction os with
  | nil => exact hold
  | cons o os ih =>
    refine hπ _ o ?_ (ih fun hmem => hos (List.mem_cons_of_mem o hmem))
    rintro rfl
    exact hos List.mem_cons_self

/-- The observations of an error. -/
theorem observe_error (q : Call) (s : World) (e : Err) :
    q.observe s (.error e) = [.failed] ∨ q.observe s (.error e) = [.refused] ∨
    (∃ dst src, q = .revertStatus dst src ∧
      q.observe s (.error e) = [.revertFailed dst src]) ∨
    ∃ pass k, q = .broadcast pass k ∧
      q.observe s (.error e) = [.failed, .handedOver pass k s.escrow.status] := by
  simp only [Call.observe, Call.thrown]
  split
  · exact Or.inr (Or.inr (Or.inl ⟨_, _, rfl, rfl⟩))
  · exact Or.inr (Or.inr (Or.inr ⟨_, _, rfl, rfl⟩))
  · split
    · exact Or.inl rfl
    · exact Or.inr (Or.inl rfl)
    · exact Or.inl rfl

/-- A call is observed at most once, a failed broadcast twice. -/
theorem observe_cases (q : Call) (s : World) (r : Except Err q.Ans) :
    q.observe s r = [] ∨ (∃ o, q.observe s r = [o]) ∨
      ∃ pass k st, q.observe s r = [.failed, .handedOver pass k st] := by
  cases r with
  | ok a =>
    have hlength : (q.observe s (.ok a)).length ≤ 1 := by
      cases q <;> simp only [Call.observe, Call.answered] <;> (repeat' split) <;>
        first | exact Nat.zero_le _ | exact le_rfl
    generalize q.observe s (.ok a) = os at hlength ⊢
    rcases os with _ | ⟨o, _ | ⟨o', os⟩⟩
    · exact Or.inl rfl
    · exact Or.inr (Or.inl ⟨o, rfl⟩)
    · exact absurd hlength (by simp)
  | error e =>
    rcases observe_error q s e with ho | ho | ⟨_, _, -, ho⟩ | ⟨_, _, -, ho⟩
    · exact Or.inr (Or.inl ⟨_, ho⟩)
    · exact Or.inr (Or.inl ⟨_, ho⟩)
    · exact Or.inr (Or.inl ⟨_, ho⟩)
    · exact Or.inr (Or.inr ⟨_, _, _, ho⟩)

section Fields

variable {q : Call} {s : World} {r : Except Err q.Ans} {h : List Obs}

theorem moved_append (hq : ∀ t k, q ≠ .providerMove t k) :
    (Footprint.of (q.observe s r ++ h)).moved = (Footprint.of h).moved := by
  refine Footprint.of_append _ fun o ho f => ?_
  have hof := of_mem_observe ho
  cases o <;> first | rfl | exact absurd hof.2.choose_spec (hq _ _)

theorem claim_append (hq : q.claim? = none) :
    (Footprint.of (q.observe s r ++ h)).claim = (Footprint.of h).claim := by
  refine Footprint.of_append _ fun o ho f => ?_
  have hof := of_mem_observe ho
  cases o <;> first | rfl | exact absurd (hq.symm.trans hof) (by simp)

theorem undo_append (hq : ∀ dst src, q ≠ .revertStatus dst src) :
    (Footprint.of (q.observe s r ++ h)).undo = (Footprint.of h).undo := by
  refine Footprint.of_append _ fun o ho f => ?_
  have hof := of_mem_observe ho
  cases o <;> first | rfl | exact absurd hof (hq _ _)

/-- A call strands an operation when it fails between the move and the emission. -/
theorem stranded_append (hs : (Footprint.of (q.observe s r ++ h)).stranded = true) :
    (Footprint.of h).stranded = true ∨
      (r.isOk = false ∧ (Footprint.of h).moved = true ∧ (Footprint.of h).emitted = false) := by
  cases r with
  | ok a =>
    have hkept : (Footprint.of (q.observe s (.ok a) ++ h)).stranded =
        (Footprint.of h).stranded := by
      refine Footprint.of_append _ fun o ho f => ?_
      have hof := of_mem_observe ho
      cases o <;> first | rfl | cases hof
    exact Or.inl (hkept.symm.trans hs)
  | error e =>
    rcases observe_error q s e with ho | ho | ⟨_, _, rfl, ho⟩ | ⟨_, _, rfl, ho⟩ <;>
      rw [ho] at hs <;> simp [Footprint.next] at hs <;> simp [hs, Except.isOk, Except.toBool]

end Fields

/-! ## The status -/

/-- The change of the status an observation of operation `i` reports. -/
def Obs.change? (i : ℕ) : Obs → Option (Change EscrowStatus)
  | .claimed src dst => some (.claim i src dst)
  | .reverted dst src => some (.revert i dst src)
  | _ => none

/-- The calls that write the status. -/
def Call.writesStatus : Call → Bool
  | .claimTransition _ _ | .claimPaymentPending _ | .commitTimelockExpiry
  | .revertStatus _ _ => true
  | _ => false

variable {cfg : Settings}

theorem status_of_not_writes {q : Call} (hq : q.writesStatus = false) (env : Env) (s : World) :
    (q.exec cfg env s).2.escrow.status = s.escrow.status := by
  obtain ⟨fault, _⟩ := env
  cases fault with
  | some f => rfl
  | none => cases q <;> cases hq <;> simp only [Call.exec, Call.run] <;> (repeat' split) <;> rfl

/-- Only a call that writes the status reports a change of it. -/
theorem change_of_not_writes {q : Call} (hq : q.writesStatus = false) {s : World}
    {r : Except Err q.Ans} {o : Obs} (ho : o ∈ q.observe s r) (i : ℕ) : o.change? i = none := by
  have hof := of_mem_observe ho
  cases o <;> first
    | rfl
    | (exfalso; cases q <;> cases hq <;> cases hof)

/-- A call leaves the status and reports no change, or claims a transition out of the
status, or reverts one into it. -/
theorem exec_status (cfg : Settings) (q : Call) (env : Env) (s : World) :
    ((q.exec cfg env s).2.escrow.status = s.escrow.status ∧
      ∀ o ∈ q.observe s (q.exec cfg env s).1, ∀ i, o.change? i = none) ∨
    (∃ dst, q.claim? = some (s.escrow.status, dst) ∧
      q.observe s (q.exec cfg env s).1 = [.claimed s.escrow.status dst] ∧
      (q.exec cfg env s).2.escrow.status = dst) ∨
    ∃ src, q = .revertStatus s.escrow.status src ∧
      q.observe s (q.exec cfg env s).1 = [.reverted s.escrow.status src] ∧
      (q.exec cfg env s).2.escrow.status = src := by
  by_cases hq : q.writesStatus = false
  · exact Or.inl ⟨status_of_not_writes hq env s, fun o ho i => change_of_not_writes hq ho i⟩
  obtain ⟨fault, _⟩ := env
  cases fault with
  | some f =>
    refine Or.inl ⟨rfl, fun o ho i => ?_⟩
    cases q <;> first | exact absurd rfl hq | (cases List.mem_singleton.mp ho; rfl)
  | none =>
    cases q <;> first
      | exact absurd rfl hq
      | skip
    case claimTransition src dst =>
      by_cases hs : s.escrow.status = src
      · refine Or.inr (Or.inl ⟨dst, ?_⟩)
        simp [Call.claim?, Call.exec, Call.run, Call.observe, Call.answered, World.setStatus, hs]
      · exact Or.inl (by simp [Call.exec, Call.run, Call.observe, Call.answered, hs])
    case claimPaymentPending src =>
      cases hu : s.fundingUncertain with
      | true =>
        exact Or.inl (by simp [Call.exec, Call.run, Call.observe, Call.thrown, Call.refusable,
          Obs.change?, hu])
      | false =>
        by_cases hs : s.escrow.status = src
        · refine Or.inr (Or.inl ⟨.paymentPending, ?_⟩)
          simp [Call.claim?, Call.exec, Call.run, Call.observe, Call.answered, World.setStatus,
            hs, hu]
        · exact Or.inl (by simp [Call.exec, Call.run, Call.observe, Call.answered, hs, hu])
    case commitTimelockExpiry =>
      by_cases hs : s.escrow.status = .fundsLocked
      · refine Or.inr (Or.inl ⟨.expired, ?_⟩)
        simp [Call.claim?, Call.exec, Call.run, Call.observe, Call.answered, World.setStatus, hs]
      · exact Or.inl (by simp [Call.exec, Call.run, Call.observe, Call.answered, hs])
    case revertStatus dst src =>
      by_cases hs : s.escrow.status = dst
      · refine Or.inr (Or.inr ⟨src, ?_⟩)
        simp [Call.exec, Call.run, Call.observe, Call.answered, World.setStatus, hs]
      · exact Or.inl (by simp [Call.exec, Call.run, Call.observe, Call.answered, Obs.change?, hs])

/-! ## Failures -/

theorem exec_of_no_fault {q : Call} {env : Env} {s : World} (hf : env.fault = none) :
    q.exec cfg env s = q.run cfg env s := by
  rw [Call.exec, hf]

/-- Without a fault, only a call that has errors of its own answers with one. -/
theorem run_error {q : Call} {env : Env} {s : World} {e : Err}
    (he : (q.run cfg env s).1 = .error e) : q.refusable = true ∧ ∀ f, e ≠ .fault f := by
  cases q
  case providerLock type keys =>
    refine ⟨rfl, ?_⟩
    rintro f rfl
    obtain ⟨_ | b, _ | k, _ | a⟩ := keys <;> cases type <;>
      simp [Call.run, ParticipantPubkeys.partiesFor] at he
  all_goals
    simp only [Call.run] at he
    (repeat' split at he) <;> cases he <;> exact ⟨rfl, by simp⟩

theorem thrown_of_not_fault {q : Call} (hq : q.refusable = true) {e : Err} (he : ∀ f, e ≠ .fault f)
    (s : World) : q.thrown e s = [.refused] := by
  cases q <;> cases hq <;> cases e <;> first | rfl | exact absurd rfl (he _)

/-- A call that meets no fault, or that cannot fail, is not observed as failed. -/
theorem not_failed {q : Call} {env : Env} {s : World}
    (hf : env.fault = none ∨ q.unfailing = true) :
    .failed ∉ q.observe s (q.exec cfg env s).1 := by
  intro hmem
  cases hr : (q.exec cfg env s).1 with
  | ok a =>
    rw [hr] at hmem
    have hof := of_mem_observe hmem
    cases hof
  | error e =>
    cases hfault : env.fault with
    | none =>
      rw [hr] at hmem
      rw [Call.exec, hfault] at hr
      obtain ⟨hq, he⟩ := run_error hr
      rw [Call.observe, thrown_of_not_fault hq he] at hmem
      simp at hmem
    | some f =>
      rw [Call.exec, hfault] at hr
      rcases hf with hnone | hq
      · rw [hfault] at hnone
        cases hnone
      · cases q <;> cases hq <;> cases hr

/-- A claim that takes effect meets no fault. -/
theorem fault_of_claimed {q : Call} {env : Env} {s : World} {src dst : EscrowStatus}
    (ho : .claimed src dst ∈ q.observe s (q.exec cfg env s).1) : env.fault = none := by
  have hof : q.claim? = some (src, dst) := of_mem_observe ho
  cases hfault : env.fault with
  | none => rfl
  | some f =>
    rw [Call.exec, hfault] at ho
    cases q <;> cases hof <;> cases List.mem_singleton.mp ho

end Sails
