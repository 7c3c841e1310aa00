import SailsProtocol.Escrow.Claims

/-!
# Broadcasts under a held claim

A settlement transaction should reach the network only under a claim of its terminal
status. The live path claims first. The recovery of fully signed transactions (PASS 0)
broadcasts before it claims, so a refund left over from a failed broadcast is sent after
the buyer marked the payment as sent (`broadcast_without_claim`).

`broadcasts_under_claim` is the exact repair : when PASS 0 does not come to a broadcast of
its own, a transaction rebuilt for its correspondence is one of the status the escrow is
in, and no claim is taken back under the eyes of a worker that has read the escrow in the
claimed status, every broadcast of every run happens in the terminal status of its kind,
held by a claim along the table.
-/

namespace Sails

open Async Async.Config Async.ClaimStack

variable {cfg : Settings} {w : World}

/-- An operation claimed the target of `k` along the table and has not taken it back. -/
def TargetHeld (trace : List (ℕ × Obs)) (k : SettlementKind) : Prop :=
  ∃ i src, ValidTransition src k.target ∧ (i, .claimed src k.target) ∈ trace ∧
    (i, .reverted k.target src) ∉ trace

/-- Every transaction handed over met the terminal status of its kind, held by a claim. -/
def BroadcastsHeld : List (ℕ × Obs) → Prop
  | [] => True
  | (_, .handedOver _ k status) :: trace =>
    (status = k.target ∧ TargetHeld trace k) ∧ BroadcastsHeld trace
  | _ :: trace => BroadcastsHeld trace

/-- A broadcast that is held is one of the status it is made for. -/
theorem BroadcastsHeld.status {trace : List (ℕ × Obs)} (hb : BroadcastsHeld trace) {i : ℕ}
    {pass : Pass} {k : SettlementKind} {status : EscrowStatus}
    (hmem : (i, .handedOver pass k status) ∈ trace) : status = k.target := by
  induction trace with
  | nil => cases hmem
  | cons e trace ih =>
    rcases List.mem_cons.mp hmem with rfl | hmem'
    · exact hb.1.1
    · obtain ⟨j, o⟩ := e
      cases o <;> first | exact ih hb hmem' | exact ih hb.2 hmem'

/-- An operation in flight has read the escrow in the terminal status `t`, to recover its
transaction. -/
def recovering (c : EscrowConfig) (t : EscrowStatus) : Bool :=
  (List.range c.threads.length).any fun j =>
    (c.next j).isSome && decide ((Footprint.of (c.own j)).snapshot = some t)

/-- The step is no broadcast of PASS 0, rebuilds a transaction only in the terminal status of
its kind, and takes no claim back under a worker that recovers under it. -/
def claimsBeforeBroadcast (c : EscrowConfig) : Step → Bool
  | .start _ => true
  | .run i env =>
    match c.next i with
    | some (.broadcast .unclaimed _) => false
    | some (.broadcast .missingEffects kind) => decide (c.store.escrow.status = kind.target)
    | some (.revertStatus dst _) =>
      !(env.fault.isNone && decide (c.store.escrow.status = dst) && recovering c dst)
    | _ => true
  | .crash _ => true

theorem recovering_of_snapshot {c : EscrowConfig} {j : ℕ} {t : EscrowStatus}
    (hn : c.next j ≠ none) (hsnap : (Footprint.of (c.own j)).snapshot = some t) :
    recovering c t = true := by
  refine List.any_eq_true.mpr ⟨j, List.mem_range.mpr ?_, ?_⟩
  · by_contra hj
    exact hn (next_length (Nat.not_lt.mp hj))
  · simp [Option.isSome_iff_ne_none.mpr hn, hsnap]

/-- What the runs keep : a worker in flight that recovers still sees the status it read, and
every broadcast was held. -/
structure BroadcastInv (c : EscrowConfig) : Prop where
  snapshots : ∀ j t, c.next j ≠ none → (Footprint.of (c.own j)).snapshot = some t →
    c.store.escrow.status = t ∧ t.terminal = true
  held : BroadcastsHeld c.trace

section Steps

variable {c : EscrowConfig} {i : ℕ} {env : Env} {req : Request} {q : Call}
variable {k : Except Err q.Ans → Op Unit}

theorem snapshot_append {s : World} {r : Except Err q.Ans} {h : List Obs}
    (hq : q ≠ .findTerminalWithoutTxReleaseId) :
    (Footprint.of (q.observe s r ++ h)).snapshot = (Footprint.of h).snapshot := by
  refine Footprint.of_append _ fun o ho f => ?_
  have hof := of_mem_observe ho
  cases o <;> first | rfl | exact absurd hof hq

/-- The recovery query reads a terminal status, and it is the status. -/
theorem snapshot_query {s : World} {h : List Obs} {t : EscrowStatus}
    (hsnap : (Footprint.of (Call.findTerminalWithoutTxReleaseId.observe s
      (Call.findTerminalWithoutTxReleaseId.exec cfg env s).1 ++ h)).snapshot = some t) :
    (Footprint.of h).snapshot = some t ∨ (s.escrow.status = t ∧ t.terminal = true) := by
  obtain ⟨fault, _⟩ := env
  cases fault with
  | some f => exact Or.inl hsnap
  | none =>
    by_cases hs : s.escrow.status.terminal = true ∧ s.escrow.txReleaseId = none
    · simp only [Call.exec, Call.run, if_pos hs, Call.observe, Call.answered] at hsnap
      cases hsnap
      exact Or.inr ⟨rfl, hs.1⟩
    · simp only [Call.exec, Call.run, if_neg hs, Call.observe, Call.answered] at hsnap
      exact Or.inl hsnap

/-- No step moves the status while a PASS 1 worker is in flight. -/
theorem BroadcastInv.status_step (hI : BroadcastInv c)
    (hA : claimsBeforeBroadcast c (.run i env) = true)
    (ht : c.threads[i]? = some ⟨req, .call q k, true⟩) (hg : Guard req (c.own i) q) {j : ℕ}
    {t : EscrowStatus} (hn : c.next j ≠ none)
    (hsnap : (Footprint.of (c.own j)).snapshot = some t) :
    (q.exec cfg env c.store).2.escrow.status = c.store.escrow.status := by
  obtain ⟨hst, hterm⟩ := hI.snapshots j t hn hsnap
  rcases exec_status cfg q env c.store with ⟨hkeep, -⟩ | ⟨dst, hq, -, -⟩ | ⟨src, rfl, hos, -⟩
  · exact hkeep
  · rw [hst] at hq
    exact absurd (hg.claim hq).2.2 (EscrowStatus.not_valid_of_terminal hterm _)
  · obtain ⟨fault, _⟩ := env
    cases fault with
    | some f => rfl
    | none =>
      rw [claimsBeforeBroadcast, next_of_call ht, hst] at hA
      simp [recovering_of_snapshot hn hsnap] at hA

theorem BroadcastInv.snapshots_answer (hI : BroadcastInv c)
    (hA : claimsBeforeBroadcast c (.run i env) = true)
    (ht : c.threads[i]? = some ⟨req, .call q k, true⟩) (hg : Guard req (c.own i) q) (j : ℕ)
    (t : EscrowStatus) (hn : (c.answer (escrowSystem cfg) i env req q k).next j ≠ none)
    (hsnap : (Footprint.of ((c.answer (escrowSystem cfg) i env req q k).own j)).snapshot =
      some t) :
    (q.exec cfg env c.store).2.escrow.status = t ∧ t.terminal = true := by
  have hkept : ∀ j, c.next j ≠ none → (Footprint.of (c.own j)).snapshot = some t →
      (q.exec cfg env c.store).2.escrow.status = t ∧ t.terminal = true := by
    intro j hn hsnap
    rw [hI.status_step hA ht hg hn hsnap]
    exact hI.snapshots j t hn hsnap
  by_cases hij : j = i
  · subst hij
    have hni : c.next j ≠ none := by
      rw [next_of_call ht]
      simp
    rw [own_answer_self] at hsnap
    by_cases hq : q = .findTerminalWithoutTxReleaseId
    · subst hq
      rcases snapshot_query hsnap with hsnap | ⟨hst, hterm⟩
      · exact hkept j hni hsnap
      · exact ⟨(status_of_not_writes rfl env c.store).trans hst, hterm⟩
    · exact hkept j hni ((snapshot_append hq).symm.trans hsnap)
  · rw [next_answer_of_ne hij] at hn
    rw [own_answer_of_ne hij] at hsnap
    exact hkept j hn hsnap

/-- A broadcast meets the terminal status of its kind. -/
theorem BroadcastInv.status_broadcast (hs : Sound cfg w c) (hI : BroadcastInv c) {pass : Pass}
    {kind : SettlementKind} (hA : claimsBeforeBroadcast c (.run i env) = true)
    (hn : c.next i = some (.broadcast pass kind))
    (hg : Guard req (c.own i) (.broadcast pass kind)) : c.store.escrow.status = kind.target := by
  cases pass with
  | live =>
    obtain ⟨src, hh⟩ := hg.2.2
    exact (hs.terminal_inForce (hs.inForce_of_holds hh) kind.terminal_target).1
  | unclaimed =>
    rw [claimsBeforeBroadcast, hn] at hA
    cases hA
  | missingTxId => exact (hI.snapshots i _ (by rw [hn]; simp) hg.2.2).1
  | missingEffects =>
    rw [claimsBeforeBroadcast, hn] at hA
    exact of_decide_eq_true hA

/-- A terminal status is held by a claim along the table. -/
theorem Sound.targetHeld (hs : Sound cfg w c) (hw : w.escrow.status.terminal = false)
    {kind : SettlementKind} (hst : c.store.escrow.status = kind.target) :
    TargetHeld c.trace kind := by
  have hne : c.store.escrow.status ≠ w.escrow.status := by
    intro heq
    rw [← heq, hst, kind.terminal_target] at hw
    cases hw
  obtain ⟨j, src, l, hl, hv⟩ := hs.holder_of_ne hne
  rw [hst] at hl hv
  obtain ⟨hclaim, hrevert⟩ := hs.mem_inForce.mp (hl ▸ List.mem_cons_self)
  exact ⟨j, src, hv, mem_own.mp hclaim, fun hr => hrevert _ _ (mem_own.mpr hr)⟩

/-- Observations that hand nothing over keep what is held. -/
theorem BroadcastsHeld.append {os : List Obs} {trace : List (ℕ × Obs)} (hb : BroadcastsHeld trace)
    (hos : ∀ o ∈ os, ∀ pass k st, o ≠ .handedOver pass k st) :
    BroadcastsHeld (os.map (Prod.mk i) ++ trace) := by
  induction os with
  | nil => exact hb
  | cons o os ih =>
    have htail := ih fun o' ho' => hos o' (List.mem_cons_of_mem _ ho')
    cases o <;> first | exact htail | exact absurd rfl (hos _ List.mem_cons_self _ _ _)

/-- A call keeps each broadcast under the claim it was made for. -/
theorem BroadcastInv.held_answer (hs : Sound cfg w c) (hw : w.escrow.status.terminal = false)
    (hI : BroadcastInv c) (hA : claimsBeforeBroadcast c (.run i env) = true)
    (ht : c.threads[i]? = some ⟨req, .call q k, true⟩) (hg : Guard req (c.own i) q) :
    BroadcastsHeld (c.answer (escrowSystem cfg) i env req q k).trace := by
  by_cases hq : ∃ pass kind, q = .broadcast pass kind
  · obtain ⟨pass, kind, rfl⟩ := hq
    have hst := hI.status_broadcast hs hA (next_of_call ht) hg
    have hheld : BroadcastsHeld ((i, .handedOver pass kind c.store.escrow.status) :: c.trace) :=
      ⟨⟨hst, hs.targetHeld hw hst⟩, hI.held⟩
    obtain ⟨fault, _⟩ := env
    cases fault with
    | some f => exact hheld
    | none => exact hheld
  · refine hI.held.append fun o ho pass kind st heq => hq ⟨pass, kind, ?_⟩
    subst heq
    exact (of_mem_observe ho).1

theorem BroadcastInv.answer (hs : Sound cfg w c) (hw : w.escrow.status.terminal = false)
    (hI : BroadcastInv c) (hA : claimsBeforeBroadcast c (.run i env) = true)
    (ht : c.threads[i]? = some ⟨req, .call q k, true⟩) (hg : Guard req (c.own i) q) :
    BroadcastInv (c.answer (escrowSystem cfg) i env req q k) :=
  ⟨hI.snapshots_answer hA ht hg, hI.held_answer hs hw hA ht hg⟩

/-- A new request keeps the invariant. -/
theorem BroadcastInv.spawn (hs : Sound cfg w c) (hI : BroadcastInv c) (req : Request) :
    BroadcastInv (c.spawn (escrowSystem cfg) req) := by
  refine ⟨fun j t hn hsnap => ?_, hI.held⟩
  by_cases hj : j = c.threads.length
  · rw [own_spawn, hs.conforms.own_length hj.ge] at hsnap
    cases hsnap
  · rw [next_spawn_of_ne hj] at hn
    exact hI.snapshots j t hn hsnap

/-- A crash keeps the invariant. -/
theorem BroadcastInv.kill (hI : BroadcastInv c) {t : Thread Call.Ans Err Unit Request} :
    BroadcastInv (c.kill i t) := by
  refine ⟨fun j t' hn hsnap => ?_, hI.held⟩
  by_cases hij : j = i
  · subst hij
    exact absurd next_kill_self hn
  · rw [next_kill_of_ne hij] at hn
    exact hI.snapshots j t' hn hsnap

end Steps

/-- In a run that claims before it broadcasts, every broadcast is held. -/
theorem broadcasts_under_claim (cfg : Settings) (w : World) (as : List Step)
    (hw : w.escrow.status.terminal = false)
    (hA : Along (escrowSystem cfg) (fun c a => claimsBeforeBroadcast c a = true)
      (Config.init w) as) : BroadcastsHeld (reach cfg w as).trace := by
  have hI := run_induction (I := BroadcastInv)
    ⟨fun j t hn => absurd (next_length (Nat.zero_le _)) hn, trivial⟩
    (fun hs hI _ => hI.spawn hs _) (fun hs hI hA ht hg => hI.answer hs hw hA ht hg)
    (fun _ hI _ _ => hI.kill) as hA
  exact hI.2.held

/-- A refund that both parties sign and that goes through. -/
def signedRefund : List Step :=
  .start (.initiateRefund (.user 2)) :: calls 0 9 ++
    .start (.submitTransactionSignature 2) :: calls 1 4 ++
    .start (.submitTransactionSignature 1) :: calls 2 15

/-- The refund is broadcast once, in `REFUNDED`. -/
theorem broadcasts_under_claim_signedRefund :
    ((2, .handedOver .live .refund .refunded) ∈ (reach .plain .funded signedRefund).trace ∧
      Along (escrowSystem .plain) (fun c a => claimsBeforeBroadcast c a = true)
        (Config.init .funded) signedRefund) ∧
    BroadcastsHeld (reach .plain .funded signedRefund).trace :=
  ⟨by decide +kernel, broadcasts_under_claim .plain .funded signedRefund rfl (by decide +kernel)⟩

/-- The broadcast of a fully signed refund fails and its claim is taken back. The buyer
marks the payment as sent, and PASS 0 finds the refund. -/
def staleRefund : List Step :=
  .start (.initiateRefund (.user 2)) :: calls 0 9 ++
    .start (.submitTransactionSignature 2) :: calls 1 4 ++
    .start (.submitTransactionSignature 1) :: calls 2 8 ++ [failing 2] ++ calls 2 1 ++
    .start (.markPaymentSent (.user 1)) :: calls 3 7 ++
    .start .reconcileUnclaimedFullySignedPending :: calls 4 8

/-- PASS 0 broadcasts a refund of an escrow in `PAYMENT_PENDING`. -/
theorem broadcast_without_claim : ¬ BroadcastsHeld (reach .plain .funded staleRefund).trace := by
  intro hb
  have hmem : (4, .handedOver .unclaimed .refund .paymentPending) ∈
      (reach .plain .funded staleRefund).trace := by decide +kernel
  cases hb.status hmem

end Sails
