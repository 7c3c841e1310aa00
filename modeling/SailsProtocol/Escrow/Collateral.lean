import SailsProtocol.Escrow.Claims

/-!
# No departure from FUNDS_LOCKED without collateral

`lockFunds` claims `FUNDS_LOCKED` before it asks the provider, and takes the claim back
when the provider fails. Until then every operation that starts from `FUNDS_LOCKED` takes
the escrow as funded : the buyer can mark the payment as sent while the lock is attempted,
and the revert of the failed lock then finds another status and does nothing
(`payment_without_collateral`).

`departures_have_collateral` is the exact repair : when no claim leaves `FUNDS_LOCKED`
while a lock is in progress, and no lock in progress crashes or fails to write its revert,
every departure from `FUNDS_LOCKED` follows a successful lock.
-/

namespace Sails

open Async Async.Config Async.ClaimStack

variable {cfg : Settings} {w : World}

/-- The observation is a successful lock by the provider. -/
def Obs.isLock : Obs → Bool
  | .locked _ _ _ => true
  | _ => false

/-- Every claim out of `FUNDS_LOCKED` follows a successful lock. -/
def lockedFirst : List (ℕ × Obs) → Bool
  | [] => true
  | (_, .claimed .fundsLocked _) :: trace =>
    (trace.any fun e => e.2.isLock) && lockedFirst trace
  | _ :: trace => lockedFirst trace

/-- Operation `i` holds `FUNDS_LOCKED` and waits for its provider. -/
def lockInProgress (c : EscrowConfig) (i : ℕ) : Bool :=
  (c.next i).isSome &&
    decide ((Footprint.of (c.own i)).claim = some (.created, .fundsLocked)) &&
    (Footprint.of (c.own i)).undo.isNone && (Footprint.of (c.own i)).locked.isNone

/-- The step does not claim a transition out of `FUNDS_LOCKED` while a lock is in progress,
and lets no lock in progress crash or fail to take its claim back. -/
def waitsForLock (c : EscrowConfig) : Step → Bool
  | .start _ => true
  | .run i env =>
    match c.next i with
    | some (.revertStatus _ _) => !(env.fault.isSome && lockInProgress c i)
    | some q => !(decide (q.claim?.map Prod.fst = some .fundsLocked) && env.fault.isNone &&
        (List.range c.threads.length).any (lockInProgress c))
    | none => true
  | .crash i => !lockInProgress c i

/-- A lock in force has the provider's answer, or is in progress and nothing has moved the
escrow since. -/
structure LockInv (c : EscrowConfig) : Prop where
  lock : ∀ i, .claimed .created .fundsLocked ∈ c.own i → (∀ d s, .reverted d s ∉ c.own i) →
    (Footprint.of (c.own i)).locked = none → c.next i ≠ none ∧
      (Footprint.of (c.own i)).undo = none ∧ c.store.escrow.status = .fundsLocked
  first : lockedFirst c.trace = true

/-- The lock of a footprint is in its log. -/
theorem locked_mem {h : List Obs} (hl : (Footprint.of h).locked ≠ none) :
    ∃ o ∈ h, o.isLock = true := by
  induction h with
  | nil => exact absurd rfl hl
  | cons o h ih =>
    cases o <;> first
      | exact ⟨_, List.mem_cons_self, rfl⟩
      | (obtain ⟨o, ho, hlock⟩ := ih hl; exact ⟨o, List.mem_cons_of_mem _ ho, hlock⟩)

section Steps

variable {c : EscrowConfig} {i : ℕ} {env : Env} {req : Request} {q : Call}
variable {k : Except Err q.Ans → Op Unit}

/-- Only a lock locks collateral. -/
theorem locked_append {s : World} {r : Except Err q.Ans} {h : List Obs}
    (hl : (Footprint.of (q.observe s r ++ h)).locked = none) :
    (Footprint.of h).locked = none := by
  generalize q.observe s r = os at hl
  induction os with
  | nil => exact hl
  | cons o os ih =>
    refine ih ?_
    cases o <;> first | exact hl | cases hl

theorem lockInProgress_of (hs : Sound cfg w c) (hI : LockInv c) {j : ℕ}
    (hclaim : .claimed .created .fundsLocked ∈ c.own j) (hnr : ∀ d s, .reverted d s ∉ c.own j)
    (hl : (Footprint.of (c.own j)).locked = none) : lockInProgress c j = true := by
  obtain ⟨hn, hundo, -⟩ := hI.lock j hclaim hnr hl
  simp [lockInProgress, Option.isSome_iff_ne_none.mpr hn, hs.claim_of_mem hclaim, hundo, hl]

/-- No claim leaves the status while a lock is in progress. -/
theorem LockInv.no_claim (hs : Sound cfg w c) (hI : LockInv c)
    (hA : waitsForLock c (.run i env) = true)
    (ht : c.threads[i]? = some ⟨req, .call q k, true⟩) (hfault : env.fault = none) {j : ℕ}
    (hclaim : .claimed .created .fundsLocked ∈ c.own j) (hnr : ∀ d s, .reverted d s ∉ c.own j)
    (hl : (Footprint.of (c.own j)).locked = none) (dst : EscrowStatus) :
    q.claim? ≠ some (.fundsLocked, dst) := by
  intro hq
  have hany : (List.range c.threads.length).any (lockInProgress c) = true := by
    refine List.any_eq_true.mpr ⟨j, List.mem_range.mpr ?_, lockInProgress_of hs hI hclaim hnr hl⟩
    exact hs.conforms.started (mem_own.mp hclaim)
  rw [waitsForLock, next_of_call ht] at hA
  cases q <;> cases hq <;> simp [hfault, hany, Call.claim?] at hA

/-- The status stays while the lock of another operation is in progress. -/
theorem LockInv.status_step (hs : Sound cfg w c) (hI : LockInv c)
    (hA : waitsForLock c (.run i env) = true)
    (ht : c.threads[i]? = some ⟨req, .call q k, true⟩) (hg : Guard req (c.own i) q) {j : ℕ}
    (hij : j ≠ i) (hclaim : .claimed .created .fundsLocked ∈ c.own j)
    (hnr : ∀ d s, .reverted d s ∉ c.own j) (hl : (Footprint.of (c.own j)).locked = none) :
    (q.exec cfg env c.store).2.escrow.status = .fundsLocked := by
  obtain ⟨hn, hundo, hst⟩ := hI.lock j hclaim hnr hl
  cases hfault : env.fault with
  | some f =>
    rw [Call.exec, hfault]
    exact hst
  | none =>
    rcases exec_status cfg q env c.store with ⟨hkeep, -⟩ | ⟨dst, hq, -, -⟩ | ⟨src, rfl, -, -⟩
    · exact hkeep.trans hst
    · rw [hst] at hq
      exact absurd hq (hI.no_claim hs hA ht hfault hclaim hnr hl dst)
    · have hi := hs.inForce_of_holds hg.2.2.1
      have hj := hs.mem_inForce.mpr ⟨hclaim, hnr⟩
      rw [hst] at hi
      exact absurd (hs.holder_unique hj hi hst) hij

/-- What is left of a lock after a call of its own operation. -/
theorem LockInv.lock_self (hs : Sound cfg w c) (hI : LockInv c)
    (hA : waitsForLock c (.run i env) = true)
    (ht : c.threads[i]? = some ⟨req, .call q k, true⟩) (hg : Guard req (c.own i) q)
    (hclaim : .claimed .created .fundsLocked ∈ q.observe c.store (q.exec cfg env c.store).1 ++
      c.own i)
    (hnr : ∀ d s, .reverted d s ∉ q.observe c.store (q.exec cfg env c.store).1 ++ c.own i)
    (hl : (Footprint.of (q.observe c.store (q.exec cfg env c.store).1 ++ c.own i)).locked = none) :
    (Footprint.of (q.observe c.store (q.exec cfg env c.store).1 ++ c.own i)).undo = none ∧
      (q.exec cfg env c.store).2.escrow.status = .fundsLocked := by
  have hl₀ : (Footprint.of (c.own i)).locked = none := locked_append hl
  rcases List.mem_append.mp hclaim with hnew | hold
  · -- the claim itself
    have hq : q.claim? = some (.created, .fundsLocked) := of_mem_observe hnew
    have hundo : (Footprint.of (c.own i)).undo = none := (hg.claim hq).2.1
    refine ⟨(undo_append ?_).trans hundo, ?_⟩
    · rintro d s rfl
      cases hq
    · rcases exec_status cfg q env c.store with ⟨-, hos⟩ | ⟨dst, hq', -, hst⟩ | ⟨src, rfl, -, -⟩
      · exact absurd (hos _ hnew i) (by simp [Obs.change?])
      · have hdst : EscrowStatus.fundsLocked = dst :=
          congrArg Prod.snd (Option.some.inj (hq.symm.trans hq'))
        exact hst.trans hdst.symm
      · cases hq
  · -- a call of an operation that waits for its provider
    have hnr₀ : ∀ d s, .reverted d s ∉ c.own i := fun d s hm =>
      hnr d s (List.mem_append_right _ hm)
    obtain ⟨-, hundo, hst⟩ := hI.lock i hold hnr₀ hl₀
    have hclaim₀ := hs.claim_of_mem hold
    have hnc : ∀ p, q.claim? ≠ some p := fun p hq => by
      have hnone := (hg.claim hq).1
      rw [hclaim₀] at hnone
      cases hnone
    by_cases hq : ∃ d s, q = .revertStatus d s
    · obtain ⟨d, s, rfl⟩ := hq
      have hheld := hclaim₀.symm.trans hg.2.2.1.1
      cases hheld
      rw [waitsForLock, next_of_call ht, lockInProgress_of hs hI hold hnr₀ hl₀] at hA
      obtain ⟨fault, _⟩ := env
      cases fault with
      | some f => cases hA
      | none =>
        refine absurd ?_ (hnr .fundsLocked .created)
        simp [Call.observe, Call.exec, Call.run, Call.answered, hst]
    · refine ⟨(undo_append fun d s heq => hq ⟨d, s, heq⟩).trans hundo, ?_⟩
      rcases exec_status cfg q env c.store with ⟨hkeep, -⟩ | ⟨dst, hq', -, -⟩ | ⟨src, rfl, -, -⟩
      · exact hkeep.trans hst
      · exact absurd hq' (hnc _)
      · exact absurd ⟨_, _, rfl⟩ hq

/-- A lock without the provider's answer does not end with its claim in force. -/
theorem next_of_lock (hs : Sound cfg w c) (hclaim : .claimed .created .fundsLocked ∈ c.own i)
    (hundo : (Footprint.of (c.own i)).undo = none)
    (hl : (Footprint.of (c.own i)).locked = none)
    (ht : ∃ req p, c.threads[i]? = some ⟨req, p, true⟩) : c.next i ≠ none := by
  obtain ⟨req, p, ht⟩ := ht
  cases p with
  | call q k =>
    rw [next_of_call ht]
    exact Option.some_ne_none q
  | ret r =>
    have hdone := hs.conforms.result ht
    rcases hdone.claim _ _ ⟨hs.claim_of_mem hclaim, hundo⟩ with ⟨-, hlocked⟩ | ⟨hrev, -⟩
    · exact absurd hl (hlocked rfl)
    · cases hrev

/-- A call that the condition allows keeps the claims of the lock covered. -/
theorem LockInv.answer_lock (hs : Sound cfg w c) (hI : LockInv c)
    (hA : waitsForLock c (.run i env) = true)
    (ht : c.threads[i]? = some ⟨req, .call q k, true⟩) (hg : Guard req (c.own i) q) (j : ℕ)
    (hclaim : .claimed .created .fundsLocked ∈ (c.answer (escrowSystem cfg) i env req q k).own j)
    (hnr : ∀ d s, .reverted d s ∉ (c.answer (escrowSystem cfg) i env req q k).own j)
    (hl : (Footprint.of ((c.answer (escrowSystem cfg) i env req q k).own j)).locked = none) :
    (c.answer (escrowSystem cfg) i env req q k).next j ≠ none ∧
      (Footprint.of ((c.answer (escrowSystem cfg) i env req q k).own j)).undo = none ∧
      (q.exec cfg env c.store).2.escrow.status = .fundsLocked := by
  by_cases hij : j = i
  · subst hij
    have hundo : (Footprint.of ((c.answer (escrowSystem cfg) j env req q k).own j)).undo = none ∧
        (q.exec cfg env c.store).2.escrow.status = .fundsLocked := by
      rw [own_answer_self] at hclaim hl ⊢
      refine hI.lock_self hs hA ht hg hclaim (fun d s hm => hnr d s ?_) hl
      rw [own_answer_self]
      exact hm
    exact ⟨next_of_lock (hs.answer ht) hclaim hundo.1 hl
      ⟨req, _, List.getElem?_set_self (List.getElem?_eq_some_iff.mp ht).1⟩, hundo⟩
  · rw [next_answer_of_ne hij]
    rw [own_answer_of_ne hij] at hclaim hl ⊢
    have hnr₀ : ∀ d s, .reverted d s ∉ c.own j := fun d s hm => hnr d s (by
      rwa [own_answer_of_ne hij])
    obtain ⟨hn, hundo, -⟩ := hI.lock j hclaim hnr₀ hl
    exact ⟨hn, hundo, hI.status_step hs hA ht hg hij hclaim hnr₀ hl⟩

/-- Observations that leave no lock keep it first. -/
theorem lockedFirst_append {os : List Obs} {trace : List (ℕ × Obs)}
    (ht : lockedFirst trace = true) (hos : ∀ o ∈ os, ∀ dst, o ≠ .claimed .fundsLocked dst) :
    lockedFirst (os.map (Prod.mk i) ++ trace) = true := by
  induction os with
  | nil => exact ht
  | cons o os ih =>
    have htail := ih fun o' ho' => hos o' (List.mem_cons_of_mem _ ho')
    cases o with
    | claimed src dst =>
      cases src <;> first | exact htail | exact absurd rfl (hos _ List.mem_cons_self _)
    | _ => exact htail

/-- A call that the condition allows keeps the lock first. -/
theorem LockInv.answer_first (hs : Sound cfg w c) (hw : w.escrow.status ≠ .fundsLocked)
    (hI : LockInv c) (hA : waitsForLock c (.run i env) = true)
    (ht : c.threads[i]? = some ⟨req, .call q k, true⟩) :
    lockedFirst (c.answer (escrowSystem cfg) i env req q k).trace = true := by
  rcases exec_status cfg q env c.store with ⟨-, hos⟩ | ⟨dst, hq, hos, -⟩ | ⟨src, rfl, hos, -⟩
  · refine lockedFirst_append hI.first fun o ho dst heq => ?_
    exact absurd (hos o ho i) (by simp [heq, Obs.change?])
  · by_cases hst : c.store.escrow.status = .fundsLocked
    · have htrace : (c.answer (escrowSystem cfg) i env req q k).trace =
          (i, .claimed .fundsLocked dst) :: c.trace := by
        rw [hst] at hos
        exact congrArg (fun os => List.map (Prod.mk i) os ++ c.trace) hos
      rw [htrace]
      refine Bool.and_eq_true_iff.mpr ⟨?_, hI.first⟩
      obtain ⟨j, src, l, hheld, hv⟩ := hs.holder_of_ne (by rw [hst]; exact hw.symm)
      rw [hst] at hheld hv
      rw [EscrowStatus.eq_created_of_valid hv] at hheld
      obtain ⟨hclaim, hnr⟩ := hs.mem_inForce.mp (hheld ▸ List.mem_cons_self)
      have hl : (Footprint.of (c.own j)).locked ≠ none := by
        intro hl
        rw [hst] at hq
        exact hI.no_claim hs hA ht (fault_of_claimed (hos ▸ List.mem_cons_self)) hclaim hnr hl dst hq
      obtain ⟨o, ho, hlock⟩ := locked_mem hl
      exact List.any_eq_true.mpr ⟨(j, o), mem_own.mp ho, hlock⟩
    · refine lockedFirst_append hI.first fun o ho dst' heq => ?_
      have ho : o ∈ [.claimed c.store.escrow.status dst] := hos ▸ ho
      rw [heq, List.mem_singleton] at ho
      exact hst (Obs.claimed.inj ho).1.symm
  · refine lockedFirst_append hI.first fun o ho dst heq => ?_
    have ho : o ∈ [.reverted c.store.escrow.status src] := hos ▸ ho
    rw [heq, List.mem_singleton] at ho
    cases ho

end Steps

/-- In a run that waits for its locks, every departure from `FUNDS_LOCKED` follows a
successful lock. -/
theorem departures_have_collateral (cfg : Settings) (w : World) (as : List Step)
    (hw : w.escrow.status ≠ .fundsLocked)
    (hA : Along (escrowSystem cfg) (fun c a => waitsForLock c a = true) (Config.init w) as) :
    lockedFirst (reach cfg w as).trace = true := by
  have hI := run_induction (I := LockInv)
    ⟨fun i hclaim => absurd hclaim List.not_mem_nil, rfl⟩
    (fun {c req} hs hI _ => ⟨fun i hclaim hnr hl => ?_, hI.first⟩)
    (fun hs hI hA ht hg => ⟨hI.answer_lock hs hA ht hg, hI.answer_first hs hw hA ht⟩)
    (fun {c i t} hs hI hA ht => ⟨fun j hclaim hnr hl => ?_, hI.first⟩) as hA
  · exact hI.2.first
  · obtain ⟨hn, hrest⟩ := hI.lock i hclaim hnr hl
    refine ⟨?_, hrest⟩
    rwa [next_spawn_of_ne]
    exact fun heq => hn (next_length heq.ge)
  · by_cases hij : j = i
    · subst hij
      have hbusy : lockInProgress c j = true := lockInProgress_of hs hI hclaim hnr hl
      rw [waitsForLock, hbusy] at hA
      cases hA
    · obtain ⟨hn, hrest⟩ := hI.lock j hclaim hnr hl
      exact ⟨by rwa [next_kill_of_ne hij], hrest⟩

/-- The payment is marked after the lock. -/
theorem departures_have_collateral_paidTrade :
    ((reach .plain (.plain .mock .created) paidTrade).store.escrow.status = .paymentPending ∧
      Along (escrowSystem .plain) (fun c a => waitsForLock c a = true)
        (Config.init (.plain .mock .created)) paidTrade) ∧
    lockedFirst (reach .plain (.plain .mock .created) paidTrade).trace = true :=
  ⟨by decide +kernel, departures_have_collateral .plain (.plain .mock .created) paidTrade
    (by decide) (by decide +kernel)⟩

/-- The buyer marks the payment as sent while the provider is asked for the lock. The lock
fails. -/
def paymentDuringLock : List Step :=
  .start (.lockFunds (.user 2)) :: calls 0 4 ++ .start (.markPaymentSent (.user 1)) ::
    calls 1 6 ++ [failing 0] ++ calls 0 1

/-- The escrow stays in `PAYMENT_PENDING` with nothing locked. -/
theorem payment_without_collateral :
    ¬ (lockedFirst (reach .plain (.plain .mock .created) paymentDuringLock).trace = true) ∧
      (reach .plain (.plain .mock .created) paymentDuringLock).store.escrow.status =
        .paymentPending := by
  decide +kernel

end Sails
