import SailsProtocol.Escrow.History

/-!
# Completion events

The writer of a history row publishes its event, after the transaction of the row. A crash
or a failure between the two loses the event for good : every recovery pass takes the row
as the sign that the event is out (`completion_event_lost`).

`completion_published_once` is the exact repair : when the event of a terminal row that was
written is published, and a recovery pass stores a transaction id only under the status it
read it for or under a status whose row is there or due, then a `reconcilePendingSettlements`
that runs without a failure leaves every terminal status with a transaction id with exactly
one event.
-/

namespace Sails

open Async Async.Config Async.ClaimStack

variable {cfg : Settings} {w : World}

/-- A step without a failure. -/
def calm : Step → Bool
  | .start _ => true
  | .run _ env => env.fault.isNone
  | .crash _ => false

/-- The step does not lose the event of a terminal row, and stores no transaction id under
a terminal status that another operation left without a row. -/
def keepsCompletion (c : EscrowConfig) : Step → Bool
  | .start _ => true
  | .run i env =>
    match c.next i with
    | some (.publish t) => !t.terminal || env.fault.isNone
    | some (.writeMissingTxReleaseId t _) =>
      env.fault.isSome || c.store.escrow.txReleaseId.isSome || !c.store.escrow.status.terminal ||
        decide (c.store.escrow.status = t) || c.store.hasRow c.store.escrow.status ||
        rowDue c c.store.escrow.status
    | _ => true
  | .crash i =>
    match c.next i with
    | some (.publish t) => !t.terminal
    | _ => true

/-! ## At most once -/

/-- What the runs keep about events : an event is published once, its row is there, an
operation with an event to publish is the only one, and the event of a terminal row is out
or about to be. -/
structure PublishInv (c : EscrowConfig) : Prop where
  count : ∀ t, c.store.published.count t ≤ 1
  row : ∀ t ∈ c.store.published, c.store.hasRow t = true
  unpublished : ∀ i t, (Footprint.of (c.own i)).unpublished = some t →
    c.store.hasRow t = true ∧ t ∉ c.store.published ∧
      ∀ j, (Footprint.of (c.own j)).unpublished = some t → j = i
  terminal : ∀ t, t.terminal = true → c.store.hasRow t = true →
    t ∈ c.store.published ∨ ∃ i, c.next i = some (.publish t)
  own : ∀ i t, t ∈ (Footprint.of (c.own i)).rows → c.store.hasRow t = true

section Steps

variable {c : EscrowConfig} {i j : ℕ} {env : Env} {req : Request} {q : Call}
variable {k : Except Err q.Ans → Op Unit} {t : EscrowStatus}

/-- A call publishes nothing, or one event. -/
theorem published_exec (cfg : Settings) (q : Call) (env : Env) (s : World) :
    (q.exec cfg env s).2.published = s.published ∨ ∃ t, q = .publish t ∧
      (q.exec cfg env s).2.published = t :: s.published := by
  obtain ⟨fault, _⟩ := env
  cases fault with
  | some f => exact Or.inl rfl
  | none =>
    cases q
    case publish t => exact Or.inr ⟨t, rfl, rfl⟩
    all_goals
      refine Or.inl ?_
      simp only [Call.exec, Call.run] <;> (repeat' split) <;> rfl

/-- An event to publish comes from the row just written. -/
theorem row_of_unpublished {s : World} {h : List Obs} (hg : Guard req h q)
    (hu : (Footprint.of (q.observe s (q.exec cfg env s).1 ++ h)).unpublished = some t) :
    ∃ e, q = .recordEscrowEvent e ∧ env.fault = none ∧ e.toStatus = t ∧ s.hasRow t = false := by
  cases hold : (Footprint.of h).unpublished with
  | some t' =>
    obtain rfl := hg.1 t' hold
    obtain ⟨fault, _⟩ := env
    cases fault <;> cases hu
  | none =>
    by_cases hq : ∃ e, q = .recordEscrowEvent e
    · obtain ⟨e, rfl⟩ := hq
      cases hfault : env.fault with
      | some f =>
        rw [Call.exec, hfault] at hu
        cases hu
      | none =>
        rw [exec_of_no_fault hfault] at hu
        cases hrow : s.hasRow e.toStatus with
        | true =>
          rw [record_of_hasRow hrow] at hu
          exact absurd (hold.symm.trans hu) (by simp)
        | false =>
          rw [record_of_not_hasRow hrow] at hu
          cases hu
          exact ⟨e, rfl, rfl, rfl, hrow⟩
    · have hnone : ∀ os : List Obs, (∀ t, .rowWritten t ∉ os) →
          (Footprint.of (os ++ h)).unpublished = none := by
        intro os hos
        induction os with
        | nil => exact hold
        | cons o os ih =>
          have ih := ih fun t hmem => hos t (List.mem_cons_of_mem o hmem)
          cases o <;> first | exact ih | rfl | exact absurd List.mem_cons_self (hos _)
      rw [hnone _ fun t' hmem => ?_] at hu
      · cases hu
      · obtain ⟨e, he, -⟩ := of_mem_observe hmem
        exact hq ⟨e, he⟩

/-- An operation with an event to publish publishes it next. -/
theorem next_of_unpublished (hs : Sound cfg w c) {p : Op Unit}
    (ht : c.threads[i]? = some ⟨req, p, true⟩)
    (hu : (Footprint.of (c.own i)).unpublished = some t) : c.next i = some (.publish t) := by
  cases p with
  | ret r =>
    have hidle := (hs.conforms.result ht).idle.1
    rw [hu] at hidle
    cases hidle
  | call q k =>
    rw [next_of_call ht, (hs.conforms.guard ht).1 t hu]

/-- The published events, after a call. -/
theorem PublishInv.published_answer (hI : PublishInv c) (hg : Guard req (c.own i) q) :
    (∀ t, (q.exec cfg env c.store).2.published.count t ≤ 1) ∧
      ∀ t ∈ (q.exec cfg env c.store).2.published, (q.exec cfg env c.store).2.hasRow t = true := by
  rcases published_exec cfg q env c.store with heq | ⟨t, rfl, heq⟩
  · rw [heq]
    exact ⟨hI.count, fun t ht => hasRow_exec (hI.row t ht)⟩
  · obtain ⟨hrow, hnew, -⟩ := hI.unpublished i t hg.2.2
    rw [heq]
    refine ⟨fun t' => ?_, fun t' ht' => hasRow_exec ?_⟩
    · rw [List.count_cons]
      by_cases htt : t = t'
      · subst htt
        simp [List.count_eq_zero_of_not_mem hnew]
      · simpa [htt] using hI.count t'
    · rcases List.mem_cons.mp ht' with rfl | hold
      · exact hrow
      · exact hI.row t' hold

/-- The events to publish, after a call. -/
theorem PublishInv.unpublished_answer (hI : PublishInv c) (hg : Guard req (c.own i) q) (j : ℕ)
    (t : EscrowStatus)
    (hu : (Footprint.of ((c.answer (escrowSystem cfg) i env req q k).own j)).unpublished =
      some t) :
    (q.exec cfg env c.store).2.hasRow t = true ∧ t ∉ (q.exec cfg env c.store).2.published ∧
      ∀ j', (Footprint.of ((c.answer (escrowSystem cfg) i env req q k).own j')).unpublished =
        some t → j' = j := by
  by_cases hij : j = i
  · subst hij
    rw [own_answer_self] at hu
    obtain ⟨e, rfl, hfault, rfl, hrow⟩ := row_of_unpublished hg hu
    have hevents : ((Call.recordEscrowEvent e).exec cfg env c.store).2 =
        { c.store with events := e :: c.store.events } := by
      rw [exec_of_no_fault hfault, record_of_not_hasRow hrow]
    rw [hevents]
    refine ⟨hasRow_iff.mpr ⟨e, List.mem_cons_self, rfl⟩, fun hpub => ?_, fun j' hu' => ?_⟩
    · rw [hI.row _ hpub] at hrow
      cases hrow
    · by_contra hne
      rw [own_answer_of_ne hne] at hu'
      rw [(hI.unpublished j' _ hu').1] at hrow
      cases hrow
  · rw [own_answer_of_ne hij] at hu
    obtain ⟨hrow, hnew, honly⟩ := hI.unpublished j t hu
    refine ⟨hasRow_exec hrow, fun hpub => ?_, fun j' hu' => ?_⟩
    · rcases published_exec cfg q env c.store with heq | ⟨t', rfl, heq⟩
      · exact hnew (heq ▸ hpub)
      · rw [heq] at hpub
        rcases List.mem_cons.mp hpub with rfl | hold
        · exact hij (honly i hg.2.2).symm
        · exact hnew hold
    · by_cases hij' : j' = i
      · subst hij'
        rw [own_answer_self] at hu'
        obtain ⟨e, -, -, -, hnone⟩ := row_of_unpublished hg hu'
        rw [hrow] at hnone
        cases hnone
      · rw [own_answer_of_ne hij'] at hu'
        exact honly j' hu'

/-- The event of a terminal row is out or about to be, after a call. -/
theorem PublishInv.terminal_answer (hs : Sound cfg w c) (hI : PublishInv c)
    (hA : keepsCompletion c (.run i env) = true)
    (ht : c.threads[i]? = some ⟨req, .call q k, true⟩) (hterm : t.terminal = true)
    (hrow : (q.exec cfg env c.store).2.hasRow t = true) :
    t ∈ (q.exec cfg env c.store).2.published ∨
      ∃ j, (c.answer (escrowSystem cfg) i env req q k).next j = some (.publish t) := by
  have hs' : Sound cfg w (c.answer (escrowSystem cfg) i env req q k) := hs.answer ht
  cases hold : c.store.hasRow t with
  | true =>
    rcases hI.terminal t hterm hold with hpub | ⟨j, hj⟩
    · refine Or.inl ?_
      rcases published_exec cfg q env c.store with heq | ⟨t', -, heq⟩
      · exact heq ▸ hpub
      · exact heq ▸ List.mem_cons_of_mem _ hpub
    · by_cases hij : j = i
      · subst hij
        obtain rfl : q = .publish t := Option.some.inj ((next_of_call ht).symm.trans hj)
        have hfault : env.fault = none := by
          simpa [keepsCompletion, hj, hterm] using hA
        rw [exec_of_no_fault hfault]
        exact Or.inl List.mem_cons_self
      · exact Or.inr ⟨j, (next_answer_of_ne hij env req q k).trans hj⟩
  | false =>
    rcases events_exec cfg q env c.store with heq | ⟨e, rfl, hfault, hnone, heq⟩
    · rw [hasRow_congr heq, hold] at hrow
      cases hrow
    · -- the row was just written
      have het : e.toStatus = t := by
        obtain ⟨e', he', hst⟩ := hasRow_iff.mp hrow
        rcases List.mem_cons.mp (heq ▸ he') with rfl | hmem
        · exact hst
        · rw [hasRow_iff.mpr ⟨e', hmem, hst⟩] at hold
          cases hold
      refine Or.inr ⟨i, next_of_unpublished hs'
        (List.getElem?_set_self (List.getElem?_eq_some_iff.mp ht).1) ?_⟩
      have hobs : (Call.recordEscrowEvent e).observe c.store
          ((Call.recordEscrowEvent e).exec cfg env c.store).1 = [.rowWritten e.toStatus] := by
        rw [exec_of_no_fault hfault, record_of_not_hasRow hnone]
        rfl
      have hlog : (c.answer (escrowSystem cfg) i env req (.recordEscrowEvent e) k).own i =
          .rowWritten e.toStatus :: c.own i := own_answer_of_observe hobs
      rw [hlog, ← het]
      rfl

/-- Every call keeps the invariant. -/
theorem PublishInv.answer (hs : Sound cfg w c) (hI : PublishInv c)
    (hA : keepsCompletion c (.run i env) = true)
    (ht : c.threads[i]? = some ⟨req, .call q k, true⟩) (hg : Guard req (c.own i) q) :
    PublishInv (c.answer (escrowSystem cfg) i env req q k) where
  count := (hI.published_answer hg).1
  row := (hI.published_answer hg).2
  unpublished := hI.unpublished_answer hg
  terminal := fun _ hterm hrow => hI.terminal_answer hs hA ht hterm hrow
  own := hasRow_answer hI.own

/-- A new request keeps the invariant. -/
theorem PublishInv.spawn (hI : PublishInv c) (req : Request) :
    PublishInv (c.spawn (escrowSystem cfg) req) := by
  refine ⟨hI.count, hI.row, hI.unpublished, fun t hterm hrow => ?_, hI.own⟩
  refine (hI.terminal t hterm hrow).imp_right fun ⟨i, hi⟩ => ⟨i, ?_⟩
  rwa [next_spawn_of_ne]
  rintro rfl
  rw [next_length le_rfl] at hi
  cases hi

/-- A crash that the condition allows keeps the invariant. -/
theorem PublishInv.kill {th : Thread Call.Ans Err Unit Request} (hI : PublishInv c)
    (hA : keepsCompletion c (.crash i) = true) : PublishInv (c.kill i th) := by
  refine ⟨hI.count, hI.row, hI.unpublished, fun t hterm hrow => ?_, hI.own⟩
  refine (hI.terminal t hterm hrow).imp_right fun ⟨j, hj⟩ => ⟨j, ?_⟩
  by_cases hij : j = i
  · subst hij
    simp [keepsCompletion, hj, hterm] at hA
  · rwa [next_kill_of_ne hij]

/-! ## At least once -/

/-- The operation read the escrow in `st` with its transaction id, or stored the id itself,
and nothing failed since. -/
def Footprint.BoundTo (f : Footprint) (st : EscrowStatus) : Prop :=
  (f.completion = some (some st) ∧ f.failedSinceCompletion = false) ∨
    (f.txIdWritten = some st ∧ f.failedSinceTxId = false)

/-- Operation `j` is in flight and bound to see the row of `st` written. -/
def Bound (c : EscrowConfig) (j : ℕ) (st : EscrowStatus) : Prop :=
  c.next j ≠ none ∧ (Footprint.of (c.own j)).BoundTo st

/-- The row of `st` is there, or some operation in flight will write it, or the recovery `v`
is still to look for it. -/
def Covered (v : ℕ) (c : EscrowConfig) (st : EscrowStatus) : Prop :=
  c.store.hasRow st = true ∨ (∃ j, owesRow c j st = true) ∨ (∃ j, Bound c j st) ∨
    (c.next v ≠ none ∧ (Footprint.of (c.own v)).completion = none)

/-- What the runs keep once the recovery `v` has started, as long as nothing fails. -/
structure CompletionInv (v : ℕ) (c : EscrowConfig) : Prop where
  publish : PublishInv c
  worker : (c.threads[v]?).map Thread.req = some .reconcilePendingSettlements
  unfailed : (Footprint.of (c.own v)).failed = false
  covered : c.store.escrow.status.terminal = true → c.store.escrow.txReleaseId ≠ none →
    Covered v c c.store.escrow.status

/-- A call leaves the transaction id, or is one of the two that write it. -/
theorem txReleaseId_exec (cfg : Settings) (q : Call) (env : Env) (s : World) :
    (q.exec cfg env s).2.escrow.txReleaseId = s.escrow.txReleaseId ∨
      (∃ kind n, q = .updateResult kind n) ∨ ∃ t n, q = .writeMissingTxReleaseId t n := by
  obtain ⟨fault, _⟩ := env
  cases fault with
  | some f => exact Or.inl rfl
  | none =>
    cases q
    case updateResult kind n => exact Or.inr (Or.inl ⟨kind, n, rfl⟩)
    case writeMissingTxReleaseId t n => exact Or.inr (Or.inr ⟨t, n, rfl⟩)
    all_goals
      refine Or.inl ?_
      simp only [Call.exec, Call.run] <;> (repeat' split) <;> rfl

/-- The recovery query finds a terminal status with its transaction id. -/
theorem completion_query {s : World} (hfault : env.fault = none)
    (hterm : s.escrow.status.terminal = true) (htx : s.escrow.txReleaseId ≠ none) :
    Call.findTerminalWithTxReleaseId.observe s
      (Call.findTerminalWithTxReleaseId.exec cfg env s).1 =
        [.completionSnapshot (some s.escrow.status)] := by
  simp [exec_of_no_fault hfault, Call.run, hterm, htx, Call.observe, Call.answered]

theorem completion_append {s : World} {r : Except Err q.Ans} {h : List Obs}
    (hq : q ≠ .findTerminalWithTxReleaseId) :
    (Footprint.of (q.observe s r ++ h)).completion = (Footprint.of h).completion := by
  refine Footprint.of_append _ fun o ho f => ?_
  have hof := of_mem_observe ho
  cases o <;> first | rfl | exact absurd hof hq

/-- A call without a fault leaves what an operation is bound to. -/
theorem boundTo_append {s : World} {h : List Obs} (hfault : env.fault = none)
    (hterm : s.escrow.status.terminal = true) (htx : s.escrow.txReleaseId ≠ none)
    (hb : (Footprint.of h).BoundTo s.escrow.status) :
    (Footprint.of (q.observe s (q.exec cfg env s).1 ++ h)).BoundTo s.escrow.status := by
  have hcalm : .failed ∉ q.observe s (q.exec cfg env s).1 := not_failed (Or.inl hfault)
  rcases hb with ⟨hc, hf⟩ | ⟨hx, hf⟩
  · refine Or.inl ?_
    by_cases hq : q = .findTerminalWithTxReleaseId
    · subst hq
      rw [completion_query hfault hterm htx]
      exact ⟨rfl, rfl⟩
    · refine ⟨(completion_append hq).trans hc, ?_⟩
      refine Footprint.flag_append Footprint.failedSinceCompletion (fun f o hne hf => ?_) hcalm hf
      cases o <;> first | exact hf | rfl | exact absurd rfl hne
  · refine Or.inr ⟨?_, ?_⟩
    · refine (Footprint.of_append Footprint.txIdWritten fun o ho f => ?_).trans hx
      have hof := of_mem_observe ho
      cases o <;> first | rfl | skip
      obtain ⟨n, rfl⟩ := hof
      simp [exec_of_no_fault hfault, Call.run, htx, Call.observe, Call.answered] at ho
    · refine Footprint.flag_append Footprint.failedSinceTxId (fun f o hne hf => ?_) hcalm hf
      cases o <;> first | exact hf | rfl | exact absurd rfl hne

/-- An operation that is bound to a row is in flight, or the row is there. -/
theorem bound_or_row (hs : Sound cfg w c) {p : Op Unit} {st : EscrowStatus}
    (ht : c.threads[i]? = some ⟨req, p, true⟩)
    (hown : ∀ t, t ∈ (Footprint.of (c.own i)).rows → c.store.hasRow t = true)
    (hb : (Footprint.of (c.own i)).BoundTo st) : c.store.hasRow st = true ∨ Bound c i st := by
  refine (next_or_done hs ht).elim (fun hn => Or.inr ⟨hn, hb⟩) fun hdone => Or.inl (hown st ?_)
  rcases hb with ⟨hc, hf⟩ | ⟨hx, hf⟩
  · refine (hdone.completion st hc).resolve_right fun hfail => ?_
    rw [hfail] at hf
    cases hf
  · refine (hdone.txId st hx).resolve_right fun hfail => ?_
    rw [hfail] at hf
    cases hf

/-- The recovery meets no failure. -/
theorem CompletionInv.unfailed_answer {v : ℕ} (hI : CompletionInv v c)
    (hfault : env.fault = none) :
    (Footprint.of ((c.answer (escrowSystem cfg) i env req q k).own v)).failed = false := by
  by_cases hiv : v = i
  · subst hiv
    rw [own_answer_self]
    refine Footprint.flag_append Footprint.failed (fun f o hne hf => ?_)
      (not_failed (Or.inl hfault)) hI.unfailed
    cases o <;> first | exact hf | exact absurd rfl hne
  · rw [own_answer_of_ne hiv]
    exact hI.unfailed

/-- A claimed status is covered. -/
theorem CompletionInv.covered_claim {v : ℕ} (hs : Sound cfg w c) (hI : CompletionInv v c)
    (ht : c.threads[i]? = some ⟨req, .call q k, true⟩) (hg : Guard req (c.own i) q)
    {dst : EscrowStatus}
    (hq : q.claim? = some (c.store.escrow.status, dst))
    (hos : q.observe c.store (q.exec cfg env c.store).1 = [.claimed c.store.escrow.status dst]) :
    Covered v (c.answer (escrowSystem cfg) i env req q k) dst := by
  have hs' : Sound cfg w (c.answer (escrowSystem cfg) i env req q k) := hs.answer ht
  cases hrow : (q.exec cfg env c.store).2.hasRow dst with
  | true => exact Or.inl hrow
  | false =>
    have hlog : (c.answer (escrowSystem cfg) i env req q k).own i =
        .claimed c.store.escrow.status dst :: c.own i := own_answer_of_observe hos
    refine Or.inr (Or.inl ⟨i, ?_⟩)
    refine owesRow_of_holds c.store.escrow.status hs'
      (List.getElem?_set_self (List.getElem?_eq_some_iff.mp ht).1)
      (hasRow_answer hI.publish.own i) ?_ hrow ?_
    · rw [hlog]
      exact ⟨rfl, (hg.claim hq).2.1⟩
    · rw [hlog]
      exact Or.inr rfl

section Covered

variable {v : ℕ} (hs : Sound cfg w c) (hI : CompletionInv v c) (hfault : env.fault = none)
variable (ht : c.threads[i]? = some ⟨req, .call q k, true⟩) (hg : Guard req (c.own i) q)
include hs hI hfault ht hg

/-- What is owed for the status stays owed while its row is missing. -/
theorem CompletionInv.owes_answer
    (hkeep : ∀ o ∈ q.observe c.store (q.exec cfg env c.store).1, ∀ i, o.change? i = none)
    (hrow : (q.exec cfg env c.store).2.hasRow c.store.escrow.status = false)
    (hj : owesRow c j c.store.escrow.status = true) :
    owesRow (c.answer (escrowSystem cfg) i env req q k) j c.store.escrow.status = true := by
  have hsame : (q.exec cfg env c.store).2.hasRow c.store.escrow.status =
      c.store.hasRow c.store.escrow.status := hrow.trans (owesRow_iff.mp hj).2.2.1.symm
  by_cases hij : j = i
  · subst hij
    have hrevert : q.isRevert = false := by
      cases hr : q.isRevert with
      | false => rfl
      | true => exact absurd hkeep (revert_of_owes hg hfault hj hr)
    exact owesRow_answer_self hs (hasRow_answer hI.publish.own j) ht hg hrevert hsame
      (Or.inl (Or.inl hfault)) hj
  · exact owesRow_answer_of_ne hij hsame hj

/-- A status with its transaction id stays covered. -/
theorem CompletionInv.covered_kept
    (hkeep : ∀ o ∈ q.observe c.store (q.exec cfg env c.store).1, ∀ i, o.change? i = none)
    (hterm : c.store.escrow.status.terminal = true) (htx : c.store.escrow.txReleaseId ≠ none) :
    Covered v (c.answer (escrowSystem cfg) i env req q k) c.store.escrow.status := by
  have hs' : Sound cfg w (c.answer (escrowSystem cfg) i env req q k) := hs.answer ht
  have ht' : (c.answer (escrowSystem cfg) i env req q k).threads[i]? =
      some ⟨req, k (q.exec cfg env c.store).1, true⟩ :=
    List.getElem?_set_self (List.getElem?_eq_some_iff.mp ht).1
  have hbound : (Footprint.of (q.observe c.store (q.exec cfg env c.store).1 ++ c.own i)).BoundTo
      c.store.escrow.status → Covered v (c.answer (escrowSystem cfg) i env req q k)
        c.store.escrow.status := by
    intro hb
    rw [← own_answer_of_observe rfl] at hb
    exact (bound_or_row hs' ht' (hasRow_answer hI.publish.own i) hb).imp_right fun hb =>
      Or.inr (Or.inl ⟨i, hb⟩)
  cases hrow : (q.exec cfg env c.store).2.hasRow c.store.escrow.status with
  | true => exact Or.inl hrow
  | false =>
    rcases hI.covered hterm htx with hold | ⟨j, hj⟩ | ⟨j, hn, hb⟩ | ⟨hn, hnone⟩
    · rw [hasRow_exec hold] at hrow
      cases hrow
    · exact Or.inr (Or.inl ⟨j, hI.owes_answer hs hfault ht hg hkeep hrow hj⟩)
    · by_cases hij : j = i
      · subst hij
        exact hbound (boundTo_append hfault hterm htx hb)
      · refine Or.inr (Or.inr (Or.inl ⟨j, ?_, ?_⟩))
        · rwa [next_answer_of_ne hij]
        · rwa [own_answer_of_ne hij]
    · by_cases hiv : v = i
      · subst hiv
        by_cases hq : q = .findTerminalWithTxReleaseId
        · subst hq
          refine hbound (Or.inl ?_)
          rw [completion_query hfault hterm htx]
          exact ⟨rfl, rfl⟩
        · refine Or.inr (Or.inr (Or.inr ?_))
          have hcompletion : (Footprint.of ((c.answer (escrowSystem cfg) v env req q k).own
              v)).completion = none := by
            rw [own_answer_self]
            exact (completion_append hq).trans hnone
          refine ⟨(next_or_done hs' ht').elim id fun hdone => ?_, hcompletion⟩
          have hreq : req = .reconcilePendingSettlements := by
            have hworker := hI.worker
            rw [ht] at hworker
            exact Option.some.inj hworker
          rcases hdone.passes hreq with hne | hfail
          · exact absurd hcompletion hne
          · rw [hI.unfailed_answer hfault] at hfail
            cases hfail
      · refine Or.inr (Or.inr (Or.inr ⟨?_, ?_⟩))
        · rwa [next_answer_of_ne hiv]
        · rwa [own_answer_of_ne hiv]

/-- A status is covered when its transaction id is stored. -/
theorem CompletionInv.covered_txId (hA : keepsCompletion c (.run i env) = true)
    (hkeep : ∀ o ∈ q.observe c.store (q.exec cfg env c.store).1, ∀ i, o.change? i = none)
    (hterm : c.store.escrow.status.terminal = true) (htx : c.store.escrow.txReleaseId = none)
    (htx' : (q.exec cfg env c.store).2.escrow.txReleaseId ≠ none) :
    Covered v (c.answer (escrowSystem cfg) i env req q k) c.store.escrow.status := by
  have hs' : Sound cfg w (c.answer (escrowSystem cfg) i env req q k) := hs.answer ht
  have ht' : (c.answer (escrowSystem cfg) i env req q k).threads[i]? =
      some ⟨req, k (q.exec cfg env c.store).1, true⟩ :=
    List.getElem?_set_self (List.getElem?_eq_some_iff.mp ht).1
  cases hrow : (q.exec cfg env c.store).2.hasRow c.store.escrow.status with
  | true => exact Or.inl hrow
  | false =>
    rcases txReleaseId_exec cfg q env c.store with heq | ⟨kind, n, rfl⟩ | ⟨t, n, rfl⟩
    · exact absurd (heq.trans htx) htx'
    · -- the operation that holds the status
      obtain ⟨⟨src, hh⟩, hf⟩ := hg.2.2
      obtain ⟨hst, -⟩ := hs.terminal_inForce (hs.inForce_of_holds hh) kind.terminal_target
      have hobs : (Call.updateResult kind n).observe c.store
          ((Call.updateResult kind n).exec cfg env c.store).1 = [] := by
        rw [exec_of_no_fault hfault]
        rfl
      have hlog : (c.answer (escrowSystem cfg) i env req (.updateResult kind n) k).own i =
          c.own i := own_answer_of_observe hobs
      refine Or.inr (Or.inl ⟨i, owesRow_of_holds src hs' ht'
        (hasRow_answer hI.publish.own i) ?_ hrow ?_⟩)
      · rw [hlog, hst]
        exact hh
      · rw [hlog, hst]
        exact hf
    · -- a recovery pass
      have hcond : c.store.escrow.status = t ∨ c.store.hasRow c.store.escrow.status = true ∨
          ∃ j, owesRow c j c.store.escrow.status = true := by
        simpa [keepsCompletion, next_of_call ht, hfault, htx, hterm, rowDue_iff, or_assoc] using hA
      rcases hcond with hst | hold | ⟨j, hj⟩
      · have hobs : (Call.writeMissingTxReleaseId t n).observe c.store
            ((Call.writeMissingTxReleaseId t n).exec cfg env c.store).1 = [.txIdWritten t] := by
          simp [exec_of_no_fault hfault, Call.run, htx, Call.observe, Call.answered]
        have hlog : (c.answer (escrowSystem cfg) i env req (.writeMissingTxReleaseId t n) k).own i =
            .txIdWritten t :: c.own i := own_answer_of_observe hobs
        refine (bound_or_row hs' ht' (hasRow_answer hI.publish.own i) ?_).imp_right fun hb =>
          Or.inr (Or.inl ⟨i, hb⟩)
        rw [hlog, hst]
        exact Or.inr ⟨rfl, rfl⟩
      · rw [hasRow_exec hold] at hrow
        cases hrow
      · exact Or.inr (Or.inl ⟨j, hI.owes_answer hs hfault ht hg hkeep hrow hj⟩)

end Covered

/-- Every call without a fault keeps the invariant. -/
theorem CompletionInv.answer {v : ℕ} (hs : Sound cfg w c) (hI : CompletionInv v c)
    (hA : keepsCompletion c (.run i env) = true) (hfault : env.fault = none)
    (ht : c.threads[i]? = some ⟨req, .call q k, true⟩) (hg : Guard req (c.own i) q) :
    CompletionInv v (c.answer (escrowSystem cfg) i env req q k) := by
  refine ⟨hI.publish.answer hs hA ht hg, ?_, hI.unfailed_answer hfault, fun hterm htx => ?_⟩
  · by_cases hiv : v = i
    · subst hiv
      have hworker := hI.worker
      rw [ht] at hworker
      have hset : (c.answer (escrowSystem cfg) v env req q k).threads[v]? =
          some ⟨req, k (q.exec cfg env c.store).1, true⟩ :=
        List.getElem?_set_self (List.getElem?_eq_some_iff.mp ht).1
      rw [hset]
      exact hworker
    · have hset : (c.answer (escrowSystem cfg) i env req q k).threads[v]? = c.threads[v]? :=
        List.getElem?_set_ne (Ne.symm hiv)
      rw [hset]
      exact hI.worker
  · have hstore : (c.answer (escrowSystem cfg) i env req q k).store =
      (q.exec cfg env c.store).2 := rfl
    rw [hstore] at hterm htx ⊢
    rcases exec_status cfg q env c.store with
      ⟨hst, hkeep⟩ | ⟨dst, hq, hos, hst⟩ | ⟨src, rfl, hos, hst⟩
    · rw [hst] at hterm ⊢
      by_cases hnone : c.store.escrow.txReleaseId = none
      · exact hI.covered_txId hs hfault ht hg hA hkeep hterm hnone htx
      · exact hI.covered_kept hs hfault ht hg hkeep hterm hnone
    · rw [hst]
      exact hI.covered_claim hs ht hg hq hos
    · rw [hst] at hterm
      exact absurd (hs.valid_of_claim hg.2.2.1.1) (EscrowStatus.not_valid_of_terminal hterm _)

/-- A new request keeps the invariant. -/
theorem CompletionInv.spawn {v : ℕ} (hI : CompletionInv v c) (req : Request) :
    CompletionInv v (c.spawn (escrowSystem cfg) req) := by
  have hnext : ∀ {j}, c.next j ≠ none → (c.spawn (escrowSystem cfg) req).next j ≠ none := by
    intro j hn
    rwa [next_spawn_of_ne]
    rintro rfl
    exact hn (next_length le_rfl)
  refine ⟨hI.publish.spawn req, ?_, hI.unfailed, fun hterm htx => ?_⟩
  · obtain ⟨t, ht, -⟩ := Option.map_eq_some_iff.mp hI.worker
    have hsame : (c.spawn (escrowSystem cfg) req).threads[v]? = c.threads[v]? :=
      List.getElem?_append_left (List.getElem?_eq_some_iff.mp ht).1
    rw [hsame]
    exact hI.worker
  · rcases hI.covered hterm htx with hrow | ⟨j, hj⟩ | ⟨j, hn, hb⟩ | ⟨hn, hnone⟩
    · exact Or.inl hrow
    · exact Or.inr (Or.inl ⟨j, owesRow_spawn hj req⟩)
    · exact Or.inr (Or.inr (Or.inl ⟨j, hnext hn, hb⟩))
    · exact Or.inr (Or.inr (Or.inr ⟨hnext hn, hnone⟩))

/-- A recovery that starts covers everything. -/
theorem CompletionInv.start (hs : Sound cfg w c) (hI : PublishInv c) :
    CompletionInv c.threads.length
      (c.spawn (escrowSystem cfg) .reconcilePendingSettlements) := by
  have hthread : (c.spawn (escrowSystem cfg)
      .reconcilePendingSettlements).threads[c.threads.length]? =
        some ⟨.reconcilePendingSettlements, reconcilePendingSettlements cfg, true⟩ := by
    simp [Config.spawn, escrowSystem, Request.prog]
  have hown := hs.conforms.own_length le_rfl
  refine ⟨hI.spawn _, by rw [hthread]; rfl, by rw [own_spawn, hown]; rfl, fun _ _ => ?_⟩
  refine Or.inr (Or.inr (Or.inr ⟨?_, by rw [own_spawn, hown]; rfl⟩))
  rw [Config.next, hthread]
  exact Option.some_ne_none Call.findUnclaimedPending

/-- Without an operation in flight, a covered status has its event once. -/
theorem CompletionInv.published_once {v : ℕ} (hI : CompletionInv v c) (hq : c.quiescent = true)
    (hterm : c.store.escrow.status.terminal = true) (htx : c.store.escrow.txReleaseId ≠ none) :
    c.store.published.count c.store.escrow.status = 1 := by
  have hrow : c.store.hasRow c.store.escrow.status = true := by
    rcases hI.covered hterm htx with hrow | ⟨j, hj⟩ | ⟨j, hn, -⟩ | ⟨hn, -⟩
    · exact hrow
    · exact absurd (next_of_quiescent hq j) (owesRow_iff.mp hj).1
    · exact absurd (next_of_quiescent hq j) hn
    · exact absurd (next_of_quiescent hq v) hn
  rcases hI.publish.terminal _ hterm hrow with hpub | ⟨j, hj⟩
  · exact Nat.le_antisymm (hI.publish.count _) (List.count_pos_iff.mpr hpub)
  · rw [next_of_quiescent hq j] at hj
    cases hj

end Steps

/-- A recovery that runs without a failure, after a run that loses no completion, leaves a
terminal status with a transaction id with exactly one event. -/
theorem completion_published_once (cfg : Settings) (w : World) (before after : List Step)
    (hevents : w.events = []) (hpublished : w.published = [])
    (hcalm : ∀ a ∈ after, calm a = true)
    (hA : Along (escrowSystem cfg) (fun c a => keepsCompletion c a = true) (Config.init w)
      (before ++ .start .reconcilePendingSettlements :: after)) :
    let c := reach cfg w (before ++ .start .reconcilePendingSettlements :: after)
    c.quiescent = true → c.store.escrow.status.terminal = true →
      c.store.escrow.txReleaseId ≠ none → c.store.published.count c.store.escrow.status = 1 := by
  obtain ⟨hbefore, -, hafter⟩ := along_append.mp hA
  have hinit : PublishInv (Config.init w) := by
    have hnone : ∀ t, w.hasRow t ≠ true := by
      intro t
      simp [World.hasRow, hevents]
    refine ⟨fun t => ?_, fun t ht => ?_, fun i t hu => ?_, fun t _ hrow => ?_, fun i t hr => ?_⟩
    · have hcount : w.published.count t ≤ 1 := by simp [hpublished]
      exact hcount
    · have hmem : t ∈ w.published := ht
      rw [hpublished] at hmem
      cases hmem
    · cases hu
    · exact absurd hrow (hnone t)
    · cases hr
  obtain ⟨hs, hI⟩ := run_induction (I := PublishInv) hinit (fun _ hI _ => hI.spawn _)
    (fun hs hI hA ht hg => hI.answer hs hA ht hg) (fun _ hI hA _ => hI.kill hA) before hbefore
  have hrun := run_induction_from
    (A := fun c a => keepsCompletion c a = true ∧ calm a = true)
    (I := CompletionInv (reach cfg w before).threads.length) (fun _ hI _ => hI.spawn _)
    (fun hs hI hA ht hg => hI.answer hs hA.1 (Option.isNone_iff_eq_none.mp hA.2) ht hg)
    (fun _ _ hA _ => by cases hA.2) (hs.spawn .reconcilePendingSettlements)
    (CompletionInv.start hs hI) after (hafter.and_forall hcalm)
  have hexec : reach cfg w (before ++ .start .reconcilePendingSettlements :: after) =
      ((reach cfg w before).spawn (escrowSystem cfg) .reconcilePendingSettlements).exec
        (escrowSystem cfg) after :=
    exec_append before (.start .reconcilePendingSettlements :: after)
  intro c hq hterm htx
  have hI' : CompletionInv (reach cfg w before).threads.length c := by
    simp only [c, hexec]
    exact hrun.2
  exact hI'.published_once hq hterm htx

/-- A release that crashes after its transaction id is stored. -/
def crashedRelease : List Step :=
  paidTrade ++ .start (.releaseFunds (.user 2)) :: calls 2 7 ++ [.crash 2]

/-- The recovery of a crashed release. -/
def recoveredRelease : List Step :=
  crashedRelease ++ .start .reconcilePendingSettlements :: calls 3 12

/-- The recovery publishes the event of the crashed release. -/
theorem completion_published_once_recoveredRelease :
    ((reach .plain (.plain .mock .created) crashedRelease).store.published.count .completed = 0 ∧
      (reach .plain (.plain .mock .created) recoveredRelease).store.escrow.status = .completed ∧
      Along (escrowSystem .plain) (fun c a => keepsCompletion c a = true)
        (Config.init (.plain .mock .created)) recoveredRelease) ∧
    (reach .plain (.plain .mock .created) recoveredRelease).store.published.count
      (reach .plain (.plain .mock .created) recoveredRelease).store.escrow.status = 1 :=
  ⟨by decide, completion_published_once .plain (.plain .mock .created) crashedRelease
    (calls 3 12) rfl rfl (by simp [calls, calm]) (by decide) (by decide)
    (by decide) (by decide)⟩

/-- A release that crashes between its history row and its event, and a recovery. -/
def lostEvent : List Step :=
  paidTrade ++ .start (.releaseFunds (.user 2)) :: calls 2 9 ++ [.crash 2] ++
    .start .reconcilePendingSettlements :: calls 3 4

/-- The recovery has run to its end, and the event of the release is never published. -/
theorem completion_event_lost :
    let c := reach .plain (.plain .mock .created) lostEvent
    c.quiescent = true ∧ c.store.escrow.status = .completed ∧ c.store.escrow.txReleaseId ≠ none ∧
      c.store.published.count .completed = 0 := by
  decide

end Sails
