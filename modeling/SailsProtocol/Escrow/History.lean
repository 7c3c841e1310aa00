import SailsProtocol.Escrow.Claims

/-!
# The history and the status

The status is claimed first and its history row is written later, in another transaction.
A row that is written stays, also when its claim is taken back : a release whose event
cannot be published leaves a `COMPLETED` row over a reverted escrow
(`release_row_over_reverted_escrow`). An operation that stops under its claim leaves a
status without a row, and a late row can land on top of the row of a later status.

`history_agrees_with_status` is the exact repair : when no step does one of these three
things, the newest row is the row of the status whenever no operation is in flight, and
only the status itself has a terminal row.
-/

namespace Sails

open Async Async.Config Async.ClaimStack

variable {cfg : Settings} {w : World}

/-- The history has a row of `st`. -/
def World.hasRow (s : World) (st : EscrowStatus) : Bool :=
  s.events.any fun e => decide (e.toStatus = st)

/-- The newest row is the row of the status, and only the status has a terminal row. -/
def World.historyAgrees (s : World) : Bool :=
  (s.events.head?.all fun e => decide (e.toStatus = s.escrow.status)) &&
    s.events.all fun e => !e.toStatus.terminal || decide (e.toStatus = s.escrow.status)

/-- Operation `i` takes a claim of `st` back when it throws. -/
def takesBack (c : EscrowConfig) (i : ℕ) (st : EscrowStatus) : Bool :=
  c.threads[i]?.any fun t => t.req.reverts st

/-- Operation `i` is in flight, holds the claim of `st`, and is still to write the row of
`st` or to take the claim back. -/
def owesRow (c : EscrowConfig) (i : ℕ) (st : EscrowStatus) : Bool :=
  (c.next i).isSome && decide ((Footprint.of (c.own i)).claim.map Prod.snd = some st) &&
    (Footprint.of (c.own i)).undo.isNone && !c.store.hasRow st &&
    (takesBack c i st || !(Footprint.of (c.own i)).failedSinceClaim)

/-- Some operation owes the row of `st`. -/
def rowDue (c : EscrowConfig) (st : EscrowStatus) : Bool :=
  (List.range c.threads.length).any fun i => owesRow c i st

/-- The history is at `st`, or will be. -/
def historyAt (c : EscrowConfig) (st : EscrowStatus) : Bool :=
  c.store.events.isEmpty || decide (c.store.events.head?.map EscrowEvent.toStatus = some st) ||
    rowDue c st

/-- Without operation `i` the status has no row, over a history that has one. -/
def leavesGap (c : EscrowConfig) (i : ℕ) : Bool :=
  !c.store.events.isEmpty && owesRow c i c.store.escrow.status

/-- The call takes a claim back. -/
def Call.isRevert : Call → Bool
  | .revertStatus _ _ => true
  | _ => false

/-- The step does not stop an operation that owes the row of the status, takes no claim
back whose row is written, and writes no row late. -/
def keepsHistory (c : EscrowConfig) : Step → Bool
  | .start _ => true
  | .run i env =>
    match env.fault, c.next i with
    | _, none => true
    | some _, some q => !leavesGap c i || q.unfailing ||
        (!q.isRevert && takesBack c i c.store.escrow.status)
    | none, some q =>
      match q with
      | .revertStatus dst src =>
        decide (c.store.escrow.status ≠ dst) || (!c.store.hasRow dst && historyAt c src)
      | .recordEscrowEvent e =>
        c.store.hasRow e.toStatus || decide (e.toStatus = c.store.escrow.status) ||
          (!e.toStatus.terminal && rowDue c c.store.escrow.status)
      | _ => true
  | .crash i => !leavesGap c i

/-! ## Owed rows -/

section Owed

variable {c : EscrowConfig} {i j : ℕ} {st : EscrowStatus}

/-- When a thread is due to write a row of the status. -/
theorem owesRow_iff : owesRow c i st = true ↔ c.next i ≠ none ∧
    (∃ src, (Footprint.of (c.own i)).Holds src st) ∧ c.store.hasRow st = false ∧
    (takesBack c i st = true ∨ (Footprint.of (c.own i)).failedSinceClaim = false) := by
  simp only [owesRow, Footprint.Holds, Bool.and_eq_true, Bool.or_eq_true, Bool.not_eq_true',
    decide_eq_true_eq, Option.map_eq_some_iff, Prod.exists, Option.isNone_iff_eq_none,
    Option.isSome_iff_ne_none]
  constructor
  · rintro ⟨⟨⟨⟨hn, src, _, hc, rfl⟩, hu⟩, hr⟩, hf⟩
    exact ⟨hn, ⟨src, hc, hu⟩, hr, hf⟩
  · rintro ⟨hn, ⟨src, hc, hu⟩, hr, hf⟩
    exact ⟨⟨⟨⟨hn, src, st, hc, rfl⟩, hu⟩, hr⟩, hf⟩

/-- When some thread is due to write a row of the status. -/
theorem rowDue_iff : rowDue c st = true ↔ ∃ i, owesRow c i st = true := by
  simp only [rowDue, List.any_eq_true, List.mem_range]
  constructor
  · rintro ⟨i, -, hi⟩
    exact ⟨i, hi⟩
  · rintro ⟨i, hi⟩
    refine ⟨i, ?_, hi⟩
    by_contra hlt
    exact (owesRow_iff.mp hi).1 (next_length (Nat.not_lt.mp hlt))

theorem hasRow_iff {s : World} : s.hasRow st = true ↔ ∃ e ∈ s.events, e.toStatus = st := by
  simp [World.hasRow]

theorem hasRow_congr {s s' : World} (heq : s'.events = s.events) : s'.hasRow st = s.hasRow st := by
  rw [World.hasRow, heq, World.hasRow]

theorem historyAt_iff : historyAt c st = true ↔ c.store.events = [] ∨
    (∃ e l, c.store.events = e :: l ∧ e.toStatus = st) ∨ ∃ i, owesRow c i st = true := by
  rw [historyAt, Bool.or_eq_true, Bool.or_eq_true, rowDue_iff, or_assoc]
  refine or_congr List.isEmpty_iff (or_congr ?_ Iff.rfl)
  rw [decide_eq_true_eq]
  rcases c.store.events with _ | ⟨e, l⟩ <;> simp

end Owed

/-! ## Rows and recovery reads -/

section Rows

variable {q : Call} {env : Env} {s : World} {h : List Obs}

theorem record_of_hasRow {e : EscrowEvent} (hrow : s.hasRow e.toStatus = true) :
    (Call.recordEscrowEvent e).run cfg env s = (.ok false, s) :=
  if_pos hrow

theorem record_of_not_hasRow {e : EscrowEvent} (hrow : s.hasRow e.toStatus = false) :
    (Call.recordEscrowEvent e).run cfg env s = (.ok true, { s with events := e :: s.events }) :=
  if_neg (Bool.eq_false_iff.mp hrow)

/-- A call leaves the history, or writes a row that was missing. -/
theorem events_exec (cfg : Settings) (q : Call) (env : Env) (s : World) :
    (q.exec cfg env s).2.events = s.events ∨ ∃ e, q = .recordEscrowEvent e ∧
      env.fault = none ∧ s.hasRow e.toStatus = false ∧
      (q.exec cfg env s).2.events = e :: s.events := by
  cases hfault : env.fault with
  | some f =>
    rw [Call.exec, hfault]
    exact Or.inl rfl
  | none =>
    rw [exec_of_no_fault hfault]
    cases q
    case recordEscrowEvent e =>
      cases hrow : s.hasRow e.toStatus with
      | true =>
        rw [record_of_hasRow hrow]
        exact Or.inl rfl
      | false =>
        rw [record_of_not_hasRow hrow]
        exact Or.inr ⟨e, rfl, rfl, hrow, rfl⟩
    all_goals
      refine Or.inl ?_
      simp only [Call.run] <;> (repeat' split) <;> rfl

/-- Rows stay. -/
theorem hasRow_exec {st : EscrowStatus} (hrow : s.hasRow st = true) :
    (q.exec cfg env s).2.hasRow st = true := by
  obtain ⟨e, he, hst⟩ := hasRow_iff.mp hrow
  rcases events_exec cfg q env s with heq | ⟨e', -, -, -, heq⟩
  · exact hasRow_iff.mpr ⟨e, heq ▸ he, hst⟩
  · exact hasRow_iff.mpr ⟨e, heq ▸ List.mem_cons_of_mem _ he, hst⟩

/-- The rows an operation wrote or found are in the history. -/
theorem rows_append {t : EscrowStatus}
    (ht : t ∈ (Footprint.of (q.observe s (q.exec cfg env s).1 ++ h)).rows) :
    t ∈ (Footprint.of h).rows ∨ (q.exec cfg env s).2.hasRow t = true := by
  by_cases hq : (∃ e, q = .recordEscrowEvent e) ∨ ∃ t, q = .alreadyEmitted t
  · cases hfault : env.fault with
    | some f =>
      rw [Call.exec, hfault] at ht
      rcases hq with ⟨e, rfl⟩ | ⟨t', rfl⟩ <;> exact Or.inl ht
    | none =>
      rw [exec_of_no_fault hfault] at ht ⊢
      rcases hq with ⟨e, rfl⟩ | ⟨t', rfl⟩
      · cases hrow : s.hasRow e.toStatus with
        | true =>
          rw [record_of_hasRow hrow] at ht ⊢
          rcases List.mem_cons.mp ht with rfl | ht
          · exact Or.inr hrow
          · exact Or.inl ht
        | false =>
          rw [record_of_not_hasRow hrow] at ht ⊢
          rcases List.mem_cons.mp ht with rfl | ht
          · exact Or.inr (hasRow_iff.mpr ⟨e, List.mem_cons_self, rfl⟩)
          · exact Or.inl ht
      · cases hrow : s.hasRow t' with
        | true =>
          have hany : (s.events.any fun e => decide (e.toStatus = t')) = true := hrow
          simp only [Call.run, Call.observe, Call.answered, hany, if_true] at ht ⊢
          rcases List.mem_cons.mp ht with rfl | ht
          · exact Or.inr hrow
          · exact Or.inl ht
        | false =>
          have hany : (s.events.any fun e => decide (e.toStatus = t')) = false := hrow
          simp only [Call.run, Call.observe, Call.answered, hany] at ht
          exact Or.inl ht
  · refine Or.inl ?_
    rw [← @Footprint.of_append _ Footprint.rows (q.observe s (q.exec cfg env s).1)]
    · exact ht
    · intro o ho f
      have hof := of_mem_observe ho
      cases o with
      | rowWritten t' =>
        obtain ⟨e, he, -⟩ := hof
        exact absurd (Or.inl ⟨e, he⟩) hq
      | rowFound t' =>
        rcases hof with ⟨e, he, -⟩ | he
        · exact absurd (Or.inl ⟨e, he⟩) hq
        · exact absurd (Or.inr ⟨t', he⟩) hq
      | _ => rfl

/-- A recovery read is a read of a terminal status. -/
def Obs.ReadsTerminal : Obs → Prop
  | .snapshot t => t.terminal = true
  | .completionSnapshot (some t) => t.terminal = true
  | _ => True

/-- What a reconciliation reads is in a final status. -/
theorem readsTerminal_of_mem {o : Obs} (ho : o ∈ q.observe s (q.exec cfg env s).1) :
    o.ReadsTerminal := by
  have hof := of_mem_observe ho
  obtain ⟨fault, _⟩ := env
  cases o with
  | snapshot t =>
    cases hof
    cases fault with
    | some f => cases List.mem_singleton.mp ho
    | none =>
      simp only [Call.exec, Call.run, Call.observe, Call.answered] at ho
      split at ho
      · rename_i e heq
        cases List.mem_singleton.mp ho
        split at heq <;> cases heq
        rename_i hterm
        exact hterm.1
      · cases ho
  | completionSnapshot t =>
    cases hof
    cases fault with
    | some f => cases List.mem_singleton.mp ho
    | none =>
      simp only [Call.exec, Call.run, Call.observe, Call.answered] at ho
      cases List.mem_singleton.mp ho
      split
      · rename_i hterm
        exact hterm.1
      · trivial
  | _ => trivial

/-- The snapshot of a thread was observed. -/
theorem snapshot_mem {t : EscrowStatus} (hs : (Footprint.of h).snapshot = some t) :
    .snapshot t ∈ h := by
  induction h with
  | nil => cases hs
  | cons o h ih =>
    cases o <;> first
      | exact List.mem_cons_of_mem _ (ih hs)
      | (cases hs; exact List.mem_cons_self)

/-- The completion of a thread was observed. -/
theorem completion_mem {t : Option EscrowStatus} (hs : (Footprint.of h).completion = some t) :
    .completionSnapshot t ∈ h := by
  induction h with
  | nil => cases hs
  | cons o h ih =>
    cases o <;> first
      | exact List.mem_cons_of_mem _ (ih hs)
      | (cases hs; exact List.mem_cons_self)

end Rows

/-! ## What the runs keep -/

/-- What the runs keep : every row has its claim in force, the history is at the status or
will be, and the logs agree with the store. -/
structure HistoryInv (c : EscrowConfig) : Prop where
  rows : ∀ e ∈ c.store.events, ∃ i src,
    (⟨i, src, e.toStatus⟩ : ClaimStack.Held EscrowStatus) ∈ inForce (changes c.trace)
  recorded : historyAt c c.store.escrow.status = true
  own : ∀ i t, t ∈ (Footprint.of (c.own i)).rows → c.store.hasRow t = true
  reads : ∀ i, ∀ o ∈ c.own i, o.ReadsTerminal

section Steps

variable {c : EscrowConfig} {i j : ℕ} {env : Env} {req : Request} {q : Call} {st : EscrowStatus}
variable {k : Except Err q.Ans → Op Unit}

/-- A status above the status of the escrow has no row. -/
theorem HistoryInv.not_hasRow (hs : Sound cfg w c) (hI : HistoryInv c) {dst : EscrowStatus}
    (hv : ValidTransition c.store.escrow.status dst) : c.store.hasRow dst = false := by
  rw [Bool.eq_false_iff]
  intro hrow
  obtain ⟨e, he, rfl⟩ := hasRow_iff.mp hrow
  obtain ⟨i, src, hin⟩ := hI.rows e he
  have hp := path_inForce EscrowStatus.rank_lt_of_valid hs.ledger.lawful
  rw [← hs.ledger.status] at hp
  have hle := (hp.rank_le EscrowStatus.rank_lt_of_valid hin).2
  have hlt := EscrowStatus.rank_lt_of_valid _ _ hv
  exact absurd hlt (Nat.not_lt.mpr hle)

/-- A terminal row is the row of the status. -/
theorem HistoryInv.terminal_row (hs : Sound cfg w c) (hI : HistoryInv c) {e : EscrowEvent}
    (he : e ∈ c.store.events) (hterm : e.toStatus.terminal = true) :
    e.toStatus = c.store.escrow.status := by
  obtain ⟨i, src, hin⟩ := hI.rows e he
  exact (hs.terminal_inForce hin hterm).1.symm

/-- Without an operation in flight the history agrees with the status. -/
theorem HistoryInv.agrees (hs : Sound cfg w c) (hI : HistoryInv c) (hq : c.quiescent = true) :
    c.store.historyAgrees = true := by
  have hhead : (c.store.events.head?.all fun e =>
      decide (e.toStatus = c.store.escrow.status)) = true := by
    rcases historyAt_iff.mp hI.recorded with hnil | ⟨e, l, heq, hst⟩ | ⟨i, hi⟩
    · rw [hnil]
      rfl
    · rw [heq]
      exact decide_eq_true hst
    · exact absurd (next_of_quiescent hq i) (owesRow_iff.mp hi).1
  rw [World.historyAgrees, hhead, Bool.true_and, List.all_eq_true]
  intro e he
  cases hterm : e.toStatus.terminal with
  | false => rfl
  | true => exact decide_eq_true (hI.terminal_row hs he hterm)

theorem takesBack_of {p : Op Unit} {b : Bool} (ht : c.threads[i]? = some ⟨req, p, b⟩) :
    takesBack c i st = req.reverts st := by
  rw [takesBack, ht]
  rfl

/-- A live operation is in flight or done. -/
theorem next_or_done (hs : Sound cfg w c) {p : Op Unit}
    (ht : c.threads[i]? = some ⟨req, p, true⟩) : c.next i ≠ none ∨ Done req (c.own i) := by
  cases p with
  | call q k => exact Or.inl (next_of_call ht ▸ Option.some_ne_none q)
  | ret r => exact Or.inr (hs.conforms.result ht)

/-- An operation that holds a claim without its row owes it : it cannot have returned. -/
theorem owesRow_of_holds (src : EscrowStatus) (hs : Sound cfg w c) {p : Op Unit}
    (ht : c.threads[i]? = some ⟨req, p, true⟩)
    (hown : ∀ t, t ∈ (Footprint.of (c.own i)).rows → c.store.hasRow t = true)
    (hh : (Footprint.of (c.own i)).Holds src st) (hrow : c.store.hasRow st = false)
    (hf : req.reverts st = true ∨ (Footprint.of (c.own i)).failedSinceClaim = false) :
    owesRow c i st = true := by
  refine owesRow_iff.mpr ⟨?_, ⟨src, hh⟩, hrow, by rwa [takesBack_of ht]⟩
  refine (next_or_done hs ht).elim id fun hdone => ?_
  rcases hdone.claim src st hh with ⟨hmem, -⟩ | ⟨hrev, hfail⟩
  · rw [hown st hmem] at hrow
    cases hrow
  · rcases hf with hf | hf
    · rw [hrev] at hf
      cases hf
    · rw [hfail] at hf
      cases hf

/-- A call of another operation leaves what is owed. -/
theorem owesRow_answer_of_ne (hij : j ≠ i)
    (hrow : (q.exec cfg env c.store).2.hasRow st = c.store.hasRow st)
    (hj : owesRow c j st = true) :
    owesRow (c.answer (escrowSystem cfg) i env req q k) j st = true := by
  have hthread : (c.answer (escrowSystem cfg) i env req q k).threads[j]? = c.threads[j]? :=
    List.getElem?_set_ne (Ne.symm hij)
  have hstore : (c.answer (escrowSystem cfg) i env req q k).store.hasRow st =
    c.store.hasRow st := hrow
  rw [owesRow, takesBack, next_answer_of_ne hij, own_answer_of_ne hij, hthread, hstore]
  exact hj

theorem trace_answer : changes (c.answer (escrowSystem cfg) i env req q k).trace =
    changes ((q.observe c.store (q.exec cfg env c.store).1).map (Prod.mk i) ++ c.trace) :=
  rfl

/-- What a recovery read for is terminal. -/
theorem HistoryInv.terminal_of_read (hI : HistoryInv c)
    (hread : (Footprint.of (c.own i)).snapshot = some st ∨
      (Footprint.of (c.own i)).completion = some (some st)) : st.terminal = true :=
  hread.elim (fun hs => hI.reads i _ (snapshot_mem hs)) fun hs => hI.reads i _ (completion_mem hs)

/-- The claim of a row that is written is in force. -/
theorem HistoryInv.row_inForce (hs : Sound cfg w c) (hw : w.escrow.status.terminal = false)
    (hI : HistoryInv c) {e : EscrowEvent} (hg : Guard req (c.own i) (.recordEscrowEvent e))
    (he : e.toStatus = c.store.escrow.status ∨ e.toStatus.terminal = false) : ∃ i src,
      (⟨i, src, e.toStatus⟩ : ClaimStack.Held EscrowStatus) ∈ inForce (changes c.trace) := by
  rcases hg.2.2.1 with ⟨src, hh⟩ | ⟨-, hread⟩
  · exact ⟨i, src, hs.inForce_of_holds hh⟩
  · have hterm := hI.terminal_of_read hread
    rcases he with he | he
    · have hne : c.store.escrow.status ≠ w.escrow.status := by
        intro heq
        rw [he, heq, hw] at hterm
        cases hterm
      obtain ⟨i, src, l, hl, -⟩ := hs.holder_of_ne hne
      exact ⟨i, src, by rw [hl, he]; exact List.mem_cons_self⟩
    · rw [hterm] at he
      cases he

/-- The condition of a row that is written. -/
theorem keepsHistory_record {e : EscrowEvent} (hA : keepsHistory c (.run i env) = true)
    (hn : c.next i = some (.recordEscrowEvent e)) (hfault : env.fault = none)
    (hrow : c.store.hasRow e.toStatus = false) : e.toStatus = c.store.escrow.status ∨
      (e.toStatus.terminal = false ∧ ∃ j, owesRow c j c.store.escrow.status = true) := by
  simpa [keepsHistory, hn, hfault, hrow, rowDue_iff] using hA

/-- The condition of a revert that takes effect. -/
theorem keepsHistory_revert {src : EscrowStatus} (hA : keepsHistory c (.run i env) = true)
    (hn : c.next i = some (.revertStatus c.store.escrow.status src)) (hfault : env.fault = none) :
    c.store.hasRow c.store.escrow.status = false ∧ historyAt c src = true := by
  simpa [keepsHistory, hn, hfault] using hA

/-- Only a call that writes a row changes the history. -/
theorem events_of_claim {p : EscrowStatus × EscrowStatus} (hq : q.claim? = some p) :
    (q.exec cfg env c.store).2.events = c.store.events := by
  rcases events_exec cfg q env c.store with heq | ⟨e, rfl, -⟩
  · exact heq
  · cases hq

/-- A revert that was observed had no fault. -/
theorem fault_of_reverted {dst src : EscrowStatus} (ho : .reverted dst src ∈
    (Call.revertStatus dst src).observe c.store
      ((Call.revertStatus dst src).exec cfg env c.store).1) : env.fault = none := by
  cases hfault : env.fault with
  | none => rfl
  | some f =>
    rw [Call.exec, hfault] at ho
    cases List.mem_singleton.mp ho

/-- Every row keeps its claim. -/
theorem HistoryInv.rows_answer (hs : Sound cfg w c) (hw : w.escrow.status.terminal = false)
    (hI : HistoryInv c) (hA : keepsHistory c (.run i env) = true)
    (ht : c.threads[i]? = some ⟨req, .call q k, true⟩) (hg : Guard req (c.own i) q)
    {e : EscrowEvent} (he : e ∈ (q.exec cfg env c.store).2.events) : ∃ j src,
      (⟨j, src, e.toStatus⟩ : ClaimStack.Held EscrowStatus) ∈
        inForce (changes (c.answer (escrowSystem cfg) i env req q k).trace) := by
  rw [trace_answer]
  rcases exec_status cfg q env c.store with ⟨-, hos⟩ | ⟨dst, hq, hos, -⟩ | ⟨src, rfl, hos, -⟩
  · rw [changes_append hos]
    rcases events_exec cfg q env c.store with heq | ⟨e', rfl, hfault, hrow, heq⟩
    · exact hI.rows e (heq ▸ he)
    · rcases List.mem_cons.mp (heq ▸ he) with rfl | hold
      · refine hI.row_inForce hs hw hg ?_
        exact (keepsHistory_record hA (next_of_call ht) hfault hrow).imp_right And.left
      · exact hI.rows e hold
  · obtain ⟨j, src, hin⟩ := hI.rows e (events_of_claim hq ▸ he)
    rw [hos]
    exact ⟨j, src, List.mem_cons_of_mem _ hin⟩
  · rcases events_exec cfg (.revertStatus c.store.escrow.status src) env c.store with
      heq | ⟨e', hq, -⟩
    · rw [heq] at he
      obtain ⟨j, src', hin⟩ := hI.rows e he
      have hfault : env.fault = none := fault_of_reverted (hos ▸ List.mem_cons_self)
      obtain ⟨hrow, -⟩ := keepsHistory_revert hA (next_of_call ht) hfault
      obtain ⟨l, hl⟩ := (path_inForce EscrowStatus.rank_lt_of_valid hs.ledger.lawful).head_of_dst
        EscrowStatus.rank_lt_of_valid (hs.inForce_of_holds hg.2.2.1) hs.ledger.status
      rw [hos]
      refine ⟨j, src', ?_⟩
      rw [hl] at hin
      rcases List.mem_cons.mp hin with heq' | hmem
      · rw [hasRow_iff.mpr ⟨e, he, congrArg ClaimStack.Held.dst heq'⟩] at hrow
        cases hrow
      · have htail : inForce (changes (([Obs.reverted c.store.escrow.status src]).map
          (Prod.mk i) ++ c.trace)) = (inForce (changes c.trace)).tail := rfl
        rw [htail, hl]
        exact hmem
    · cases hq

/-- The rows an operation wrote or found are in the history after a call. -/
theorem hasRow_answer
    (hown : ∀ i t, t ∈ (Footprint.of (c.own i)).rows → c.store.hasRow t = true) (j : ℕ)
    (t : EscrowStatus)
    (hmem : t ∈ (Footprint.of ((c.answer (escrowSystem cfg) i env req q k).own j)).rows) :
    (q.exec cfg env c.store).2.hasRow t = true := by
  refine forall_own (P := fun _ h => t ∈ (Footprint.of h).rows →
    (q.exec cfg env c.store).2.hasRow t = true) (fun j hj => hasRow_exec (hown j t hj)) ?_ j hmem
  exact fun hi => (rows_append hi).elim (fun hold => hasRow_exec (hown i t hold)) id

theorem failedSinceClaim_append {s : World} {r : Except Err q.Ans} {h : List Obs}
    (hf : .failed ∉ q.observe s r) (hold : (Footprint.of h).failedSinceClaim = false) :
    (Footprint.of (q.observe s r ++ h)).failedSinceClaim = false := by
  refine Footprint.flag_append Footprint.failedSinceClaim (fun f o hne hf => ?_) hf hold
  cases o <;> first | exact hf | rfl | exact absurd rfl hne

/-- A call that does not take the claim back leaves what its own operation owes. -/
theorem owesRow_answer_self (hs : Sound cfg w c)
    (hown : ∀ t, t ∈ (Footprint.of ((c.answer (escrowSystem cfg) i env req q k).own i)).rows →
      (q.exec cfg env c.store).2.hasRow t = true)
    (ht : c.threads[i]? = some ⟨req, .call q k, true⟩) (hg : Guard req (c.own i) q)
    (hrevert : q.isRevert = false)
    (hrow : (q.exec cfg env c.store).2.hasRow st = c.store.hasRow st)
    (hcalm : (env.fault = none ∨ q.unfailing = true) ∨ takesBack c i st = true)
    (howes : owesRow c i st = true) :
    owesRow (c.answer (escrowSystem cfg) i env req q k) i st = true := by
  have hs' : Sound cfg w (c.answer (escrowSystem cfg) i env req q k) := hs.answer ht
  obtain ⟨-, ⟨src, hclaim, hundo⟩, hnone, hf⟩ := owesRow_iff.mp howes
  rw [takesBack_of ht] at hcalm hf
  have hq : q.claim? = none := by
    cases hq : q.claim? with
    | none => rfl
    | some p =>
      rw [(hg.claim hq).1] at hclaim
      cases hclaim
  have hq' : ∀ dst src, q ≠ .revertStatus dst src := by
    rintro dst src rfl
    cases hrevert
  refine owesRow_of_holds src hs'
    (List.getElem?_set_self (List.getElem?_eq_some_iff.mp ht).1) hown ?_ (hrow.trans hnone) ?_
  · rw [own_answer_self]
    exact ⟨(claim_append hq).trans hclaim, (undo_append hq').trans hundo⟩
  · rw [own_answer_self]
    rcases hf with hrev | hfail
    · exact Or.inl hrev
    · exact hcalm.symm.imp_right fun hquiet => failedSinceClaim_append (not_failed hquiet) hfail

/-- A revert by the operation that owes the row of the status takes effect. -/
theorem revert_of_owes (hg : Guard req (c.own i) q) (hfault : env.fault = none)
    (howes : owesRow c i c.store.escrow.status = true) (hr : q.isRevert = true) :
    ¬ ∀ o ∈ q.observe c.store (q.exec cfg env c.store).1, ∀ i, o.change? i = none := by
  intro hkeep
  cases q <;> cases hr
  case revertStatus dst src =>
    obtain ⟨-, ⟨src', hh⟩, -, -⟩ := owesRow_iff.mp howes
    obtain ⟨⟨hclaim, -⟩, -⟩ := hg.2.2
    rw [hh.1] at hclaim
    obtain ⟨-, rfl⟩ := Prod.mk.inj (Option.some.inj hclaim)
    have ho : .reverted c.store.escrow.status src ∈
        (Call.revertStatus c.store.escrow.status src).observe c.store
          ((Call.revertStatus c.store.escrow.status src).exec cfg env c.store).1 := by
      simp [exec_of_no_fault hfault, Call.run, Call.observe, Call.answered]
    cases hkeep _ ho i

/-- A claim makes its row due. -/
theorem HistoryInv.recorded_claim (hs : Sound cfg w c) (hI : HistoryInv c)
    (ht : c.threads[i]? = some ⟨req, .call q k, true⟩) (hg : Guard req (c.own i) q)
    {dst : EscrowStatus} (hq : q.claim? = some (c.store.escrow.status, dst))
    (hos : q.observe c.store (q.exec cfg env c.store).1 = [.claimed c.store.escrow.status dst]) :
    historyAt (c.answer (escrowSystem cfg) i env req q k) dst = true := by
  have hs' : Sound cfg w (c.answer (escrowSystem cfg) i env req q k) := hs.answer ht
  obtain ⟨-, hundo, hv⟩ := hg.claim hq
  have hlog : (c.answer (escrowSystem cfg) i env req q k).own i =
      .claimed c.store.escrow.status dst :: c.own i := own_answer_of_observe hos
  have hrow : (c.answer (escrowSystem cfg) i env req q k).store.hasRow dst = false :=
    (hasRow_congr (events_of_claim hq)).trans (hI.not_hasRow hs hv)
  refine historyAt_iff.mpr (Or.inr (Or.inr ⟨i, ?_⟩))
  refine owesRow_of_holds c.store.escrow.status hs'
    (List.getElem?_set_self (List.getElem?_eq_some_iff.mp ht).1) (hasRow_answer hI.own i) ?_ hrow ?_
  · rw [hlog]
    exact ⟨rfl, hundo⟩
  · rw [hlog]
    exact Or.inr rfl

/-- A revert goes back to a status the history is at. -/
theorem HistoryInv.recorded_revert (hs : Sound cfg w c) {src : EscrowStatus}
    {k : Except Err (Call.revertStatus c.store.escrow.status src).Ans → Op Unit}
    (hA : keepsHistory c (.run i env) = true)
    (ht : c.threads[i]? = some ⟨req, .call (.revertStatus c.store.escrow.status src) k, true⟩)
    (hg : Guard req (c.own i) (.revertStatus c.store.escrow.status src))
    (hfault : env.fault = none) :
    historyAt (c.answer (escrowSystem cfg) i env req (.revertStatus c.store.escrow.status src) k)
      src = true := by
  have hevents : ((Call.revertStatus c.store.escrow.status src).exec cfg env c.store).2.events =
      c.store.events := by
    rcases events_exec cfg (.revertStatus c.store.escrow.status src) env c.store with
      heq | ⟨e, hq, -⟩
    · exact heq
    · cases hq
  obtain ⟨-, hat⟩ := keepsHistory_revert hA (next_of_call ht) hfault
  rcases historyAt_iff.mp hat with hnil | ⟨e, l, heq, hst⟩ | ⟨j, hj⟩
  · exact historyAt_iff.mpr (Or.inl (hevents.trans hnil))
  · exact historyAt_iff.mpr (Or.inr (Or.inl ⟨e, l, hevents.trans heq, hst⟩))
  · refine historyAt_iff.mpr (Or.inr (Or.inr ⟨j, owesRow_answer_of_ne ?_ ?_ hj⟩))
    · rintro rfl
      obtain ⟨-, ⟨src', hh⟩, -, -⟩ := owesRow_iff.mp hj
      have hv := hs.valid_of_claim hg.2.2.1.1
      have hclaim := hg.2.2.1.1
      rw [hh.1] at hclaim
      cases hclaim
      exact absurd (EscrowStatus.rank_lt_of_valid _ _ hv) (Nat.lt_irrefl _)
    · exact hasRow_congr hevents

/-- The condition of a fault at an operation that owes the row of the status. -/
theorem keepsHistory_fault (hA : keepsHistory c (.run i env) = true) (hn : c.next i = some q)
    (hfault : env.fault ≠ none) (hnil : c.store.events ≠ [])
    (howes : owesRow c i c.store.escrow.status = true) : q.unfailing = true ∨
      (q.isRevert = false ∧ takesBack c i c.store.escrow.status = true) := by
  obtain ⟨f, hf⟩ := Option.ne_none_iff_exists'.mp hfault
  have hgap : leavesGap c i = true := by
    rw [leavesGap, howes, Bool.and_true, Bool.not_eq_true', List.isEmpty_eq_false_iff]
    exact hnil
  simpa [keepsHistory, hn, hf, hgap] using hA

/-- An operation that owes the row of the status goes on owing it. -/
theorem HistoryInv.owes_answer (hs : Sound cfg w c) (hI : HistoryInv c)
    (hA : keepsHistory c (.run i env) = true)
    (ht : c.threads[i]? = some ⟨req, .call q k, true⟩) (hg : Guard req (c.own i) q)
    (hkeep : ∀ o ∈ q.observe c.store (q.exec cfg env c.store).1, ∀ i, o.change? i = none)
    (hevents : (q.exec cfg env c.store).2.events = c.store.events)
    (hnil : c.store.events ≠ []) (howes : owesRow c i c.store.escrow.status = true) :
    owesRow (c.answer (escrowSystem cfg) i env req q k) i c.store.escrow.status = true := by
  have hcalm : env.fault = none ∨ q.unfailing = true ∨
      (q.isRevert = false ∧ takesBack c i c.store.escrow.status = true) := by
    by_cases hfault : env.fault = none
    · exact Or.inl hfault
    · exact Or.inr (keepsHistory_fault hA (next_of_call ht) hfault hnil howes)
  refine owesRow_answer_self hs (hasRow_answer hI.own i) ht hg ?_ (hasRow_congr hevents) ?_ howes
  · cases hr : q.isRevert with
    | false => rfl
    | true =>
      rcases hcalm with hfault | hu | ⟨hr', -⟩
      · exact absurd hkeep (revert_of_owes hg hfault howes hr)
      · cases q <;> cases hr
        cases hu
      · rw [hr] at hr'
        cases hr'
  · rw [← or_assoc] at hcalm
    exact hcalm.imp_right And.right

/-- A call that leaves the status. -/
theorem HistoryInv.recorded_same (hs : Sound cfg w c) (hI : HistoryInv c)
    (hA : keepsHistory c (.run i env) = true)
    (ht : c.threads[i]? = some ⟨req, .call q k, true⟩) (hg : Guard req (c.own i) q)
    (hkeep : ∀ o ∈ q.observe c.store (q.exec cfg env c.store).1, ∀ i, o.change? i = none) :
    historyAt (c.answer (escrowSystem cfg) i env req q k) c.store.escrow.status = true := by
  rcases events_exec cfg q env c.store with hevents | ⟨e, rfl, hfault, hrow, hevents⟩
  · rcases historyAt_iff.mp hI.recorded with hnil | ⟨e, l, heq, hst⟩ | ⟨j, hj⟩
    · exact historyAt_iff.mpr (Or.inl (hevents.trans hnil))
    · exact historyAt_iff.mpr (Or.inr (Or.inl ⟨e, l, hevents.trans heq, hst⟩))
    · by_cases hnil : c.store.events = []
      · exact historyAt_iff.mpr (Or.inl (hevents.trans hnil))
      · refine historyAt_iff.mpr (Or.inr (Or.inr ⟨j, ?_⟩))
        by_cases hij : j = i
        · subst hij
          exact hI.owes_answer hs hA ht hg hkeep hevents hnil hj
        · exact owesRow_answer_of_ne hij (hasRow_congr hevents) hj
  · -- a new row : of the status itself, or while the row of the status is due
    rcases keepsHistory_record hA (next_of_call ht) hfault hrow with hst | ⟨hterm, j, hj⟩
    · exact historyAt_iff.mpr (Or.inr (Or.inl ⟨e, c.store.events, hevents, hst⟩))
    · by_cases hst : e.toStatus = c.store.escrow.status
      · exact historyAt_iff.mpr (Or.inr (Or.inl ⟨e, c.store.events, hevents, hst⟩))
      · refine historyAt_iff.mpr (Or.inr (Or.inr ⟨j, owesRow_answer_of_ne ?_ ?_ hj⟩))
        · rintro rfl
          rcases hg.2.2.1 with ⟨src, hclaim, -⟩ | ⟨-, hread⟩
          · obtain ⟨-, ⟨src', hclaim', -⟩, -, -⟩ := owesRow_iff.mp hj
            rw [hclaim'] at hclaim
            exact hst (Prod.mk.inj (Option.some.inj hclaim)).2.symm
          · rw [hI.terminal_of_read hread] at hterm
            cases hterm
        · rw [World.hasRow, hevents, List.any_cons, decide_eq_false hst, Bool.false_or,
            World.hasRow]

/-- Every call keeps the invariant. -/
theorem HistoryInv.answer (hs : Sound cfg w c) (hw : w.escrow.status.terminal = false)
    (hI : HistoryInv c) (hA : keepsHistory c (.run i env) = true)
    (ht : c.threads[i]? = some ⟨req, .call q k, true⟩) (hg : Guard req (c.own i) q) :
    HistoryInv (c.answer (escrowSystem cfg) i env req q k) := by
  refine ⟨fun e he => hI.rows_answer hs hw hA ht hg he, ?_, hasRow_answer hI.own, ?_⟩
  · have hstore : (c.answer (escrowSystem cfg) i env req q k).store.escrow.status =
      (q.exec cfg env c.store).2.escrow.status := rfl
    rw [hstore]
    rcases exec_status cfg q env c.store with
      ⟨hst, hkeep⟩ | ⟨dst, hq, hos, hst⟩ | ⟨src, rfl, hos, hst⟩
    · rw [hst]
      exact hI.recorded_same hs hA ht hg hkeep
    · rw [hst]
      exact hI.recorded_claim hs ht hg hq hos
    · rw [hst]
      exact HistoryInv.recorded_revert hs hA ht hg (fault_of_reverted (hos ▸ List.mem_cons_self))
  · refine forall_own (P := fun _ h => ∀ o ∈ h, o.ReadsTerminal) hI.reads fun o ho => ?_
    rcases List.mem_append.mp ho with hnew | hold
    · exact readsTerminal_of_mem hnew
    · exact hI.reads i o hold

/-- A new operation leaves what is owed. -/
theorem owesRow_spawn (hj : owesRow c j st = true) (req : Request) :
    owesRow (c.spawn (escrowSystem cfg) req) j st = true := by
  have hlt : j < c.threads.length := by
    by_contra hlt
    exact (owesRow_iff.mp hj).1 (next_length (Nat.not_lt.mp hlt))
  have hthread : (c.spawn (escrowSystem cfg) req).threads[j]? = c.threads[j]? :=
    List.getElem?_append_left hlt
  rw [owesRow, takesBack, next_spawn_of_ne (Nat.ne_of_lt hlt), hthread]
  exact hj

theorem HistoryInv.spawn (hI : HistoryInv c) (req : Request) :
    HistoryInv (c.spawn (escrowSystem cfg) req) := by
  refine ⟨hI.rows, ?_, hI.own, hI.reads⟩
  rcases historyAt_iff.mp hI.recorded with hnil | hhead | ⟨j, hj⟩
  · exact historyAt_iff.mpr (Or.inl hnil)
  · exact historyAt_iff.mpr (Or.inr (Or.inl hhead))
  · exact historyAt_iff.mpr (Or.inr (Or.inr ⟨j, owesRow_spawn hj req⟩))

/-- A crash of an operation that owes no row of the status. -/
theorem HistoryInv.kill {t : Thread Call.Ans Err Unit Request} (hI : HistoryInv c)
    (hA : keepsHistory c (.crash i) = true) : HistoryInv (c.kill i t) := by
  refine ⟨hI.rows, ?_, hI.own, hI.reads⟩
  rcases historyAt_iff.mp hI.recorded with hnil | hhead | ⟨j, hj⟩
  · exact historyAt_iff.mpr (Or.inl hnil)
  · exact historyAt_iff.mpr (Or.inr (Or.inl hhead))
  · by_cases hij : j = i
    · subst hij
      simp only [keepsHistory, leavesGap, hj, Bool.and_true, Bool.not_not] at hA
      exact historyAt_iff.mpr (Or.inl (List.isEmpty_iff.mp hA))
    · refine historyAt_iff.mpr (Or.inr (Or.inr ⟨j, ?_⟩))
      have hthread : (c.kill i t).threads[j]? = c.threads[j]? :=
        List.getElem?_set_ne (Ne.symm hij)
      rw [owesRow, takesBack, next_kill_of_ne hij, hthread]
      exact hj

end Steps

/-- In a run that keeps its history, the newest row is the row of the status and only the
status has a terminal row, whenever no operation is in flight. -/
theorem history_agrees_with_status (cfg : Settings) (w : World) (as : List Step)
    (hw : w.escrow.status.terminal = false) (hevents : w.events = [])
    (hA : Along (escrowSystem cfg) (fun c a => keepsHistory c a = true) (Config.init w) as)
    (hq : (reach cfg w as).quiescent = true) : (reach cfg w as).store.historyAgrees = true := by
  have hinit : HistoryInv (Config.init w) := by
    refine ⟨fun e he => ?_, historyAt_iff.mpr (Or.inl hevents), fun i t ht => ?_, fun i o ho => ?_⟩
    · have hnil : e ∈ w.events := he
      rw [hevents] at hnil
      cases hnil
    · cases ht
    · cases ho
  have hI := run_induction (I := HistoryInv) hinit (fun _ hI _ => hI.spawn _)
    (fun hs hI hA ht hg => hI.answer hs hw hA ht hg) (fun _ hI hA _ => hI.kill hA) as hA
  exact hI.2.agrees hI.1 hq

/-- A lock, a payment, a release whose provider call fails and is taken back, and another
release. -/
def retriedSettlement : List Step :=
  paidTrade ++ .start (.releaseFunds (.user 2)) :: calls 2 5 ++ [failing 2] ++ calls 2 1 ++
    .start (.releaseFunds (.user 2)) :: calls 3 10

/-- The history of a settlement with a failed attempt. -/
theorem history_agrees_with_status_retriedSettlement :
    ((reach .plain (.plain .mock .created) retriedSettlement).store.escrow.status = .completed ∧
      Along (escrowSystem .plain) (fun c a => keepsHistory c a = true)
        (Config.init (.plain .mock .created)) retriedSettlement) ∧
    (reach .plain (.plain .mock .created) retriedSettlement).store.historyAgrees = true :=
  ⟨by decide +kernel, history_agrees_with_status .plain (.plain .mock .created) retriedSettlement
    rfl rfl (by decide +kernel) (by decide +kernel)⟩

/-- A release whose event cannot be published. -/
def unpublishedCompletion : List Step :=
  paidTrade ++ .start (.releaseFunds (.user 2)) :: calls 2 9 ++ [failing 2] ++ calls 2 1

/-- The row of the release stays, the escrow is back in `PAYMENT_PENDING`. -/
theorem release_row_over_reverted_escrow :
    (reach .plain (.plain .mock .created) unpublishedCompletion).quiescent = true ∧
      (reach .plain (.plain .mock .created) unpublishedCompletion).store.historyAgrees
        = false := by
  decide +kernel

end Sails
