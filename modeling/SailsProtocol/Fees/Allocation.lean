import SailsProtocol.Fees.Collection

/-!
# Allocations and the revenue behind them

`allocate` reads the status of the obligation and the newest confirmation in the
transaction that writes its entries. Each statement of the transaction sees what is
committed when it runs, so the read does not keep the status from changing before the
entries are committed. The newest confirmation is chosen by the time its row was inserted,
which is before the row is committed.

`allocation_backed` : as long as no reorg is recognised during an allocation and
confirmations commit in the order of their times, every allocation is committed while its
revenue is collected, and belongs to the current generation. `allocation_after_reorg` is an
allocation whose revenue was taken back while it ran.
-/

namespace Sails.Fees

open Async Settlement

variable {P : Platform}

/-! ## Generations -/

/-- The confirmations, in the order of their commits. -/
def FeeStore.confirmations (s : FeeStore) : List Evidence :=
  s.evidence.filter (·.kind = .CONFIRMED)

/-- The current collection generation : the last confirmation, while its revenue is
collected. -/
def FeeStore.generation (s : FeeStore) : Option ℕ :=
  if s.status = some .COLLECTED then s.confirmations.getLast?.map Evidence.id else none

/-- Confirmations are committed in the order of their times. -/
def FeeStore.InOrder (s : FeeStore) : Prop :=
  s.confirmations.Pairwise fun e e' => e.recordedAt < e'.recordedAt

/-- The newest confirmation is the last one committed. -/
theorem FeeStore.InOrder.latest {s : FeeStore} (h : s.InOrder) (tie : ℕ → ℕ) :
    latest tie .CONFIRMED s.evidence = s.confirmations.getLast? := by
  rw [Fees.latest, ← confirmations]
  rcases List.eq_nil_or_concat s.confirmations with hnil | ⟨l, e, hl⟩
  · rw [hnil]
    rfl
  · have horder : ∀ x ∈ l, x.recordedAt < e.recordedAt := by
      rw [InOrder, hl, List.concat_eq_append, List.pairwise_append] at h
      exact fun x hx => h.2.2 x hx e (List.mem_singleton_self e)
    rw [hl, List.concat_eq_append, List.getLast?_append_of_ne_nil _ (by simp), List.argmax_concat]
    cases hmax : l.argmax fun e => toLex (e.recordedAt, tie e.id) with
    | none => rfl
    | some x =>
      have hx := horder x (List.argmax_mem hmax)
      rw [List.getLast?_singleton]
      exact if_pos (Prod.Lex.toLex_lt_toLex.mpr (Or.inl hx))

/-! ## What is observed -/

/-- What an allocation reads of the obligation and the evidence. -/
inductive Spotted where
  | collected
  | generation (id : ℕ)
  deriving DecidableEq, Repr

/-- What a call tells an allocation. -/
def spotted : (q : Call) → FeeStore → Except FeeError (Answer q) → List Spotted
  | .findObligation, _, .ok (some row) =>
    if row.collectionStatus = some .COLLECTED then [.collected] else []
  | .latestEvidence .CONFIRMED, _, .ok (some e) => [.generation e.id]
  | _, _, _ => []

/-- The requests about the fee, as an allocation sees them. -/
abbrev ledgers (P : Platform) : System Answer FeeError Unit FeeStore FeeEnv FeeReq Spotted :=
  feeSystem P spotted

/-- The rows and the requests about them. -/
abbrev Bookkeeping := Config Answer FeeError Unit FeeStore FeeReq Spotted

/-- An allocation that has read the status is still running. -/
def Allocating (c : Bookkeeping) (j : ℕ) : Prop :=
  c.next j ≠ none ∧ c.reqOf j = some .allocate ∧ Spotted.collected ∈ c.own j

instance (c : Bookkeeping) (j : ℕ) : Decidable (Allocating c j) :=
  inferInstanceAs (Decidable (_ ∧ _ ∧ _))

/-- What a statement may meet : collected revenue is not taken back during an allocation, and
a confirmation is later than those committed before. -/
def OrderlyCall (c : Bookkeeping) (env : FeeEnv) : Option Call → Prop
  | some (.claimCollectionStatusTransition f _) =>
    f = .COLLECTED → c.store.status = some .COLLECTED → env.fate ≠ .failed →
      ∀ j ∈ List.range c.threads.length, ¬ Allocating c j
  | some (.commitConfirmed _ recordedAt _ _) =>
    ∀ e ∈ c.store.confirmations, e.recordedAt < recordedAt
  | _ => True

instance (c : Bookkeeping) (env : FeeEnv) : (q : Option Call) → Decidable (OrderlyCall c env q)
  | none => inferInstanceAs (Decidable True)
  | some (.claimCollectionStatusTransition f _) =>
    inferInstanceAs (Decidable (f = .COLLECTED → _ → _ → _))
  | some (.commitConfirmed _ recordedAt _ _) =>
    inferInstanceAs (Decidable (∀ e ∈ c.store.confirmations, e.recordedAt < recordedAt))
  | some .findObligation => inferInstanceAs (Decidable True)
  | some .findFeePolicyVersion => inferInstanceAs (Decidable True)
  | some (.createObligation _) => inferInstanceAs (Decidable True)
  | some (.recordEvidence _) => inferInstanceAs (Decidable True)
  | some (.latestEvidence _) => inferInstanceAs (Decidable True)
  | some .findLivePolicy => inferInstanceAs (Decidable True)
  | some .insertConfirmed => inferInstanceAs (Decidable True)
  | some (.findRecipients _) => inferInstanceAs (Decidable True)
  | some (.commitAllocation _) => inferInstanceAs (Decidable True)
  | some (.findAllocations _) => inferInstanceAs (Decidable True)
  | some (.findEntry _) => inferInstanceAs (Decidable True)
  | some (.commitReversal _) => inferInstanceAs (Decidable True)

/-- The condition on the steps of a run. -/
def OrderlyStep (c : Bookkeeping) : Action FeeEnv FeeReq → Prop
  | .run i env => OrderlyCall c env (c.next i)
  | _ => True

instance (c : Bookkeeping) : (a : Action FeeEnv FeeReq) → Decidable (OrderlyStep c a)
  | .start _ => inferInstanceAs (Decidable True)
  | .run i env => inferInstanceAs (Decidable (OrderlyCall c env (c.next i)))
  | .crash _ => inferInstanceAs (Decidable True)

/-- What the step allocates belongs to the current generation of collected revenue. -/
def Backed (P : Platform) (c : Bookkeeping) (a : Action FeeEnv FeeReq) : Prop :=
  ∀ e ∈ (c.step (ledgers P) a).store.ledger, e ∉ c.store.ledger → e.kind = .ALLOCATION →
    c.store.status = some .COLLECTED ∧ c.store.generation = some e.confirmationEvidenceId

/-- Each recipient has one allocation of a generation, and one reversal. -/
def FeeStore.EntriesUnique (s : FeeStore) : Prop := (s.ledger.map (·.key)).Nodup

/-! ## Guards -/

/-- An allocation is written for the confirmation that was read after the status. -/
def AllocationGuard (req : FeeReq) (log : List Spotted) (q : Call) : Prop :=
  req.May q ∧ (q = .latestEvidence .CONFIRMED → Spotted.collected ∈ log) ∧
    ∀ entries, q = .commitAllocation entries →
      Spotted.collected ∈ log ∧ ∃ id, Spotted.generation id ∈ log ∧
        ∀ e ∈ entries, e.confirmationEvidenceId = id

section Guards

variable {can : ∀ q : Call, FeeStore → Except FeeError (Answer q) → Prop}

/-- Every entitlement is an allocation of the generation. -/
theorem mem_entitlements {fee : ℚ} {asset : AssetType} {rail : Text.JsString} {id policyId : ℕ}
    {recipients : List Recipient} {entries : List EntryInput}
    (h : entitlements fee asset rail id policyId recipients = .ok entries) :
    ∀ e ∈ entries, e.confirmationEvidenceId = id ∧ e.kind = .ALLOCATION := by
  unfold entitlements at h
  split at h
  · cases h
  · simp only at h
    split_ifs at h
    obtain rfl := Except.ok.inj h
    intro e he
    obtain ⟨r, -, rfl⟩ := List.mem_map.mp he
    exact ⟨rfl, rfl⟩

/-- `allocate` writes what it has read for. -/
theorem allocate_guarded :
    (allocate P).Calls can spotted (AllocationGuard .allocate) [] := by
  refine Prog.Calls.perform_bind ⟨trivial, nofun, nofun⟩ fun s found _ => ?_
  refine Prog.Calls.orThrow_bind fun obligation hfound => ?_
  refine Prog.Calls.require_bind fun hcollected => ?_
  have hstatus : obligation.collectionStatus = some .COLLECTED := by simpa using hcollected
  have hlog : spotted .findObligation s (.ok found) ++ [] = [.collected] := by
    rw [hfound, spotted, if_pos hstatus]
    rfl
  rw [hlog]
  refine Prog.Calls.orThrow_bind fun fee _ => Prog.Calls.orThrow_bind fun asset _ => ?_
  refine Prog.Calls.perform_bind ⟨trivial, nofun, nofun⟩ fun s' _ _ => ?_
  refine Prog.Calls.perform_bind ⟨fun _ => rfl, fun _ => List.mem_cons_self, nofun⟩
    fun s'' evidence _ => ?_
  refine Prog.Calls.orThrow_bind ?_
  rintro confirmation rfl
  refine Prog.Calls.orThrow_bind fun policyId _ => ?_
  refine Prog.Calls.perform_bind ⟨trivial, nofun, nofun⟩ fun _ recipients _ => ?_
  refine Prog.Calls.require_bind fun _ => ?_
  cases hentries : entitlements fee asset P.railScope confirmation.id policyId recipients with
  | error e => trivial
  | ok entries =>
    refine Prog.calls_perform ⟨rfl, nofun, ?_⟩
    rintro entries' hq
    cases hq
    refine ⟨?_, confirmation.id, ?_, fun e he => (mem_entitlements hentries e he).1⟩
    · simp [spotted]
    · simp [spotted]

/-- Every call of a request meets its guard. -/
theorem allocation_guards (req : FeeReq) :
    (req.prog P).Calls can spotted (AllocationGuard req) [] := by
  by_cases hreq : req = .allocate
  · subst hreq
    exact allocate_guarded
  · refine (prog_makes req).calls (G := AllocationGuard req) fun q log hmay => ⟨hmay, ?_, ?_⟩
    · rintro rfl
      exact absurd (hmay rfl) hreq
    · rintro entries rfl
      exact absurd hmay hreq

end Guards

/-! ## What a call does to generations and entries -/

theorem FeeStore.confirmations_record (s : FeeStore) (input : EvidenceInput) (recordedAt : ℕ) :
    (s.record input recordedAt).confirmations = s.confirmations ++
      if input.kind = .CONFIRMED then [⟨input, s.evidence.length, recordedAt⟩] else [] := by
  rw [confirmations, record, List.filter_append, ← confirmations]
  by_cases h : input.kind = .CONFIRMED <;> simp [h]

/-- Collected revenue stays with its generation until it is taken back. -/
theorem Effect.generation_kept {q : Call} {env : FeeEnv} {s s' : FeeStore} {req : FeeReq}
    (h : Effect q env s s') (hmay : req.May q) (hs : s.status = some .COLLECTED)
    (hq : ∀ t, q ≠ .claimCollectionStatusTransition .COLLECTED t) :
    s'.status = some .COLLECTED ∧ s'.generation = s.generation := by
  cases h with
  | create hnone =>
    rw [FeeStore.status_of_none hnone] at hs
    cases hs
  | @claim f t env s hf =>
    obtain rfl := Option.some.inj (hf.symm.trans hs)
    exact absurd rfl (hq t)
  | @record input env s =>
    have hsame : (s.record input env.now).confirmations = s.confirmations := by
      rw [FeeStore.confirmations_record, if_neg hmay.1, List.append_nil]
    exact ⟨hs, by rw [FeeStore.generation, FeeStore.generation, hsame, FeeStore.status_record]⟩
  | confirm hf =>
    obtain ⟨-, rfl, -⟩ := hmay
    rw [hf] at hs
    cases hs
  | allocate hinsert => exact ⟨hs, rfl⟩
  | reverse hinsert => exact ⟨hs, rfl⟩

/-- Only a confirmation adds one. -/
theorem Effect.inOrder {q : Call} {env : FeeEnv} {s s' : FeeStore} {req : FeeReq}
    (h : Effect q env s s') (hmay : req.May q) (hs : s.InOrder)
    (hq : ∀ input recordedAt f t, q = .commitConfirmed input recordedAt f t →
      ∀ e ∈ s.confirmations, e.recordedAt < recordedAt) : s'.InOrder := by
  cases h with
  | @record input env s =>
    rw [FeeStore.InOrder, FeeStore.confirmations_record, if_neg hmay.1, List.append_nil]
    exact hs
  | @confirm input recordedAt f t env s hf =>
    have hafter := FeeStore.confirmations_record s input recordedAt
    rw [if_pos hmay.1] at hafter
    refine (congrArg (List.Pairwise _) hafter).mpr (List.pairwise_append.mpr ⟨hs, by simp, ?_⟩)
    intro e he e' he'
    obtain rfl := List.mem_singleton.mp he'
    exact hq input recordedAt f t rfl e he
  | _ => exact hs

/-- An entry that is written is new and signed. -/
theorem insertEntry_ok {ledger ledger' : List Entry} {e : EntryInput}
    (h : insertEntry ledger e = .ok ledger') : ledger' = ledger ++ [⟨e.stored, ledger.length⟩] ∧
      e.stored.signed = true ∧ ∀ x ∈ ledger, x.key ≠ e.key := by
  unfold insertEntry at h
  split_ifs at h with hsigned hkey
  obtain rfl := Except.ok.inj h
  refine ⟨rfl, by simpa using hsigned, ?_⟩
  simpa using hkey

/-- Inserted rows come after the others, and no two rows have one key. -/
theorem insertEntries_ok : ∀ {es : List EntryInput} {ledger ledger' : List Entry},
    insertEntries ledger es = .ok ledger' →
      (∃ new : List Entry, ledger' = ledger ++ new ∧
        new.map Entry.toEntryInput = es.map EntryInput.stored) ∧
      ((ledger.map (·.key)).Nodup → (ledger'.map (·.key)).Nodup)
  | [], ledger, ledger', h => by
    obtain rfl := Except.ok.inj h
    exact ⟨⟨[], by simp, rfl⟩, id⟩
  | e :: es, ledger, ledger', h => by
    rw [insertEntries, List.foldlM_cons] at h
    cases hfirst : insertEntry ledger e with
    | error err =>
      rw [hfirst] at h
      cases h
    | ok middle =>
      rw [hfirst] at h
      obtain ⟨rfl, -, hkey⟩ := insertEntry_ok hfirst
      obtain ⟨⟨new, rfl, hnew⟩, hnodup⟩ := insertEntries_ok h
      refine ⟨⟨⟨e.stored, ledger.length⟩ :: new, by simp, by simp [hnew]⟩, fun hledger => ?_⟩
      refine hnodup ?_
      rw [List.map_append, List.map_singleton, List.nodup_append]
      refine ⟨hledger, List.nodup_singleton _, ?_⟩
      rintro k hk k' hk' rfl
      obtain ⟨x, hx, rfl⟩ := List.mem_map.mp hk
      exact hkey x hx (List.mem_singleton.mp hk')

theorem Effect.entriesUnique {q : Call} {env : FeeEnv} {s s' : FeeStore} (h : Effect q env s s')
    (hs : s.EntriesUnique) : s'.EntriesUnique := by
  cases h with
  | allocate hinsert => exact (insertEntries_ok hinsert).2 hs
  | reverse hinsert => exact (insertEntries_ok hinsert).2 hs
  | _ => exact hs

/-- A new allocation is one of those the call asks for. -/
theorem Effect.mem_ledger {q : Call} {env : FeeEnv} {s s' : FeeStore} {req : FeeReq}
    (h : Effect q env s s') (hmay : req.May q) {e : Entry} (he : e ∈ s'.ledger)
    (hnew : e ∉ s.ledger) (hkind : e.kind = .ALLOCATION) :
    ∃ entries, q = .commitAllocation entries ∧
      ∃ input ∈ entries, e.toEntryInput = input.stored := by
  cases h with
  | @allocate entries ledger env s hinsert =>
    obtain ⟨⟨new, rfl, hmap⟩, -⟩ := insertEntries_ok hinsert
    have hmem : e.toEntryInput ∈ entries.map EntryInput.stored :=
      hmap ▸ List.mem_map_of_mem ((List.mem_append.mp he).resolve_left hnew)
    obtain ⟨input, hinput, heq⟩ := List.mem_map.mp hmem
    exact ⟨entries, rfl, input, hinput, heq.symm⟩
  | @reverse entry ledger env s hinsert =>
    obtain ⟨⟨new, rfl, hmap⟩, -⟩ := insertEntries_ok hinsert
    have hmem : e.toEntryInput ∈ [entry].map EntryInput.stored :=
      hmap ▸ List.mem_map_of_mem ((List.mem_append.mp he).resolve_left hnew)
    have heq := List.mem_singleton.mp hmem
    have hrev : e.kind = .REVERSAL := by
      rw [show e.kind = entry.stored.kind from congrArg EntryInput.kind heq]
      exact hmay.1
    rw [hkind] at hrev
    cases hrev
  | create hnone => exact absurd he hnew
  | claim hs => exact absurd he hnew
  | record => exact absurd he hnew
  | confirm hs => exact absurd he hnew

/-! ## Runs -/

/-- While an allocation runs its revenue is collected, and the confirmation it has read is
the current one. -/
structure Kept (c : Bookkeeping) : Prop where
  order : c.store.InOrder
  collected : ∀ j, Allocating c j → c.store.status = some .COLLECTED
  current : ∀ j id, Allocating c j → Spotted.generation id ∈ c.own j →
    c.store.generation = some id
  seen : ∀ j id, Spotted.generation id ∈ c.own j → Spotted.collected ∈ c.own j
  unique : c.store.EntriesUnique

theorem kept_init : Kept (.init .empty) where
  order := List.Pairwise.nil
  collected := fun _ h => absurd rfl h.1
  current := fun _ _ h => absurd rfl h.1
  seen := fun _ _ h => by simp [Config.own, Config.init] at h
  unique := List.nodup_nil

section Steps

variable {c : Bookkeeping}

/-- Every thread is guarded at what it has read. -/
abbrev Careful (P : Platform) : Bookkeeping → Prop :=
  Config.Conforms (ledgers P) (fun _ => True) AllocationGuard fun _ _ _ => True

/-- A new request keeps the invariant. -/
theorem Kept.spawn (hc : Careful P c) (h : Kept c) (req : FeeReq) :
    Kept (c.spawn (ledgers P) req) := by
  have hold : ∀ j, Allocating (c.spawn (ledgers P) req) j → Allocating c j := by
    rintro j ⟨hnext, hreq, hmem⟩
    by_cases hj : j = c.threads.length
    · rw [hj, Config.own_spawn, hc.own_length le_rfl] at hmem
      cases hmem
    · rw [Config.next_spawn_of_ne hj] at hnext
      rw [Config.reqOf_spawn_of_ne hj] at hreq
      exact ⟨hnext, hreq, hmem⟩
  exact ⟨h.order, fun j hj => h.collected j (hold j hj),
    fun j id hj => h.current j id (hold j hj), h.seen, h.unique⟩

/-- A crash keeps the invariant. -/
theorem Kept.kill (h : Kept c) {i : ℕ} {t : Thread Answer FeeError Unit FeeReq}
    (ht : c.threads[i]? = some t) : Kept (c.kill i t) := by
  have hold : ∀ j, Allocating (c.kill i t) j → Allocating c j := by
    rintro j ⟨hnext, hreq, hmem⟩
    rw [Config.reqOf_kill ht] at hreq
    by_cases hj : j = i
    · subst hj
      exact absurd Config.next_kill_self hnext
    · rw [Config.next_kill_of_ne hj] at hnext
      exact ⟨hnext, hreq, hmem⟩
  exact ⟨h.order, fun j hj => h.collected j (hold j hj),
    fun j id hj => h.current j id (hold j hj), h.seen, h.unique⟩

/-- What the reads of an allocation show. -/
theorem collected_of_spotted {q : Call} {env : FeeEnv} {s : FeeStore}
    (h : Spotted.collected ∈ spotted q s (q.exec P env s).1) :
    s.status = some .COLLECTED ∧ (q.exec P env s).2 = s := by
  cases q with
  | findObligation =>
    rcases hr : (Call.findObligation.exec P env s).1 with e | found <;> rw [hr] at h
    · cases h
    · have hrun := run_of_exec_ok hr
      rw [hrun] at hr ⊢
      obtain rfl : s.obligation = found := Except.ok.inj hr
      refine ⟨?_, rfl⟩
      cases hrow : s.obligation with
      | none =>
        rw [hrow] at h
        cases h
      | some row =>
        rw [hrow, spotted] at h
        split_ifs at h with hstatus
        · rw [FeeStore.status, hrow, Option.bind_some, hstatus]
        · cases h
  | latestEvidence kind =>
    rcases hr : ((Call.latestEvidence kind).exec P env s).1 with e | _ | e <;> rw [hr] at h <;>
      cases kind <;> simp [spotted] at h
  | _ => cases h

/-- A generation is read off the latest confirmation. -/
theorem generation_of_spotted {q : Call} {env : FeeEnv} {s : FeeStore} {id : ℕ}
    (h : Spotted.generation id ∈ spotted q s (q.exec P env s).1) :
    q = .latestEvidence .CONFIRMED ∧ (q.exec P env s).2 = s ∧
      (latest env.tie .CONFIRMED s.evidence).map Evidence.id = some id := by
  cases q with
  | findObligation =>
    rcases hr : (Call.findObligation.exec P env s).1 with e | _ | row <;> rw [hr] at h
    · cases h
    · cases h
    · rw [spotted] at h
      split_ifs at h <;> simp at h
  | latestEvidence kind =>
    rcases hr : ((Call.latestEvidence kind).exec P env s).1 with e | _ | e <;> rw [hr] at h
    · cases kind <;> cases h
    · cases kind <;> cases h
    · cases kind with
      | CONFIRMED =>
        have hrun := run_of_exec_ok hr
        rw [hrun] at hr ⊢
        refine ⟨rfl, rfl, ?_⟩
        have hlatest : latest env.tie .CONFIRMED s.evidence = some e := Except.ok.inj hr
        rw [hlatest, Option.map_some]
        exact congrArg some (Spotted.generation.inj (List.mem_singleton.mp h)).symm
      | _ => cases h
  | _ => cases h

/-- Collected revenue an allocation has seen is there after the step. -/
theorem Kept.stays (h : Kept c) {i j : ℕ} {env : FeeEnv} {req : FeeReq} {q : Call}
    {k : Except FeeError (Answer q) → FeeOp Unit}
    (ht : c.threads[i]? = some ⟨req, .call q k, true⟩) (hmay : req.May q)
    (hstep : OrderlyStep c (.run i env)) (hj : Allocating c j) :
    (q.exec P env c.store).2.status = some .COLLECTED ∧
      (q.exec P env c.store).2.generation = c.store.generation := by
  have hstatus := h.collected j hj
  rcases exec_effect P q env c.store with heq | heff
  · rw [heq]
    exact ⟨hstatus, rfl⟩
  by_cases hfate : env.fate = .failed
  · rw [Call.exec, hfate]
    exact ⟨hstatus, rfl⟩
  refine heff.generation_kept hmay hstatus ?_
  rintro t rfl
  rw [OrderlyStep, Config.next_of_call ht] at hstep
  have hlt : j < c.threads.length := by
    by_contra hle
    exact hj.1 (Config.next_length (Nat.not_lt.mp hle))
  exact hstep rfl hstatus hfate j (List.mem_range.mpr hlt) hj

/-- A call that the condition allows keeps the invariant. -/
theorem Kept.answer (h : Kept c) {i : ℕ} {env : FeeEnv} {req : FeeReq} {q : Call}
    {k : Except FeeError (Answer q) → FeeOp Unit}
    (ht : c.threads[i]? = some ⟨req, .call q k, true⟩)
    (hguard : AllocationGuard req (c.own i) q) (hstep : OrderlyStep c (.run i env)) :
    Kept (c.answer (ledgers P) i env req q k) := by
  obtain ⟨hmay, hlatest, -⟩ := hguard
  have hnext : c.next i ≠ none := by
    rw [Config.next_of_call ht]
    exact nofun
  -- a running allocation has seen the status before, or sees it in this step
  have hold : ∀ j, Allocating (c.answer (ledgers P) i env req q k) j → Allocating c j ∨
      j = i ∧ Spotted.collected ∉ c.own i ∧
        Spotted.collected ∈ spotted q c.store (q.exec P env c.store).1 := by
    rintro j ⟨hnext', hreq, hmem⟩
    rw [Config.reqOf_answer ht] at hreq
    by_cases hj : j = i
    · subst hj
      by_cases hseen : Spotted.collected ∈ c.own j
      · exact Or.inl ⟨hnext, hreq, hseen⟩
      · exact Or.inr ⟨rfl, hseen, ((Config.mem_own_of_answer hmem).resolve_right hseen).2⟩
    · rw [Config.next_answer_of_ne hj] at hnext'
      rw [Config.own_answer_of_ne hj] at hmem
      exact Or.inl ⟨hnext', hreq, hmem⟩
  refine ⟨?_, fun j hj => ?_, fun j id hj hid => ?_, fun j id hid => ?_, ?_⟩
  · rcases exec_effect P q env c.store with heq | heff
    · exact (congrArg FeeStore.InOrder heq).mpr h.order
    · refine heff.inOrder hmay h.order ?_
      rintro input recordedAt f t rfl
      rw [OrderlyStep, Config.next_of_call ht] at hstep
      exact hstep
  · rcases hold j hj with hj | ⟨-, -, hobs⟩
    · exact (h.stays (P := P) ht hmay hstep hj).1
    · obtain ⟨hstatus, heq⟩ := collected_of_spotted hobs
      exact (congrArg FeeStore.status heq).trans hstatus
  · rcases Config.mem_own_of_answer hid with ⟨rfl, hobs⟩ | hid
    · obtain ⟨rfl, heq, hmap⟩ := generation_of_spotted hobs
      have hbefore : Allocating c j := (hold j hj).resolve_right fun hnew =>
        hnew.2.1 (hlatest rfl)
      refine (congrArg FeeStore.generation heq).trans ?_
      rw [FeeStore.generation, if_pos (h.collected j hbefore), ← h.order.latest env.tie, hmap]
    · have hbefore : Allocating c j := (hold j hj).resolve_right fun hnew =>
        hnew.2.1 (hnew.1 ▸ h.seen j id hid)
      exact ((h.stays (P := P) ht hmay hstep hbefore).2).trans (h.current j id hbefore hid)
  · rcases Config.mem_own_of_answer hid with ⟨rfl, hobs⟩ | hid
    · exact Config.mem_own_answer (hlatest (generation_of_spotted hobs).1)
    · exact Config.mem_own_answer (h.seen j id hid)
  · rcases exec_effect P q env c.store with heq | heff
    · exact (congrArg FeeStore.EntriesUnique heq).mpr h.unique
    · exact heff.entriesUnique h.unique

/-- With the invariant a step writes backed entries only. -/
theorem Kept.backed (hc : Careful P c) (h : Kept c) (a : Action FeeEnv FeeReq) :
    Backed P c a := by
  rcases Config.step_cases (S := ledgers P) (c := c) a with heq | ⟨req, -, heq⟩ |
    ⟨i, env, req, q, k, rfl, ht, heq⟩ | ⟨i, t, -, ht, heq⟩ <;>
    intro e he hnew hkind <;> rw [heq] at he
  · exact absurd he hnew
  · exact absurd he hnew
  · obtain ⟨hmay, -, hcommit⟩ := hc.guard ht
    rcases exec_effect P q env c.store with hsame | heff
    · exact absurd ((congrArg FeeStore.ledger hsame) ▸ he) hnew
    · obtain ⟨entries, rfl, input, hinput, hstored⟩ := heff.mem_ledger hmay he hnew hkind
      obtain ⟨hcollected, id, hid, hentries⟩ := hcommit entries rfl
      have hj : Allocating c i := ⟨by rw [Config.next_of_call ht]; exact nofun,
        (Config.reqOf_of_thread ht).trans (congrArg some hmay), hcollected⟩
      have hsame : e.confirmationEvidenceId = input.stored.confirmationEvidenceId :=
        congrArg EntryInput.confirmationEvidenceId hstored
      refine ⟨h.collected i hj, (h.current i id hj hid).trans ?_⟩
      rw [hsame, ← hentries input hinput]
      rfl
  · exact absurd he hnew

end Steps

/-- Every allocation is made from collected revenue : in every run in which no reorg is
recognised during an allocation and confirmations commit in the order of their times, an
allocation commits while the obligation is `COLLECTED` and for the confirmation of the
current generation, and no recipient is allocated a generation twice. -/
theorem allocation_backed (P : Platform) (as : List (Action FeeEnv FeeReq))
    (h : Config.Along (ledgers P) OrderlyStep (.init .empty) as) :
    Config.Along (ledgers P) (Backed P) (.init .empty) as ∧
      (Config.exec (ledgers P) (.init .empty) as).store.EntriesUnique := by
  have hinit : Careful P (.init .empty) := Config.conforms_init trivial
  constructor
  · exact Config.run_along (I := Kept) (fun req => allocation_guards req)
      (fun _ _ _ _ => trivial) (fun hc hI _ => hI.spawn hc _)
      (fun _ hI hA ht hguard => hI.answer ht hguard hA) (fun _ hI _ ht => hI.kill ht)
      (fun hc hI _ => hI.backed hc _) hinit kept_init h
  · exact (Config.run_invariant (I := Kept) (fun req => allocation_guards req)
      (fun _ _ _ _ => trivial) (fun hc hI _ => hI.spawn hc _)
      (fun _ hI hA ht hguard => hI.answer ht hguard hA) (fun _ hI _ ht => hI.kill ht)
      as hinit kept_init h).2.unique

/-- A settlement that collected a fee of a hundredth of one bitcoin, and its policy 1. -/
def collectedSettlement : SettlementArgs where
  escrow := ⟨1, .BTC, some 7, some (1 / 100)⟩
  outcome := .RELEASE
  splitBuyerBps := none
  actualCollection := some ⟨1000000, false⟩

/-- A policy with two recipients. -/
def allocationPlatform : Platform := ⟨[], none, fun _ => [⟨1, 60⟩, ⟨2, 40⟩]⟩

/-- The fee is broadcast and confirmed. -/
def collection : List (Action FeeEnv FeeReq) :=
  .start (.completionEffects collectedSettlement (some ⟨5, 1, [], 1000000⟩)) ::
    List.replicate 5 (.run 0 { }) ++ .start (.recognizeConfirmation 5 100) ::
    List.replicate 5 (.run 1 { livePolicy := some 1, now := 3 })

/-- The fee is allocated, and a reorg is recognised afterwards. -/
def orderlyRun : List (Action FeeEnv FeeReq) :=
  collection ++ .start .allocate :: List.replicate 5 (.run 2 { }) ++
    .start (.recordReorgAndRevert 5) :: List.replicate 3 (.run 3 { })

/-- The sample run writes backed entries. -/
theorem allocation_backed_sample :
    Config.Along (ledgers allocationPlatform) OrderlyStep (.init .empty) orderlyRun ∧
      Config.Along (ledgers allocationPlatform) (Backed allocationPlatform) (.init .empty)
        orderlyRun ∧
      (Config.exec (ledgers allocationPlatform) (.init .empty) orderlyRun).store.ledger.length =
        2 := by
  have halong : Config.Along (ledgers allocationPlatform) OrderlyStep (.init .empty)
      orderlyRun := by decide +kernel
  exact ⟨halong, (allocation_backed allocationPlatform orderlyRun halong).1, by decide +kernel⟩

/-- The entries of an allocation are committed after a reorg is recognised. -/
def racedRun : List (Action FeeEnv FeeReq) :=
  collection ++ .start .allocate :: List.replicate 4 (.run 2 { }) ++
    .start (.recordReorgAndRevert 5) :: List.replicate 3 (.run 3 { }) ++ [.run 2 { }]

instance (P : Platform) (c : Bookkeeping) (a : Action FeeEnv FeeReq) : Decidable (Backed P c a) :=
  inferInstanceAs (Decidable (∀ e ∈ _, _ → _ → _))

/-- A reorg between the reads of an allocation and its commit leaves it without revenue. -/
theorem allocation_after_reorg :
    ¬ ∀ (P : Platform) (as : List (Action FeeEnv FeeReq)),
      Config.Along (ledgers P) (Backed P) (.init .empty) as ∧
        (Config.exec (ledgers P) (.init .empty) as).store.EntriesUnique := by
  intro h
  have hbacked := (h allocationPlatform racedRun).1
  exact absurd hbacked (by decide +kernel)

end Sails.Fees
