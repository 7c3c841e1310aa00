import SailsProtocol.Async.ClaimStack
import SailsProtocol.Escrow.Effects

/-!
# Claims and reverts of the escrow status

The status of an escrow changes by compare-and-swaps that do not name their owner :
`claimTransition` and its two variants move it forward, `revertStatus` takes a claim
back. `Ledger` says that the changes of a run are a lawful history of claims and reverts
(`Async.ClaimStack`) and that the status is where that history leads. `sound_exec` proves
it for every run, from every store, together with the discipline of every operation.

`status_changes_lawful` is what follows for the lifecycle : every change is along the
table or takes back an own claim, two claims out of one status have a revert between
them, and a terminal status is left only by the operation that claimed it last.
-/

namespace Sails

open Async Async.Config Async.ClaimStack

/-- A configuration of the settlement module over one escrow. -/
abbrev EscrowConfig := Config Call.Ans Err Unit World Request Obs

/-- A step of a run. -/
abbrev Step := Action Env Request

/-! ## The changes of a run -/

/-- The changes of the status in a trace, newest first. -/
def changes (trace : List (ℕ × Obs)) : List (Change EscrowStatus) :=
  trace.filterMap fun e => e.2.change? e.1

/-- The claims of the history are those that were observed. -/
theorem claim_mem_changes {trace : List (ℕ × Obs)} {i : ℕ} {src dst : EscrowStatus} :
    Change.claim i src dst ∈ changes trace ↔ (i, .claimed src dst) ∈ trace := by
  simp only [changes, List.mem_filterMap, Prod.exists]
  constructor
  · rintro ⟨j, o, hmem, ho⟩
    cases o <;> cases ho
    exact hmem
  · intro hmem
    exact ⟨i, _, hmem, rfl⟩

/-- The reverts of the history are those that were observed. -/
theorem revert_mem_changes {trace : List (ℕ × Obs)} {i : ℕ} {dst src : EscrowStatus} :
    Change.revert i dst src ∈ changes trace ↔ (i, .reverted dst src) ∈ trace := by
  simp only [changes, List.mem_filterMap, Prod.exists]
  constructor
  · rintro ⟨j, o, hmem, ho⟩
    cases o <;> cases ho
    exact hmem
  · intro hmem
    exact ⟨i, _, hmem, rfl⟩

/-- The claim of a footprint is in its log. -/
theorem claimed_mem_of_claim {h : List Obs} {src dst : EscrowStatus}
    (hclaim : (Footprint.of h).claim = some (src, dst)) : .claimed src dst ∈ h := by
  induction h with
  | nil => cases hclaim
  | cons o h ih =>
    cases o <;> first
      | exact List.mem_cons_of_mem _ (ih hclaim)
      | (cases hclaim; exact List.mem_cons_self)

theorem not_claimed_of_claim {h : List Obs} (hclaim : (Footprint.of h).claim = none)
    (src dst : EscrowStatus) : .claimed src dst ∉ h := by
  induction h with
  | nil => exact List.not_mem_nil
  | cons o h ih =>
    intro hmem
    cases o <;> first
      | cases hclaim
      | exact ih hclaim (by simpa using hmem)

theorem not_reverted_of_undo {h : List Obs} (hundo : (Footprint.of h).undo = none)
    (dst src : EscrowStatus) : .reverted dst src ∉ h := by
  induction h with
  | nil => exact List.not_mem_nil
  | cons o h ih =>
    intro hmem
    cases o <;> first
      | cases hundo
      | exact ih hundo (by simpa using hmem)

variable {cfg : Settings}

/-! ## The ledger of a run -/

/-- The changes are a lawful history from `s₀`, and lead to the status. -/
structure Ledger (s₀ : EscrowStatus) (c : EscrowConfig) : Prop where
  lawful : Lawful ValidTransition s₀ (changes c.trace)
  status : c.store.escrow.status = current s₀ (changes c.trace)

/-- Observations that change no status leave the history. -/
theorem changes_append {os : List Obs} {i : ℕ} {trace : List (ℕ × Obs)}
    (hos : ∀ o ∈ os, ∀ i, o.change? i = none) :
    changes (os.map (Prod.mk i) ++ trace) = changes trace := by
  have hnil : changes (os.map (Prod.mk i)) = [] := by
    refine List.filterMap_eq_nil_iff.mpr fun e he => ?_
    obtain ⟨o, ho, rfl⟩ := List.mem_map.mp he
    exact hos o ho i
  rw [changes, List.filterMap_append]
  exact congrArg (· ++ changes trace) hnil

/-- The guard of a claim. -/
theorem Guard.claim {req : Request} {h : List Obs} {q : Call} {src dst : EscrowStatus}
    (hg : Guard req h q) (hq : q.claim? = some (src, dst)) :
    (Footprint.of h).claim = none ∧ (Footprint.of h).undo = none ∧ ValidTransition src dst := by
  cases q <;> cases hq
  case claimTransition => exact hg.2.2
  case claimPaymentPending => exact hg.2.2
  case commitTimelockExpiry => exact ⟨hg.2.2.1, hg.2.2.2, by decide⟩

section Steps

variable {s₀ : EscrowStatus} {c : EscrowConfig} {i : ℕ} {env : Env} {req : Request} {q : Call}
variable {k : Except Err q.Ans → Op Unit}

/-- A call under its guard keeps the ledger. -/
theorem Ledger.answer (hl : Ledger s₀ c) (hg : Guard req (c.own i) q) :
    Ledger s₀ (c.answer (escrowSystem cfg) i env req q k) := by
  have hmem : ∀ {src dst}, Change.claim i src dst ∈ changes c.trace ↔
      .claimed src dst ∈ c.own i := claim_mem_changes.trans mem_own.symm
  have htrace : (c.answer (escrowSystem cfg) i env req q k).trace =
    (q.observe c.store (q.exec cfg env c.store).1).map (Prod.mk i) ++ c.trace := rfl
  have hstore : (c.answer (escrowSystem cfg) i env req q k).store.escrow.status =
    (q.exec cfg env c.store).2.escrow.status := rfl
  rcases exec_status cfg q env c.store with
    ⟨hst, hos⟩ | ⟨dst, hq, hos, hst⟩ | ⟨src, rfl, hos, hst⟩
  · constructor
    · rw [htrace, changes_append hos]
      exact hl.lawful
    · rw [htrace, changes_append hos, hstore, hst]
      exact hl.status
  · obtain ⟨hnone, -, hv⟩ := hg.claim hq
    constructor
    · rw [htrace, hos]
      exact ⟨hl.lawful, hl.status.symm, hv, fun s d hc =>
        not_claimed_of_claim hnone s d (hmem.mp hc)⟩
    · rw [htrace, hos, hstore, hst]
      rfl
  · obtain ⟨⟨hclaim, hundo⟩, -, -⟩ := hg.2.2
    constructor
    · rw [htrace, hos]
      refine ⟨hl.lawful, hl.status.symm, hmem.mpr (claimed_mem_of_claim hclaim),
        fun d s hr => not_reverted_of_undo hundo d s ?_⟩
      exact mem_own.mpr (revert_mem_changes.mp hr)
    · rw [htrace, hos, hstore, hst]
      rfl

end Steps

/-- Every operation keeps the discipline, and the changes are lawful. -/
structure Sound (cfg : Settings) (w : World) (c : EscrowConfig) : Prop where
  conforms : Conforms (escrowSystem cfg) (OnRail w.escrow.type) Guard (fun req h _ => Done req h) c
  ledger : Ledger w.escrow.status c

/-- The configuration a run reaches from a store without operations. -/
def reach (cfg : Settings) (w : World) (as : List Step) : EscrowConfig :=
  (Config.init w).exec (escrowSystem cfg) as

/-- The induction over the runs whose steps meet `A`, from a sound configuration. -/
theorem run_induction_from {A : EscrowConfig → Step → Prop} {I : EscrowConfig → Prop} {w : World}
    (hspawn : ∀ {c req}, Sound cfg w c → I c → A c (.start req) →
      I (c.spawn (escrowSystem cfg) req))
    (hanswer : ∀ {c i env req} {q : Call} {k : Except Err q.Ans → Op Unit},
      Sound cfg w c → I c → A c (.run i env) → c.threads[i]? = some ⟨req, .call q k, true⟩ →
      Guard req (c.own i) q → I (c.answer (escrowSystem cfg) i env req q k))
    (hkill : ∀ {c i t}, Sound cfg w c → I c → A c (.crash i) → c.threads[i]? = some t →
      I (c.kill i t))
    {c : EscrowConfig} (hs : Sound cfg w c) (hI : I c) (as : List Step)
    (hA : Along (escrowSystem cfg) A c as) :
    Sound cfg w (c.exec (escrowSystem cfg) as) ∧ I (c.exec (escrowSystem cfg) as) := by
  have hrun := run_invariant (S := escrowSystem cfg) (R := OnRail w.escrow.type) (G := Guard)
    (Q := fun req h _ => Done req h) (A := A) (I := fun c => Ledger w.escrow.status c ∧ I c)
    prog_disciplined onRail_exec
    (fun hc hI hA => ⟨⟨hI.1.lawful, hI.1.status⟩, hspawn ⟨hc, hI.1⟩ hI.2 hA⟩)
    (fun hc hI hA ht hg => ⟨hI.1.answer hg, hanswer ⟨hc, hI.1⟩ hI.2 hA ht hg⟩)
    (fun hc hI hA ht => ⟨⟨hI.1.lawful, hI.1.status⟩, hkill ⟨hc, hI.1⟩ hI.2 hA ht⟩)
    as hs.conforms ⟨hs.ledger, hI⟩ hA
  exact ⟨⟨hrun.1, hrun.2.1⟩, hrun.2.2⟩

theorem sound_init (w : World) : Sound cfg w (Config.init w) :=
  ⟨conforms_init rfl, trivial, rfl⟩

/-- The induction over the runs whose steps meet `A`. -/
theorem run_induction {A : EscrowConfig → Step → Prop} {I : EscrowConfig → Prop} {w : World}
    (hinit : I (Config.init w))
    (hspawn : ∀ {c req}, Sound cfg w c → I c → A c (.start req) →
      I (c.spawn (escrowSystem cfg) req))
    (hanswer : ∀ {c i env req} {q : Call} {k : Except Err q.Ans → Op Unit},
      Sound cfg w c → I c → A c (.run i env) → c.threads[i]? = some ⟨req, .call q k, true⟩ →
      Guard req (c.own i) q → I (c.answer (escrowSystem cfg) i env req q k))
    (hkill : ∀ {c i t}, Sound cfg w c → I c → A c (.crash i) → c.threads[i]? = some t →
      I (c.kill i t))
    (as : List Step) (hA : Along (escrowSystem cfg) A (Config.init w) as) :
    Sound cfg w (reach cfg w as) ∧ I (reach cfg w as) :=
  run_induction_from hspawn hanswer hkill (sound_init w) hinit as hA

/-- Every run is sound. -/
theorem sound_exec (w : World) (as : List Step) : Sound cfg w (reach cfg w as) :=
  (run_induction (I := fun _ => True) trivial (fun _ _ _ => trivial)
    (fun _ _ _ _ _ => trivial) (fun _ _ _ _ => trivial) as (along_true as)).1

/-! ## Concrete runs -/

/-- Settings without optional checks. -/
def Settings.plain : Settings :=
  ⟨9, 2 :: List.replicate 32 9, false, false, false, false⟩

/-- An escrow of this rail in this status, without any other row. Participant 1 buys,
participant 2 sells. -/
def World.plain (type : EscrowType) (status : EscrowStatus) : World where
  escrow := ⟨type, status, 24, none, none, none, none, none⟩
  trade := ⟨1, 2⟩
  keys := ⟨none, none, none⟩
  pending := none
  signatures := []
  nextPendingId := 0
  evidence := []
  events := []
  published := []
  dispute := none
  authorizations := []

/-- A MULTISIG escrow with its three keys and a confirmed deposit. -/
def World.funded : World where
  escrow := ⟨.multisig, .fundsLocked, 24, some 7, some 0, some (.p2wsh (MultisigParties.buildScript
    ⟨keyOne.bytes, keyTwo.bytes, Settings.plain.arbiterPubkey⟩)), some 100, none⟩
  trade := ⟨1, 2⟩
  keys := ⟨some ⟨keyOne, some .multisigV1⟩, some ⟨keyTwo, some .multisigV1⟩,
    some Settings.plain.arbiterPubkey⟩
  pending := none
  signatures := []
  nextPendingId := 0
  evidence := [.observedConfirmed]
  events := [⟨.created, .fundsLocked, .user 2⟩]
  published := [.fundsLocked]
  dispute := none
  authorizations := []

/-- `n` calls of operation `i`, all answered without a fault. -/
def calls (i n : ℕ) : List Step :=
  List.replicate n (.run i {})

/-- A call of operation `i` that fails. -/
def failing (i : ℕ) : Step :=
  .run i { fault := some .failed }

/-- The seller locks the funds and the buyer marks the payment as sent, on the mock rail. -/
def paidTrade : List Step :=
  .start (.lockFunds (.user 2)) :: calls 0 9 ++ .start (.markPaymentSent (.user 1)) :: calls 1 6

/-! ## Held claims -/

/-- The own log after a call with these observations. -/
theorem own_answer_of_observe {c : EscrowConfig} {i : ℕ} {env : Env} {req : Request} {q : Call}
    {k : Except Err q.Ans → Op Unit} {os : List Obs}
    (hos : q.observe c.store (q.exec cfg env c.store).1 = os) :
    (c.answer (escrowSystem cfg) i env req q k).own i = os ++ c.own i := by
  subst hos
  exact own_answer_self i env req q k

/-- A property of all own logs, after a call of operation `i`. -/
theorem forall_own {P : ℕ → List Obs → Prop} {c : EscrowConfig} {i : ℕ} {env : Env}
    {req : Request} {q : Call} {k : Except Err q.Ans → Op Unit} (hP : ∀ j, P j (c.own j))
    (hi : P i (q.observe c.store (q.exec cfg env c.store).1 ++ c.own i)) (j : ℕ) :
    P j ((c.answer (escrowSystem cfg) i env req q k).own j) := by
  by_cases hij : j = i
  · subst hij
    rw [own_answer_self]
    exact hi
  · rw [own_answer_of_ne hij]
    exact hP j

section Held

variable {w : World} {c : EscrowConfig} {i j : ℕ} {src dst : EscrowStatus}

/-- A call keeps a configuration sound. -/
theorem Sound.answer (hs : Sound cfg w c) {env : Env} {req : Request} {q : Call}
    {k : Except Err q.Ans → Op Unit} (ht : c.threads[i]? = some ⟨req, .call q k, true⟩) :
    Sound cfg w (c.answer (escrowSystem cfg) i env req q k) :=
  ⟨hs.conforms.answer onRail_exec ht, hs.ledger.answer (hs.conforms.guard ht)⟩

/-- So does a new operation. -/
theorem Sound.spawn (hs : Sound cfg w c) (req : Request) :
    Sound cfg w (c.spawn (escrowSystem cfg) req) :=
  ⟨hs.conforms.spawn prog_disciplined req, hs.ledger.lawful, hs.ledger.status⟩

/-- The claims in force are those of the operations that did not revert. -/
theorem Sound.mem_inForce (hs : Sound cfg w c) :
    (⟨i, src, dst⟩ : ClaimStack.Held EscrowStatus) ∈ inForce (changes c.trace) ↔
      .claimed src dst ∈ c.own i ∧ ∀ d s, .reverted d s ∉ c.own i := by
  rw [ClaimStack.mem_inForce EscrowStatus.rank_lt_of_valid hs.ledger.lawful]
  refine and_congr (claim_mem_changes.trans mem_own.symm) ?_
  exact forall_congr' fun d => forall_congr' fun s =>
    not_congr (revert_mem_changes.trans mem_own.symm)

/-- An operation claims once. -/
theorem Sound.claim_of_mem (hs : Sound cfg w c) (hmem : .claimed src dst ∈ c.own i) :
    (Footprint.of (c.own i)).claim = some (src, dst) := by
  cases hclaim : (Footprint.of (c.own i)).claim with
  | none => exact absurd hmem (not_claimed_of_claim hclaim src dst)
  | some p =>
    have hp : .claimed p.1 p.2 ∈ c.own i := claimed_mem_of_claim hclaim
    obtain ⟨rfl, rfl⟩ := hs.ledger.lawful.claim_unique
      (claim_mem_changes.mpr (mem_own.mp hmem)) (claim_mem_changes.mpr (mem_own.mp hp))
    rfl

/-- An operation claims along the table. -/
theorem Sound.valid_of_claim (hs : Sound cfg w c)
    (hclaim : (Footprint.of (c.own i)).claim = some (src, dst)) : ValidTransition src dst :=
  hs.ledger.lawful.edge (claim_mem_changes.mpr (mem_own.mp (claimed_mem_of_claim hclaim)))

/-- Only one claim in force leads to the status. -/
theorem Sound.holder_unique (hs : Sound cfg w c) {src' : EscrowStatus}
    (hi : (⟨i, src, dst⟩ : ClaimStack.Held EscrowStatus) ∈ inForce (changes c.trace))
    (hj : (⟨j, src', dst⟩ : ClaimStack.Held EscrowStatus) ∈ inForce (changes c.trace))
    (hst : c.store.escrow.status = dst) : i = j := by
  have hp := path_inForce EscrowStatus.rank_lt_of_valid hs.ledger.lawful
  rw [← hs.ledger.status, hst] at hp
  obtain ⟨l, hl⟩ := hp.head_of_dst EscrowStatus.rank_lt_of_valid hi rfl
  obtain ⟨l', hl'⟩ := hp.head_of_dst EscrowStatus.rank_lt_of_valid hj rfl
  rw [hl] at hl'
  cases hl'
  rfl

/-- A claim its operation did not try to take back is in force. -/
theorem Sound.inForce_of_holds (hs : Sound cfg w c)
    (hh : (Footprint.of (c.own i)).Holds src dst) :
    (⟨i, src, dst⟩ : ClaimStack.Held EscrowStatus) ∈ inForce (changes c.trace) := by
  exact hs.mem_inForce.mpr ⟨claimed_mem_of_claim hh.1, not_reverted_of_undo hh.2⟩

/-- A terminal status that is claimed is the status, and its claim is the latest one. -/
theorem Sound.terminal_inForce (hs : Sound cfg w c)
    (hin : (⟨i, src, dst⟩ : ClaimStack.Held EscrowStatus) ∈ inForce (changes c.trace))
    (hterm : dst.terminal = true) : c.store.escrow.status = dst ∧
      ∃ l, inForce (changes c.trace) = ⟨i, src, dst⟩ :: l := by
  obtain ⟨hd, hl⟩ := head_of_final EscrowStatus.rank_lt_of_valid hs.ledger.lawful hin
    (EscrowStatus.not_valid_of_terminal hterm)
  exact ⟨hs.ledger.status.trans hd.symm, hl⟩

/-- A status that the escrow did not start in is held. -/
theorem Sound.holder_of_ne (hs : Sound cfg w c)
    (hne : c.store.escrow.status ≠ w.escrow.status) : ∃ i src l,
      inForce (changes c.trace) = ⟨i, src, c.store.escrow.status⟩ :: l ∧
      ValidTransition src c.store.escrow.status := by
  have hp := path_inForce EscrowStatus.rank_lt_of_valid hs.ledger.lawful
  rw [← hs.ledger.status] at hp
  cases hl : inForce (changes c.trace) with
  | nil =>
    rw [hl] at hp
    exact absurd hp hne
  | cons a l =>
    rw [hl] at hp
    obtain ⟨i, src, dst⟩ := a
    obtain ⟨rfl, hv, -⟩ := hp
    exact ⟨i, src, l, rfl, hv⟩

/-- Only one operation holds a terminal status. -/
theorem Sound.terminal_holder (hs : Sound cfg w c) {src' dst' : EscrowStatus}
    (hi : (Footprint.of (c.own i)).Holds src dst) (hdst : dst.terminal = true)
    (hj : (Footprint.of (c.own j)).Holds src' dst') (hdst' : dst'.terminal = true) : i = j := by
  obtain ⟨-, l, hl⟩ := hs.terminal_inForce (hs.inForce_of_holds hi) hdst
  obtain ⟨-, l', hl'⟩ := hs.terminal_inForce (hs.inForce_of_holds hj) hdst'
  rw [hl] at hl'
  cases hl'
  rfl

end Held

/-! ## Lifecycle safety -/

/-- A trace split at a claim splits its changes there. -/
theorem changes_split {later earlier : List (ℕ × Obs)} {i : ℕ} {src dst : EscrowStatus} :
    changes (later ++ (i, .claimed src dst) :: earlier) =
      changes later ++ .claim i src dst :: changes earlier := by
  simp [changes, List.filterMap_append, Obs.change?]

/-- A claim that splits the changes splits the trace. -/
theorem split_of_changes {trace : List (ℕ × Obs)} {h₁ h₂ : List (Change EscrowStatus)} {i : ℕ}
    {src dst : EscrowStatus} (hsplit : changes trace = h₁ ++ .claim i src dst :: h₂) :
    ∃ later earlier, trace = later ++ (i, .claimed src dst) :: earlier ∧ changes later = h₁ := by
  obtain ⟨l₁, l₂, rfl, rfl, htail⟩ := List.filterMap_eq_append_iff.mp hsplit
  obtain ⟨l₃, ⟨j, o⟩, l₄, rfl, hnone, ho, -⟩ := List.filterMap_eq_cons_iff.mp htail
  refine ⟨l₁ ++ l₃, l₄, ?_, ?_⟩
  · cases o <;> cases ho
    exact List.append_assoc _ _ _ |>.symm
  · rw [changes, List.filterMap_append, List.filterMap_eq_nil_iff.mpr hnone, List.append_nil]

/-- Every change of the status follows the table or takes back a claim of the same
operation, of two claims out of one status the earlier one was taken back before the later
one, and a terminal status is left only by the operation that claimed it last. -/
theorem status_changes_lawful (cfg : Settings) (w : World) (as : List Step) (a : Step) :
    let c := reach cfg w as
    let c' := c.step (escrowSystem cfg) a
    let status := c.store.escrow.status
    let status' := c'.store.escrow.status
    (status' ≠ status → ∃ i env, a = .run i env ∧
      ((ValidTransition status status' ∧
          c'.trace = (i, .claimed status status') :: c.trace) ∨
        ((i, .claimed status' status) ∈ c.trace ∧
          c'.trace = (i, .reverted status status') :: c.trace))) ∧
    (∀ i j src dst dst' later earlier,
      c.trace = later ++ (j, .claimed src dst') :: earlier → (i, .claimed src dst) ∈ earlier →
        i ≠ j ∧ (i, .reverted dst src) ∈ earlier) ∧
    (status.terminal = true → status' ≠ status → ∃ i env later earlier, a = .run i env ∧
      c'.trace = (i, .reverted status status') :: c.trace ∧
      c.trace = later ++ (i, .claimed status' status) :: earlier ∧
      ∀ j src, (j, .claimed src status) ∉ later) := by
  intro c c' status status'
  have hs : Sound cfg w c := sound_exec w as
  have hchange : status' ≠ status → ∃ i env, a = .run i env ∧
      ((ValidTransition status status' ∧ c'.trace = (i, .claimed status status') :: c.trace) ∨
        ((i, .claimed status' status) ∈ c.trace ∧
          c'.trace = (i, .reverted status status') :: c.trace)) := by
    intro hne
    rcases step_cases (S := escrowSystem cfg) (c := c) a with heq | ⟨req, rfl, heq⟩ |
      ⟨i, env, req, q, k, rfl, ht, heq⟩ | ⟨i, t, rfl, ht, heq⟩
    · exact absurd (congrArg (fun d : EscrowConfig => d.store.escrow.status) heq) hne
    · exact absurd (congrArg (fun d : EscrowConfig => d.store.escrow.status) heq) hne
    · have hg := hs.conforms.guard ht
      have hstatus : status' = (q.exec cfg env c.store).2.escrow.status :=
        congrArg (fun d : EscrowConfig => d.store.escrow.status) heq
      have htrace : c'.trace = (q.observe c.store (q.exec cfg env c.store).1).map (Prod.mk i) ++
        c.trace := congrArg (fun d : EscrowConfig => d.trace) heq
      refine ⟨i, env, rfl, ?_⟩
      rcases exec_status cfg q env c.store with ⟨hst, -⟩ | ⟨dst, hq, hos, hst⟩ |
        ⟨src, rfl, hos, hst⟩
      · exact absurd (hstatus.trans hst) hne
      · rw [hst] at hstatus
        rw [htrace, hos, hstatus]
        exact Or.inl ⟨(hg.claim hq).2.2, rfl⟩
      · rw [hst] at hstatus
        rw [htrace, hos, hstatus]
        exact Or.inr ⟨mem_own.mp (claimed_mem_of_claim hg.2.2.1.1), rfl⟩
    · exact absurd (congrArg (fun d : EscrowConfig => d.store.escrow.status) heq) hne
  refine ⟨hchange, fun i j src dst dst' later earlier htrace hmem => ?_, fun hterm hne => ?_⟩
  · have hl := hs.ledger.lawful
    rw [htrace, changes_split] at hl
    replace hl := hl.of_append
    refine ⟨?_, revert_mem_changes.mp (revert_mem_of_claim EscrowStatus.rank_lt_of_valid hl
      (claim_mem_changes.mpr hmem))⟩
    rintro rfl
    exact hl.2.2.2 _ _ (claim_mem_changes.mpr hmem)
  · obtain ⟨i, env, ha, hcase⟩ := hchange hne
    rcases hcase with ⟨hv, -⟩ | ⟨hmem, htrace⟩
    · exact absurd hv (EscrowStatus.not_valid_of_terminal hterm _)
    · have hs' : Sound cfg w c' := by
        have hexec : c' = reach cfg w (as ++ [a]) := (exec_append as [a]).symm
        exact hexec ▸ sound_exec w (as ++ [a])
      have hl := hs'.ledger.lawful
      rw [htrace] at hl
      obtain ⟨l, hheld⟩ := head_inForce_of_revert EscrowStatus.rank_lt_of_valid hl
      obtain ⟨h₁, h₂, hsplit, hlatest⟩ :=
        claim_latest EscrowStatus.rank_lt_of_valid hl.1 (hheld ▸ List.mem_cons_self)
      obtain ⟨later, earlier, heq, rfl⟩ := split_of_changes hsplit
      refine ⟨i, env, later, earlier, ha, htrace, heq, fun j src hj => ?_⟩
      exact hlatest j src (claim_mem_changes.mpr hj)

/-- Two releases read `PAYMENT_PENDING`. The first claims, its provider call fails and it
reverts. Then the second claims. -/
def retriedRelease : List Step :=
  paidTrade ++ [.start (.releaseFunds (.user 2)), .start (.releaseFunds (.user 2))] ++ calls 2 4 ++
    calls 3 4 ++ calls 2 1 ++ [failing 2] ++ calls 2 1 ++ calls 3 1

/-- Two concurrent claims out of one status can both succeed. -/
theorem concurrent_claims_succeed : ¬ ∀ i j src dst dst',
    (i, .claimed src dst) ∈ (reach .plain (.plain .mock .created) retriedRelease).trace →
    (j, .claimed src dst') ∈ (reach .plain (.plain .mock .created) retriedRelease).trace →
      i = j := by
  intro honce
  exact absurd (honce 2 3 .paymentPending .completed .completed (by decide +kernel)
    (by decide +kernel)) (by decide)

end Sails
