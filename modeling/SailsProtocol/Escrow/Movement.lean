import SailsProtocol.Escrow.Claims

/-!
# At most one movement of funds

`releaseFunds`, `refundFunds` and `splitFunds` claim a terminal status, call the provider,
and take the claim back when anything after the claim throws. A failure after the provider
moved the funds is taken back like any other, and then a second operation can claim and
move the funds again (`funds_moved_twice`).

`at_most_one_movement` is the exact repair : in every run in which no call fails between a
successful provider call and the publication of its event, at most one provider call
succeeds. An operation that moved funds then never reverts, so its claim of a terminal
status stays in force, and no other operation can hold one.
-/

namespace Sails

open Async Async.Config

variable {cfg : Settings} {w : World}

/-- The observation is a successful provider call. -/
def Obs.isMove : Obs → Bool
  | .moved _ => true
  | _ => false

/-- The number of provider calls that moved funds. -/
def movements (trace : List (ℕ × Obs)) : ℕ :=
  trace.countP fun e => e.2.isMove

/-- The next call of operation `i` throws. -/
def throws (cfg : Settings) (c : EscrowConfig) (i : ℕ) (env : Env) : Bool :=
  match c.threads[i]? with
  | some ⟨_, .call q _, true⟩ => !(q.exec cfg env c.store).1.isOk
  | _ => false

/-- The step does not fail between a successful provider call and the publication of its
event. -/
def emitsWhatItMoved (cfg : Settings) (c : EscrowConfig) : Step → Bool
  | .run i env =>
    !((Footprint.of (c.own i)).moved && !(Footprint.of (c.own i)).emitted && throws cfg c i env)
  | _ => true

theorem throws_call {c : EscrowConfig} {i : ℕ} {env : Env} {req : Request} {q : Call}
    {k : Except Err q.Ans → Op Unit} (ht : c.threads[i]? = some ⟨req, .call q k, true⟩) :
    throws cfg c i env = !(q.exec cfg env c.store).1.isOk := by
  rw [throws, ht]

/-- An operation that moved funds holds a terminal status, and no other one moved any. -/
structure MovedOnce (c : EscrowConfig) : Prop where
  holds : ∀ i, (Footprint.of (c.own i)).moved = true →
    ∃ src dst, (Footprint.of (c.own i)).Holds src dst ∧ dst.terminal = true
  stranded : ∀ i, (Footprint.of (c.own i)).stranded = false
  count : movements c.trace ≤ 1
  none : (∀ i, (Footprint.of (c.own i)).moved = false) → movements c.trace = 0

theorem movements_append {os : List Obs} {i : ℕ} {trace : List (ℕ × Obs)} :
    movements (os.map (Prod.mk i) ++ trace) = os.countP Obs.isMove + movements trace := by
  rw [movements, List.countP_append, List.countP_map]
  rfl

section Steps

variable {c : EscrowConfig} {i : ℕ} {env : Env} {req : Request} {q : Call}
variable {k : Except Err q.Ans → Op Unit}

/-- Only the provider call moves funds. -/
theorem countP_isMove (hq : ∀ t k, q ≠ .providerMove t k) {s : World} {r : Except Err q.Ans} :
    (q.observe s r).countP Obs.isMove = 0 := by
  refine List.countP_eq_zero.mpr fun o ho hmove => ?_
  have hof := of_mem_observe ho
  cases o <;> first | exact absurd hof.2.choose_spec (hq _ _) | cases hmove

theorem providerMove_countP_le {t : EscrowType} {kind : SettlementKind} {s : World}
    {r : Except Err ℕ} : ((Call.providerMove t kind).observe s r).countP Obs.isMove ≤ 1 := by
  cases r with
  | ok txId => exact le_rfl
  | error e => cases e <;> exact Nat.zero_le _

/-- The provider call shows in the footprint that it moved funds. -/
theorem providerMove_countP_eq {t : EscrowType} {kind : SettlementKind} {s : World}
    {r : Except Err ℕ} {h : List Obs}
    (hm : (Footprint.of ((Call.providerMove t kind).observe s r ++ h)).moved = false) :
    ((Call.providerMove t kind).observe s r).countP Obs.isMove = 0 := by
  cases r with
  | ok txId => cases hm
  | error e => cases e <;> rfl

/-- No operation is stranded by a step that emits what it moved. -/
theorem MovedOnce.stranded_step (hI : MovedOnce c) (hA : emitsWhatItMoved cfg c (.run i env) = true)
    (ht : c.threads[i]? = some ⟨req, .call q k, true⟩) :
    (Footprint.of (q.observe c.store (q.exec cfg env c.store).1 ++ c.own i)).stranded = false := by
  rw [emitsWhatItMoved, throws_call ht] at hA
  refine Bool.eq_false_iff.mpr fun hst => ?_
  rcases stranded_append hst with hst | ⟨herr, hmoved, hemitted⟩
  · rw [hI.stranded i] at hst
    cases hst
  · rw [herr, hmoved, hemitted] at hA
    cases hA

/-- The move itself : nobody moved funds before. -/
theorem MovedOnce.move (hs : Sound cfg w c) (hI : MovedOnce c) {t : EscrowType}
    {kind : SettlementKind} (hg : Guard req (c.own i) (.providerMove t kind)) :
    ∀ j, (Footprint.of (c.own j)).moved = false := by
  obtain ⟨⟨src, hh⟩, hmoved⟩ := hg.2.2
  intro j
  refine Bool.eq_false_iff.mpr fun hj => ?_
  obtain ⟨src', dst', hh', hterm⟩ := hI.holds j hj
  obtain rfl := hs.terminal_holder hh kind.terminal_target hh' hterm
  rw [hmoved] at hj
  cases hj

/-- An operation that moved funds keeps its claim. -/
theorem MovedOnce.keeps (hI : MovedOnce c) (hg : Guard req (c.own i) q)
    (hmoved : (Footprint.of (c.own i)).moved = true) :
    ∃ src dst, (Footprint.of (q.observe c.store (q.exec cfg env c.store).1 ++ c.own i)).Holds
      src dst ∧ dst.terminal = true := by
  obtain ⟨src, dst, hh, hterm⟩ := hI.holds i hmoved
  refine ⟨src, dst, ⟨(claim_append ?_).trans hh.1, (undo_append ?_).trans hh.2⟩, hterm⟩
  · cases hq : q.claim? with
    | none => rfl
    | some p =>
      have hnone := (hg.claim hq).1
      rw [hh.1] at hnone
      cases hnone
  · rintro dst' src' rfl
    have hst := hg.2.2.2.2 hmoved
    rw [hI.stranded i] at hst
    cases hst

/-- A call that the condition allows keeps one movement at most. -/
theorem MovedOnce.answer (hs : Sound cfg w c) (hI : MovedOnce c)
    (hA : emitsWhatItMoved cfg c (.run i env) = true)
    (ht : c.threads[i]? = some ⟨req, .call q k, true⟩) (hg : Guard req (c.own i) q) :
    MovedOnce (c.answer (escrowSystem cfg) i env req q k) := by
  have htrace : movements (c.answer (escrowSystem cfg) i env req q k).trace =
    (q.observe c.store (q.exec cfg env c.store).1).countP Obs.isMove + movements c.trace :=
    movements_append
  have hstranded : ∀ j, (Footprint.of ((c.answer (escrowSystem cfg) i env req q k).own
      j)).stranded = false :=
    forall_own (P := fun _ h => (Footprint.of h).stranded = false) hI.stranded
      (hI.stranded_step hA ht)
  by_cases hmove : ∃ t kind, q = .providerMove t kind
  · obtain ⟨t, kind, rfl⟩ := hmove
    have hzero : movements c.trace = 0 := hI.none (hI.move hs hg)
    obtain ⟨⟨src, hh⟩, -⟩ := hg.2.2
    refine ⟨?_, hstranded, ?_, fun hnone => ?_⟩
    · refine forall_own (P := fun _ h => (Footprint.of h).moved = true → ∃ src dst,
        (Footprint.of h).Holds src dst ∧ dst.terminal = true) hI.holds fun _ => ?_
      exact ⟨src, kind.target, ⟨(claim_append rfl).trans hh.1, (undo_append (by simp)).trans hh.2⟩,
        kind.terminal_target⟩
    · rw [htrace, hzero]
      exact providerMove_countP_le
    · rw [htrace, hzero]
      have hi := hnone i
      rw [own_answer_self] at hi
      exact providerMove_countP_eq hi
  · replace hmove : ∀ t kind, q ≠ .providerMove t kind := fun t kind hq => hmove ⟨t, kind, hq⟩
    rw [countP_isMove hmove, Nat.zero_add] at htrace
    refine ⟨?_, hstranded, htrace ▸ hI.count, fun hnone => ?_⟩
    · refine forall_own (P := fun _ h => (Footprint.of h).moved = true → ∃ src dst,
        (Footprint.of h).Holds src dst ∧ dst.terminal = true) hI.holds fun hmoved => ?_
      exact hI.keeps hg ((moved_append hmove).symm.trans hmoved)
    · rw [htrace]
      refine hI.none fun j => ?_
      have hj := hnone j
      by_cases hij : j = i
      · subst hij
        rw [own_answer_self] at hj
        exact (moved_append hmove).symm.trans hj
      · rwa [own_answer_of_ne hij] at hj

end Steps

/-- In a run that emits what it moved, the provider moves funds at most once. -/
theorem at_most_one_movement (cfg : Settings) (w : World) (as : List Step)
    (hA : Along (escrowSystem cfg) (fun c a => emitsWhatItMoved cfg c a = true)
      (Config.init w) as) : movements (reach cfg w as).trace ≤ 1 := by
  have hI := run_induction (I := MovedOnce) ⟨fun _ hm => (by cases hm), fun _ => rfl,
    Nat.zero_le _, fun _ => rfl⟩ (fun _ hI _ => ⟨hI.holds, hI.stranded, hI.count, hI.none⟩)
    (fun hs hI hA ht hg => hI.answer hs hA ht hg)
    (fun _ hI _ _ => ⟨hI.holds, hI.stranded, hI.count, hI.none⟩) as hA
  exact hI.2.count

/-- A release that goes through. -/
def plainRelease : List Step :=
  paidTrade ++ .start (.releaseFunds (.user 2)) :: calls 2 10

/-- The provider moves the funds of a release once. -/
theorem at_most_one_movement_plainRelease :
    (Along (escrowSystem .plain) (fun c a => emitsWhatItMoved .plain c a = true)
      (Config.init (.plain .mock .created)) plainRelease ∧
      movements (reach .plain (.plain .mock .created) plainRelease).trace = 1) ∧
    movements (reach .plain (.plain .mock .created) plainRelease).trace ≤ 1 :=
  ⟨by decide +kernel, at_most_one_movement .plain (.plain .mock .created) plainRelease
    (by decide +kernel)⟩

/-- A release whose event is not published takes its claim back, and a second release
moves the funds again. -/
def unpublishedRelease : List Step :=
  paidTrade ++ .start (.releaseFunds (.user 2)) :: calls 2 9 ++ [failing 2] ++ calls 2 1 ++
    .start (.releaseFunds (.user 2)) :: calls 3 6

/-- The provider can move the funds twice. -/
theorem funds_moved_twice :
    ¬ movements (reach .plain (.plain .mock .created) unpublishedRelease).trace ≤ 1 := by
  decide +kernel

end Sails
