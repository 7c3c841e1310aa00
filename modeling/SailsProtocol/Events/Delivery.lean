import Mathlib.Algebra.BigOperators.Group.Finset.Basic
import Mathlib.Data.Fintype.BigOperators
import SailsProtocol.Events.Handlers

/-!
# How often the effects of an event apply

Every stored event is due once on every instance : on its own instance as a local dispatch,
on every other one as a message of the channel. `Accounted` says so along a run, and says of
each handler run that it changes users only under the event it received. Once nothing is on
its way any more, the effects of an event were applied once for each instance
(`times_eq`) : exactly once only when there is one instance.
-/

namespace Sails.Events

open Async Async.Config

variable {n : ℕ}

/-- The configurations of the event bus. -/
abbrev BusConfig (n : ℕ) := Config (Call.Ans (n := n)) Err Unit (World n) (Request n) (Obs n)

/-- The configuration after a run from `w`. -/
def after (w : World n) (as : List (Action Env (Request n))) : BusConfig n :=
  (init w).exec (eventSystem n) as

/-! ## What is on its way -/

/-- Nothing is on its way to a handler. -/
def World.settled (s : World n) : Bool :=
  s.dispatches.isEmpty && s.messages.isEmpty

/-- The message starts the handler run `r`. -/
def Message.starts (r : Run n) (m : Message n) : Bool :=
  decide (m.subscriber = r.instanceId ∧ m.record = r.record ∧ m.originInstanceId ≠ r.instanceId)

/-- How often the handler run `r` is due. -/
def World.due (s : World n) (r : Run n) : ℕ :=
  s.dispatches.count r + s.messages.countP (Message.starts r)

/-- The observation is the start of the handler run `r`. -/
def Obs.receipt (r : Run n) : Obs n → Bool
  | .received r' _ => decide (r' = r)
  | _ => false

theorem due_of_settled {s : World n} (hs : s.settled = true) (r : Run n) : s.due r = 0 := by
  rw [World.settled, Bool.and_eq_true, List.isEmpty_iff, List.isEmpty_iff] at hs
  rw [World.due, hs.1, hs.2]
  rfl

/-- An event stored now is due once on every instance. -/
theorem due_emit (s : World n) (m : Fin n) (ev : Event) (env : Env) (r : Run n) :
    ((Call.emit m ev).run env s).2.due r =
      s.due r + if r.record = s.log.length then 1 else 0 := by
  have hmessages : ((List.finRange n).map fun k => (⟨k, m, s.log.length⟩ : Message n)).countP
      (Message.starts r) = if r.record = s.log.length ∧ m ≠ r.instanceId then 1 else 0 := by
    rw [List.countP_map]
    by_cases hr : r.record = s.log.length ∧ m ≠ r.instanceId
    · have : (Message.starts r ∘ fun k => (⟨k, m, s.log.length⟩ : Message n)) =
          fun k => decide (k = r.instanceId) := by
        funext k
        simp [Message.starts, hr.1, hr.2]
      rw [if_pos hr, this]
      exact List.count_eq_one_of_mem (List.nodup_finRange n) (List.mem_finRange _)
    · rw [if_neg hr]
      refine List.countP_eq_zero.mpr fun k _ hk => hr ?_
      simp only [Function.comp, Message.starts, decide_eq_true_eq] at hk
      exact ⟨hk.2.1.symm, hk.2.2⟩
  simp only [Call.run, World.due, List.countP_append, hmessages, List.count_cons]
  obtain ⟨k, record⟩ := r
  by_cases hrec : record = s.log.length
  · by_cases hk : m = k
    · simp [hrec, hk]
      omega
    · simp [hrec, hk]
      omega
  · simp [hrec, Ne.symm hrec]

theorem countP_eq_erase {α : Type} [DecidableEq α] {l : List α} {a : α} (ha : a ∈ l)
    (p : α → Bool) : l.countP p = (l.erase a).countP p + if p a = true then 1 else 0 := by
  rw [(List.perm_cons_erase ha).countP_eq p, List.countP_cons]

/-- Taking a dispatch starts a handler run that was due. -/
theorem due_takeDispatch {s : World n} (r' : Run n) (env : Env)
    (hpast : ∀ r, 0 < s.due r → r.record < s.log.length) (r : Run n) :
    ((Call.takeDispatch r').run env s).2.due r +
      ((Call.takeDispatch r').observe s ((Call.takeDispatch r').run env s).1).countP
        (Obs.receipt r) = s.due r := by
  by_cases hmem : r' ∈ s.dispatches
  · have hcount := countP_eq_erase hmem (· == r)
    have hlt : r'.record < s.log.length :=
      hpast r' (Nat.add_pos_left (List.count_pos_iff.mpr hmem) _)
    simp only [Call.run, if_pos hmem, List.getElem?_eq_getElem hlt, Call.observe, Call.answered,
      World.due, List.count]
    rw [hcount]
    by_cases hr : r' = r
    · simp [Obs.receipt, hr]
      omega
    · simp [Obs.receipt, hr]
  · simp only [Call.run, if_neg hmem]
    rfl

/-- Taking a message starts a handler run that was due, unless it is an echo. -/
theorem due_takeMessage {s : World n} (r' : Run n) (env : Env)
    (hpast : ∀ r, 0 < s.due r → r.record < s.log.length) (r : Run n) :
    ((Call.takeMessage r').run env s).2.due r +
      ((Call.takeMessage r').observe s ((Call.takeMessage r').run env s).1).countP
        (Obs.receipt r) = s.due r := by
  simp only [Call.run]
  split
  · rename_i m hfind
    have hmem := List.mem_of_find?_eq_some hfind
    have hm := List.find?_some hfind
    simp only [decide_eq_true_eq] at hm
    have hcount := countP_eq_erase hmem (Message.starts r)
    by_cases hecho : m.originInstanceId = r'.instanceId
    · have hstarts : ¬ Message.starts r m = true := by
        simp only [Message.starts, decide_eq_true_eq]
        rintro ⟨hsub, -, hne⟩
        exact hne (hecho.trans (hm.1.symm.trans hsub))
      rw [if_neg hstarts] at hcount
      cases hlog : s.log[r'.record]? with
      | none => simp [World.due, Call.observe, Call.answered, hcount]
      | some ev => simp [World.due, Call.observe, Call.answered, hcount, hecho]
    · have hlt : r'.record < s.log.length := by
        refine hpast r' (Nat.add_pos_right _ (List.countP_pos_iff.mpr ⟨m, hmem, ?_⟩))
        exact decide_eq_true ⟨hm.1, hm.2, hecho⟩
      have hstarts : Message.starts r m = true ↔ r' = r := by
        obtain ⟨k', record'⟩ := r'
        obtain ⟨k, record⟩ := r
        simp only [Message.starts, decide_eq_true_eq, Run.mk.injEq]
        constructor
        · rintro ⟨hsub, hrec, -⟩
          exact ⟨hm.1.symm.trans hsub, hm.2.symm.trans hrec⟩
        · rintro ⟨rfl, rfl⟩
          exact ⟨hm.1, hm.2, hecho⟩
      simp only [List.getElem?_eq_getElem hlt, Option.map_some, Call.observe, Call.answered,
        if_neg hecho, World.due, hcount, hstarts]
      by_cases hr : r' = r
      · simp [Obs.receipt, hr]
        omega
      · simp [Obs.receipt, hr]
  · rfl

/-- The calls that move events. -/
def Call.onBus : Call n → Bool
  | .emit _ _ | .takeDispatch _ | .takeMessage _ => true
  | _ => false

/-- The event a call stores. -/
def Call.emitted : Call n → List Event
  | .emit _ ev => [ev]
  | _ => []

/-- Only `emit` stores an event. -/
theorem log_run (q : Call n) (env : Env) (s : World n) :
    (q.run env s).2.log = s.log ++ q.emitted := by
  cases q with
  | emit m ev => rfl
  | takeDispatch r | takeMessage r =>
    simp only [Call.run]
    split <;> exact (List.append_nil _).symm
  | updateTrade id status | transitionIntent id =>
    simp only [Call.run]
    split <;> exact (List.append_nil _).symm
  | _ => exact (List.append_nil _).symm

/-- The other calls leave what is due as it is. -/
theorem due_of_not_onBus {q : Call n} (hq : q.onBus = false) (env : Env) (s : World n)
    (r : Run n) : (q.run env s).2.due r = s.due r := by
  cases q with
  | updateTrade id status | transitionIntent id =>
    simp only [Call.run]
    split <;> rfl
  | _ => first | rfl | cases hq

theorem receipt_of_not_onBus {q : Call n} (hq : q.onBus = false) (s : World n)
    (a : Except Err q.Ans) (r : Run n) : (q.observe s a).countP (Obs.receipt r) = 0 := by
  rcases a with (_ | _) | a
  · rfl
  · rfl
  · cases q <;> first | rfl | cases hq

/-- A call starts the handler runs that were due, and makes a stored event due once on every
instance. -/
theorem due_run {s : World n} (q : Call n) (env : Env)
    (hpast : ∀ r, 0 < s.due r → r.record < s.log.length) (r : Run n) :
    (q.run env s).2.due r + (q.observe s (q.run env s).1).countP (Obs.receipt r) = s.due r +
      if s.log.length ≤ r.record ∧ r.record < (q.run env s).2.log.length then 1 else 0 := by
  have hnone : q.emitted = [] →
      (if s.log.length ≤ r.record ∧ r.record < (q.run env s).2.log.length then 1 else 0) = 0 := by
    intro hemitted
    rw [log_run, hemitted, List.append_nil]
    exact if_neg fun h => Nat.not_lt.mpr h.1 h.2
  cases q with
  | emit m ev =>
    have hiff : (s.log.length ≤ r.record ∧
        r.record < ((Call.emit m ev).run env s).2.log.length) ↔ r.record = s.log.length := by
      rw [log_run, List.length_append]
      simp only [Call.emitted, List.length_singleton]
      omega
    simp only [due_emit, hiff]
    rfl
  | takeDispatch r' => rw [due_takeDispatch r' env hpast r, hnone rfl, Nat.add_zero]
  | takeMessage r' => rw [due_takeMessage r' env hpast r, hnone rfl, Nat.add_zero]
  | _ => rw [due_of_not_onBus rfl, receipt_of_not_onBus rfl, hnone rfl]

/-! ## Observations -/

/-- How often something is observed. -/
def count (c : BusConfig n) (p : Obs n → Bool) : ℕ :=
  c.trace.countP fun e => p e.2

/-- The observation is the burning of the vouch. -/
def Obs.burns (id : ℕ) : Obs n → Bool
  | .burned id' => decide (id' = id)
  | _ => false

/-- The observation is the penalty for the vouch. -/
def Obs.penalises (id : ℕ) : Obs n → Bool
  | .penalised v => decide (v.id = id)
  | _ => false

/-- What an observation did to the users. -/
def Obs.effect : Obs n → (ℕ → User) → ℕ → User
  | .applied _ e u, us => Function.update us u <| match e with
    | .completion a => { us u with
        totalTrades := (us u).totalTrades + 1, totalVolumeBtc := (us u).totalVolumeBtc + a }
    | .fee a => { us u with cumulativeFeesObserved := (us u).cumulativeFeesObserved + a }
    | .dispute => { us u with disputeCount := (us u).disputeCount + 1 }
    | .outcome o => { us u with reputationScore := (us u).reputationScore + o.delta }
  | .penalised v, us => Function.update us v.voucherId { us v.voucherId with
      reputationScore := (us v.voucherId).reputationScore + vouchBurnPenalty }
  | _, us => us

/-- Every burned vouch is penalised once, the last one as soon as the run goes on. -/
def Paired (h : List (Obs n)) : Prop :=
  ∀ id, h.countP (Obs.penalises id) + (if unpenalised h = some id then 1 else 0) =
    h.countP (Obs.burns id)

/-- The observation `o` can come from the call `q`. -/
def Obs.Of (q : Call n) : Obs n → Prop
  | .failed => True
  | .received r _ => q = .takeDispatch r ∨ q = .takeMessage r
  | .applied r e u => q.effect? = some (r, e, u)
  | .burned id => q = .burnVouch id
  | .penalised v => q = .penalizeVoucher v

/-- Where an observation comes from. -/
theorem of_mem_observe {q : Call n} {s : World n} {a : Except Err q.Ans} {o : Obs n}
    (ho : o ∈ q.observe s a) : o.Of q := by
  rcases a with (_ | _) | a
  · cases List.mem_singleton.mp ho
    trivial
  · cases ho
  · cases q with
    | takeDispatch r =>
      cases a with
      | none => cases ho
      | some ev =>
        cases List.mem_singleton.mp ho
        exact Or.inl rfl
    | takeMessage r =>
      cases a with
      | none => cases ho
      | some m =>
        simp only [Call.observe, Call.answered] at ho
        split at ho
        · cases ho
        · cases List.mem_singleton.mp ho
          exact Or.inr rfl
    | incrementTrades _ _ _ | incrementFees _ _ _ | incrementDisputes _ _ | incrementScore _ _ _
    | burnVouch _ | penalizeVoucher _ =>
      cases List.mem_singleton.mp ho
      rfl
    | _ => cases ho

/-- Of a call that moves events, at most the event received is observed. -/
theorem observe_onBus {q : Call n} (hq : q.onBus = true) (env : Env) (s : World n) :
    q.observe s (q.run env s).1 = [] ∨ ∃ r ev, s.log[r.record]? = some ev ∧
      q.observe s (q.run env s).1 = [.received r ev] := by
  cases q with
  | emit m ev => exact Or.inl rfl
  | takeDispatch r =>
    simp only [Call.run]
    split
    · cases hlog : s.log[r.record]? with
      | none => exact Or.inl rfl
      | some ev => exact Or.inr ⟨r, ev, hlog, rfl⟩
    · exact Or.inl rfl
  | takeMessage r =>
    simp only [Call.run]
    split
    · rename_i m _
      cases hlog : s.log[r.record]? with
      | none => exact Or.inl rfl
      | some ev =>
        by_cases hecho : m.originInstanceId = r.instanceId
        · exact Or.inl (if_pos hecho)
        · exact Or.inr ⟨r, ev, hlog, if_neg hecho⟩
    · exact Or.inl rfl
  | _ => cases hq

/-- A handler run receives an event that is stored. -/
theorem log_of_received {q : Call n} {env : Env} {s : World n} {r : Run n} {ev : Event}
    (hmem : .received r ev ∈ q.observe s (q.run env s).1) : s.log[r.record]? = some ev := by
  cases hq : q.onBus with
  | true =>
    rcases observe_onBus hq env s with hnil | ⟨r', ev', hlog, hone⟩
    · rw [hnil] at hmem
      cases hmem
    · rw [hone] at hmem
      cases List.mem_singleton.mp hmem
      exact hlog
  | false =>
    have hnone := receipt_of_not_onBus hq s (q.run env s).1 r
    exact absurd (decide_eq_true rfl) (List.countP_eq_zero.mp hnone _ hmem)

/-- Without a fault no failure is observed. -/
theorem not_failed_run (q : Call n) (env : Env) (s : World n) :
    .failed ∉ q.observe s (q.run env s).1 := by
  intro hmem
  cases hq : q.onBus with
  | true =>
    rcases observe_onBus hq env s with hnil | ⟨r', ev', -, hone⟩
    · rw [hnil] at hmem
      cases hmem
    · rw [hone] at hmem
      cases List.mem_singleton.mp hmem
  | false =>
    cases q with
    | updateTrade id status | transitionIntent id =>
      simp only [Call.run] at hmem
      split at hmem <;> cases hmem
    | _ => cases hq <;> simp [Call.run, Call.observe, Call.answered] at hmem

/-- The users change as observed. -/
theorem users_exec (q : Call n) (env : Env) (s : World n) :
    (q.exec env s).2.users = (q.observe s (q.exec env s).1).foldr Obs.effect s.users := by
  rw [Call.exec]
  split
  · rfl
  · cases hq : q.onBus with
    | true =>
      have husers : (q.run env s).2.users = s.users := by
        cases q <;> cases hq <;> simp only [Call.run] <;> split <;> rfl
      rcases observe_onBus hq env s with hnil | ⟨r', ev', -, hone⟩
      · rw [hnil, husers]
        rfl
      · rw [hone, husers]
        rfl
    | false =>
      cases q with
      | updateTrade id status | transitionIntent id =>
        simp only [Call.run]
        split <;> rfl
      | _ => first | rfl | cases hq

/-- Only `burnVouch` changes the vouches. -/
theorem vouches_run {q : Call n} (hq : ∀ id, q ≠ .burnVouch id) (env : Env) (s : World n) :
    (q.run env s).2.vouches = s.vouches := by
  cases q with
  | burnVouch id => exact absurd rfl (hq id)
  | takeDispatch r' | takeMessage r' =>
    simp only [Call.run]
    split <;> rfl
  | updateTrade id status | transitionIntent id =>
    simp only [Call.run]
    split <;> rfl
  | _ => rfl

/-! ## What the guards give -/

section Guards

variable {w : World n} {req : Request n} {h : List (Obs n)} {q : Call n} {s : World n}
variable {a : Except Err q.Ans}

/-- A run changes a user under the event it received. -/
theorem received_of_applied (hg : Guard w req h q) {r : Run n} {e : Effect} {u : ℕ}
    (hmem : .applied r e u ∈ q.observe s a) : ∃ ev, .received r ev ∈ h := by
  have he : q.effect? = some (r, e, u) := of_mem_observe hmem
  cases q with
  | incrementTrades r' u' a' =>
    cases he
    exact hg.2.imp fun ev hev => hev.1
  | _ => cases he <;> exact hg.2

/-- A completed trade is counted with its amount. -/
theorem amount_of_applied (hg : Guard w req h q) {r : Run n} {m u : ℕ}
    (hmem : .applied r (.completion m) u ∈ q.observe s a) :
    ∃ ev, .received r ev ∈ h ∧ ∃ t, w.tradeOf ev = some t ∧ m = t.amount := by
  have he : q.effect? = some (r, .completion m, u) := of_mem_observe hmem
  cases q <;> cases he
  exact hg.2

/-- A penalty is for a vouch of the store. -/
theorem known_of_penalised (hg : Guard w req h q) {v : Vouch}
    (hmem : .penalised v ∈ q.observe s a) : Known w v := by
  obtain rfl : q = .penalizeVoucher v := of_mem_observe hmem
  exact hg.2.2

/-- Observations that burn and penalise nothing keep the pairs. -/
theorem Paired.append (hp : Paired h) {os : List (Obs n)}
    (hburned : ∀ id, .burned id ∉ os) (hpenalised : ∀ v, .penalised v ∉ os) :
    Paired (os ++ h) := by
  induction os with
  | nil => exact hp
  | cons o os ih =>
    have hold := ih (fun id hid => hburned id (List.mem_cons_of_mem o hid))
      fun v hv => hpenalised v (List.mem_cons_of_mem o hv)
    cases o with
    | burned id => exact absurd List.mem_cons_self (hburned id)
    | penalised v => exact absurd List.mem_cons_self (hpenalised v)
    | _ => exact hold

/-- A vouch is burned when every earlier one is penalised. -/
theorem Paired.burned (hp : Paired h) (hidle : unpenalised h = none) (id : ℕ) :
    Paired (.burned id :: h) := by
  intro id'
  have hold := hp id'
  rw [hidle, if_neg (by simp)] at hold
  rw [List.countP_cons, List.countP_cons, ← hold]
  by_cases hid : id = id'
  · simp [unpenalised, Obs.penalises, Obs.burns, hid]
  · simp [unpenalised, Obs.penalises, Obs.burns, hid]

/-- The burned vouch is penalised. -/
theorem Paired.penalised (hp : Paired h) {v : Vouch} (hopen : unpenalised h = some v.id) :
    Paired (.penalised v :: h) := by
  intro id'
  have hold := hp id'
  rw [hopen] at hold
  rw [List.countP_cons, List.countP_cons, ← hold]
  by_cases hid : v.id = id'
  · simp [unpenalised, Obs.penalises, Obs.burns, hid]
  · simp [unpenalised, Obs.penalises, Obs.burns, hid]

/-- Vouches are burned and penalised in turn. -/
theorem Paired.observe (hp : Paired h) (hg : Guard w req h q) : Paired (q.observe s a ++ h) := by
  by_cases hburn : ∃ id, .burned id ∈ q.observe s a
  · obtain ⟨id, hid⟩ := hburn
    obtain rfl : q = .burnVouch id := of_mem_observe hid
    have hidle : unpenalised h = none := by
      cases hopen : unpenalised h with
      | none => rfl
      | some id' =>
        obtain ⟨v, hv⟩ := hg.1 id' hopen
        cases hv
    rcases a with (_ | _) | _
    · exact hp
    · exact hp
    · exact hp.burned hidle id
  · by_cases hpen : ∃ v, .penalised v ∈ q.observe s a
    · obtain ⟨v, hv⟩ := hpen
      obtain rfl : q = .penalizeVoucher v := of_mem_observe hv
      rcases a with (_ | _) | _
      · exact hp
      · exact hp
      · exact hp.penalised hg.2.1
    · exact hp.append (fun id hid => hburn ⟨id, hid⟩) fun v hv => hpen ⟨v, hv⟩

end Guards

/-! ## Runs -/

/-- No call fails and no handler run crashes. -/
def calm : Action Env (Request n) → Bool
  | .start _ => true
  | .run _ env => !env.fault
  | .crash _ => false

/-- A vouch is burned while it is active. Two handler runs that both read a vouch as active
can burn it twice. -/
def burnsActive (c : BusConfig n) : Action Env (Request n) → Bool
  | .run i _ =>
    match c.next i with
    | some (.burnVouch id) => c.store.vouches.any fun v => decide (v.id = id) && !v.burned
    | _ => true
  | _ => true

/-- The condition on the steps of a run. -/
def undisturbed (c : BusConfig n) (a : Action Env (Request n)) : Prop :=
  (calm a && burnsActive c a) = true

instance (c : BusConfig n) (a : Action Env (Request n)) : Decidable (undisturbed c a) :=
  inferInstanceAs (Decidable ((calm a && burnsActive c a) = true))

/-- What holds along a run from `w`. -/
structure Accounted (w : World n) (c : BusConfig n) : Prop where
  grown : w.log.length ≤ c.store.log.length
  once : ∀ r, c.store.due r + count c (Obs.receipt r) =
    if w.log.length ≤ r.record ∧ r.record < c.store.log.length then 1 else 0
  logged : ∀ {i r ev}, (i, .received r ev) ∈ c.trace → c.store.log[r.record]? = some ev
  unfailed : ∀ {i}, (i, .failed) ∉ c.trace
  live : ∀ t ∈ c.threads, t.live = true
  received : ∀ {i r e u}, .applied r e u ∈ c.own i → ∃ ev, .received r ev ∈ c.own i
  amounts : ∀ {i r a u}, (i, .applied r (.completion a) u) ∈ c.trace →
    ∃ ev, (i, .received r ev) ∈ c.trace ∧ ∃ t, w.tradeOf ev = some t ∧ a = t.amount
  paired : ∀ i, Paired (c.own i)
  known : ∀ {i v}, (i, .penalised v) ∈ c.trace → Known w v
  burnedOnce : ∀ id, count c (Obs.burns id) ≤ 1
  burned : ∀ id, 0 < count c (Obs.burns id) → ∀ v ∈ c.store.vouches, v.id = id → v.burned = true
  users : c.store.users = c.trace.foldr (fun e => e.2.effect) w.users

/-- The discipline in every reached configuration. -/
abbrev Disciplined (w : World n) : BusConfig n → Prop :=
  Conforms (eventSystem n) (SameRows w) (Guard w) (fun _ h _ => Finished w h)

variable {w : World n} {c : BusConfig n}

/-- A settled log is accounted for. -/
theorem accounted_init (hw : w.settled = true) : Accounted w (init w) where
  grown := Nat.le_refl _
  once := fun r => by
    rw [if_neg fun h => Nat.not_lt.mpr h.1 h.2]
    exact due_of_settled hw r
  logged := fun h => by cases h
  unfailed := fun h => by cases h
  live := fun _ h => by cases h
  received := fun h => by cases h
  amounts := fun h => by cases h
  paired := fun _ _ => rfl
  known := fun h => by cases h
  burnedOnce := fun _ => Nat.zero_le _
  burned := fun _ h => absurd h (Nat.lt_irrefl 0)
  users := rfl

/-- A new request keeps the account. -/
theorem Accounted.spawn (hc : Accounted w c) (req : Request n) :
    Accounted w (c.spawn (eventSystem n) req) where
  grown := hc.grown
  once := hc.once
  logged := hc.logged
  unfailed := hc.unfailed
  live := fun t ht => by
    rcases List.mem_append.mp ht with hold | hnew
    · exact hc.live t hold
    · cases List.mem_singleton.mp hnew
      rfl
  received := hc.received
  amounts := hc.amounts
  paired := hc.paired
  known := hc.known
  burnedOnce := hc.burnedOnce
  burned := hc.burned
  users := hc.users

section Answer

variable {i : ℕ} {env : Env} {req : Request n} {q : Call n}
variable {k : Except Err q.Ans → Op n Unit}

theorem count_answer (p : Obs n → Bool) : count (c.answer (eventSystem n) i env req q k) p =
    (q.observe c.store (q.exec env c.store).1).countP p + count c p := by
  simp only [count, Config.answer, List.countP_append, List.countP_map]
  rfl

theorem mem_trace_answer {j : ℕ} {o : Obs n}
    (ho : (j, o) ∈ (c.answer (eventSystem n) i env req q k).trace) :
    (j = i ∧ o ∈ q.observe c.store (q.exec env c.store).1) ∨ (j, o) ∈ c.trace := by
  simp only [Config.answer, List.mem_append, List.mem_map, Prod.mk.injEq] at ho
  rcases ho with ⟨o', ho', rfl, rfl⟩ | ho
  · exact Or.inl ⟨rfl, ho'⟩
  · exact Or.inr ho

/-- The burned vouches after a call. -/
theorem Accounted.burned_answer (hc : Accounted w c) (hcalm : env.fault = false)
    (hactive : ∀ id, q = .burnVouch id → ∃ v ∈ c.store.vouches, v.id = id ∧ v.burned = false)
    (id : ℕ) : count (c.answer (eventSystem n) i env req q k) (Obs.burns id) ≤ 1 ∧
      (0 < count (c.answer (eventSystem n) i env req q k) (Obs.burns id) →
        ∀ v ∈ (c.answer (eventSystem n) i env req q k).store.vouches,
          v.id = id → v.burned = true) := by
  have hexec : q.exec env c.store = q.run env c.store := by
    rw [Call.exec, hcalm]
    rfl
  have hstore : (c.answer (eventSystem n) i env req q k).store = (q.run env c.store).2 := by
    rw [← hexec]
    rfl
  rw [count_answer, hexec, hstore]
  by_cases hq : ∃ id', q = .burnVouch id'
  · obtain ⟨id', rfl⟩ := hq
    have hvouches : ∀ v ∈ ((Call.burnVouch id').run env c.store).2.vouches, v.id = id →
        (id' = id ∨ 0 < count c (Obs.burns id)) → v.burned = true := by
      intro v hv hid hcase
      obtain ⟨v', hv', rfl⟩ := List.mem_map.mp hv
      split
      · rfl
      · rename_i hne
        rw [if_neg hne] at hid
        rcases hcase with rfl | hold
        · exact absurd hid hne
        · exact hc.burned id hold v' hv' hid
    have hone : ((Call.burnVouch id').observe c.store
        ((Call.burnVouch id').run env c.store).1).countP (Obs.burns id) =
          if id' = id then 1 else 0 := by
      by_cases hid : id' = id
      · simp [Call.run, Call.observe, Call.answered, Obs.burns, hid]
      · simp [Call.run, Call.observe, Call.answered, Obs.burns, hid]
    rw [hone]
    by_cases hid : id' = id
    · subst hid
      have hzero : count c (Obs.burns id') = 0 := by
        obtain ⟨v, hv, hvid, hvburned⟩ := hactive id' rfl
        refine Nat.eq_zero_of_not_pos fun hpos => ?_
        rw [hc.burned id' hpos v hv hvid] at hvburned
        cases hvburned
      rw [hzero, if_pos rfl]
      exact ⟨Nat.le_refl 1, fun _ v hv hvid => hvouches v hv hvid (Or.inl rfl)⟩
    · rw [if_neg hid, Nat.zero_add]
      exact ⟨hc.burnedOnce id, fun hpos v hv hvid => hvouches v hv hvid (Or.inr hpos)⟩
  · have hzero : (q.observe c.store (q.run env c.store).1).countP (Obs.burns id) = 0 := by
      refine List.countP_eq_zero.mpr fun o ho hburns => hq ?_
      have hof := of_mem_observe ho
      cases o with
      | burned id' => exact ⟨id', hof⟩
      | _ => cases hburns
    rw [hzero, Nat.zero_add, vouches_run fun id' hid' => hq ⟨id', hid'⟩]
    exact ⟨hc.burnedOnce id, hc.burned id⟩

/-- A call without a fault keeps the account. -/
theorem Accounted.answer (hc : Accounted w c) (hcalm : env.fault = false)
    (hactive : ∀ id, q = .burnVouch id → ∃ v ∈ c.store.vouches, v.id = id ∧ v.burned = false)
    (ht : c.threads[i]? = some ⟨req, .call q k, true⟩) (hg : Guard w req (c.own i) q) :
    Accounted w (c.answer (eventSystem n) i env req q k) := by
  have hexec : q.exec env c.store = q.run env c.store := by
    rw [Call.exec, hcalm]
    rfl
  have hstore : (c.answer (eventSystem n) i env req q k).store = (q.run env c.store).2 := by
    rw [← hexec]
    rfl
  have hpast : ∀ r, 0 < c.store.due r → r.record < c.store.log.length := fun r hr => by
    have hone := hc.once r
    split at hone
    · rename_i h
      exact h.2
    · omega
  have hgrow : c.store.log.length ≤ (q.run env c.store).2.log.length := by
    rw [log_run, List.length_append]
    exact Nat.le_add_right _ _
  refine ⟨?_, fun r => ?_, fun {j r ev} hmem => ?_, fun {j} hmem => ?_, fun t hmem => ?_,
    fun {j r e u} hmem => ?_, fun {j r m u} hmem => ?_, fun j => ?_, fun {j v} hmem => ?_,
    fun id => (hc.burned_answer hcalm hactive id).1,
    fun id => (hc.burned_answer hcalm hactive id).2, ?_⟩
  · rw [hstore]
    exact hc.grown.trans hgrow
  · have hold := hc.once r
    have hnew := due_run q env hpast r
    have hgrown := hc.grown
    rw [count_answer, hexec, hstore]
    split at hold <;> split at hnew <;> split <;> omega
  · have hlog : c.store.log[r.record]? = some ev := by
      rcases mem_trace_answer hmem with ⟨-, ho⟩ | hold
      · rw [hexec] at ho
        exact log_of_received ho
      · exact hc.logged hold
    rw [hstore, log_run]
    rw [List.getElem?_append_left (List.getElem?_eq_some_iff.mp hlog).1]
    exact hlog
  · rcases mem_trace_answer hmem with ⟨-, ho⟩ | hold
    · rw [hexec] at ho
      exact not_failed_run q env c.store ho
    · exact hc.unfailed hold
  · rcases List.mem_or_eq_of_mem_set hmem with hold | rfl
    · exact hc.live t hold
    · rfl
  · by_cases hij : j = i
    · subst hij
      rw [own_answer_self] at hmem ⊢
      rcases List.mem_append.mp hmem with hnew | hold
      · obtain ⟨ev, hev⟩ := received_of_applied (s := c.store) hg hnew
        exact ⟨ev, List.mem_append_right _ hev⟩
      · obtain ⟨ev, hev⟩ := hc.received hold
        exact ⟨ev, List.mem_append_right _ hev⟩
    · rw [own_answer_of_ne hij] at hmem ⊢
      exact hc.received hmem
  · have hold : ∃ ev, (j, .received r ev) ∈ c.trace ∧
        ∃ t, w.tradeOf ev = some t ∧ m = t.amount := by
      rcases mem_trace_answer hmem with ⟨rfl, ho⟩ | hold
      · obtain ⟨ev, hev, hm⟩ := amount_of_applied (s := c.store) hg ho
        exact ⟨ev, mem_own.mp hev, hm⟩
      · exact hc.amounts hold
    obtain ⟨ev, hev, hm⟩ := hold
    exact ⟨ev, List.mem_append_right _ hev, hm⟩
  · by_cases hij : j = i
    · subst hij
      rw [own_answer_self]
      exact (hc.paired j).observe (s := c.store) hg
    · rw [own_answer_of_ne hij]
      exact hc.paired j
  · rcases mem_trace_answer hmem with ⟨-, ho⟩ | hold
    · exact known_of_penalised hg ho
    · exact hc.known hold
  · have husers := users_exec q env c.store
    simp only [Config.answer, List.foldr_append, List.foldr_map, ← hc.users]
    exact husers

end Answer

/-- The run lemma. -/
theorem accounted_exec (hw : w.settled = true) {as : List (Action Env (Request n))}
    (hA : Along (eventSystem n) undisturbed (init w) as) :
    Disciplined w (after w as) ∧
      Accounted w (after w as) := by
  refine run_invariant (prog_disciplined w) sameRows_exec (fun _ hc _ => hc.spawn _)
    (fun {c i env req q k} _ hc hA ht hg => ?_) (fun _ _ hA _ => by cases hA) as
    (conforms_init ⟨rfl, fun v hv => ⟨v, hv, rfl, rfl⟩⟩) (accounted_init hw) hA
  rw [undisturbed, Bool.and_eq_true] at hA
  refine hc.answer (by simpa [calm] using hA.1) (fun id hq => ?_) ht hg
  have hactive := hA.2
  subst hq
  rw [burnsActive, next_of_call ht] at hactive
  simpa using hactive

/-! ## Counting the effects -/

/-- The observation is an effect of kind `K` on the user, applied by the run `r`. -/
def Obs.countsIn (r : Run n) (K : Kind) (user : ℕ) : Obs n → Bool
  | .applied r' e u => decide (r' = r ∧ e.kind? = some K ∧ user = u)
  | _ => false

/-- The observation is an effect of kind `K` on the user, applied for the stored event. -/
def Obs.countsFor (record : ℕ) (K : Kind) (user : ℕ) : Obs n → Bool
  | .applied r e u => decide (r.record = record ∧ e.kind? = some K ∧ user = u)
  | _ => false

/-- How often effects of kind `K` were applied to the user for the stored event. -/
def times (c : BusConfig n) (record : ℕ) (K : Kind) (user : ℕ) : ℕ :=
  count c (Obs.countsFor record K user)

/-- The effects for an event are those of its runs on all instances. -/
theorem times_eq_sum (c : BusConfig n) (record : ℕ) (K : Kind) (user : ℕ) :
    times c record K user = ∑ k : Fin n, count c (Obs.countsIn ⟨k, record⟩ K user) := by
  simp only [times, count]
  induction c.trace with
  | nil => simp
  | cons e tr ih =>
    simp only [List.countP_cons, ih, Finset.sum_add_distrib]
    congr 1
    cases e.2 with
    | applied r e u =>
      obtain ⟨k', record'⟩ := r
      by_cases hcond : record' = record ∧ e.kind? = some K ∧ user = u
      · simp [Obs.countsFor, Obs.countsIn, hcond]
      · have hnone : ∀ k, Obs.countsIn ⟨k, record⟩ K user
            (.applied (⟨k', record'⟩ : Run n) e u) = false := fun k => by
          simp only [Obs.countsIn, Run.mk.injEq, decide_eq_false_iff_not]
          exact fun h => hcond ⟨h.1.2, h.2⟩
        simp [Obs.countsFor, hcond, hnone]
    | _ => simp [Obs.countsFor, Obs.countsIn]

/-- Two entries found where at most one is are the same. -/
theorem eq_of_countP_le_one {α : Type} {p : α → Bool} {l : List α} (hp : l.countP p ≤ 1)
    {a b : α} (ha : a ∈ l) (hb : b ∈ l) (hpa : p a = true) (hpb : p b = true) : a = b := by
  rw [List.countP_eq_length_filter] at hp
  have ha' := List.mem_filter.mpr ⟨ha, hpa⟩
  have hb' := List.mem_filter.mpr ⟨hb, hpb⟩
  match hl : l.filter p, hp with
  | [], _ => rw [hl] at ha'; cases ha'
  | [x], _ =>
    rw [hl, List.mem_singleton] at ha' hb'
    rw [ha', hb']

section Settled

variable (hd : Disciplined w c) (hc : Accounted w c) (hq : c.quiescent = true)
variable (hs : c.store.settled = true)
include hd hc hq

/-- Every thread of a quiescent configuration finished its run. -/
theorem finished_of_quiescent {i : ℕ} {o : Obs n} (ho : o ∈ c.own i) :
    unpenalised (c.own i) = none ∧ ∀ run ev, .received run ev ∈ c.own i → ∀ t, w.tradeOf ev = some t →
      Ran w run ev (ev.tally t) (c.own i) := by
  have hlt := hd.started (mem_own.mp ho)
  obtain ⟨t, ht⟩ : ∃ t, c.threads[i]? = some t := ⟨_, List.getElem?_eq_getElem hlt⟩
  have hidle := List.all_eq_true.mp hq t (List.mem_of_getElem? ht)
  have hlive := hc.live t (List.mem_of_getElem? ht)
  obtain ⟨req, _ | ⟨q, k⟩, live⟩ := t
  · rcases hd.result ht with hfailed | hfinished
    · exact absurd (mem_own.mp hfailed) hc.unfailed
    · exact hfinished
  · cases hlive
    cases hidle

include hs

/-- Each instance applied the effects of an event once. -/
theorem count_run {r : Run n} {ev : Event} {t : Trade} (hr : w.log.length ≤ r.record)
    (hlog : c.store.log[r.record]? = some ev) (ht : w.tradeOf ev = some t) (K : Kind) (u : ℕ) :
    count c (Obs.countsIn r K u) = ev.tally t K u := by
  have hone : count c (Obs.receipt r) = 1 := by
    have := hc.once r
    rw [due_of_settled hs, if_pos ⟨hr, (List.getElem?_eq_some_iff.mp hlog).1⟩] at this
    omega
  obtain ⟨⟨i, o⟩, hmem, ho⟩ := List.countP_pos_iff.mp (Nat.lt_of_lt_of_eq Nat.one_pos hone.symm)
  obtain ⟨ev', rfl⟩ : ∃ ev', o = .received r ev' := by
    cases o with
    | received r' ev' => exact ⟨ev', by rw [of_decide_eq_true ho]⟩
    | _ => cases ho
  obtain rfl : ev' = ev := Option.some.inj ((hc.logged hmem).symm.trans hlog)
  have hran := (finished_of_quiescent hd hc hq (mem_own.mpr hmem)).2 r ev' (mem_own.mpr hmem) t ht
  have honly : ∀ e ∈ c.trace, Obs.countsIn r K u e.2 = true → e.1 = i := by
    rintro ⟨j, o⟩ he hcounts
    cases o with
    | applied r' e' u' =>
      obtain ⟨rfl, -⟩ := of_decide_eq_true hcounts
      obtain ⟨ev'', hev''⟩ := hc.received (mem_own.mpr he)
      have := eq_of_countP_le_one (Nat.le_of_eq hone) (mem_own.mp hev'') hmem
        (decide_eq_true rfl) ho
      exact congrArg Prod.fst this
    | _ => cases hcounts
  rw [count, countP_trace honly, ← hran.tally K u, tally]
  refine List.countP_congr fun o ho => ?_
  cases o with
  | applied r' e' u' => simp [Obs.countsIn, Obs.counts, hran.tags r' e' u' ho]
  | _ => exact Iff.rfl

/-- The effects of an event were applied once for each instance. -/
theorem times_eq {record : ℕ} {ev : Event} {t : Trade} (hr : w.log.length ≤ record)
    (hlog : c.store.log[record]? = some ev) (ht : w.tradeOf ev = some t) (K : Kind) (u : ℕ) :
    times c record K u = n * ev.tally t K u := by
  rw [times_eq_sum]
  calc ∑ k : Fin n, count c (Obs.countsIn ⟨k, record⟩ K u)
      = ∑ _k : Fin n, ev.tally t K u :=
        Finset.sum_congr rfl fun k _ => count_run hd hc hq hs (r := ⟨k, record⟩) hr hlog ht K u
    _ = n * ev.tally t K u := by simp

omit hs in
/-- A vouch burned once is penalised once. -/
theorem count_penalised {id : ℕ} (hid : 0 < count c (Obs.burns id)) :
    count c (Obs.penalises id) = 1 := by
  obtain ⟨⟨i, o⟩, hmem, ho⟩ := List.countP_pos_iff.mp hid
  have hburnt : ∀ e ∈ c.trace, Obs.burns id e.2 = true → e.1 = i := fun e he hburns =>
    congrArg Prod.fst (eq_of_countP_le_one (hc.burnedOnce id) he hmem hburns ho)
  have hpenalised : ∀ e ∈ c.trace, Obs.penalises id e.2 = true → e.1 = i := by
    rintro ⟨j, o'⟩ he hpen
    have hpos : 0 < (c.own j).countP (Obs.penalises id) :=
      List.countP_pos_iff.mpr ⟨o', mem_own.mpr he, hpen⟩
    have hpaired := hc.paired j id
    obtain ⟨o'', ho'', hburns⟩ := List.countP_pos_iff.mp
      (show 0 < (c.own j).countP (Obs.burns id) by omega)
    exact hburnt (j, o'') (mem_own.mp ho'') hburns
  have hidle := (finished_of_quiescent hd hc hq (mem_own.mpr hmem)).1
  have hpaired := hc.paired i id
  rw [hidle, if_neg (by simp), Nat.add_zero] at hpaired
  rw [count, countP_trace hpenalised, hpaired, ← countP_trace hburnt]
  exact Nat.le_antisymm (hc.burnedOnce id) hid

end Settled

/-! ## The effects apply exactly once -/

/-- The effects of the events stored since `w` were applied exactly once. -/
structure ExactlyOnce (w : World n) (c : BusConfig n) : Prop where
  /-- Each party gets one effect of each kind of the event, nobody else gets one. -/
  effects : ∀ record ev t, w.log.length ≤ record → c.store.log[record]? = some ev →
    w.tradeOf ev = some t → ∀ K u, times c record K u = ev.tally t K u
  /-- A completed trade counts with its amount. -/
  volume : ∀ i r a u, (i, .applied r (.completion a) u) ∈ c.trace →
    ∃ ev t, c.store.log[r.record]? = some ev ∧ w.tradeOf ev = some t ∧ a = t.amount
  /-- A burned vouch is penalised once. -/
  vouches : ∀ id, 0 < count c (Obs.burns id) → count c (Obs.penalises id) = 1
  /-- The penalty is for the voucher. -/
  vouchers : ∀ i v, (i, .penalised v) ∈ c.trace → Known w v
  /-- The rows of the users hold what was observed. -/
  users : c.store.users = c.trace.foldr (fun e => e.2.effect) w.users

/-- In every run without failures, in which no two handler runs burn the same vouch, the
effects apply exactly once if and only if there is one instance, or no stored event has an
effect. -/
theorem effects_apply_exactly_once_iff (w : World n) (as : List (Action Env (Request n)))
    (hw : w.settled = true) (hA : Along (eventSystem n) undisturbed (init w) as)
    (hq : (after w as).quiescent = true)
    (hs : (after w as).store.settled = true) :
    ExactlyOnce w (after w as) ↔ n = 1 ∨
      ∀ record ev t, w.log.length ≤ record →
        (after w as).store.log[record]? = some ev →
        w.tradeOf ev = some t → ∀ K, ev.applies K = false := by
  obtain ⟨hd, hc⟩ := accounted_exec hw hA
  generalize after w as = c at hq hs hd hc ⊢
  constructor
  · intro honce
    by_cases hn : n = 1
    · exact Or.inl hn
    · refine Or.inr fun record ev t hr hlog ht K => ?_
      cases hK : ev.applies K with
      | false => rfl
      | true =>
        have htimes := honce.effects record ev t hr hlog ht K t.buyerId
        rw [times_eq hd hc hq hs hr hlog ht] at htimes
        simp [Event.tally, hK] at htimes
        exact absurd htimes hn
  · intro hcond
    refine ⟨fun record ev t hr hlog ht K u => ?_, fun i r a u hmem => ?_,
      fun id hid => count_penalised hd hc hq hid, fun i v hmem => hc.known hmem, hc.users⟩
    · rw [times_eq hd hc hq hs hr hlog ht]
      rcases hcond with rfl | hnone
      · exact Nat.one_mul _
      · simp [Event.tally, hnone record ev t hr hlog ht K]
    · obtain ⟨ev, hev, t, ht, ha⟩ := hc.amounts hmem
      exact ⟨ev, t, hc.logged hev, ht, ha⟩

/-- One trade, of user 0 with user 1, for whom user 2 vouched. -/
def tradingWorld (n : ℕ) : World n where
  users := fun _ => ⟨0, 0, 0, 0, 0⟩
  trades := fun id => if id = 0 then some ⟨0, 1, 5, by decide⟩ else none
  tradeStatus := fun _ => .active
  vouches := [⟨7, 2, 1, false⟩]
  log := []
  dispatches := []
  messages := []

/-- Start a thread and let it make its calls. The disputes are found resolved. -/
def serve (i : ℕ) (req : Request n) (calls : ℕ) : List (Action Env (Request n)) :=
  .start req :: List.replicate calls (.run i { resolved := true })

/-- One instance releases the escrow against the seller. -/
def releaseOnOneInstance : List (Action Env (Request 1)) :=
  serve 0 (.publish 0 (.escrowReleased 0 0)) 1 ++ serve 1 (.dispatch ⟨0, 0⟩) 17 ++
  serve 2 (.message ⟨0, 0⟩) 1 ++ (List.range 5).flatMap fun k =>
    serve (2 * k + 3) (.dispatch ⟨0, k + 1⟩) 1 ++ serve (2 * k + 4) (.message ⟨0, k + 1⟩) 1

/-- On one instance the parties and the voucher are credited and charged once. -/
theorem effects_apply_exactly_once_released :
    ExactlyOnce (tradingWorld 1) (after (tradingWorld 1) releaseOnOneInstance) ∧
    ((after (tradingWorld 1) releaseOnOneInstance).store.users 0).totalTrades = 1 ∧
    ((after (tradingWorld 1) releaseOnOneInstance).store.users 2).reputationScore = -5 :=
  ⟨(effects_apply_exactly_once_iff (tradingWorld 1) releaseOnOneInstance (by decide)
    (by decide) (by decide) (by decide)).mpr (Or.inl rfl),
    by decide, by decide⟩

/-- Two instances, and a dispute published on the first one. Both handle it, both emit that
the trade is disputed, and both handle both of these events. -/
def disputeOnTwoInstances : List (Action Env (Request 2)) :=
  serve 0 (.publish 0 (.escrowDisputed 0)) 1 ++ serve 1 (.dispatch ⟨0, 0⟩) 3 ++
  serve 2 (.message ⟨0, 0⟩) 1 ++ serve 3 (.message ⟨1, 0⟩) 3 ++
  serve 4 (.dispatch ⟨0, 1⟩) 4 ++ serve 5 (.message ⟨0, 1⟩) 1 ++ serve 6 (.message ⟨1, 1⟩) 4 ++
  serve 7 (.dispatch ⟨1, 2⟩) 4 ++ serve 8 (.message ⟨0, 2⟩) 4 ++ serve 9 (.message ⟨1, 2⟩) 1

/-- On two instances one dispute counts four times. -/
theorem dispute_counted_four_times :
    Along (eventSystem 2) undisturbed (init (tradingWorld 2)) disputeOnTwoInstances ∧
    (after (tradingWorld 2) disputeOnTwoInstances).quiescent = true ∧
    (after (tradingWorld 2) disputeOnTwoInstances).store.settled = true ∧
    (after (tradingWorld 2) disputeOnTwoInstances).store.log =
      [.escrowDisputed 0, .tradeDisputed 0, .tradeDisputed 0] ∧
    ((after (tradingWorld 2) disputeOnTwoInstances).store.users 0).disputeCount = 4 ∧
    ¬ ExactlyOnce (tradingWorld 2) (after (tradingWorld 2) disputeOnTwoInstances) := by
  refine ⟨by decide, by decide, by decide, by decide,
    by decide, fun honce => ?_⟩
  have htwice := honce.effects 1 (.tradeDisputed 0) ⟨0, 1, 5, by decide⟩ (by decide)
    (by decide) rfl .dispute 0
  revert htwice
  decide

end Sails.Events
