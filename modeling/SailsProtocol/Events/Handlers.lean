import Mathlib.Algebra.Group.Basic
import Mathlib.Algebra.Group.Nat.Defs
import Mathlib.Algebra.Group.Pi.Basic
import Mathlib.Algebra.GroupWithZero.Nat
import SailsProtocol.Events.Bus

/-!
# What one handler run does

`Ran` is the log of a handler run so far : which event it received, and how many effects of
each kind it applied to each user. `Guard` says that a run takes one event first, changes
users only under the event it took, and penalises a voucher right after the vouch is burned.
`prog_disciplined` proves this of every request, with `Finished` at the end : a run that met
no failure applied every effect of its event once to each party of the trade.
-/

namespace Sails.Events

open Async Async.Prog

/-! ## Effects -/

/-- The kinds of effects that are counted. -/
inductive Kind
  | completion
  | dispute
  | outcome
  deriving DecidableEq, Repr

/-- The kind of an effect. The observed fees are not counted. -/
def Effect.kind? : Effect → Option Kind
  | .completion _ => some .completion
  | .fee _ => none
  | .dispute => some .dispute
  | .outcome _ => some .outcome

/-- The kinds of effects an event has on both parties of its trade. -/
def Event.applies : Event → Kind → Bool
  | .escrowReleased _ _, .completion | .escrowReleased _ _, .outcome => true
  | .escrowSplit _, .completion | .escrowSplit _, .outcome => true
  | .escrowRefunded _, .outcome => true
  | .tradeDisputed _, .dispute => true
  | _, _ => false

/-- The id of the trade of an event. -/
def Event.tradeId? : Event → Option ℕ
  | .escrowLocked id | .escrowReleased id _ | .escrowDisputed id | .escrowRefunded id
  | .escrowSplit id | .tradeCompleted id | .tradeDisputed id => some id
  | .scoreUpdated _ | .vouchBurned _ => none

/-- The effects of an event : one of each of its kinds on the buyer and on the seller. -/
def Event.tally (ev : Event) (t : Trade) (K : Kind) (user : ℕ) : ℕ :=
  if ev.applies K = true ∧ (user = t.buyerId ∨ user = t.sellerId) then 1 else 0

/-- One effect of a kind on a user. -/
def bump (kind : Option Kind) (user : ℕ) (K : Kind) (u : ℕ) : ℕ :=
  if kind = some K ∧ u = user then 1 else 0

variable {n : ℕ}

/-- The trade of an event. -/
def World.tradeOf (w : World n) (ev : Event) : Option Trade :=
  ev.tradeId?.bind w.trades

/-- The observation is an effect of kind `K` on the user. -/
def Obs.counts (K : Kind) (user : ℕ) : Obs n → Bool
  | .applied _ e u => decide (e.kind? = some K ∧ user = u)
  | _ => false

/-- The effects of kind `K` on the user in a log. -/
def tally (h : List (Obs n)) (K : Kind) (user : ℕ) : ℕ :=
  h.countP (Obs.counts K user)

/-- The vouch burned last, until its voucher is penalised. -/
def unpenalised : List (Obs n) → Option ℕ
  | [] => none
  | .burned id :: _ => some id
  | .penalised _ :: _ => none
  | _ :: h => unpenalised h

/-- The vouch is one of the store, apart from the date it was burned. -/
def Known (w : World n) (v : Vouch) : Prop :=
  ∃ v₀ ∈ w.vouches, v₀.id = v.id ∧ v₀.voucherId = v.voucherId

/-! ## The discipline -/

/-- The conditions under which a handler run makes a call. -/
def Guard (w : World n) (_ : Request n) (h : List (Obs n)) (q : Call n) : Prop :=
  (∀ id, unpenalised h = some id → ∃ v, q = .penalizeVoucher v) ∧
  match q with
  | .takeDispatch _ | .takeMessage _ => h = []
  | .incrementTrades r _ a => ∃ ev, .received r ev ∈ h ∧ ∃ t, w.tradeOf ev = some t ∧ a = t.amount
  | .incrementFees r _ _ | .incrementDisputes r _ | .incrementScore r _ _ =>
    ∃ ev, .received r ev ∈ h
  | .penalizeVoucher v => unpenalised h = some v.id ∧ Known w v
  | _ => True

/-- The log of a run that received `ev` and applied the effects `f` so far. -/
structure Ran (w : World n) (run : Run n) (ev : Event) (f : Kind → ℕ → ℕ) (h : List (Obs n)) :
    Prop where
  received : .received run ev ∈ h
  only : ∀ r ev', .received r ev' ∈ h → r = run ∧ ev' = ev
  tags : ∀ r e u, .applied r e u ∈ h → r = run
  tally : ∀ K u, Events.tally h K u = f K u
  idle : unpenalised h = none

/-- The log of a run that ended : it failed, or it left no voucher unpenalised, and applied
the effects of the event it received. -/
def Finished (w : World n) (h : List (Obs n)) : Prop :=
  .failed ∈ h ∨ (unpenalised h = none ∧ ∀ run ev, .received run ev ∈ h → ∀ t,
    w.tradeOf ev = some t → Ran w run ev (ev.tally t) h)

/-- What never changes : the trades, and the vouches apart from the date they were burned. -/
structure SameRows (w s : World n) : Prop where
  trades : s.trades = w.trades
  vouches : ∀ v ∈ s.vouches, Known w v

/-- A part of a handler run : its calls are guarded, a value comes with `R`, and an error
ends the run. -/
abbrev Yields {α : Type} (w : World n) (req : Request n) (p : Op n α)
    (R : α → List (Obs n) → Prop) (h : List (Obs n)) : Prop :=
  p.Guarded (Config.Answerable (eventSystem n) (SameRows w)) Call.observe (Guard w req)
    (fun h' r => match r with
      | .ok a => R a h'
      | .error _ => Finished w h') h

variable {α β : Type} {w : World n} {req : Request n} {run : Run n} {ev : Event}
variable {f : Kind → ℕ → ℕ} {h : List (Obs n)} {t : Trade}

/-- A call leaves the rows that the handlers read. -/
theorem sameRows_exec (q : Call n) (env : Env) (s : World n) (hs : SameRows w s) :
    SameRows w (q.exec env s).2 := by
  rw [Call.exec]
  split
  · exact hs
  · cases q with
    | burnVouch id =>
      refine ⟨hs.trades, fun v hv => ?_⟩
      obtain ⟨v', hv', rfl⟩ := List.mem_map.mp hv
      obtain ⟨v₀, hmem, hid, hvoucher⟩ := hs.vouches v' hv'
      refine ⟨v₀, hmem, ?_⟩
      split
      · exact ⟨hid, hvoucher⟩
      · exact ⟨hid, hvoucher⟩
    | _ =>
      simp only [Call.run]
      (repeat' split) <;> exact ⟨hs.trades, hs.vouches⟩

/-! ## Rules for programs -/

theorem Yields.mono {p : Op n α} {R R' : α → List (Obs n) → Prop} (hp : Yields w req p R h)
    (hR : ∀ a h', R a h' → R' a h') : Yields w req p R' h := by
  refine Guarded.mono (fun h' r hr => ?_) hp
  cases r with
  | ok a => exact hR a h' hr
  | error e => exact hr

theorem Yields.bind {p : Op n α} {k : α → Op n β} {R : α → List (Obs n) → Prop}
    {R' : β → List (Obs n) → Prop} (hp : Yields w req p R h)
    (hk : ∀ a h', R a h' → Yields w req (k a) R' h') : Yields w req (p >>= k) R' h := by
  refine (guarded_bind _ _ _).mpr (Guarded.mono (fun h' r hr => ?_) hp)
  cases r with
  | ok a => exact hk a h' hr
  | error e => exact hr

/-- A program for each element, with what each one keeps. -/
theorem Yields.forEach {I : List (Obs n) → Prop} {l : List α} {k : α → Op n Unit}
    (hbody : ∀ a ∈ l, ∀ h', I h' → Yields w req (k a) (fun _ => I) h') (hI : I h) :
    Yields w req (forEach l k) (fun _ => I) h := by
  refine guarded_forEach (fun _ hI => hI) l (fun a ha h₁ hI₁ => ?_) hI
  refine Guarded.mono (fun h' r hr => ?_) (hbody a ha h₁ hI₁)
  cases r with
  | ok _ => exact hr
  | error e => exact hr

/-! ## Rules for the calls -/

/-- The calls that can miss a row or be refused. -/
def Call.mayMiss : Call n → Bool
  | .updateTrade _ _ | .transitionIntent _ => true
  | _ => false

/-- The calls without an observation. -/
def Call.silent : Call n → Bool
  | .emit _ _ | .updateTrade _ _ | .findTrade _ | .findFeeCharged _ | .transitionIntent _
  | .findResolved _ _ | .findActiveVouches _ => true
  | _ => false

/-- The effect a call has on a user. -/
def Call.effect? : Call n → Option (Run n × Effect × ℕ)
  | .incrementTrades r user amount => some (r, .completion amount, user)
  | .incrementFees r user fee => some (r, .fee fee, user)
  | .incrementDisputes r user => some (r, .dispute, user)
  | .incrementScore r user outcome => some (r, .outcome outcome, user)
  | _ => none

theorem not_answerable_notFound {q : Call n} (hq : q.mayMiss = false) {s : World n} :
    ¬ Config.Answerable (eventSystem n) (SameRows w) q s (.error .notFound) := by
  rintro ⟨-, env, he⟩
  simp only [eventSystem, Call.exec] at he
  split at he
  · cases he
  · cases q <;> cases hq <;> simp only [Call.run] at he <;> (repeat' split at he) <;> cases he

/-- Awaiting a call : a failure ends the run, and so does a missing row. -/
theorem yields_await {q : Call n} {R : q.Ans → List (Obs n) → Prop} (hg : Guard w req h q)
    (hok : ∀ s a, Config.Answerable (eventSystem n) (SameRows w) q s (.ok a) →
      R a (q.answered a ++ h))
    (hmiss : q.mayMiss = true → ∀ s,
      Config.Answerable (eventSystem n) (SameRows w) q s (.error .notFound) → Finished w h) :
    Yields w req (await q) R h := by
  refine ⟨hg, fun s r hr => ?_⟩
  cases r with
  | ok a => exact hok s a hr
  | error e =>
    cases e with
    | failed => exact Or.inl List.mem_cons_self
    | notFound =>
      cases hq : q.mayMiss with
      | false => exact absurd hr (not_answerable_notFound hq)
      | true => exact hmiss hq s hr

/-- A run that did what its event asks for is finished. -/
theorem Ran.finished (hR : Ran w run ev f h)
    (hf : ∀ t, w.tradeOf ev = some t → f = ev.tally t) : Finished w h := by
  refine Or.inr ⟨hR.idle, fun run' ev' hrec t ht => ?_⟩
  obtain ⟨rfl, rfl⟩ := hR.only run' ev' hrec
  rw [← hf t ht]
  exact hR

theorem guard_of_ran {q : Call n} (hR : Ran w run ev f h) (hq : q.silent = true) :
    Guard w req h q := by
  refine ⟨fun id hid => ?_, ?_⟩
  · rw [hR.idle] at hid
    cases hid
  · cases q <;> cases hq <;> trivial

/-- Awaiting a call without an observation. -/
theorem yields_silent {q : Call n} (hR : Ran w run ev f h) (hq : q.silent = true)
    (hmiss : q.mayMiss = true → ∀ s,
      Config.Answerable (eventSystem n) (SameRows w) q s (.error .notFound) → Finished w h) :
    Yields w req (await q) (fun a h' => Ran w run ev f h' ∧
      ∃ s, Config.Answerable (eventSystem n) (SameRows w) q s (.ok a)) h := by
  refine yields_await (guard_of_ran hR hq) (fun s a ha => ⟨?_, s, ha⟩) hmiss
  have hnil : q.answered a = [] := by
    cases q <;> cases hq <;> rfl
  rw [hnil]
  exact hR

/-- Emitting an event. -/
theorem yields_emit (hR : Ran w run ev f h) (m : Fin n) (e : Event) :
    Yields w req (await (.emit m e)) (fun _ h' => Ran w run ev f h') h :=
  (yields_silent hR rfl fun hq => by cases hq).mono fun _ _ hr => hr.1

/-- Updating the trade of the event : the answer is this trade. -/
theorem yields_updateTrade {id : ℕ} (hR : Ran w run ev f h) (hid : ev.tradeId? = some id)
    (status : TradeStatus) : Yields w req (await (.updateTrade id status))
      (fun t h' => w.tradeOf ev = some t ∧ Ran w run ev f h') h := by
  refine (yields_silent hR rfl fun _ s hs => ?_).mono fun t h' ht => ⟨?_, ht.1⟩
  · obtain ⟨hrows, env, he⟩ := hs
    have hnone : s.trades id = none := by
      cases hsome : s.trades id with
      | none => rfl
      | some t =>
        simp only [eventSystem, Call.exec, Call.run, hsome] at he
        split at he <;> cases he
    refine hR.finished fun t ht => ?_
    rw [World.tradeOf, hid, Option.bind_some, ← hrows.trades, hnone] at ht
    cases ht
  · obtain ⟨-, s, hrows, env, he⟩ := ht
    rw [World.tradeOf, hid, Option.bind_some, ← hrows.trades]
    simp only [eventSystem, Call.exec, Call.run] at he
    split at he
    · cases he
    · split at he
      · cases he
        assumption
      · cases he

/-- Moving the Intent is the last call of a handler. -/
theorem yields_transitionIntent (hR : Ran w run ev f h) (ht : w.tradeOf ev = some t)
    (hf : f = ev.tally t) (id : ℕ) :
    Yields w req (await (.transitionIntent id)) (fun _ h' => Finished w h') h := by
  have hf' : ∀ t', w.tradeOf ev = some t' → f = ev.tally t' := fun t' ht' => by
    obtain rfl := Option.some.inj (ht.symm.trans ht')
    exact hf
  exact (yields_silent hR rfl fun _ _ _ => hR.finished hf').mono fun _ _ hr => hr.1.finished hf'

/-- One more effect. -/
theorem Ran.apply {e : Effect} {u : ℕ} (hR : Ran w run ev f h) :
    Ran w run ev (f + bump e.kind? u) (.applied run e u :: h) where
  received := List.mem_cons_of_mem _ hR.received
  only := fun r ev' hmem => hR.only r ev' (by simpa using hmem)
  tags := fun r e' u' hmem => by
    rcases List.mem_cons.mp hmem with heq | hold
    · cases heq
      rfl
    · exact hR.tags r e' u' hold
  tally := fun K u' => by
    have hold := hR.tally K u'
    rw [Events.tally] at hold ⊢
    rw [List.countP_cons, hold]
    simp [Obs.counts, bump]
  idle := hR.idle

/-- Awaiting a call that changes a user. -/
theorem yields_apply {q : Call n} {e : Effect} {u : ℕ} (hR : Ran w run ev f h)
    (hq : q.effect? = some (run, e, u))
    (hamount : ∀ a, e = .completion a → ∃ t, w.tradeOf ev = some t ∧ a = t.amount) :
    Yields w req (await q) (fun _ h' => Ran w run ev (f + bump e.kind? u) h') h := by
  refine yields_await ⟨fun id hid => ?_, ?_⟩ (fun s a _ => ?_) fun hmiss => ?_
  · rw [hR.idle] at hid
    cases hid
  · cases q <;> cases hq <;>
      first | exact ⟨ev, hR.received⟩ | exact ⟨ev, hR.received, hamount _ rfl⟩
  · have hlog : q.answered a = [.applied run e u] := by
      cases q <;> cases hq <;> rfl
    rw [hlog]
    exact hR.apply
  · cases q <;> cases hq <;> cases hmiss

/-! ## Handlers -/

/-- `recordTradeCompletion` counts the trade once for each party. -/
theorem yields_recordTradeCompletion (hR : Ran w run ev f h) (ht : w.tradeOf ev = some t) :
    Yields w req (recordTradeCompletion run t) (fun _ h' => Ran w run ev
      (f + bump (some .completion) t.buyerId + bump (some .completion) t.sellerId) h') h := by
  have hamount : ∀ a, Effect.completion t.amount = .completion a →
      ∃ t, w.tradeOf ev = some t ∧ a = t.amount := fun a ha => by
    cases ha
    exact ⟨t, ht, rfl⟩
  exact (yields_apply hR rfl hamount).bind fun _ _ hR₁ => yields_apply hR₁ rfl hamount

/-- `accrueFeeFloor` applies no counted effect. -/
theorem yields_accrueFeeFloor (hR : Ran w run ev f h) (fee : Option ℕ) :
    Yields w req (accrueFeeFloor run t fee) (fun _ h' => Ran w run ev f h') h := by
  have hzero : ∀ u, bump none u = 0 := fun u => by
    funext K u'
    simp [bump]
  cases fee with
  | none => exact hR
  | some fee =>
    have hfee : ∀ {h' : List (Obs n)} (u : ℕ), Ran w run ev f h' →
        Yields w req (await (.incrementFees run u fee)) (fun _ h' => Ran w run ev f h') h' := by
      intro h' u hR'
      have hone : Yields w req (await (.incrementFees run u fee))
          (fun _ h' => Ran w run ev (f + bump none u) h') h' :=
        yields_apply (e := .fee fee) hR' rfl fun a ha => by cases ha
      rwa [hzero, add_zero] at hone
    exact (hfee t.buyerId hR).bind fun _ _ hR₁ => hfee t.sellerId hR₁

/-- `recordOutcome` applies one outcome. -/
theorem yields_recordOutcome (hR : Ran w run ev f h) (u : ℕ) (o : Outcome) :
    Yields w req (recordOutcome run u o)
      (fun _ h' => Ran w run ev (f + bump (some .outcome) u) h') h :=
  (yields_apply hR rfl fun a ha => by cases ha).bind fun _ _ hR₁ => yields_emit hR₁ _ _

/-- The log after a vouch was burned and its voucher penalised. -/
theorem Ran.penalised {id : ℕ} {v : Vouch} (hR : Ran w run ev f h) :
    Ran w run ev f (.penalised v :: .burned id :: h) where
  received := List.mem_cons_of_mem _ (List.mem_cons_of_mem _ hR.received)
  only := fun r ev' hmem => hR.only r ev' (by simpa using hmem)
  tags := fun r e u hmem => hR.tags r e u (by simpa using hmem)
  tally := fun K u => by
    rw [← hR.tally K u, Events.tally, Events.tally]
    simp [Obs.counts]
  idle := rfl

/-- One round of `burnVouchesFor`. -/
theorem yields_burnVouch {v : Vouch} (hR : Ran w run ev f h) (hv : Known w v) :
    Yields w req (do
      await (.burnVouch v.id)
      penalizeForBurnedVouch run v
      await (.emit run.instanceId (.vouchBurned v.id))) (fun _ h' => Ran w run ev f h') h := by
  have hburn : Yields w req (await (.burnVouch v.id)) (fun _ h' => h' = .burned v.id :: h) h := by
    refine yields_await ⟨fun id hid => ?_, trivial⟩ (fun _ _ _ => rfl) fun hq => by cases hq
    rw [hR.idle] at hid
    cases hid
  have hpenalize : Yields w req (await (.penalizeVoucher v))
      (fun _ h' => Ran w run ev f h') (.burned v.id :: h) :=
    yields_await ⟨fun id _ => ⟨v, rfl⟩, rfl, hv⟩ (fun _ _ _ => hR.penalised) fun hq => by cases hq
  refine hburn.bind fun _ h₁ hh₁ => ?_
  subst hh₁
  refine Yields.bind (R := fun _ h' => Ran w run ev f h') ?_ fun _ h₂ hR₂ => yields_emit hR₂ _ _
  exact hpenalize.bind fun _ h₂ hR₂ => yields_emit hR₂ _ _

/-- `burnVouchesFor` applies no counted effect. -/
theorem yields_burnVouchesFor (hR : Ran w run ev f h) (u : ℕ) :
    Yields w req (burnVouchesFor run u) (fun _ h' => Ran w run ev f h') h := by
  refine (yields_silent hR rfl fun hq => by cases hq).bind fun vouches h₁ hfound => ?_
  obtain ⟨hR₁, s, hrows, env, he⟩ := hfound
  have hknown : ∀ v ∈ vouches, Known w v := fun v hv => by
    simp only [eventSystem, Call.exec, Call.run] at he
    split at he
    · cases he
    · cases he
      exact hrows.vouches v (List.mem_filter.mp hv).1
  exact Yields.forEach (fun v hv _ hR₂ => yields_burnVouch hR₂ (hknown v hv)) hR₁

/-- `applyReleaseOutcomes` applies one outcome to each party. -/
theorem yields_applyReleaseOutcomes (hR : Ran w run ev f h) (id : ℕ) :
    Yields w req (applyReleaseOutcomes run id t) (fun _ h' => Ran w run ev
      (f + bump (some .outcome) t.buyerId + bump (some .outcome) t.sellerId) h') h := by
  refine (yields_silent hR rfl fun hq => by cases hq).bind fun resolved h₁ hres => ?_
  refine (guarded_ite _ _ _).mpr ⟨fun _ => ?_, fun _ => ?_⟩
  · refine (yields_recordOutcome hres.1 _ _).bind fun _ h₂ hR₂ => ?_
    refine (yields_recordOutcome hR₂ _ _).bind fun _ h₃ hR₃ => ?_
    exact yields_burnVouchesFor hR₃ _
  · refine (yields_recordOutcome hres.1 _ _).bind fun _ h₂ hR₂ => ?_
    exact yields_recordOutcome hR₂ _ _

/-- `applyRefundOutcomes` applies one outcome to each party. -/
theorem yields_applyRefundOutcomes (hR : Ran w run ev f h) (id : ℕ) :
    Yields w req (applyRefundOutcomes run id t) (fun _ h' => Ran w run ev
      (f + bump (some .outcome) t.buyerId + bump (some .outcome) t.sellerId) h') h := by
  refine (yields_silent hR rfl fun hq => by cases hq).bind fun resolved h₁ hres => ?_
  refine (guarded_ite _ _ _).mpr ⟨fun _ => ?_, fun _ => ?_⟩
  · refine (yields_recordOutcome hres.1 _ _).bind fun _ h₂ hR₂ => ?_
    refine (yields_recordOutcome hR₂ _ _).bind fun _ h₃ hR₃ => ?_
    rw [add_right_comm] at hR₃
    exact yields_burnVouchesFor hR₃ _
  · refine (yields_recordOutcome hres.1 _ _).bind fun _ h₂ hR₂ => ?_
    exact yields_recordOutcome hR₂ _ _

/-- The effects of an event, as they add up. -/
theorem Event.tally_eq (ev : Event) (t : Trade) (K : Kind) (u : ℕ) : ev.tally t K u =
    if ev.applies K = true then bump (some K) t.buyerId K u + bump (some K) t.sellerId K u
    else 0 := by
  have hne := t.distinct
  unfold Event.tally bump
  by_cases hK : ev.applies K = true
  · by_cases hb : u = t.buyerId
    · simp [hK, hb, hne]
    · simp [hK, hb]
  · simp [hK]

/-- Every handler applies the effects of its event. -/
theorem yields_handle (hR : Ran w run ev 0 h) :
    Yields w req (handle run ev) (fun _ h' => Finished w h') h := by
  cases ev with
  | escrowLocked id =>
    refine (yields_updateTrade hR rfl _).bind fun t h₁ ht => ?_
    refine yields_transitionIntent ht.2 ht.1 ?_ id
    funext K u
    cases K <;> simp [Event.tally_eq, Event.applies]
  | escrowReleased id escrowId =>
    refine (yields_updateTrade hR rfl _).bind fun t h₁ ht => ?_
    refine (yields_recordTradeCompletion ht.2 ht.1).bind fun _ h₂ hR₂ => ?_
    refine (yields_silent hR₂ rfl fun hq => by cases hq).bind fun fee h₃ hfee => ?_
    refine (yields_accrueFeeFloor hfee.1 fee).bind fun _ h₄ hR₄ => ?_
    refine (yields_emit hR₄ _ _).bind fun _ h₅ hR₅ => ?_
    refine (yields_applyReleaseOutcomes hR₅ id).bind fun _ h₆ hR₆ => ?_
    refine yields_transitionIntent hR₆ ht.1 ?_ id
    funext K u
    cases K <;> simp [Event.tally_eq, Event.applies, bump]
  | escrowDisputed id =>
    refine (yields_updateTrade hR rfl _).bind fun t h₁ ht => ?_
    refine (yields_emit ht.2 _ _).mono fun _ h₂ hR₂ => hR₂.finished fun t' _ => ?_
    funext K u
    cases K <;> simp [Event.tally_eq, Event.applies]
  | escrowRefunded id =>
    refine (yields_updateTrade hR rfl _).bind fun t h₁ ht => ?_
    refine (yields_applyRefundOutcomes ht.2 id).bind fun _ h₂ hR₂ => ?_
    refine yields_transitionIntent hR₂ ht.1 ?_ id
    funext K u
    cases K <;> simp [Event.tally_eq, Event.applies, bump]
  | escrowSplit id =>
    refine (yields_updateTrade hR rfl _).bind fun t h₁ ht => ?_
    refine (yields_recordTradeCompletion ht.2 ht.1).bind fun _ h₂ hR₂ => ?_
    refine (yields_recordOutcome hR₂ _ _).bind fun _ h₃ hR₃ => ?_
    refine (yields_recordOutcome hR₃ _ _).bind fun _ h₄ hR₄ => ?_
    refine (yields_emit hR₄ _ _).bind fun _ h₅ hR₅ => ?_
    refine yields_transitionIntent hR₅ ht.1 ?_ id
    funext K u
    cases K <;> simp [Event.tally_eq, Event.applies, bump]
  | tradeDisputed id =>
    refine (yields_silent hR rfl fun hq => by cases hq).bind fun found h₁ hfound => ?_
    obtain ⟨hR₁, s, hrows, env, he⟩ := hfound
    have hfound : w.tradeOf (.tradeDisputed id) = found := by
      simp only [eventSystem, Call.exec, Call.run] at he
      split at he
      · cases he
      · cases he
        rw [hrows.trades]
        rfl
    cases found with
    | none => exact hR₁.finished fun t ht => by rw [hfound] at ht; cases ht
    | some t =>
      refine (yields_apply hR₁ rfl fun a ha => by cases ha).bind fun _ h₂ hR₂ => ?_
      refine (yields_apply hR₂ rfl fun a ha => by cases ha).mono fun _ h₃ hR₃ => ?_
      refine hR₃.finished fun t' ht' => ?_
      obtain rfl := Option.some.inj (hfound.symm.trans ht')
      funext K u
      cases K <;> simp [Event.tally_eq, Event.applies, Effect.kind?, bump]
  | tradeCompleted _ | scoreUpdated _ | vouchBurned _ =>
    refine hR.finished fun t _ => ?_
    funext K u
    cases K <;> simp [Event.tally_eq, Event.applies]

/-- The log of a run that just received its event. -/
theorem ran_received : Ran w run ev 0 [.received run ev] where
  received := List.mem_cons_self
  only := fun r ev' hmem => by simpa using hmem
  tags := fun r e u hmem => by simp at hmem
  tally := fun _ _ => rfl
  idle := rfl

/-- A run that received nothing. -/
theorem finished_nil : Finished w [] :=
  Or.inr ⟨rfl, fun run ev hrec => by cases hrec⟩

/-- Every request is disciplined. -/
theorem prog_disciplined (w : World n) (req : Request n) :
    (req.prog).Guarded (Config.Answerable (eventSystem n) (SameRows w)) Call.observe
      (Guard w req) (fun h _ => Finished w h) [] := by
  have hyields : Yields w req req.prog (fun _ h => Finished w h) [] := by
    cases req with
    | publish m ev =>
      exact yields_await ⟨fun id hid => (by cases hid), trivial⟩ (fun _ _ _ => finished_nil)
        fun hq => by cases hq
    | dispatch run =>
      refine Yields.bind (R := fun found h => h = (Call.takeDispatch run).answered found)
        (yields_await ⟨fun id hid => (by cases hid), rfl⟩ (fun s a ha => List.append_nil _)
          fun hq => by cases hq) fun found h hh => ?_
      subst hh
      cases found with
      | none => exact finished_nil
      | some ev => exact yields_handle ran_received
    | message run =>
      refine Yields.bind (R := fun found h => h = (Call.takeMessage run).answered found)
        (yields_await ⟨fun id hid => (by cases hid), rfl⟩ (fun s a ha => List.append_nil _)
          fun hq => by cases hq) fun found h hh => ?_
      subst hh
      cases found with
      | none => exact finished_nil
      | some m =>
        obtain ⟨origin, ev⟩ := m
        refine (guarded_when _ _).mpr ⟨fun hne => ?_, fun heq => ?_⟩
        · rw [Call.answered, if_neg (of_decide_eq_true hne)]
          exact yields_handle ran_received
        · rw [Call.answered, if_pos (not_not.mp (of_decide_eq_false heq))]
          exact finished_nil
  refine Guarded.mono (fun h r hr => ?_) hyields
  cases r with
  | ok _ => exact hr
  | error _ => exact hr

end Sails.Events
