import SailsProtocol.Async.Steps
import SailsProtocol.Trading.Trade

/-!
# Offers, trades and their shared intent

A market with its offers, the trades made on them and the intents the offers were
created with. A trade takes over the intent of its offer, so all trades of an offer
share one intent. The operations run one after the other. The events an escrow
publishes wait in a queue at its trade, and `handle` runs the handler of any of them.

An intent is walked from `COORDINATED` to `NEGOTIATING` when a trade is created, to
`COMMITTED` when its escrow locks, and to `FULFILLED` or `FAILED` when the escrow
settles. A second trade on the same offer finds it past `COORDINATED`, and its creation
fails after the row was written. `trades_and_intents_live` says when nothing of this
kind happens : trades are created on offers whose intent is still `COORDINATED`, an
escrow that was never locked is not refunded, and the handler of a final event runs
after the one of the lock.
-/

namespace Sails.Trading

open Async.Steps
open Intent (IntentStatus)

/-! ## Rows -/

/-- The row of an offer. -/
structure Offer where
  userId : ℕ
  /-- `side` is `SELL`. -/
  sell : Bool
  /-- `status` is `ACTIVE`. -/
  active : Bool
  minAmount : ℕ
  maxAmount : ℕ
  intentId : Option ℕ
  deriving DecidableEq, Repr

/-- The row of a trade with its escrow and Intent. -/
structure TradeRow where
  offerId : ℕ
  buyerId : ℕ
  sellerId : ℕ
  amount : ℕ
  status : TradeStatus
  intentId : Option ℕ
  /-- The status of the trade's escrow, once there is one. -/
  escrow : Option EscrowStatus
  /-- The events of the escrow whose handlers have not run, oldest first. -/
  unhandled : List EscrowStatus
  deriving DecidableEq, Repr

/-- The rows, each kind numbered in the order of creation. -/
structure Market where
  offers : List Offer
  trades : List TradeRow
  intents : List IntentStatus
  deriving DecidableEq, Repr

/-- Nothing was offered yet. -/
def Market.empty : Market := ⟨[], [], []⟩

/-! ## Operations -/

/-- The operations of the market. -/
inductive Op where
  | createOffer (userId : ℕ) (sell : Bool) (minAmount maxAmount : ℕ)
  | updateOfferStatus (offerId : ℕ) (active : Bool)
  | createTrade (offerId counterpartyId amount : ℕ)
  | updateStatus (tradeId : ℕ) (status : TradeStatus) (triggeredBy : ℕ)
  | createEscrow (tradeId : ℕ)
  | moveEscrow (tradeId : ℕ) (dst : EscrowStatus)
  | handle (tradeId position : ℕ)
  deriving DecidableEq, Repr

/-- How an operation ends : nothing was written, everything went through, or it failed
after its row was written. -/
inductive Result where
  | rejected | done | failed
  deriving DecidableEq, Repr

/-- Write the row of a trade and walk its intent. -/
def Market.advance (m : Market) (tradeId : ℕ) (row : TradeRow) (targets : List IntentStatus) :
    Market × Result :=
  let m := { m with trades := m.trades.set tradeId row }
  match row.intentId with
  | none => (m, .done)
  | some i =>
    match m.intents[i]? with
    | none => (m, .failed)
    | some s =>
      ({ m with intents := m.intents.set i (walk s targets).1 },
        if (walk s targets).2 then .done else .failed)

/-- The row `persistTrade` creates, if it accepts the request. -/
def Market.persistTrade (m : Market) (offerId counterpartyId amount : ℕ) : Option TradeRow := do
  let offer ← m.offers[offerId]?
  if offer.active ∧ offer.userId ≠ counterpartyId ∧ 0 < amount ∧ offer.minAmount ≤ amount ∧
      amount ≤ offer.maxAmount then
    let (buyerId, sellerId) :=
      if offer.sell then (counterpartyId, offer.userId) else (offer.userId, counterpartyId)
    some ⟨offerId, buyerId, sellerId, amount, .PENDING, offer.intentId, none, []⟩
  else none

/-- The walk of `postPersistTrade`. -/
def tradeWalk : List IntentStatus := [.DISCOVERING, .MATCHED, .NEGOTIATING]

/-- The row after the handler of an event wrote it. -/
def TradeRow.handled (t : TradeRow) (position : ℕ) (event : EscrowStatus) : TradeRow :=
  { t with
    status := (handlerStatus event).getD t.status, unhandled := t.unhandled.eraseIdx position }

/-- The row after its escrow moved. -/
def TradeRow.moved (t : TradeRow) (dst : EscrowStatus) : TradeRow :=
  { t with escrow := some dst, unhandled := t.unhandled ++ [dst] }

/-- What an operation does. -/
def Market.step (m : Market) : Op → Market × Result
  | .createOffer userId sell minAmount maxAmount =>
    ({ m with
      offers := m.offers ++ [⟨userId, sell, true, minAmount, maxAmount, some m.intents.length⟩]
      intents := m.intents ++ [(walk .CREATED [.VALIDATED, .COORDINATED]).1] }, .done)
  | .updateOfferStatus offerId active =>
    match m.offers[offerId]? with
    | some offer =>
      ({ m with offers := m.offers.set offerId { offer with active := active } }, .done)
    | none => (m, .rejected)
  | .createTrade offerId counterpartyId amount =>
    match m.persistTrade offerId counterpartyId amount with
    | some trade =>
      { m with trades := m.trades ++ [trade] }.advance m.trades.length trade tradeWalk
    | none => (m, .rejected)
  | .updateStatus tradeId status triggeredBy =>
    match m.trades[tradeId]? with
    | some t =>
      if (triggeredBy = t.buyerId ∨ triggeredBy = t.sellerId) ∧
          status ∈ manualTransitions t.status then
        m.advance tradeId { t with status := status }
          (if status = .CANCELLED then [.CANCELLED] else [])
      else (m, .rejected)
    | none => (m, .rejected)
  | .createEscrow tradeId =>
    match m.trades[tradeId]? with
    | some t =>
      if t.escrow = none then m.advance tradeId { t with escrow := some .created } []
      else (m, .rejected)
    | none => (m, .rejected)
  | .moveEscrow tradeId dst =>
    match m.trades[tradeId]? with
    | some t =>
      if t.escrow.any fun src => decide (ValidTransition src dst) then
        m.advance tradeId (t.moved dst) []
      else (m, .rejected)
    | none => (m, .rejected)
  | .handle tradeId position =>
    match m.trades[tradeId]? with
    | some t =>
      match t.unhandled[position]? with
      | some event => m.advance tradeId (t.handled position event) (handlerIntent event)
      | none => (m, .rejected)
    | none => (m, .rejected)

/-- The market after an operation. -/
def Market.next (m : Market) (op : Op) : Market := (m.step op).1

/-! ## The properties -/

/-- The creation of a trade does not fail after its row was written. -/
def CreatesTrade (m : Market) : Op → Prop
  | .createTrade offerId counterpartyId amount =>
    (m.step (.createTrade offerId counterpartyId amount)).2 ≠ .failed
  | _ => True

instance (m : Market) : ∀ op, Decidable (CreatesTrade m op)
  | .createTrade _ _ _ => inferInstanceAs (Decidable (_ ≠ _))
  | .createOffer _ _ _ _ => inferInstanceAs (Decidable True)
  | .updateOfferStatus _ _ => inferInstanceAs (Decidable True)
  | .updateStatus _ _ _ => inferInstanceAs (Decidable True)
  | .createEscrow _ => inferInstanceAs (Decidable True)
  | .moveEscrow _ _ => inferInstanceAs (Decidable True)
  | .handle _ _ => inferInstanceAs (Decidable True)

/-- Where the escrow of a trade is settled and its handlers have run, the intent of the
trade is closed. -/
def Market.Closed (m : Market) : Prop :=
  ∀ t ∈ m.trades, t.escrow.any EscrowStatus.terminal = true → t.unhandled = [] →
    ∀ i ∈ t.intentId, m.intents[i]?.any IntentStatus.terminal = true

instance (m : Market) : Decidable m.Closed :=
  inferInstanceAs (Decidable (∀ t ∈ m.trades, t.escrow.any EscrowStatus.terminal = true →
    t.unhandled = [] → ∀ i ∈ t.intentId, m.intents[i]?.any IntentStatus.terminal = true))

/-- The intent with this id has the status `s`, if there is one. -/
def Market.intentIs (m : Market) (intentId : Option ℕ) (p : IntentStatus → Bool) : Bool :=
  intentId.all fun i => m.intents[i]?.all p

/-- The condition on a step : a trade is created on an offer whose intent is still
`COORDINATED`, an escrow that was never locked is refunded only where the intent is
closed, and the handler of a final event runs after the handler of the lock. -/
def InOrder (m : Market) : Op → Bool
  | .createTrade offerId counterpartyId amount =>
    (m.persistTrade offerId counterpartyId amount).all fun t =>
      m.intentIs t.intentId (· == .COORDINATED)
  | .moveEscrow tradeId .refunded =>
    m.trades[tradeId]?.all fun t =>
      t.escrow != some .created || m.intentIs t.intentId IntentStatus.terminal
  | .handle tradeId position =>
    m.trades[tradeId]?.all fun t => t.unhandled[position]?.all fun event =>
      !event.terminal || !t.unhandled.contains .fundsLocked ||
        m.intentIs t.intentId IntentStatus.terminal
  | _ => true

/-! ## What the rows keep -/

/-- Every event of the escrow is in the queue once at most, and none is ahead of the
escrow itself. -/
structure TradeRow.Queued (t : TradeRow) : Prop where
  nodup : t.unhandled.Nodup
  ranks : ∀ event ∈ t.unhandled, ∃ e, t.escrow = some e ∧ event.rank ≤ e.rank

/-- The intent of a trade is closed, or it is where the handlers that ran have brought it,
and the handler of a final event is still to run. -/
def TradeRow.Fits (t : TradeRow) (s : IntentStatus) : Prop :=
  s.terminal = true ∨
  ((t.escrow = none ∨ t.escrow = some .created) ∧ s = .NEGOTIATING) ∨
  ∃ e, t.escrow = some e ∧ e ≠ .created ∧
    s = (if .fundsLocked ∈ t.unhandled then .NEGOTIATING else .COMMITTED) ∧
    (e.terminal = true → ∃ event ∈ t.unhandled, event.terminal = true)

/-- A trade that fits has an Intent that is over, in negotiation or committed. -/
theorem TradeRow.Fits.cases {t : TradeRow} {s : IntentStatus} (h : t.Fits s) :
    s.terminal = true ∨ s = .NEGOTIATING ∨ s = .COMMITTED := by
  rcases h with h | ⟨-, rfl⟩ | ⟨e, -, -, rfl, -⟩
  · exact Or.inl h
  · exact Or.inr (Or.inl rfl)
  · split
    · exact Or.inr (Or.inl rfl)
    · exact Or.inr (Or.inr rfl)

/-- A closed intent stays closed, whatever is asked of it. -/
theorem TradeRow.fits_walk_terminal {t : TradeRow} {s : IntentStatus} (h : s.terminal = true)
    (targets : List IntentStatus) : t.Fits (walk s targets).1 := by
  rw [walk_terminal h]
  exact Or.inl h

/-- A move of the escrow keeps the queue of its events. -/
theorem TradeRow.Queued.moved {t : TradeRow} {src dst : EscrowStatus} (h : t.Queued)
    (hsrc : t.escrow = some src) (hvalid : ValidTransition src dst) : (t.moved dst).Queued := by
  have hrank := EscrowStatus.rank_lt_of_valid src dst hvalid
  have hold : ∀ event ∈ t.unhandled, event.rank ≤ src.rank := by
    intro event hevent
    obtain ⟨e, he, hle⟩ := h.ranks event hevent
    obtain rfl := Option.some.inj (hsrc.symm.trans he)
    exact hle
  constructor
  · refine List.nodup_append.mpr ⟨h.nodup, List.nodup_singleton dst, fun a ha b hb hab => ?_⟩
    have := hold a ha
    rw [hab, List.mem_singleton.mp hb] at this
    omega
  · intro event hevent
    refine ⟨dst, rfl, ?_⟩
    rcases List.mem_append.mp hevent with hevent | hevent
    · have := hold event hevent
      omega
    · rw [List.mem_singleton.mp hevent]

/-- A move of the escrow keeps trade and Intent in step. -/
theorem TradeRow.Fits.moved {t : TradeRow} {s : IntentStatus} {src dst : EscrowStatus}
    (h : t.Fits s) (hsrc : t.escrow = some src) (hvalid : ValidTransition src dst)
    (hrefund : dst = .refunded → src ≠ .created ∨ s.terminal = true) : (t.moved dst).Fits s := by
  rcases h with h | ⟨hcreated, rfl⟩ | ⟨e, he, hne, hs, hfinal⟩
  · exact Or.inl h
  · -- Out of `CREATED` the escrow can only be locked here.
    obtain rfl : src = .created := by
      rcases hcreated with h | h
      · rw [h] at hsrc
        cases hsrc
      · exact Option.some.inj (hsrc.symm.trans h)
    obtain rfl : dst = .fundsLocked := by
      revert hvalid hrefund
      cases dst <;> decide
    exact Or.inr (Or.inr ⟨.fundsLocked, rfl, by decide, by simp [TradeRow.moved], nofun⟩)
  · obtain rfl := Option.some.inj (hsrc.symm.trans he)
    have hdst : dst ≠ .created ∧ dst ≠ .fundsLocked := by
      revert hvalid hne
      cases src <;> cases dst <;> decide
    refine Or.inr (Or.inr ⟨dst, rfl, hdst.1, ?_, fun hterm => ⟨dst, by simp [TradeRow.moved], hterm⟩⟩)
    rw [hs]
    simp [TradeRow.moved, hdst.2.symm]

theorem mem_eraseIdx_iff {l : List EscrowStatus} (h : l.Nodup) {position : ℕ}
    {event x : EscrowStatus} (hget : l[position]? = some event) :
    x ∈ l.eraseIdx position ↔ x ≠ event ∧ x ∈ l := by
  obtain ⟨hlt, rfl⟩ := List.getElem?_eq_some_iff.mp hget
  rw [← h.erase_getElem position hlt, h.mem_erase_iff]

theorem TradeRow.Queued.handled {t : TradeRow} {position : ℕ} {event : EscrowStatus}
    (h : t.Queued) : (t.handled position event).Queued :=
  ⟨h.nodup.sublist (List.eraseIdx_sublist _ _),
    fun e he => h.ranks e (List.mem_of_mem_eraseIdx he)⟩

/-- A handled event keeps trade and Intent in step. -/
theorem TradeRow.Fits.handled {t : TradeRow} {s : IntentStatus} {position : ℕ}
    {event : EscrowStatus} (h : t.Fits s) (hq : t.Queued)
    (hget : t.unhandled[position]? = some event)
    (horder : event.terminal = true → .fundsLocked ∉ t.unhandled ∨ s.terminal = true) :
    (t.handled position event).Fits (walk s (handlerIntent event)).1 := by
  have hmem : event ∈ t.unhandled := List.mem_of_getElem? hget
  rcases h with h | ⟨hcreated, rfl⟩ | ⟨e, he, hne, hs, hfinal⟩
  · exact fits_walk_terminal h _
  · -- Nothing is published before the escrow is locked.
    obtain ⟨e, he, hrank⟩ := hq.ranks event hmem
    obtain rfl : e = .created := by
      rcases hcreated with h | h
      · rw [h] at he
        cases he
      · exact Option.some.inj (he.symm.trans h)
    obtain rfl : event = .created := by
      revert hrank
      cases event <;> decide
    exact Or.inr (Or.inl ⟨hcreated, rfl⟩)
  · have hiff : ∀ x, x ∈ (t.handled position event).unhandled ↔ x ≠ event ∧ x ∈ t.unhandled :=
      fun x => mem_eraseIdx_iff hq.nodup hget
    by_cases hterm : event.terminal = true
    · rcases horder hterm with hlocked | hclosed
      · rw [if_neg hlocked] at hs
        subst hs
        refine Or.inl ?_
        revert hterm
        cases event <;> decide
      · exact fits_walk_terminal hclosed _
    · have hkeep : e.terminal = true →
          ∃ x ∈ (t.handled position event).unhandled, x.terminal = true := by
        intro heterm
        obtain ⟨x, hx, hxterm⟩ := hfinal heterm
        exact ⟨x, (hiff x).mpr ⟨fun heq => hterm (heq ▸ hxterm), hx⟩, hxterm⟩
      refine Or.inr (Or.inr ⟨e, he, hne, ?_, hkeep⟩)
      by_cases hlock : event = .fundsLocked
      · subst hlock
        rw [if_pos hmem] at hs
        subst hs
        rw [if_neg fun hin => ((hiff _).mp hin).1 rfl]
        decide
      · have hnone : handlerIntent event = [] := by
          revert hterm hlock
          cases event <;> decide
        rw [hnone, walk, hs]
        simp only [hiff, ne_eq, Ne.symm hlock, not_false_eq_true, true_and]

/-- A change by hand keeps trade and Intent in step. -/
theorem TradeRow.Fits.updateStatus {t : TradeRow} {s : IntentStatus} (h : t.Fits s)
    (status : TradeStatus) : { t with status := status }.Fits
      (walk s (if status = TradeStatus.CANCELLED then [IntentStatus.CANCELLED] else [])).1 := by
  split
  · rcases h.cases with hterm | rfl | rfl
    · exact fits_walk_terminal hterm _
    · exact Or.inl (by decide)
    · exact h
  · exact h

/-! ## Runs -/

/-- Offers have intents, the intent of a trade fits the trade, and no two trades share
an intent. -/
structure Sound (m : Market) : Prop where
  offers : ∀ o ∈ m.offers, ∀ i ∈ o.intentId, i < m.intents.length
  queued : ∀ t ∈ m.trades, t.Queued
  fits : ∀ t ∈ m.trades, ∀ i ∈ t.intentId, ∃ s, m.intents[i]? = some s ∧ t.Fits s
  apart : ∀ {a b : ℕ} {ta tb : TradeRow}, m.trades[a]? = some ta → m.trades[b]? = some tb →
    ∀ i ∈ ta.intentId, i ∈ tb.intentId → a = b

theorem sound_empty : Sound Market.empty :=
  ⟨fun _ h => absurd h List.not_mem_nil, fun _ h => absurd h List.not_mem_nil,
    fun _ h => absurd h List.not_mem_nil, fun h => by simp [Market.empty] at h⟩

/-- Where the intents differ only at `i`, what the others fit is unchanged. -/
theorem getElem?_set_other {l : List IntentStatus} {i j : ℕ} {s s' : IntentStatus} (h : j ≠ i)
    (hs : l[j]? = some s) : (l.set i s')[j]? = some s := by
  rw [List.getElem?_set_ne h.symm, hs]

/-- Writing the row of a trade and walking its intent keeps the market sound, if the new
row fits where the intent ends. -/
theorem Sound.advance {m : Market} {tradeId : ℕ} {t row : TradeRow}
    {targets : List IntentStatus} (hm : Sound m) (ht : m.trades[tradeId]? = some t)
    (hintent : row.intentId = t.intentId) (hqueued : row.Queued)
    (hfits : ∀ i ∈ t.intentId, ∀ s, m.intents[i]? = some s → t.Fits s →
      row.Fits (walk s targets).1) : Sound (m.advance tradeId row targets).1 := by
  have hlt : tradeId < m.trades.length := (List.getElem?_eq_some_iff.mp ht).1
  have hmem : t ∈ m.trades := List.mem_of_getElem? ht
  -- The rows after the write, each with the row it replaces.
  have hrows : ∀ {b : ℕ} {tb : TradeRow}, (m.trades.set tradeId row)[b]? = some tb →
      ∃ tb', m.trades[b]? = some tb' ∧ tb.intentId = tb'.intentId ∧
        (b = tradeId ∧ tb = row ∨ b ≠ tradeId ∧ tb = tb') := by
    intro b tb hb
    by_cases hbt : b = tradeId
    · subst hbt
      rw [List.getElem?_set_self hlt] at hb
      obtain rfl := Option.some.inj hb
      exact ⟨t, ht, hintent, Or.inl ⟨rfl, rfl⟩⟩
    · rw [List.getElem?_set_ne (Ne.symm hbt)] at hb
      exact ⟨tb, hb, rfl, Or.inr ⟨hbt, rfl⟩⟩
  have hapart : ∀ {a b : ℕ} {ta tb : TradeRow}, (m.trades.set tradeId row)[a]? = some ta →
      (m.trades.set tradeId row)[b]? = some tb → ∀ i ∈ ta.intentId, i ∈ tb.intentId → a = b := by
    intro a b ta tb ha hb i hi hi'
    obtain ⟨ta', ha', hia, -⟩ := hrows ha
    obtain ⟨tb', hb', hib, -⟩ := hrows hb
    exact hm.apart ha' hb' i (hia ▸ hi) (hib ▸ hi')
  have hqueues : ∀ tb ∈ m.trades.set tradeId row, tb.Queued := by
    intro tb htb
    rcases List.mem_or_eq_of_mem_set htb with h | rfl
    · exact hm.queued tb h
    · exact hqueued
  unfold Market.advance
  simp only []
  split
  · next hnone =>
    refine ⟨hm.offers, hqueues, fun tb htb i hi => ?_, hapart⟩
    rcases List.mem_or_eq_of_mem_set htb with h | rfl
    · exact hm.fits tb h i hi
    · rw [hnone] at hi
      cases hi
  · next i hi =>
    obtain ⟨s, hs, hfit⟩ := hm.fits t hmem i (hintent ▸ hi)
    rw [hs]
    refine ⟨fun o ho j hj => by simpa using hm.offers o ho j hj, hqueues, fun tb htb j hj => ?_,
      hapart⟩
    obtain ⟨b, hb⟩ := List.mem_iff_getElem?.mp htb
    obtain ⟨tb', hb', hib, ⟨rfl, rfl⟩ | ⟨hne, rfl⟩⟩ := hrows hb
    · obtain rfl : i = j := Option.some.inj (hi.symm.trans hj)
      refine ⟨_, List.getElem?_set_self (List.getElem?_eq_some_iff.mp hs).1, ?_⟩
      exact hfits i (hintent ▸ hi) s hs hfit
    · obtain ⟨s', hs', hfit'⟩ := hm.fits tb (List.mem_of_getElem? hb') j hj
      have hij : j ≠ i := by
        rintro rfl
        exact hne (hm.apart hb' ht j hj (hintent ▸ hi))
      exact ⟨s', getElem?_set_other hij hs', hfit'⟩

/-- The intent of an accepted trade is the one of its offer, and it has no escrow yet. -/
theorem persistTrade_eq {m : Market} {offerId counterpartyId amount : ℕ} {t : TradeRow}
    (h : m.persistTrade offerId counterpartyId amount = some t) :
    t.escrow = none ∧ t.unhandled = [] ∧ ∃ o ∈ m.offers, t.intentId = o.intentId := by
  simp only [Market.persistTrade, Option.bind_eq_bind, Option.bind_eq_some_iff] at h
  obtain ⟨offer, hoffer, h⟩ := h
  split at h
  · obtain rfl := Option.some.inj h
    exact ⟨rfl, rfl, offer, List.mem_of_getElem? hoffer, rfl⟩
  · cases h

/-- A trade on an offer whose intent is still `COORDINATED` is created, and the market
stays sound. -/
theorem Sound.createTrade {m : Market} {offerId counterpartyId amount : ℕ} (hm : Sound m)
    (h : InOrder m (.createTrade offerId counterpartyId amount) = true) :
    Sound (m.step (.createTrade offerId counterpartyId amount)).1 ∧
      (m.step (.createTrade offerId counterpartyId amount)).2 ≠ .failed := by
  simp only [Market.step]
  cases hp : m.persistTrade offerId counterpartyId amount with
  | none => exact ⟨hm, nofun⟩
  | some trade =>
    obtain ⟨hescrow, hqueue, o, ho, hintent⟩ := persistTrade_eq hp
    have hqueued : trade.Queued := ⟨by rw [hqueue]; exact List.nodup_nil, by simp [hqueue]⟩
    have hrows : (m.trades ++ [trade]).set m.trades.length trade = m.trades ++ [trade] := by simp
    have hnew : ∀ {b : ℕ} {tb : TradeRow}, (m.trades ++ [trade])[b]? = some tb →
        m.trades[b]? = some tb ∨ b = m.trades.length ∧ tb = trade := by
      intro b tb hb
      rw [List.getElem?_append] at hb
      split at hb
      · exact Or.inl hb
      · rw [List.getElem?_singleton] at hb
        split at hb
        · exact Or.inr ⟨by omega, (Option.some.inj hb).symm⟩
        · cases hb
    have hqueues : ∀ t ∈ m.trades ++ [trade], t.Queued := by
      intro t ht
      rcases List.mem_append.mp ht with ht | ht
      · exact hm.queued t ht
      · rw [List.mem_singleton.mp ht]
        exact hqueued
    unfold Market.advance
    simp only [hrows]
    cases hi : trade.intentId with
    | none =>
      refine ⟨⟨hm.offers, hqueues, fun t ht i hit => ?_, fun ha hb i hia hib => ?_⟩, nofun⟩
      · rcases List.mem_append.mp ht with ht | ht
        · exact hm.fits t ht i hit
        · rw [List.mem_singleton.mp ht, hi] at hit
          cases hit
      · rcases hnew ha with ha | ⟨-, rfl⟩ <;> rcases hnew hb with hb | ⟨-, rfl⟩
        · exact hm.apart ha hb i hia hib
        · rw [hi] at hib
          cases hib
        · rw [hi] at hia
          cases hia
        · rw [hi] at hia
          cases hia
    | some i =>
      have hlt : i < m.intents.length := hm.offers o ho i (hintent ▸ hi)
      have hs : m.intents[i]? = some .COORDINATED := by
        simp only [InOrder, hp, Option.all_some, Market.intentIs, hi,
          List.getElem?_eq_getElem hlt, beq_iff_eq] at h
        rw [List.getElem?_eq_getElem hlt, h]
      -- A trade made earlier does not share an intent that is still `COORDINATED`.
      have hfree : ∀ t ∈ m.trades, i ∉ t.intentId := by
        intro t ht hit
        obtain ⟨s, hs', hfit⟩ := hm.fits t ht i hit
        obtain rfl := Option.some.inj (hs.symm.trans hs')
        rcases hfit.cases with h | h | h
        · exact absurd h (by decide)
        · cases h
        · cases h
      simp only [hs]
      have hwalk : walk .COORDINATED tradeWalk = (.NEGOTIATING, true) := by decide
      rw [hwalk]
      refine ⟨⟨fun o ho j hj => by simpa using hm.offers o ho j hj, hqueues,
        fun t ht j hj => ?_, fun ha hb j hja hjb => ?_⟩, by simp⟩
      · rcases List.mem_append.mp ht with hold | ht
        · obtain ⟨s', hs', hfit⟩ := hm.fits t hold j hj
          have hji : j ≠ i := by
            rintro rfl
            exact hfree t hold hj
          exact ⟨s', getElem?_set_other hji hs', hfit⟩
        · rw [List.mem_singleton.mp ht] at hj ⊢
          obtain rfl : i = j := Option.some.inj (hi.symm.trans hj)
          exact ⟨_, List.getElem?_set_self hlt, Or.inr (Or.inl ⟨Or.inl hescrow, rfl⟩)⟩
      · rcases hnew ha with ha' | ⟨rfl, rfl⟩ <;> rcases hnew hb with hb' | ⟨rfl, rfl⟩
        · exact hm.apart ha' hb' j hja hjb
        · obtain rfl : i = j := Option.some.inj (hi.symm.trans hjb)
          exact absurd hja (hfree _ (List.mem_of_getElem? ha'))
        · obtain rfl : i = j := Option.some.inj (hi.symm.trans hja)
          exact absurd hjb (hfree _ (List.mem_of_getElem? hb'))
        · rfl

/-- What the condition says about the intent of a trade. -/
theorem intentIs_of_mem {m : Market} {intentId : Option ℕ} {p : IntentStatus → Bool} {i : ℕ}
    {s : IntentStatus} (h : m.intentIs intentId p = true) (hi : i ∈ intentId)
    (hs : m.intents[i]? = some s) : p s = true := by
  obtain rfl := Option.mem_def.mp hi
  simpa [Market.intentIs, hs] using h

/-- An operation in order keeps the market sound. -/
theorem Sound.next {m : Market} (hm : Sound m) (op : Op) (h : InOrder m op = true) :
    Sound (m.next op) ∧ CreatesTrade m op := by
  unfold Market.next
  cases op with
  | createOffer userId sell minAmount maxAmount =>
    refine ⟨⟨fun o ho i hi => ?_, hm.queued, fun t ht i hi => ?_, hm.apart⟩, trivial⟩
    · simp only [Market.step, List.length_append, List.length_singleton]
      rcases List.mem_append.mp ho with ho | ho
      · have := hm.offers o ho i hi
        omega
      · rw [List.mem_singleton.mp ho] at hi
        obtain rfl := Option.some.inj hi
        omega
    · obtain ⟨s, hs, hfit⟩ := hm.fits t ht i hi
      have hlt := (List.getElem?_eq_some_iff.mp hs).1
      exact ⟨s, by simp only [Market.step, List.getElem?_append_left hlt, hs], hfit⟩
  | updateOfferStatus offerId active =>
    refine ⟨?_, trivial⟩
    simp only [Market.step]
    split
    · next offer hoffer =>
      refine ⟨fun o ho i hi => ?_, hm.queued, hm.fits, hm.apart⟩
      rcases List.mem_or_eq_of_mem_set ho with h | rfl
      · exact hm.offers o h i hi
      · exact hm.offers offer (List.mem_of_getElem? hoffer) i hi
    · exact hm
  | createTrade offerId counterpartyId amount => exact hm.createTrade h
  | updateStatus tradeId status triggeredBy =>
    refine ⟨?_, trivial⟩
    simp only [Market.step]
    split
    · next t ht =>
      split
      · have hq := hm.queued t (List.mem_of_getElem? ht)
        exact hm.advance ht rfl ⟨hq.nodup, hq.ranks⟩ fun _ _ s _ hfit => hfit.updateStatus status
      · exact hm
    · exact hm
  | createEscrow tradeId =>
    refine ⟨?_, trivial⟩
    simp only [Market.step]
    split
    · next t ht =>
      split
      · next hnone =>
        have hq := hm.queued t (List.mem_of_getElem? ht)
        refine hm.advance ht rfl ⟨hq.nodup, fun event hevent => ?_⟩ fun _ _ s _ hfit => ?_
        · obtain ⟨e, he, -⟩ := hq.ranks event hevent
          rw [hnone] at he
          cases he
        · rcases hfit with hterm | ⟨-, rfl⟩ | ⟨e, he, -⟩
          · exact Or.inl hterm
          · exact Or.inr (Or.inl ⟨Or.inr rfl, rfl⟩)
          · rw [hnone] at he
            cases he
      · exact hm
    · exact hm
  | moveEscrow tradeId dst =>
    refine ⟨?_, trivial⟩
    simp only [Market.step]
    split
    · next t ht =>
      split
      · next hvalid =>
        obtain ⟨src, hsrc, hv⟩ := (Option.any_eq_true _ _).mp hvalid
        have hq := hm.queued t (List.mem_of_getElem? ht)
        refine hm.advance ht rfl (hq.moved hsrc (of_decide_eq_true hv)) fun i hi s hs hfit => ?_
        refine hfit.moved hsrc (of_decide_eq_true hv) fun hdst => ?_
        subst hdst
        simp only [InOrder, ht, Option.all_some, Bool.or_eq_true, bne_iff_ne, hsrc] at h
        exact h.imp (fun h hsrc' => h (congrArg some hsrc')) fun h => intentIs_of_mem h hi hs
      · exact hm
    · exact hm
  | handle tradeId position =>
    refine ⟨?_, trivial⟩
    simp only [Market.step]
    split
    · next t ht =>
      split
      · next event hevent =>
        have hq := hm.queued t (List.mem_of_getElem? ht)
        refine hm.advance ht rfl hq.handled fun i hi s hs hfit => ?_
        refine hfit.handled hq hevent fun hterm => ?_
        simp only [InOrder, ht, hevent, Option.all_some, hterm, Bool.not_true, Bool.false_or,
          Bool.or_eq_true, Bool.not_eq_true', List.contains_eq_mem, decide_eq_false_iff_not] at h
        exact h.imp id fun h => intentIs_of_mem h hi hs
      · exact hm
    · exact hm

/-- In a sound market a closed trade has a closed Intent. -/
theorem Sound.closed {m : Market} (hm : Sound m) : m.Closed := by
  intro t ht hterm hqueue i hi
  obtain ⟨s, hs, hfit⟩ := hm.fits t ht i hi
  obtain ⟨e, he, hterm⟩ := (Option.any_eq_true _ _).mp hterm
  rw [hs, Option.any_some]
  rcases hfit with h | ⟨hcreated, -⟩ | ⟨e', he', -, -, hfinal⟩
  · exact h
  · rw [he] at hcreated
    rcases hcreated with h | h
    · cases h
    · obtain rfl := Option.some.inj h
      cases hterm
  · obtain rfl := Option.some.inj (he.symm.trans he')
    obtain ⟨x, hx, -⟩ := hfinal hterm
    rw [hqueue] at hx
    cases hx

/-- In every sequence whose steps are in order, every trade whose row is written is
returned, and where the escrow of a trade is settled and its handlers have run, the
intent of the trade is closed. -/
theorem trades_and_intents_live (ops : List Op)
    (h : Along Market.next (fun m op => InOrder m op = true) Market.empty ops) :
    Along Market.next CreatesTrade Market.empty ops ∧ (run Market.next .empty ops).Closed := by
  have hstep : ∀ m op, Sound m → InOrder m op = true → Sound (m.next op) :=
    fun m op hm hop => (hm.next op hop).1
  refine ⟨h.imp sound_empty hstep fun m op hm hop => (hm.next op hop).2, ?_⟩
  exact (h.invariant sound_empty hstep).closed

/-- An offer, a trade on it, and the trade's escrow locked, paid and released, with the
handlers run in order. -/
def releasedTrade : List Op :=
  [.createOffer 1 true 10 100, .createTrade 0 2 50, .createEscrow 0, .moveEscrow 0 .fundsLocked,
    .handle 0 0, .moveEscrow 0 .paymentPending, .moveEscrow 0 .completed, .handle 0 0,
    .handle 0 0]

theorem trades_and_intents_live_released :
    Along Market.next (fun m op => InOrder m op = true) Market.empty releasedTrade ∧
    ((run Market.next .empty releasedTrade).trades.any fun t =>
      t.escrow == some .completed && t.unhandled == []) = true ∧
    Along Market.next CreatesTrade Market.empty releasedTrade ∧
    (run Market.next .empty releasedTrade).Closed :=
  ⟨by decide, by decide, trades_and_intents_live releasedTrade (by decide)⟩

/-- A second trade on the same offer fails after its row was written. And an escrow that is
refunded before it was locked leaves the intent of its trade open. -/
theorem second_trade_fails :
    (¬ Along Market.next CreatesTrade Market.empty
      [.createOffer 1 true 10 100, .createTrade 0 2 50, .createTrade 0 3 50]) ∧
    (run Market.next .empty
      [.createOffer 1 true 10 100, .createTrade 0 2 50, .createTrade 0 3 50]).trades.length = 2 ∧
    ¬ (run Market.next .empty [.createOffer 1 true 10 100, .createTrade 0 2 50, .createEscrow 0,
      .moveEscrow 0 .refunded, .handle 0 0]).Closed := by
  decide

end Sails.Trading
