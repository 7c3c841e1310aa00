import SailsProtocol.Escrow.Status
import SailsProtocol.Order.Cursor
import SailsProtocol.Order.Search
import SailsProtocol.Trading.Trade

/-!
# Catching up on messages

`reconcileTrade` (`reconciliation.service.ts`) returns the first 100 messages of a trade
behind a timestamp. A client resumes with the timestamp of the last message it received
(`CatchesUp`), and `reconcilePeerPair` asks without a timestamp. Messages of one timestamp
come back in any order (`Reading`).

* `catchesUp_iff` : a client misses nothing exactly when no hundredth message is followed by
  another of its timestamp;
* `pairReconciled_iff` : a reconnection returns what was persisted meanwhile exactly when
  that is among the first hundred messages of the trade.
-/

namespace Sails.Negotiation

open Paging Trading

/-! ## Messages -/

/-- The events of a negotiation. -/
inductive NegotiationEvent where
  | OFFER_PROPOSED (sender terms sentAt : String)
  | COUNTER_OFFERED (sender terms sentAt : String)
  | TERMS_ACCEPTED (sender sentAt : String)
  | TERMS_REJECTED (sender : String) (reason : Option String) (sentAt : String)
  | MESSAGE_EXCHANGED (sender content sentAt : String)
  deriving DecidableEq, Repr

/-- A row of the messages. `createdAt` is in milliseconds. -/
structure Message where
  id : String
  tradeId : String
  senderId : String
  content : String
  msgType : String
  createdAt : ℤ
  deriving DecidableEq, Repr

/-- The columns of a `Trade` row that reconciliation reads. -/
structure TradeRow where
  id : String
  buyerId : String
  sellerId : String
  status : TradeStatus
  escrow : Option EscrowStatus
  deriving DecidableEq, Repr

/-- The tables. No two messages have one id. -/
structure Store where
  trades : List TradeRow
  messages : List Message
  nodup_ids : (messages.map Message.id).Nodup

/-- A message as it is returned. -/
structure MissedMessage where
  id : String
  senderId : String
  content : String
  msgType : String
  createdAt : ℤ
  deriving DecidableEq, Repr

/-- `ReconciliationResult`. -/
structure ReconciliationResult where
  tradeId : String
  currentTradeStatus : TradeStatus
  currentEscrowStatus : Option EscrowStatus
  missedMessages : List MissedMessage
  deriving DecidableEq, Repr

/-- What a reconciliation throws. -/
inductive ReconciliationError where
  | tradeNotFound (tradeId : String)
  deriving DecidableEq, Repr

/-- What a call of `persistNegotiationEvent` is given, with the id and the time of the new
row. -/
structure Persisted where
  tradeId : String
  senderId : String
  event : NegotiationEvent
  id : String
  now : ℤ

/-- The row of an event. `stringify` is `JSON.stringify`. -/
def Persisted.message (stringify : NegotiationEvent → String) (p : Persisted) : Message :=
  { id := p.id
    tradeId := p.tradeId
    senderId := p.senderId
    content := match p.event with
      | .MESSAGE_EXCHANGED _ content _ => content
      | event => stringify event
    msgType := match p.event with
      | .MESSAGE_EXCHANGED .. => "TEXT"
      | _ => "SYSTEM"
    createdAt := p.now }

/-- The insert fails if the id is taken. -/
def persistNegotiationEvent (stringify : NegotiationEvent → String) (store : Store)
    (p : Persisted) : Option Store :=
  if h : p.id ∈ store.messages.map Message.id then none
  else
    some { store with
      messages := store.messages ++ [p.message stringify]
      nodup_ids := by
        rw [List.map_append, List.nodup_append]
        refine ⟨store.nodup_ids, List.nodup_singleton _, fun i hi j hj => ?_⟩
        rw [List.map_singleton, List.mem_singleton] at hj
        rintro rfl
        rw [hj] at hi
        exact h hi }

theorem persistNegotiationEvent_fresh {stringify : NegotiationEvent → String} {store : Store}
    {p : Persisted} (h : p.id ∉ store.messages.map Message.id) :
    ∃ later, persistNegotiationEvent stringify store p = some later ∧
      later.trades = store.trades ∧
      later.messages = store.messages ++ [p.message stringify] :=
  ⟨_, dif_neg h, rfl, rfl⟩

/-- The messages of a trade. -/
def Store.ofTrade (store : Store) (tradeId : String) : List Message :=
  store.messages.filter fun m => m.tradeId = tradeId

/-- The answers to the queries of one call : the messages of a trade behind a cursor, by
`createdAt`. -/
structure Reading (store : Store) where
  answer : String → Option ℤ → List Message
  arranges : ∀ tradeId since,
    Arranges Message.createdAt (behind Message.createdAt since (store.ofTrade tradeId))
      (answer tradeId since)

/-- `findByIdWithEscrow`. -/
def Store.findByIdWithEscrow (store : Store) (tradeId : String) : Option TradeRow :=
  store.trades.find? fun t => t.id = tradeId

/-- The statuses of an active trade. -/
def activeTradeStatuses : List TradeStatus := [.PENDING, .ACTIVE]

/-- `findActiveTradeIdsBetween`. -/
def Store.findActiveTradeIdsBetween (store : Store) (participantA participantB : String) :
    List String :=
  (store.trades.filter fun t => t.status ∈ activeTradeStatuses ∧
    (t.buyerId = participantA ∧ t.sellerId = participantB ∨
      t.buyerId = participantB ∧ t.sellerId = participantA)).map TradeRow.id

/-- The message of a row. -/
def toMissedMessage (m : Message) : MissedMessage :=
  { id := m.id
    senderId := m.senderId
    content := m.content
    msgType := m.msgType
    createdAt := m.createdAt }

variable {store : Store}

/-- `reconcileTrade`. -/
def reconcileTrade (reading : Reading store) (tradeId : String)
    (sinceMessageCreatedAt : Option ℤ) : Except ReconciliationError ReconciliationResult :=
  match store.findByIdWithEscrow tradeId with
  | none => .error (.tradeNotFound tradeId)
  | some trade =>
    .ok { tradeId
          currentTradeStatus := trade.status
          currentEscrowStatus := trade.escrow
          missedMessages :=
            ((reading.answer tradeId sinceMessageCreatedAt).take 100).map toMissedMessage }

/-- `reconcilePeerPair`. -/
def reconcilePeerPair (reading : Reading store) (localUserId remoteUserId : String) :
    Except ReconciliationError (List ReconciliationResult) :=
  (store.findActiveTradeIdsBetween localUserId remoteUserId).mapM fun tradeId =>
    reconcileTrade reading tradeId none

/-! ## A client that resumes -/

/-- The messages call `k` brings. A call that fails brings none. -/
def missed (readings : ℕ → Reading store) (tradeId : String) (k : ℕ) (since : Option ℤ) :
    List MissedMessage :=
  match reconcileTrade (readings k) tradeId since with
  | .ok result => result.missedMessages
  | .error _ => []

/-- Calling again with the last timestamp until nothing comes brings every message behind
the first cursor once, whatever the queries answer. -/
def CatchesUp (store : Store) (tradeId : String) (since : Option ℤ) : Prop :=
  ∀ readings : ℕ → Reading store, ∃ received,
    Follows (missed readings tradeId) MissedMessage.createdAt 0 since received ∧
      received.Perm
        ((behind Message.createdAt since (store.ofTrade tradeId)).map toMissedMessage)

theorem find_of_mem {trade : TradeRow} (h : trade ∈ store.trades) :
    ∃ found, store.findByIdWithEscrow trade.id = some found := by
  rcases hfind : store.findByIdWithEscrow trade.id with _ | found
  · exact absurd (List.find?_eq_none.mp hfind trade h) (by simp)
  · exact ⟨found, rfl⟩

theorem missed_eq {trade : TradeRow} (h : trade ∈ store.trades) (readings : ℕ → Reading store) :
    missed readings trade.id = fun k c =>
      (firstRows 100 (fun k c => (readings k).answer trade.id c) k c).map toMissedMessage := by
  obtain ⟨found, hfind⟩ := find_of_mem h
  funext k c
  rw [missed, reconcileTrade, hfind]
  rfl

/-- Some answers to the queries. -/
def Reading.sorted (store : Store) : Reading store where
  answer tradeId since := (behind Message.createdAt since (store.ofTrade tradeId)).mergeSort
    fun x y => decide (x.createdAt ≤ y.createdAt)
  arranges _ _ := arranges_mergeSort _ _

/-- When the answers catch up. -/
theorem catchesUp_iff {trade : TradeRow} (h : trade ∈ store.trades) (since : Option ℤ) :
    CatchesUp store trade.id since ↔
      ∀ j, ¬ Splits Message.createdAt
        (behind Message.createdAt since (store.ofTrade trade.id)) (j * 100) := by
  constructor
  · intro hall j
    obtain ⟨received, hfollows, hperm⟩ := hall fun _ => Reading.sorted store
    rw [missed_eq h] at hfollows
    obtain ⟨xs, hxs, rfl⟩ := hfollows.of_map fun _ => rfl
    have hlength := hperm.length_eq
    rw [List.length_map, List.length_map] at hlength
    exact hxs.not_splits (by decide) (fun _ c => (Reading.sorted store).arranges trade.id c)
      hlength j
  · intro hsplit readings
    obtain ⟨xs, hxs, hperm⟩ := @exists_follows _ _ _ _ _ _ _ 0 since (by decide : 0 < 100)
      (fun k c => (readings k).arranges trade.id c) hsplit
    have hfollows := @Follows.map _ _ _ _ _ _ MissedMessage.createdAt toMissedMessage
      (fun _ => rfl) 0 xs hxs
    rw [← missed_eq h] at hfollows
    exact ⟨_, hfollows, hperm.map _⟩

/-! ## A pair that reconnects -/

/-- The store after events were persisted. -/
def persistAll (stringify : NegotiationEvent → String) (store : Store)
    (events : List Persisted) : Option Store :=
  events.foldlM (persistNegotiationEvent stringify) store

/-- Whatever the queries answer, a reconnection returns every event that was persisted
meanwhile for an active trade of the pair. -/
def PairReconciled (stringify : NegotiationEvent → String) (store : Store)
    (localUserId remoteUserId : String) (events : List Persisted) : Prop :=
  ∀ later, persistAll stringify store events = some later → ∀ reading : Reading later,
    ∃ results, reconcilePeerPair reading localUserId remoteUserId = .ok results ∧
      ∀ p ∈ events, p.tradeId ∈ later.findActiveTradeIdsBetween localUserId remoteUserId →
        ∃ result ∈ results, result.tradeId = p.tradeId ∧
          toMissedMessage (p.message stringify) ∈ result.missedMessages

/-- Fewer than a hundred other messages of its trade are as early as an event. -/
def AmongFirst (stringify : NegotiationEvent → String) (later : Store) (p : Persisted) : Prop :=
  Paging.failing Message.createdAt (later.ofTrade p.tradeId)
    (fun m => decide (m = p.message stringify)) (p.message stringify) < 100

variable {stringify : NegotiationEvent → String} {later : Store} {events : List Persisted}
  {localUserId remoteUserId : String}

/-- The stored events are appended to the messages. -/
theorem persistAll_messages (h : persistAll stringify store events = some later) :
    later.messages = store.messages ++ events.map (Persisted.message stringify) := by
  induction events generalizing store with
  | nil =>
    cases h
    simp
  | cons p events ih =>
    rw [persistAll, List.foldlM_cons, persistNegotiationEvent] at h
    split_ifs at h with htaken
    · cases h
    · have hrest := ih h
      rw [hrest, List.map_cons, List.append_assoc]
      rfl

theorem mem_ofTrade (h : persistAll stringify store events = some later) {p : Persisted}
    (hp : p ∈ events) : p.message stringify ∈ later.ofTrade p.tradeId := by
  refine List.mem_filter.mpr ⟨?_, decide_eq_true rfl⟩
  rw [persistAll_messages h]
  exact List.mem_append_right _ (List.mem_map_of_mem hp)

/-- When no call fails, the results are those of the calls. -/
theorem mapM_ok {ε α β : Type} {f : α → Except ε β} {l : List α}
    (h : ∀ x ∈ l, ∃ r, f x = .ok r) :
    ∃ rs, l.mapM f = .ok rs ∧ (∀ x ∈ l, ∃ r ∈ rs, f x = .ok r) ∧
      ∀ r ∈ rs, ∃ x ∈ l, f x = .ok r := by
  induction l with
  | nil => exact ⟨[], rfl, nofun, nofun⟩
  | cons x l ih =>
    obtain ⟨r, hr⟩ := h x List.mem_cons_self
    obtain ⟨rs, hrs, hall, honly⟩ := ih fun y hy => h y (List.mem_cons_of_mem _ hy)
    refine ⟨r :: rs, ?_, fun y hy => ?_, fun r' hr' => ?_⟩
    · rw [List.mapM_cons, hr, hrs]
      rfl
    · rcases List.mem_cons.mp hy with rfl | hy
      · exact ⟨r, List.mem_cons_self, hr⟩
      · obtain ⟨r', hmem, hr'⟩ := hall y hy
        exact ⟨r', List.mem_cons_of_mem _ hmem, hr'⟩
    · rcases List.mem_cons.mp hr' with rfl | hr'
      · exact ⟨x, List.mem_cons_self, hr⟩
      · obtain ⟨y, hy, hfy⟩ := honly r' hr'
        exact ⟨y, List.mem_cons_of_mem _ hy, hfy⟩

theorem reconcileTrade_active (reading : Reading store) {tradeId : String}
    (h : tradeId ∈ store.findActiveTradeIdsBetween localUserId remoteUserId) :
    ∃ result, reconcileTrade reading tradeId none = .ok result := by
  obtain ⟨trade, htrade, rfl⟩ := List.mem_map.mp h
  obtain ⟨found, hfind⟩ := find_of_mem (List.mem_of_mem_filter htrade)
  rw [reconcileTrade, hfind]
  exact ⟨_, rfl⟩

/-- A result is about its trade and holds the first rows of the answer. -/
theorem reconcileTrade_ok {reading : Reading store} {tradeId : String} {since : Option ℤ}
    {result : ReconciliationResult} (h : reconcileTrade reading tradeId since = .ok result) :
    result.tradeId = tradeId ∧
      result.missedMessages = ((reading.answer tradeId since).take 100).map toMissedMessage := by
  rw [reconcileTrade] at h
  split at h
  · cases h
  · cases h
    exact ⟨rfl, rfl⟩

theorem reconcilePeerPair_ok (reading : Reading store) (localUserId remoteUserId : String) :
    ∃ results, reconcilePeerPair reading localUserId remoteUserId = .ok results ∧
      (∀ tradeId ∈ store.findActiveTradeIdsBetween localUserId remoteUserId,
        ∃ result ∈ results, reconcileTrade reading tradeId none = .ok result) ∧
      ∀ result ∈ results, ∃ tradeId ∈ store.findActiveTradeIdsBetween localUserId remoteUserId,
        reconcileTrade reading tradeId none = .ok result :=
  mapM_ok fun _ h => reconcileTrade_active reading h

/-- A request of which one query answers in the given order. -/
def Reading.of {tradeId : String} (answer : List Message)
    (h : Arranges Message.createdAt (store.ofTrade tradeId) answer) : Reading store where
  answer tradeId' since :=
    if tradeId' = tradeId ∧ since = none then answer
    else (Reading.sorted store).answer tradeId' since
  arranges tradeId' since := by
    split_ifs with heq
    · obtain ⟨rfl, rfl⟩ := heq
      exact h
    · exact (Reading.sorted store).arranges tradeId' since

theorem pairReconciled_iff :
    PairReconciled stringify store localUserId remoteUserId events ↔
      ∀ later, persistAll stringify store events = some later → ∀ p ∈ events,
        p.tradeId ∈ later.findActiveTradeIdsBetween localUserId remoteUserId →
        AmongFirst stringify later p := by
  constructor
  · intro h later hlater p hp hactive
    by_contra hmany
    rw [AmongFirst, not_lt] at hmany
    -- the event comes last among the messages of its timestamp
    obtain ⟨a, ha, hfind⟩ : ∃ a, Arranges Message.createdAt (later.ofTrade p.tradeId) a ∧
        (a.take 100).find? (fun m => decide (m = p.message stringify)) = none :=
      exists_find_none fun y _ hy => by
        rw [of_decide_eq_true hy]
        exact hmany
    obtain ⟨results, hresults, hall⟩ := h later hlater (Reading.of a ha)
    obtain ⟨result, hresult, hid, hmem⟩ := hall p hp hactive
    obtain ⟨results', hresults', -, honly⟩ := reconcilePeerPair_ok (Reading.of a ha)
      localUserId remoteUserId
    obtain rfl : results' = results := Except.ok.inj (hresults'.symm.trans hresults)
    obtain ⟨tradeId, -, htrade⟩ := honly result hresult
    obtain ⟨hid', hmissed⟩ := reconcileTrade_ok htrade
    obtain rfl : tradeId = p.tradeId := hid'.symm.trans hid
    have hanswer : (Reading.of a ha).answer p.tradeId none = a := if_pos ⟨rfl, rfl⟩
    rw [hmissed, hanswer] at hmem
    obtain ⟨m, hm, heq⟩ := List.mem_map.mp hmem
    have hrow : m ∈ later.ofTrade p.tradeId := ha.perm.mem_iff.mp (List.mem_of_mem_take hm)
    have hsame : m = p.message stringify := List.inj_on_of_nodup_map later.nodup_ids
      (List.mem_of_mem_filter hrow) (List.mem_of_mem_filter (mem_ofTrade hlater hp))
      (congrArg MissedMessage.id heq)
    exact List.find?_eq_none.mp hfind m hm (decide_eq_true hsame)
  · intro h later hlater reading
    obtain ⟨results, hresults, hall, -⟩ := reconcilePeerPair_ok reading localUserId
      remoteUserId
    refine ⟨results, hresults, fun p hp hactive => ?_⟩
    obtain ⟨result, hresult, hok⟩ := hall p.tradeId hactive
    obtain ⟨hid, hmissed⟩ := reconcileTrade_ok hok
    refine ⟨result, hresult, hid, ?_⟩
    rw [hmissed]
    have ha := reading.arranges p.tradeId none
    obtain ⟨m, hfind⟩ := exists_find_of_few (p := fun m => decide (m = p.message stringify)) ha
      (mem_ofTrade hlater hp) (decide_eq_true rfl) (h later hlater p hp hactive)
    obtain rfl : m = p.message stringify := by
      have htest := List.find?_some hfind
      exact of_decide_eq_true htest
    exact List.mem_map_of_mem (List.mem_of_find?_eq_some hfind)

/-- A client that resumes misses nothing exactly when no hundredth message behind its cursor
is followed by another of its timestamp, and a pair that reconnects gets the events
persisted meanwhile exactly when each is among the first hundred of its trade. -/
theorem catch_up (stringify : NegotiationEvent → String) (store : Store) :
    (∀ trade ∈ store.trades, ∀ since, CatchesUp store trade.id since ↔
      ∀ j, ¬ Splits Message.createdAt
        (behind Message.createdAt since (store.ofTrade trade.id)) (j * 100)) ∧
    ∀ localUserId remoteUserId events,
      PairReconciled stringify store localUserId remoteUserId events ↔
        ∀ later, persistAll stringify store events = some later → ∀ p ∈ events,
          p.tradeId ∈ later.findActiveTradeIdsBetween localUserId remoteUserId →
          AmongFirst stringify later p :=
  ⟨fun _ h since => catchesUp_iff h since, fun _ _ _ => pairReconciled_iff⟩

/-- Message `n` of many of one instant. -/
def crowdedMessage (n : ℕ) : Message :=
  ⟨String.ofList (List.replicate n 'a'), "trade", "alice", "hello", "TEXT", 0⟩

/-- A trade of the sample. -/
def crowdedTrade : TradeRow := ⟨"trade", "alice", "bob", .ACTIVE, none⟩

/-- A trade with 101 messages of one instant. -/
def crowdedStore : Store where
  trades := [crowdedTrade]
  messages := (List.range 101).map crowdedMessage
  nodup_ids := by
    rw [List.map_map]
    refine List.nodup_range.map fun m n h => ?_
    have := congrArg List.length (String.ofList_injective h)
    simpa using this

/-- A message of the next millisecond. -/
def lateEvent : Persisted := ⟨"trade", "alice", .MESSAGE_EXCHANGED "alice" "bye" "1", "b", 1⟩

/-- The 101st message of the instant is skipped, and the late one is not returned. -/
theorem crowded_trade_missed :
    ¬ CatchesUp crowdedStore "trade" none ∧
      ¬ PairReconciled (fun _ => "") crowdedStore "alice" "bob" [lateEvent] := by
  have hmessages : crowdedStore.ofTrade "trade" = (List.range 101).map crowdedMessage := by
    refine List.filter_eq_self.mpr fun m hm => ?_
    obtain ⟨n, -, rfl⟩ := List.mem_map.mp hm
    rfl
  constructor
  · intro h
    have hsplit := (@catchesUp_iff crowdedStore crowdedTrade List.mem_cons_self none).mp h 1
    have hbehind : behind Message.createdAt none (crowdedStore.ofTrade crowdedTrade.id)
        = (List.range 101).map crowdedMessage := hmessages
    rw [hbehind] at hsplit
    refine hsplit ⟨crowdedMessage 0, List.mem_map_of_mem (by decide), ?_, ?_⟩
    · rw [List.countP_map, List.countP_eq_zero.mpr fun n _ => by simp [crowdedMessage]]
      decide
    · rw [List.countP_map, List.countP_eq_length.mpr fun n _ => by simp [crowdedMessage],
        List.length_range]
      decide
  · intro h
    have hfresh : lateEvent.id ∉ crowdedStore.messages.map Message.id := by
      rw [crowdedStore, List.map_map]
      intro hmem
      obtain ⟨n, -, hn⟩ := List.mem_map.mp hmem
      have := String.ofList_injective hn
      cases n <;> simp [List.replicate] at this
    obtain ⟨later, hpersist, htrades, hlate⟩ :=
      @persistNegotiationEvent_fresh (fun _ => "") _ _ hfresh
    have hlater : persistAll (fun _ => "") crowdedStore [lateEvent] = some later := by
      rw [persistAll, List.foldlM_cons, hpersist]
      rfl
    have hactive : "trade" ∈ later.findActiveTradeIdsBetween "alice" "bob" := by
      rw [Store.findActiveTradeIdsBetween, htrades]
      decide
    have hfirst := pairReconciled_iff.mp h later hlater lateEvent List.mem_cons_self hactive
    have hofTrade : later.ofTrade "trade"
        = (List.range 101).map crowdedMessage ++ [lateEvent.message fun _ => ""] := by
      rw [Store.ofTrade, hlate, List.filter_append]
      exact congrArg₂ _ hmessages rfl
    have hmany := @length_le_failing _ _ _ Message.createdAt
      ((List.range 101).map crowdedMessage ++ [lateEvent.message fun _ => ""])
      (fun m => decide (m = lateEvent.message fun _ => "")) _ (lateEvent.message fun _ => "")
      (List.sublist_append_left _ _) fun m hm => by
        obtain ⟨n, -, rfl⟩ := List.mem_map.mp hm
        have hearly : (crowdedMessage n).createdAt < (lateEvent.message fun _ => "").createdAt :=
          Int.zero_lt_one
        exact ⟨decide_eq_false fun heq => hearly.ne (congrArg Message.createdAt heq), hearly.le⟩
    rw [List.length_map, List.length_range, ← hofTrade] at hmany
    exact absurd hfirst (not_lt.mpr (le_trans (by decide) hmany))

end Sails.Negotiation
