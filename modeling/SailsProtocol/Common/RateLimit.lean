import Mathlib.Data.Finset.Card
import Mathlib.Order.Interval.Finset.Nat
import SailsProtocol.Async.Pool

/-!
# The shared rate limit

`sharedRateLimitPreHandler` of `common/middleware/redis-rate-limit.ts` counts a request with
`INCR`, gives the key its expiry with `PEXPIRE` when the count is one, and rejects a request
whose count is above `max`. The store is the key of one prefix, route and address; its
`epoch` is the number of times the key expired.

In every run, each epoch admits `max` requests at most (`admitted_le`). A key without an
expiry lets no one go : it is one whose creator is about to ask for the expiry, as long as
nothing comes between the creator's two commands (`rate_limit_lets_go`).
-/

namespace Sails.RateLimit

open Async

/-! ## The handler -/

/-- `SharedRateLimitOptions`, for one `keyPrefix`. -/
structure SharedRateLimitOptions where
  max : ℕ
  windowMs : ℕ

/-- What the handler throws. -/
inductive RateError where
  | fault
  | rateLimitUnavailable
  | rateLimitExceeded (retryAfterSeconds : ℕ)
  deriving DecidableEq, Repr

/-- The commands, and the passing of time. -/
inductive Call where
  | incr
  | pexpire (ms : ℕ)
  | pttl
  | elapse (ms : ℕ)
  deriving DecidableEq

/-- What each call returns. -/
abbrev Answer : Call → Type
  | .incr => ℕ
  | .pexpire _ => ℕ
  | .pttl => ℤ
  | .elapse _ => Unit

/-- A program over these calls. -/
abbrev RateOp := Prog Answer RateError

/-- One call, as a program. -/
def await (q : Call) : RateOp (Answer q) := Prog.perform q

/-- `Math.ceil(ms / 1000)`. -/
def ceilSeconds (ms : ℕ) : ℕ := (ms + 999) / 1000

variable (opts : SharedRateLimitOptions)

/-- The counting of the request : only the request that creates the key sets its expiry. -/
def countHit : RateOp ℕ := do
  let count ← await .incr
  if count = 1 then do
    let _ ← await (.pexpire opts.windowMs)
    pure count
  else pure count

/-- What the rejected request is told. -/
def retryAfterSeconds : RateOp ℕ :=
  Prog.tryCatch (do
      let ttlMs ← await .pttl
      pure (if 0 < ttlMs then ceilSeconds ttlMs.toNat else ceilSeconds opts.windowMs))
    fun _ => pure (ceilSeconds opts.windowMs)

/-- The end of the handler, for a request that is counted. -/
def checkCount (count : ℕ) : RateOp Unit :=
  if opts.max < count then do
    let seconds ← retryAfterSeconds opts
    throw (.rateLimitExceeded seconds)
  else pure ()

/-- `sharedRateLimitPreHandler`. -/
def sharedRateLimitPreHandler : RateOp Unit := do
  let count ← Prog.tryCatch (countHit opts) fun _ => throw .rateLimitUnavailable
  checkCount opts count

/-! ## The key -/

/-- A counter and the time it expires at, if one was set. -/
structure Entry where
  count : ℕ
  expiresAt : Option ℕ
  deriving DecidableEq

/-- The key at the time `now`, after `epoch` expiries. -/
structure Redis where
  now : ℕ
  key : Option Entry
  epoch : ℕ
  deriving DecidableEq

/-- The key is gone once its expiry is reached. -/
def Redis.expire (s : Redis) : Redis :=
  match s.key with
  | some ⟨_, some e⟩ => if e ≤ s.now then { s with key := none, epoch := s.epoch + 1 } else s
  | _ => s

/-- Time passes, and an expired counter goes. -/
def Redis.elapse (s : Redis) (ms : ℕ) : Redis :=
  { s with now := s.now + ms }.expire

/-- `PTTL` : `-2` without a key and `-1` without an expiry. -/
def Redis.pttl (s : Redis) : ℤ :=
  match s.key with
  | none => -2
  | some ⟨_, none⟩ => -1
  | some ⟨_, some e⟩ => e - s.now

/-- What a call answers and does to the counter when it does not fail. -/
def Call.run : (q : Call) → Redis → Answer q × Redis
  | .incr, s =>
    match s.key with
    | none => (1, { s with key := some ⟨1, none⟩ })
    | some k => (k.count + 1, { s with key := some { k with count := k.count + 1 } })
  | .pexpire ms, s =>
    match s.key with
    | none => (0, s)
    | some k => (1, { s with key := some { k with expiresAt := some (s.now + ms) } }.expire)
  | .pttl, s => (s.pttl, s)
  | .elapse ms, s => ((), s.elapse ms)

/-- The answer to a command. Time passes whatever the fate. -/
def Call.exec : (q : Call) → Fate → Redis → Except RateError (Answer q) × Redis
  | .elapse ms, _, s => (.ok (), s.elapse ms)
  | q, fate, s => fate.settle .fault (.ok (q.run s).1, (q.run s).2) s

/-! ## Requests of one key -/

/-- A request on some instance, or the passing of time. -/
inductive Arrival where
  | request
  | elapse (ms : ℕ)
  deriving DecidableEq

/-- The handler of a request, or the passing of time. -/
def Arrival.prog : Arrival → RateOp Unit
  | .request => sharedRateLimitPreHandler opts
  | .elapse ms => await (.elapse ms)

/-- What a call tells about the counter. -/
inductive Seen where
  | hit (epoch count : ℕ)
  | asked
  deriving DecidableEq

/-- What is observed of a command : the count in its epoch, and that an expiry was asked. -/
def observe : (q : Call) → Redis → Except RateError (Answer q) → List Seen
  | .incr, s, .ok count => [.hit s.epoch count]
  | .pexpire _, _, _ => [.asked]
  | _, _, _ => []

/-- Any number of server processes in front of one counter. -/
abbrev instances : System Answer RateError Unit Redis Fate Arrival Seen where
  exec := Call.exec
  observe := observe
  prog := Arrival.prog opts

/-- The counter and the requests to it. -/
abbrev Servers := Config Answer RateError Unit Redis Arrival Seen

/-- Before any request. -/
def fresh : Servers := Config.init ⟨0, none, 0⟩

/-- The request that created the key is not over. -/
def Creating (c : Servers) (i : ℕ) : Prop :=
  c.next i ≠ none ∧ .hit c.store.epoch 1 ∈ c.own i

/-- Request `i` was admitted, counted in the epoch `e`. -/
def admits (c : Servers) (e i : ℕ) : Bool :=
  match c.threads[i]? with
  | some ⟨.request, .ret (.ok _), _⟩ => (c.own i).any fun o =>
      match o with
      | .hit epoch _ => epoch = e
      | .asked => false
  | _ => false

/-- The requests admitted in an epoch. -/
def admitted (c : Servers) (e : ℕ) : Finset ℕ :=
  (Finset.range c.threads.length).filter fun i => admits c e i = true

/-- Every admitted request is counted in an epoch, and an epoch has `max` of them at most. -/
structure Bounded (c : Servers) : Prop where
  counted : ∀ i live, c.threads[i]? = some ⟨.request, .ret (.ok ()), live⟩ →
    ∃ e, i ∈ admitted c e
  atMost : ∀ e, (admitted c e).card ≤ opts.max

/-- The key expires in time once its creator is over, and after a silence of the length of
the window a request that is answered is admitted. -/
structure LetsGo (c : Servers) : Prop where
  expires : ∀ k, c.store.key = some k →
    (∃ e, k.expiresAt = some e ∧ e ≤ c.store.now + opts.windowMs) ∨ ∃ i, Creating c i
  admitsAgain : c.quiescent = true → ∀ ms, opts.windowMs ≤ ms →
    ((sharedRateLimitPreHandler opts).runAlone (fun q s => q.exec .answered s)
      (c.store.elapse ms)).1 = .ok ()

/-- Nothing comes between the creator's two commands : the answer to an `INCR` that creates
the key is not lost, a `PEXPIRE` does not fail without effect, and no instance crashes
before it sends one. -/
def Uninterrupted (c : Servers) : Action Fate Arrival → Prop
  | .start _ => True
  | .run i fate => (c.next i = some .incr → c.store.key = none → fate ≠ .lost)
      ∧ (c.next i = some (.pexpire opts.windowMs) → fate ≠ .failed)
  | .crash i => c.next i ≠ some (.pexpire opts.windowMs)

instance (c : Servers) : ∀ a, Decidable (Uninterrupted opts c a)
  | .start _ => inferInstanceAs (Decidable True)
  | .run i fate => inferInstanceAs (Decidable ((c.next i = some .incr → c.store.key = none →
      fate ≠ .lost) ∧ (c.next i = some (.pexpire opts.windowMs) → fate ≠ .failed)))
  | .crash i => inferInstanceAs (Decidable (c.next i ≠ some (.pexpire opts.windowMs)))

/-! ## The commands of a request -/

/-- Whoever saw the count one asked for the expiry. -/
def Asked (log : List Seen) : Prop :=
  ∀ e, .hit e 1 ∈ log → .asked ∈ log

/-- When each command is sent. -/
def Allowed : Arrival → List Seen → Call → Prop
  | .request, log, .incr => log = []
  | .request, log, .pexpire ms => ms = opts.windowMs ∧ ∃ e, log = [.hit e 1]
  | .request, log, .pttl => Asked log
  | .elapse ms, _, q => q = .elapse ms
  | .request, _, .elapse _ => False

/-- The request was counted, and no higher than `max`. -/
def Within (log : List Seen) : Prop :=
  (∃ e n, .hit e n ∈ log) ∧ ∀ e n, .hit e n ∈ log → n ≤ opts.max

/-- A request that is over asked for the expiry if it was the first, and it was admitted only
with a count up to `max`. -/
def Over : Arrival → List Seen → Except RateError Unit → Prop
  | .request, log, r => Asked log ∧ (r = .ok () → Within opts log)
  | .elapse _, _, _ => True

section Guards

variable {opts}
variable {can : ∀ q : Call, Redis → Except RateError (Answer q) → Prop}

theorem asked_cons (log : List Seen) : Asked (.asked :: log) :=
  fun _ _ => List.mem_cons_self

theorem asked_of_ne {e n : ℕ} (hn : n ≠ 1) : Asked [.hit e n] := by
  intro e' he
  simp at he
  exact absurd he.2.symm hn

theorem retryAfterSeconds_guarded {log : List Seen} (hlog : Asked log) :
    (retryAfterSeconds opts).Guarded can observe (Allowed opts .request)
      (fun log' _ => Asked log') log := by
  refine (Prog.guarded_tryCatch _ _ _).mpr ((Prog.guarded_bind _ _ _).mpr ⟨hlog, fun s r _ => ?_⟩)
  cases r with
  | ok ttlMs => exact hlog
  | error e => exact hlog

/-- A request is let through below the limit only. -/
theorem checkCount_guarded {e count : ℕ} {log : List Seen} (hlog : Asked log)
    (hmem : .hit e count ∈ log) (hcount : ∀ e' n, .hit e' n ∈ log → n = count) :
    (checkCount opts count).Guarded can observe (Allowed opts .request) (Over opts .request)
      log := by
  refine (Prog.guarded_ite _ _ _).mpr ⟨fun _ => ?_, fun hle =>
    ⟨hlog, fun _ => ⟨⟨e, count, hmem⟩, fun e' n hn => ?_⟩⟩⟩
  · refine (Prog.guarded_bind _ _ _).mpr
      ((retryAfterSeconds_guarded hlog).mono fun log' r hlog' => ?_)
    cases r with
    | ok seconds => exact ⟨hlog', nofun⟩
    | error err => exact ⟨hlog', nofun⟩
  · rw [hcount e' n hn]
    exact Nat.le_of_not_lt hle

/-- The handler meets its guards. -/
theorem handler_guarded :
    (sharedRateLimitPreHandler opts).Guarded can observe (Allowed opts .request)
      (Over opts .request) [] := by
  refine (Prog.guarded_bind _ _ _).mpr ((Prog.guarded_tryCatch _ _ _).mpr
    ((Prog.guarded_bind _ _ _).mpr ⟨rfl, fun s r _ => ?_⟩))
  cases r with
  | error err => exact ⟨nofun, nofun⟩
  | ok count =>
    have hhit : ∀ e' n, Seen.hit e' n ∈ [Seen.hit s.epoch count] → n = count := by
      intro e' n hmem
      simp at hmem
      exact hmem.2
    refine (Prog.guarded_ite _ _ _).mpr ⟨fun hone => ?_, fun hne => ?_⟩
    · subst hone
      refine (Prog.guarded_bind _ _ _).mpr ⟨⟨rfl, s.epoch, rfl⟩, fun s' r _ => ?_⟩
      cases r with
      | error err => exact ⟨asked_cons _, nofun⟩
      | ok _ =>
        refine checkCount_guarded (asked_cons _)
          (List.mem_cons_of_mem Seen.asked List.mem_cons_self) fun e' n hmem => ?_
        exact hhit e' n (by simpa [observe] using hmem)
    · exact checkCount_guarded (asked_of_ne hne) List.mem_cons_self hhit

theorem prog_guarded (req : Arrival) :
    (req.prog opts).Guarded can observe (Allowed opts req) (Over opts req) [] := by
  cases req with
  | request => exact handler_guarded
  | elapse ms => exact ⟨rfl, fun _ _ _ => trivial⟩

end Guards

/-! ## The counts of an epoch -/

section Counts

variable {opts}
variable {c : Servers} {i : ℕ} {fate : Fate} {req : Arrival}

/-- The counts of an epoch are positive, up to the count of the key, and each is given once. -/
structure Counted (c : Servers) : Prop where
  past : ∀ {i e n : ℕ}, .hit e n ∈ c.own i → 1 ≤ n ∧ e ≤ c.store.epoch
  within : ∀ {i n : ℕ}, .hit c.store.epoch n ∈ c.own i →
    ∃ k, c.store.key = some k ∧ n ≤ k.count
  unique : ∀ {i j e n : ℕ}, .hit e n ∈ c.own i → .hit e n ∈ c.own j → i = j

theorem counted_init (s : Redis) : Counted (Config.init s) :=
  ⟨nofun, nofun, nofun⟩

/-- The counter stays, or it expires and a new window begins. -/
theorem expire_cases (s : Redis) :
    s.expire = s ∨ s.expire = { s with key := none, epoch := s.epoch + 1 } := by
  obtain ⟨now, _ | ⟨count, _ | e⟩, epoch⟩ := s
  · exact Or.inl rfl
  · exact Or.inl rfl
  · unfold Redis.expire
    dsimp only
    split
    · exact Or.inr rfl
    · exact Or.inl rfl

/-- What is counted stays so when the key keeps its count or expires. -/
theorem Counted.keep {c c' : Servers} (h : Counted c) (s : Redis)
    (hepoch : s.epoch = c.store.epoch)
    (hkey : ∀ k, c.store.key = some k → ∃ k', s.key = some k' ∧ k'.count = k.count)
    (hstore : c'.store = s ∨ c'.store = s.expire)
    (hhit : ∀ {i e n : ℕ}, .hit e n ∈ c'.own i → .hit e n ∈ c.own i) : Counted c' := by
  have hcases : c'.store = s ∨ c'.store = { s with key := none, epoch := s.epoch + 1 } := by
    rcases hstore with heq | heq
    · exact Or.inl heq
    · rw [heq]
      exact expire_cases s
  refine ⟨fun {i e n} hn => ?_, fun {i n} hn => ?_, fun hi hj => h.unique (hhit hi) (hhit hj)⟩
  · obtain ⟨hpos, hpast⟩ := h.past (hhit hn)
    rcases hcases with heq | heq <;> rw [heq]
    · exact ⟨hpos, by omega⟩
    · exact ⟨hpos, by dsimp only; omega⟩
  · rcases hcases with heq | heq <;> rw [heq] at hn ⊢
    · rw [hepoch] at hn
      obtain ⟨k, hk, hle⟩ := h.within (hhit hn)
      obtain ⟨k', hk', hcount⟩ := hkey k hk
      exact ⟨k', hk', by omega⟩
    · have := (h.past (hhit hn)).2
      dsimp only at this
      omega

/-- What `INCR` does : the count is the key's, one more than before, and the expiry stays. -/
theorem incr_run (s : Redis) : ∃ k, Call.incr.run s = (k.count, { s with key := some k }) ∧
    1 ≤ k.count ∧ (∀ k', s.key = some k' → k'.count < k.count ∧ k.expiresAt = k'.expiresAt) ∧
    (s.key = none → k = ⟨1, none⟩) := by
  cases hkey : s.key with
  | none =>
    refine ⟨⟨1, none⟩, by simp [Call.run, hkey], le_rfl, nofun, fun _ => rfl⟩
  | some k =>
    refine ⟨⟨k.count + 1, k.expiresAt⟩, by simp [Call.run, hkey], by simp, ?_, nofun⟩
    rintro k' ⟨⟩
    exact ⟨Nat.lt_succ_self _, rfl⟩

/-- A counted request raises the count of the key by one. -/
theorem Counted.incr {k : Except RateError ℕ → RateOp Unit} (h : Counted c) (fate : Fate)
    (req : Arrival) : Counted (c.answer (instances opts) i fate req .incr k) := by
  obtain ⟨key, hrun, hpos, hmore, -⟩ := incr_run c.store
  have hexec : Call.incr.exec fate c.store
      = fate.settle .fault (.ok (Call.incr.run c.store).1, (Call.incr.run c.store).2) c.store := rfl
  rw [hrun] at hexec
  have hfresh : ∀ {j n : ℕ}, .hit c.store.epoch n ∈ c.own j → n < key.count := by
    intro j n hn
    obtain ⟨k', hk', hle⟩ := h.within hn
    exact Nat.lt_of_le_of_lt hle (hmore k' hk').1
  have hhit : ∀ {j e n : ℕ}, .hit e n ∈ (c.answer (instances opts) i fate req .incr k).own j →
      (j = i ∧ e = c.store.epoch ∧ n = key.count ∧ fate = .answered) ∨ .hit e n ∈ c.own j := by
    intro j e n hn
    rcases Config.mem_own_of_answer hn with ⟨rfl, ho⟩ | ho
    · refine Or.inl ⟨rfl, ?_⟩
      cases fate <;> simp [hexec, Fate.settle, observe] at ho
      exact ⟨ho.1, ho.2, rfl⟩
    · exact Or.inr ho
  have hstore : (c.answer (instances opts) i fate req .incr k).store
      = (Call.incr.exec fate c.store).2 := rfl
  rw [hexec] at hstore
  refine ⟨fun {j e n} hn => ?_, fun {j n} hn => ?_, fun {j j' e n} hj hj' => ?_⟩
  · have hepoch : (c.answer (instances opts) i fate req .incr k).store.epoch = c.store.epoch := by
      rw [hstore]
      cases fate <;> rfl
    rw [hepoch]
    rcases hhit hn with ⟨-, rfl, rfl, -⟩ | ho
    · exact ⟨hpos, le_rfl⟩
    · exact h.past ho
  · rw [hstore] at hn ⊢
    cases fate with
    | answered =>
      refine ⟨key, rfl, ?_⟩
      rcases hhit hn with ⟨-, -, rfl, -⟩ | ho
      · exact le_rfl
      · exact (hfresh ho).le
    | failed =>
      rcases hhit hn with ⟨-, -, -, hfate⟩ | ho
      · cases hfate
      · exact h.within ho
    | lost =>
      refine ⟨key, rfl, ?_⟩
      rcases hhit hn with ⟨-, -, -, hfate⟩ | ho
      · cases hfate
      · exact (hfresh ho).le
  · rcases hhit hj with ⟨rfl, rfl, rfl, -⟩ | ho <;> rcases hhit hj' with ⟨rfl, heq, hcount, -⟩ | ho'
    · rfl
    · exact absurd (hfresh ho') (Nat.lt_irrefl _)
    · subst heq hcount
      exact absurd (hfresh ho) (Nat.lt_irrefl _)
    · exact h.unique ho ho'

/-- A command that counts nothing adds no hit. -/
theorem hit_of_answer {q : Call} {k : Except RateError (Answer q) → RateOp Unit}
    (hq : q ≠ .incr) {j e n : ℕ}
    (hn : .hit e n ∈ (c.answer (instances opts) i fate req q k).own j) : .hit e n ∈ c.own j := by
  rcases Config.mem_own_of_answer hn with ⟨-, ho⟩ | ho
  · cases q with
    | incr => exact absurd rfl hq
    | pexpire ms => simp [observe] at ho
    | pttl => simp [observe] at ho
    | elapse ms => simp [observe] at ho
  · exact ho

/-- A call keeps the count. -/
theorem Counted.answer {q : Call} {k : Except RateError (Answer q) → RateOp Unit} (h : Counted c)
    (fate : Fate) (req : Arrival) : Counted (c.answer (instances opts) i fate req q k) := by
  have hsame : ∀ k', c.store.key = some k' → ∃ k'', c.store.key = some k'' ∧ k''.count = k'.count :=
    fun k' hk' => ⟨k', hk', rfl⟩
  cases q with
  | incr => exact h.incr fate req
  | pttl =>
    refine h.keep c.store rfl hsame (Or.inl ?_) (hit_of_answer (by nofun))
    rcases fate.settle_store RateError.fault (.ok c.store.pttl, c.store) c.store with heq | heq <;>
      exact heq
  | elapse ms =>
    exact h.keep { c.store with now := c.store.now + ms } rfl hsame (Or.inr rfl)
      (hit_of_answer (by nofun))
  | pexpire ms =>
    have hhit : ∀ {j e n : ℕ},
        .hit e n ∈ (c.answer (instances opts) i fate req (.pexpire ms) k).own j →
          .hit e n ∈ c.own j :=
      hit_of_answer (by nofun)
    rcases fate.settle_store RateError.fault
      (.ok ((Call.pexpire ms).run c.store).1, ((Call.pexpire ms).run c.store).2) c.store with
      heq | heq
    · exact h.keep c.store rfl hsame (Or.inl heq) hhit
    · cases hkey : c.store.key with
      | none =>
        refine h.keep c.store rfl hsame (Or.inl (heq.trans ?_)) hhit
        simp [Call.run, hkey]
      | some k' =>
        refine h.keep { c.store with key := some { k' with expiresAt := some (c.store.now + ms) } }
          rfl ?_ (Or.inr (heq.trans ?_)) hhit
        · rintro k'' hk''
          obtain rfl := Option.some.inj (hkey.symm.trans hk'')
          exact ⟨_, rfl, rfl⟩
        · simp [Call.run, hkey]

/-- A step keeps the count. -/
theorem Counted.step (h : Counted c) (a : Action Fate Arrival) :
    Counted (c.step (instances opts) a) := by
  rcases Config.step_cases (S := instances opts) (c := c) a with heq | ⟨req, -, heq⟩ |
    ⟨i, fate, req, q, k, -, -, heq⟩ | ⟨i, t, -, -, heq⟩ <;> rw [heq]
  · exact h
  · exact ⟨h.past, h.within, h.unique⟩
  · exact h.answer fate req
  · exact ⟨h.past, h.within, h.unique⟩

end Counts

/-! ## The expiry of the key -/

section Expiry

variable {opts}
variable {c : Servers} {i : ℕ} {fate : Fate} {req : Arrival}

/-- The key expires within a window, or its creator asks for the expiry next. -/
structure Windowed (opts : SharedRateLimitOptions) (c : Servers) : Prop where
  expiry : ∀ {k : Entry} {e : ℕ}, c.store.key = some k → k.expiresAt = some e →
    e ≤ c.store.now + opts.windowMs
  creator : ∀ {k : Entry}, c.store.key = some k → k.expiresAt = none →
    ∃ i, c.next i = some (.pexpire opts.windowMs) ∧ .hit c.store.epoch 1 ∈ c.own i

theorem windowed_init (now epoch : ℕ) : Windowed opts (Config.init ⟨now, none, epoch⟩) :=
  ⟨nofun, nofun⟩

/-- Every request is guarded at its own log. -/
abbrev Reached (opts : SharedRateLimitOptions) (c : Servers) : Prop :=
  Config.Conforms (instances opts) (fun _ => True) (Allowed opts) (Over opts) c

/-- A new request keeps the window. -/
theorem Windowed.spawn (h : Windowed opts c) (req : Arrival) :
    Windowed opts (c.spawn (instances opts) req) := by
  refine ⟨h.expiry, fun hk hnone => ?_⟩
  obtain ⟨i, hnext, hhit⟩ := h.creator hk hnone
  have hi : i ≠ c.threads.length := by
    rintro rfl
    rw [Config.next_length le_rfl] at hnext
    cases hnext
  exact ⟨i, (Config.next_spawn_of_ne hi req).trans hnext, hhit⟩

/-- A crash keeps the window unless it interrupts the first hit. -/
theorem Windowed.kill {t : Thread Answer RateError Unit Arrival} (h : Windowed opts c)
    (hi : Uninterrupted opts c (.crash i)) : Windowed opts (c.kill i t) := by
  refine ⟨h.expiry, fun hk hnone => ?_⟩
  obtain ⟨j, hnext, hhit⟩ := h.creator hk hnone
  have hj : j ≠ i := by
    rintro rfl
    exact hi hnext
  exact ⟨j, (Config.next_kill_of_ne hj t).trans hnext, hhit⟩

/-- A creator that is not the thread of the call stays. -/
theorem Windowed.creator_stays {q : Call} {k : Except RateError (Answer q) → RateOp Unit}
    (h : Windowed opts c) (hq : c.next i = some q) (hne : q ≠ .pexpire opts.windowMs)
    (hepoch : (c.answer (instances opts) i fate req q k).store.epoch = c.store.epoch)
    {key : Entry} (hkey : c.store.key = some key) (hnone : key.expiresAt = none) :
    ∃ j, (c.answer (instances opts) i fate req q k).next j = some (.pexpire opts.windowMs) ∧
      .hit (c.answer (instances opts) i fate req q k).store.epoch 1
        ∈ (c.answer (instances opts) i fate req q k).own j := by
  obtain ⟨j, hnext, hhit⟩ := h.creator hkey hnone
  have hj : j ≠ i := by
    rintro rfl
    rw [hq] at hnext
    exact hne (Option.some.inj hnext)
  refine ⟨j, (Config.next_answer_of_ne hj fate req q k).trans hnext, ?_⟩
  rw [hepoch]
  exact Config.mem_own_answer hhit

/-- A request that was counted as the first asks for the expiry next. -/
theorem asks_next {can : ∀ q : Call, Redis → Except RateError (Answer q) → Prop} {e : ℕ}
    {p : RateOp Unit}
    (hp : p.Guarded can observe (Allowed opts .request) (Over opts .request) [.hit e 1]) :
    ∃ k, p = .call (.pexpire opts.windowMs) k := by
  have hnot : ¬ Asked [Seen.hit e 1] := fun h => by simpa using h e List.mem_cons_self
  cases p with
  | ret r => exact absurd hp.1 hnot
  | call q k =>
    have hq := hp.1
    cases q with
    | incr => cases hq
    | pexpire ms =>
      obtain ⟨rfl, -⟩ := hq
      exact ⟨k, rfl⟩
    | pttl => exact absurd hq hnot
    | elapse ms => exact absurd hq id

/-- A hit keeps the window. -/
theorem Windowed.incr {k : Except RateError ℕ → RateOp Unit} (hc : Reached opts c)
    (h : Windowed opts c) (ht : c.threads[i]? = some ⟨req, .call .incr k, true⟩)
    (hfate : Uninterrupted opts c (.run i fate)) :
    Windowed opts (c.answer (instances opts) i fate req .incr k) := by
  have hnext := Config.next_of_call ht
  obtain ⟨key, hrun, -, hmore, hnew⟩ := incr_run c.store
  have hstore : (c.answer (instances opts) i fate req .incr k).store
      = (fate.settle RateError.fault (.ok (Call.incr.run c.store).1, (Call.incr.run c.store).2)
          c.store).2 := rfl
  rw [hrun] at hstore
  have hepoch : (c.answer (instances opts) i fate req .incr k).store.epoch = c.store.epoch := by
    rw [hstore]
    cases fate <;> rfl
  have hnow : (c.answer (instances opts) i fate req .incr k).store.now = c.store.now := by
    rw [hstore]
    cases fate <;> rfl
  have hkey : (c.answer (instances opts) i fate req .incr k).store.key = c.store.key ∨
      fate ≠ .failed ∧ (c.answer (instances opts) i fate req .incr k).store.key = some key := by
    rw [hstore]
    cases fate with
    | answered => exact Or.inr ⟨nofun, rfl⟩
    | failed => exact Or.inl rfl
    | lost => exact Or.inr ⟨nofun, rfl⟩
  refine ⟨fun {k' e} hk' he => ?_, fun {k'} hk' hnone => ?_⟩
  · rw [hnow]
    rcases hkey with heq | ⟨-, heq⟩
    · exact h.expiry (heq.symm.trans hk') he
    · obtain rfl := Option.some.inj (heq.symm.trans hk')
      cases hold : c.store.key with
      | none =>
        rw [hnew hold] at he
        cases he
      | some k₀ => exact h.expiry hold ((hmore k₀ hold).2.symm.trans he)
  · cases hold : c.store.key with
    | some k₀ =>
      refine h.creator_stays hnext nofun hepoch hold ?_
      rcases hkey with heq | ⟨-, heq⟩
      · obtain rfl := Option.some.inj (hold.symm.trans (heq.symm.trans hk'))
        exact hnone
      · obtain rfl := Option.some.inj (heq.symm.trans hk')
        exact (hmore k₀ hold).2.symm.trans hnone
    | none =>
      -- The key is new, so the answer was not lost and the thread asks for the expiry next.
      have hans : fate = .answered := by
        rcases hkey with heq | ⟨hne, -⟩
        · cases hold.symm.trans (heq.symm.trans hk')
        · have hlost := hfate.1 hnext hold
          cases fate
          · rfl
          · exact absurd rfl hne
          · exact absurd rfl hlost
      subst hans
      have hexec : Call.incr.exec .answered c.store
          = (.ok 1, { c.store with key := some ⟨1, none⟩ }) := by
        simp [Call.exec, Fate.settle, Call.run, hold]
      have hguard := (hc.guarded ht).1
      cases req with
      | elapse ms => cases hguard
      | request =>
        have hlog : c.own i = [] := hguard
        have hown := Config.own_answer_self (S := instances opts) (c := c) i .answered
          .request .incr k
        have hrest := (hc.guarded ht).2 c.store _ ⟨trivial, .answered, rfl⟩
        dsimp only at hown hrest
        rw [hexec, hlog] at hown hrest
        obtain ⟨k', hk⟩ := asks_next hrest
        have hthread : (c.answer (instances opts) i .answered .request .incr k).threads[i]?
            = some ⟨.request, .call (.pexpire opts.windowMs) k', true⟩ := by
          have hlt : i < c.threads.length := (List.getElem?_eq_some_iff.mp ht).1
          rw [← hk]
          simp only [Config.answer, List.getElem?_set_self hlt, hexec]
        refine ⟨i, ?_, ?_⟩
        · exact Config.next_of_call hthread
        · rw [hepoch, hown]
          exact List.mem_cons_self

/-- Setting the expiry opens the window. -/
theorem windowed_pexpire {k : Except RateError ℕ → RateOp Unit}
    (hnext : c.next i = some (.pexpire opts.windowMs))
    (hfate : Uninterrupted opts c (.run i fate)) :
    Windowed opts (c.answer (instances opts) i fate req (.pexpire opts.windowMs) k) := by
  have hrun : (c.answer (instances opts) i fate req (.pexpire opts.windowMs) k).store
      = ((Call.pexpire opts.windowMs).run c.store).2 := by
    have hne := hfate.2 hnext
    cases fate
    · rfl
    · exact absurd rfl hne
    · rfl
  cases hkey : c.store.key with
  | none =>
    have hgone : (c.answer (instances opts) i fate req (.pexpire opts.windowMs) k).store.key
        = none := by
      rw [hrun]
      simp [Call.run, hkey]
    exact ⟨fun hk _ => (nomatch hgone.symm.trans hk), fun hk _ => (nomatch hgone.symm.trans hk)⟩
  | some key =>
    have hset : (c.answer (instances opts) i fate req (.pexpire opts.windowMs) k).store
        = { c.store with
            key := some { key with expiresAt := some (c.store.now + opts.windowMs) } }.expire := by
      rw [hrun]
      simp [Call.run, hkey]
    rcases expire_cases { c.store with
      key := some { key with expiresAt := some (c.store.now + opts.windowMs) } } with heq | heq <;>
      rw [heq] at hset
    · refine ⟨fun {k' e} hk' he => ?_, fun {k'} hk' hnone => ?_⟩ <;> rw [hset] at hk' <;>
        obtain rfl := Option.some.inj hk'
      · rw [hset]
        exact (Option.some.inj he).ge
      · cases hnone
    · refine ⟨fun {k' e} hk' _ => ?_, fun {k'} hk' _ => ?_⟩ <;> rw [hset] at hk' <;> cases hk'

/-- Time keeps the window. -/
theorem Windowed.elapse {ms : ℕ} {k : Except RateError Unit → RateOp Unit} (h : Windowed opts c)
    (hnext : c.next i = some (.elapse ms)) :
    Windowed opts (c.answer (instances opts) i fate req (.elapse ms) k) := by
  have hstore : (c.answer (instances opts) i fate req (.elapse ms) k).store
      = { c.store with now := c.store.now + ms }.expire := rfl
  rcases expire_cases { c.store with now := c.store.now + ms } with heq | heq <;>
    rw [heq] at hstore
  · refine ⟨fun {k' e} hk' he => ?_, fun {k'} hk' hnone => ?_⟩ <;> rw [hstore] at hk'
    · have := h.expiry hk' he
      rw [hstore]
      dsimp only
      omega
    · exact h.creator_stays hnext nofun (by rw [hstore]) hk' hnone
  · refine ⟨fun {k' e} hk' _ => ?_, fun {k'} hk' _ => ?_⟩ <;> rw [hstore] at hk' <;> cases hk'

/-- A call keeps the window unless it interrupts the first hit. -/
theorem Windowed.answer {q : Call} {k : Except RateError (Answer q) → RateOp Unit}
    (hc : Reached opts c) (h : Windowed opts c)
    (ht : c.threads[i]? = some ⟨req, .call q k, true⟩)
    (hfate : Uninterrupted opts c (.run i fate)) :
    Windowed opts (c.answer (instances opts) i fate req q k) := by
  have hnext := Config.next_of_call ht
  cases q with
  | incr => exact Windowed.incr hc h ht hfate
  | pexpire ms =>
    have hguard := hc.guard ht
    cases req with
    | elapse ms' => cases hguard
    | request =>
      obtain ⟨rfl, -⟩ := hguard
      exact windowed_pexpire hnext hfate
  | pttl =>
    have hstore : (c.answer (instances opts) i fate req .pttl k).store = c.store := by
      rcases fate.settle_store RateError.fault (.ok c.store.pttl, c.store) c.store with
        heq | heq <;> exact heq
    refine ⟨fun {k' e} hk' he => ?_, fun {k'} hk' hnone => ?_⟩ <;> rw [hstore] at hk'
    · rw [hstore]
      exact h.expiry hk' he
    · exact h.creator_stays hnext nofun (by rw [hstore]) hk' hnone
  | elapse ms => exact Windowed.elapse h hnext

end Expiry

/-! ## Runs -/

section Runs

variable {opts}
variable {c : Servers}

theorem reached_exec (as : List (Action Fate Arrival)) :
    Reached opts (fresh.exec (instances opts) as) ∧ Counted (fresh.exec (instances opts) as) :=
  Config.run_invariant prog_guarded (fun _ _ _ _ => trivial)
    (fun _ h _ => h.step (.start _)) (fun _ h _ _ _ => h.answer _ _)
    (fun _ h _ _ => ⟨h.past, h.within, h.unique⟩) as (Config.conforms_init trivial)
    (counted_init _) (Config.along_true as)

theorem windowed_exec {as : List (Action Fate Arrival)}
    (has : Config.Along (instances opts) (Uninterrupted opts) fresh as) :
    Windowed opts (fresh.exec (instances opts) as) :=
  (Config.run_invariant prog_guarded (fun _ _ _ _ => trivial)
    (fun _ h _ => h.spawn _) (fun hc h hfate ht _ => Windowed.answer hc h ht hfate)
    (fun _ h hi _ => h.kill hi) as (Config.conforms_init trivial) (windowed_init 0 0) has).2

/-- When a request was let through in a window. -/
theorem admits_iff {e i : ℕ} : admits c e i = true ↔
    (∃ live, c.threads[i]? = some ⟨.request, .ret (.ok ()), live⟩) ∧
      ∃ n, .hit e n ∈ c.own i := by
  unfold admits
  split
  · next live ht =>
    rw [ht]
    simp only [List.any_eq_true]
    constructor
    · rintro ⟨o, ho, hmatch⟩
      cases o with
      | asked => cases hmatch
      | hit epoch n =>
        obtain rfl := of_decide_eq_true hmatch
        exact ⟨⟨live, rfl⟩, n, ho⟩
    · rintro ⟨-, n, hn⟩
      exact ⟨_, hn, decide_eq_true rfl⟩
  · next hno =>
    refine ⟨nofun, ?_⟩
    rintro ⟨⟨live, ht⟩, -⟩
    exact absurd ht (hno () live)

/-- An epoch admits `max` requests at most, in every run. -/
theorem admitted_le (hc : Reached opts c) (h : Counted c) (e : ℕ) :
    (admitted c e).card ≤ opts.max := by
  have hhit : ∀ i ∈ admitted c e, ∃ n, .hit e n ∈ c.own i ∧ n ∈ Finset.Icc 1 opts.max := by
    intro i hi
    obtain ⟨⟨live, ht⟩, n, hn⟩ := admits_iff.mp (Finset.mem_filter.mp hi).2
    have hwithin := ((hc.result ht).2 rfl).2 e n hn
    exact ⟨n, hn, Finset.mem_Icc.mpr ⟨(h.past hn).1, hwithin⟩⟩
  choose! count hcount using hhit
  have hle : (admitted c e).card ≤ (Finset.Icc 1 opts.max).card := by
    refine Finset.card_le_card_of_injOn count (fun i hi => (hcount i hi).2) ?_
    intro i hi j hj heq
    have hi' := (hcount i hi).1
    rw [heq] at hi'
    exact h.unique hi' (hcount j hj).1
  simpa using hle

theorem bounded_of (hc : Reached opts c) (h : Counted c) : Bounded opts c := by
  refine ⟨fun i live ht => ?_, admitted_le hc h⟩
  obtain ⟨e, n, hn⟩ := ((hc.result ht).2 rfl).1
  refine ⟨e, Finset.mem_filter.mpr ⟨?_, admits_iff.mpr ⟨⟨live, ht⟩, n, hn⟩⟩⟩
  exact Finset.mem_range.mpr (List.getElem?_eq_some_iff.mp ht).1

/-- Without the key, a request that is answered is admitted. -/
theorem admitted_of_absent (hmax : 1 ≤ opts.max) {s : Redis} (hkey : s.key = none) :
    ((sharedRateLimitPreHandler opts).runAlone (fun q s => q.exec .answered s) s).1 = .ok () := by
  obtain ⟨now, key, epoch⟩ := s
  obtain rfl : key = none := hkey
  have hcount : ∃ s', (Prog.tryCatch (countHit opts) fun _ =>
      throw RateError.rateLimitUnavailable).runAlone (fun q s => q.exec .answered s)
        ⟨now, none, epoch⟩ = (.ok 1, s') := ⟨_, rfl⟩
  obtain ⟨s', hs'⟩ := hcount
  rw [sharedRateLimitPreHandler, Prog.runAlone_bind, hs']
  dsimp only
  rw [checkCount, if_neg (Nat.not_lt.mpr hmax), Prog.runAlone_pure]

/-- The key is gone after a silence of the length of the window. -/
theorem Windowed.absent_after (h : Windowed opts c) (hq : c.quiescent = true) {ms : ℕ}
    (hms : opts.windowMs ≤ ms) : (c.store.elapse ms).key = none := by
  rcases hkey : c.store.key with _ | ⟨count, _ | e⟩
  · simp [Redis.elapse, Redis.expire, hkey]
  · obtain ⟨i, hnext, -⟩ := h.creator hkey rfl
    rw [Config.next_of_quiescent hq i] at hnext
    cases hnext
  · have he := h.expiry hkey rfl
    have hgone : e ≤ c.store.now + ms := by omega
    simp [Redis.elapse, Redis.expire, hkey, hgone]

theorem letsGo_of (hmax : 1 ≤ opts.max) (h : Windowed opts c) : LetsGo opts c := by
  refine ⟨fun k hk => ?_, fun hq ms hms => admitted_of_absent hmax (h.absent_after hq hms)⟩
  cases he : k.expiresAt with
  | some e => exact Or.inl ⟨e, rfl, h.expiry hk he⟩
  | none =>
    obtain ⟨i, hnext, hhit⟩ := h.creator hk he
    exact Or.inr ⟨i, by rw [hnext]; exact nofun, hhit⟩

end Runs

/-- In every run each epoch admits `max` requests at most, and in a run in which nothing comes
between the creator's two commands every key lets go. -/
theorem rate_limit_lets_go (opts : SharedRateLimitOptions) (hmax : 1 ≤ opts.max) :
    (∀ as, Bounded opts (fresh.exec (instances opts) as)) ∧
      ∀ as, Config.Along (instances opts) (Uninterrupted opts) fresh as →
        LetsGo opts (fresh.exec (instances opts) as) :=
  ⟨fun as => bounded_of (reached_exec as).1 (reached_exec as).2,
    fun _ has => letsGo_of hmax (windowed_exec has)⟩

/-- The shared rate limit of the auth tier. -/
def authRateLimit : SharedRateLimitOptions := ⟨10, 60000⟩

theorem auth_rate_limit_lets_go :
    (∀ as, Bounded authRateLimit (fresh.exec (instances authRateLimit) as)) ∧
      ∀ as, Config.Along (instances authRateLimit) (Uninterrupted authRateLimit) fresh as →
        LetsGo authRateLimit (fresh.exec (instances authRateLimit) as) :=
  rate_limit_lets_go authRateLimit (by decide)

/-- The first request's `PEXPIRE` fails, and nine more are admitted. -/
def failedExpiry : List (Action Fate Arrival) :=
  [.start .request, .run 0 .answered, .run 0 .failed] ++
    (List.range 9).flatMap (fun i => [.start .request, .run (i + 1) .answered])

/-- After a failed `PEXPIRE` the key has no expiry and no creator, and a day of silence does
not let the client in again. -/
theorem locked_out : ¬ ∀ as, Bounded authRateLimit (fresh.exec (instances authRateLimit) as) ∧
    LetsGo authRateLimit (fresh.exec (instances authRateLimit) as) := by
  intro h
  have hlets := (h failedExpiry).2.admitsAgain (by decide) 86400000 (by decide)
  revert hlets
  decide

end Sails.RateLimit
